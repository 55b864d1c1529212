import PlantGrowth.Draw.Range
import PlantGrowth.Proofs.Scalar.Extended

/-!
# Interpolation on a range of doubles

The difference of the ends, its product with the part of the way, and the sum are each rounded. Where the
difference is a number, the product and the sum keep the order of the draws and the lower end
(`le_interpolate`, `interpolate_mono`). The upper end is not safe, since the difference may have been
rounded up. But a double below one leaves so much of the difference that the product is not rounded
above the exact difference (`Double.IsNearest.part_le`), so only draws of at least one can pass the upper
end (`interpolate_le_iff`).

A difference that is too large for a double is infinite, and then the start of the way is undefined
(`isNaN_interpolate_iff`).
-/

set_option autoImplicit false

namespace PlantGrowth

open Double

/-! ## Parts of a difference -/

namespace Double.IsNearest

variable {x d part r : ℝ}

/-- A double below one leaves at least the last bit of what is below one. -/
theorem le_of_lt_one (h : IsNearest x x) (hx : x < 1) : x ≤ 1 - 2 ^ (-53 : ℤ) := by
  rcases lt_or_ge x (2 ^ (-1 : ℤ)) with hsmall | hlarge
  · norm_num at hsmall ⊢
    linarith
  · have hpos : 0 < x := (zpow_pos two_pos _).trans_le hlarge
    have hgrid : gridExponent x = -53 := by
      rw [gridExponent, abs_of_pos hpos, log_eq_of_zpow_le hlarge (by norm_num; exact hx)]
      norm_num
    obtain ⟨n, -, hn⟩ := h
    rw [hgrid] at hn
    have hlt : (n : ℝ) < 2 ^ (53 : ℕ) := by
      rw [hn] at hx
      norm_num at hx ⊢
      linarith
    have hle : (n : ℝ) ≤ 2 ^ (53 : ℕ) - 1 := by
      have hlt : n < 2 ^ 53 := by exact_mod_cast hlt
      have hle : n ≤ 2 ^ 53 - 1 := by omega
      exact_mod_cast hle
    rw [hn]
    norm_num at hle ⊢
    linarith

/-- A multiple of the least double that was rounded up lies in the upper half between two neighbouring
doubles that have all bits. -/
theorem exists_lower (hd : IsNearest x d) {k : ℤ} (hk : x = k * 2 ^ (-1074 : ℤ)) (hx : 0 < x)
    (hup : x < d) : ∃ n e : ℤ, 2 ^ 52 ≤ n ∧ n < 2 ^ 53 ∧ -1074 ≤ e ∧ n * 2 ^ e ≤ x ∧
      d = (n + 1 : ℤ) * 2 ^ e := by
  obtain ⟨n, hn, rfl⟩ := hd
  have hleast : -1074 ≤ gridExponent x := le_max_right _ _
  have hlow := two_pow_mul_le hx
  have hhigh := lt_two_pow_mul hx
  obtain ⟨e, he⟩ : ∃ e, gridExponent x = e := ⟨_, rfl⟩
  have hscale : (0 : ℝ) < 2 ^ e := zpow_pos two_pos e
  rw [he] at hn hup hleast hlow hhigh ⊢
  have hlt : x / 2 ^ e < n := (div_lt_iff₀ hscale).2 hup
  have hne : e ≠ -1074 := by
    rintro rfl
    rw [hk, mul_div_cancel_right₀ _ hscale.ne'] at hn hlt
    exact absurd (Int.cast_lt.1 hlt) (not_lt.2 (hn.le_of_le_intCast le_rfl))
  have hlow : (2 : ℝ) ^ (52 : ℕ) ≤ x / 2 ^ e := (le_div_iff₀ hscale).2 (hlow hne)
  have hhigh : x / 2 ^ e < 2 ^ (53 : ℕ) := (div_lt_iff₀ hscale).2 hhigh
  have hnear := abs_le.1 hn.abs_sub_le
  have hmany : 2 ^ 52 < n := by
    have hmany : (2 : ℝ) ^ (52 : ℕ) < n := hlow.trans_lt hlt
    exact_mod_cast hmany
  have hfew : n < 2 ^ 53 + 1 := by
    have hfew : (n : ℝ) < 2 ^ (53 : ℕ) + 1 := by linarith
    exact_mod_cast hfew
  refine ⟨n - 1, e, by omega, by omega, hleast, ?_, by rw [sub_add_cancel]⟩
  rw [← le_div_iff₀ hscale]
  push_cast
  linarith

/-- A part of a difference that leaves at least the last bit is not rounded above it, although the
difference may have been. -/
theorem part_le (hd : IsNearest x d) (hself : IsNearest d d) {k : ℤ} (hk : x = k * 2 ^ (-1074 : ℤ))
    (hx : 0 < x) (hpart : part ≤ 1 - 2 ^ (-53 : ℤ)) (hr : IsNearest (d * part) r) : r ≤ x := by
  rcases le_or_gt d x with hdown | hup
  · have hone : part ≤ 1 := hpart.trans (sub_le_self _ (zpow_pos two_pos _).le)
    exact (hr.mono hself (mul_le_of_le_one_right (hd.roundsTo.nonneg hx.le) hone)).trans hdown
  · obtain ⟨n, e, hlow, hhigh, hleast, hle, rfl⟩ := hd.exists_lower hk hx hup
    have hmiddle : (n + 1 : ℤ) * 2 ^ e * part < (n + 1 / 2) * 2 ^ e := by
      have hmany : (2 : ℝ) ^ (52 : ℕ) + 1 ≤ (n + 1 : ℤ) := by
        have hmany : 2 ^ 52 + 1 ≤ n + 1 := by omega
        exact_mod_cast hmany
      have hless : (n + 1 : ℤ) * part < (n : ℝ) + 1 / 2 := by
        calc ((n + 1 : ℤ) : ℝ) * part ≤ (n + 1 : ℤ) * (1 - 2 ^ (-53 : ℤ)) :=
              mul_le_mul_of_nonneg_left hpart ((by positivity : (0 : ℝ) ≤ 2 ^ 52 + 1).trans hmany)
          _ < n + 1 / 2 := by
            push_cast at hmany ⊢
            norm_num at hmany ⊢
            linarith
      calc (n + 1 : ℤ) * 2 ^ e * part = (n + 1 : ℤ) * part * 2 ^ e := by ring
        _ < (n + 1 / 2) * 2 ^ e := mul_lt_mul_of_pos_right hless (zpow_pos two_pos e)
    exact (hr.le_of_lt_middle hlow hhigh hleast hmiddle).trans hle

end Double.IsNearest

/-! ## The part of the way -/

/-- The part of the way that a draw stands for. -/
def clamped {α : Type} [Scalar α] (draw : α) : α := Scalar.minOf (Scalar.maxOf draw 0) 1

/-- The part of the way that an extended real number stands for. -/
noncomputable def way (a : EReal) : ℝ := (min (max a 0) 1).toReal

section Way

variable {a b : EReal}

/-- The way is the draw, moved into the range from zero to one. -/
theorem coe_way (a : EReal) : (way a : EReal) = min (max a 0) 1 := by
  refine EReal.coe_toReal ?_ ?_
  · exact ((min_le_right _ _).trans_lt (EReal.coe_lt_top 1)).ne
  · exact ((EReal.bot_lt_coe 0).trans_le (le_min (le_max_right _ _) zero_le_one)).ne'

/-- No way is below its start. -/
theorem way_nonneg (a : EReal) : 0 ≤ way a := by
  rw [← EReal.coe_le_coe_iff, coe_way]
  exact le_min (le_max_right _ _) zero_le_one

/-- No way is beyond its end. -/
theorem way_le_one (a : EReal) : way a ≤ 1 := by
  rw [← EReal.coe_le_coe_iff, coe_way]
  exact min_le_right _ _

/-- A greater draw leads no less far. -/
theorem way_mono (h : a ≤ b) : way a ≤ way b := by
  rw [← EReal.coe_le_coe_iff, coe_way, coe_way]
  exact min_le_min_right 1 (max_le_max_right 0 h)

/-- Just the draws that are not above zero stay at the start. -/
theorem way_eq_zero_iff : way a = 0 ↔ a ≤ 0 := by
  rw [← EReal.coe_eq_coe_iff, coe_way, EReal.coe_zero]
  constructor
  · intro h
    by_contra hpos
    have hlt : (0 : EReal) < min (max a 0) 1 := lt_min (lt_max_of_lt_left (not_le.1 hpos)) zero_lt_one
    exact hlt.ne' h
  · intro h
    rw [max_eq_right h, min_eq_left zero_le_one]

/-- Just the draws below one stay before the end. -/
theorem way_lt_one_iff : way a < 1 ↔ a < 1 := by
  rw [← EReal.coe_lt_coe_iff, coe_way, EReal.coe_one, min_lt_iff, max_lt_iff]
  simp

/-- A draw of at least one leads to the end. -/
theorem way_of_one_le (h : 1 ≤ a) : way a = 1 :=
  le_antisymm (way_le_one a) (not_lt.1 fun hlt => not_lt.2 h (way_lt_one_iff.1 hlt))

end Way

/-- Zero is read as zero. -/
theorem extended_zero : extended? (0 : Float) = some 0 := extended_of_value (x := 0) (r := 0) rfl

/-- One is read as one. -/
theorem extended_one : extended? (1 : Float) = some 1 := extended_of_value value_one

/-- A clamped draw is the way that it leads. -/
theorem value_clamped {draw : Float} {a : EReal} (h : extended? draw = some a) :
    value? (clamped draw) = some (way a) := by
  apply value_of_extended
  rw [coe_way]
  exact extended_minOf (extended_maxOf h extended_zero) extended_one

/-- A draw that is not a number stays undefined when it is clamped. -/
theorem extended_clamped_eq_none {draw : Float} (h : extended? draw = none) :
    extended? (clamped draw) = none := by
  rw [clamped, maxOf_of_extended_eq_none h, minOf_of_extended_eq_none h]
  exact h

/-! ## Between two ends -/

section Between

variable {minimum maximum draw : Float} {p q d : ℝ} {a : EReal}
variable (hp : value? minimum = some p) (hq : value? maximum = some q)
include hp hq

/-- Between ends that have values, the interpolation is the lower end if they are equal, and
otherwise the lower end and the part of the difference. -/
theorem interpolate_of_values (draw : Float) : interpolate draw minimum maximum =
    if p = q then minimum else minimum + (maximum - minimum) * clamped draw := by
  rw [interpolate]
  by_cases hpq : p = q
  · rw [if_pos hpq, if_pos ((beq_iff_of_values hp hq).2 hpq)]
  · rw [if_neg hpq, if_neg fun h => hpq ((beq_iff_of_values hp hq).1 h)]
    rfl

/-- The difference between two ends has a value, or it is infinite. -/
theorem value_or_top_of_sub (hpq : p ≤ q) :
    (∃ d, value? (maximum - minimum) = some d ∧ IsNearest (q - p) d ∧ 0 ≤ d) ∨
      extended? (maximum - minimum) = some ⊤ := by
  have hdifference := nearestDouble_sub hq hp
  rcases hdifference.value_or_top (sub_nonneg.2 hpq) with ⟨d, hd, hnearest⟩ | htop
  · exact .inl ⟨d, hd, hnearest, hnearest.roundsTo.nonneg (sub_nonneg.2 hpq)⟩
  · exact .inr htop

/-- Where the difference has a value, interpolation adds the nearest double of a part of it. -/
theorem exists_part (hpq : p < q) (hd : value? (maximum - minimum) = some d) (hnonneg : 0 ≤ d)
    (ha : extended? draw = some a) :
    ∃ r, IsNearest (d * way a) r ∧ NearestDouble (p + r) (interpolate draw minimum maximum) := by
  have hproduct := nearestDouble_mul hd (value_clamped ha)
  obtain ⟨r, hr, hnearest⟩ := hproduct.exists_value hd (mul_nonneg hnonneg (way_nonneg a))
    (mul_le_of_le_one_right hnonneg (way_le_one a))
  refine ⟨r, hnearest, ?_⟩
  rw [interpolate_of_values hp hq, if_neg hpq.ne]
  exact nearestDouble_add hp hr

/-- Where the difference is infinite, the start of the way is undefined and any other point of it
infinite. -/
theorem extended_interpolate_of_top (hpq : p < q) (htop : extended? (maximum - minimum) = some ⊤)
    (ha : extended? draw = some a) :
    extended? (interpolate draw minimum maximum) = if a ≤ 0 then none else some ⊤ := by
  have hproduct := extended_mul_of_top htop (value_clamped ha) (way_nonneg a)
  rw [interpolate_of_values hp hq, if_neg hpq.ne]
  by_cases hnonpos : a ≤ 0
  · rw [if_pos (way_eq_zero_iff.2 hnonpos)] at hproduct
    rw [if_pos hnonpos]
    exact extended_add_eq_none hproduct
  · rw [if_neg fun h => hnonpos (way_eq_zero_iff.1 h)] at hproduct
    rw [if_neg hnonpos]
    exact extended_add_eq_top hp hproduct

/-- On a range of more than one point a draw that is not a number gives none. -/
theorem extended_interpolate_eq_none (hpq : p < q) (h : extended? draw = none) :
    extended? (interpolate draw minimum maximum) = none := by
  rw [interpolate_of_values hp hq, if_neg hpq.ne]
  exact extended_add_eq_none (extended_mul_eq_none (extended_clamped_eq_none h))

/-- An undefined result comes from an undefined draw, or from an infinite difference and a draw that is
not above zero. -/
theorem isNaN_interpolate_iff (hpq : p ≤ q) :
    Scalar.isNaN (interpolate draw minimum maximum) = true ↔ minimum < maximum ∧
      (Scalar.isNaN draw = true ∨ Scalar.isInfinite (maximum - minimum) = true ∧ draw ≤ 0) := by
  have hlt : minimum < maximum ↔ p < q := lt_iff_of_values hp hq
  rcases hpq.eq_or_lt with rfl | hpq
  · rw [interpolate_of_values hp hq, if_pos rfl, isNaN_of_value hp]
    exact iff_of_false nofun fun h => absurd (hlt.1 h.1) (lt_irrefl p)
  · cases ha : extended? draw with
    | none =>
      have hresult := isNaN_iff_extended.2 (extended_interpolate_eq_none hp hq hpq ha)
      exact iff_of_true hresult ⟨hlt.2 hpq, .inl (isNaN_iff_extended.2 ha)⟩
    | some a =>
      rw [isNaN_of_extended ha]
      rcases value_or_top_of_sub hp hq hpq.le with ⟨d, hd, -, hnonneg⟩ | htop
      · obtain ⟨r, -, hsum⟩ := exists_part hp hq hpq hd hnonneg ha
        rw [hsum.isNaN, isInfinite_of_value hd]
        exact iff_of_false nofun fun h => h.2.elim nofun fun h => nomatch h.1
      · rw [isNaN_iff_extended, extended_interpolate_of_top hp hq hpq htop ha,
          isInfinite_of_extended_eq_top htop, le_iff_of_extended ha extended_zero]
        by_cases hnonpos : a ≤ 0
        · rw [if_pos hnonpos]
          exact iff_of_true rfl ⟨hlt.2 hpq, .inr ⟨rfl, hnonpos⟩⟩
        · rw [if_neg hnonpos]
          exact iff_of_false nofun fun h => h.2.elim nofun fun h => hnonpos h.2

/-- The draw of a result that is a number is a number. -/
theorem exists_extended_draw (hpq : p < q)
    (hresult : Scalar.isNaN (interpolate draw minimum maximum) = false) :
    ∃ a, extended? draw = some a := by
  rw [← Option.ne_none_iff_exists']
  intro hnone
  rw [isNaN_iff_extended.2 (extended_interpolate_eq_none hp hq hpq hnone)] at hresult
  cases hresult

/-- Where the difference is infinite, a result that is a number is infinite. -/
theorem interpolate_eq_top (hpq : p < q) (htop : extended? (maximum - minimum) = some ⊤)
    (ha : extended? draw = some a)
    (hresult : Scalar.isNaN (interpolate draw minimum maximum) = false) :
    0 < a ∧ extended? (interpolate draw minimum maximum) = some ⊤ := by
  have hextended := extended_interpolate_of_top hp hq hpq htop ha
  by_cases hnonpos : a ≤ 0
  · rw [if_pos hnonpos, ← isNaN_iff_extended, hresult] at hextended
    cases hextended
  · rw [if_neg hnonpos] at hextended
    exact ⟨not_le.1 hnonpos, hextended⟩

/-- No interpolation that is a number is below the lower end. -/
theorem le_interpolate (hpq : p ≤ q)
    (hresult : Scalar.isNaN (interpolate draw minimum maximum) = false) :
    minimum ≤ interpolate draw minimum maximum := by
  rcases hpq.eq_or_lt with rfl | hpq
  · rw [interpolate_of_values hp hq, if_pos rfl]
    exact (le_iff_of_values hp hp).2 le_rfl
  · obtain ⟨a, ha⟩ := exists_extended_draw hp hq hpq hresult
    rcases value_or_top_of_sub hp hq hpq.le with ⟨d, hd, -, hnonneg⟩ | htop
    · obtain ⟨r, hr, hsum⟩ := exists_part hp hq hpq hd hnonneg ha
      have hr : 0 ≤ r := hr.roundsTo.nonneg (mul_nonneg hnonneg (way_nonneg a))
      exact (nearestDouble_self hp).mono hsum (le_add_of_nonneg_right hr)
    · obtain ⟨-, htop⟩ := interpolate_eq_top hp hq hpq htop ha hresult
      exact (le_iff_of_extended (extended_of_value hp) htop).2 le_top

/-- A larger draw has no smaller result. -/
theorem interpolate_mono {draw' : Float} (hpq : p ≤ q) (hdraw : draw ≤ draw')
    (hresult : Scalar.isNaN (interpolate draw minimum maximum) = false) :
    interpolate draw minimum maximum ≤ interpolate draw' minimum maximum := by
  rcases hpq.eq_or_lt with rfl | hpq
  · rw [interpolate_of_values hp hq, interpolate_of_values hp hq, if_pos rfl, if_pos rfl]
    exact (le_iff_of_values hp hp).2 le_rfl
  · obtain ⟨a, ha⟩ := exists_extended_draw hp hq hpq hresult
    obtain ⟨b, hb⟩ : ∃ b, extended? draw' = some b := by
      rw [← Option.ne_none_iff_exists']
      exact fun hnone => not_le_of_extended_eq_none (.inr hnone) hdraw
    have hab : a ≤ b := (le_iff_of_extended ha hb).1 hdraw
    rcases value_or_top_of_sub hp hq hpq.le with ⟨d, hd, -, hnonneg⟩ | htop
    · obtain ⟨r, hr, hsum⟩ := exists_part hp hq hpq hd hnonneg ha
      obtain ⟨s, hs, hsum'⟩ := exists_part hp hq hpq hd hnonneg hb
      have hrs : r ≤ s := hr.mono hs (mul_le_mul_of_nonneg_left (way_mono hab) hnonneg)
      exact hsum.mono hsum' (add_le_add_right hrs p)
    · obtain ⟨hpos, hleft⟩ := interpolate_eq_top hp hq hpq htop ha hresult
      have hright := extended_interpolate_of_top hp hq hpq htop hb
      rw [if_neg (not_le.2 (hpos.trans_le hab))] at hright
      exact (le_iff_of_extended hleft hright).2 le_rfl

/-- The difference of the ends is a multiple of the least double. -/
theorem exists_sub_eq_mul : ∃ k : ℤ, q - p = k * 2 ^ (-1074 : ℤ) := by
  obtain ⟨m, hm⟩ := (isNearest_self hp).exists_eq_mul
  obtain ⟨n, hn⟩ := (isNearest_self hq).exists_eq_mul
  refine ⟨n - m, ?_⟩
  rw [hm, hn, Int.cast_sub]
  ring

/-- Where the difference has a value, only a draw of at least one can pass the upper end, and it does so
where the rounded difference leads beyond it. -/
theorem interpolate_le_iff_of_value (hpq : p < q) (hd : value? (maximum - minimum) = some d)
    (hnearest : IsNearest (q - p) d) (hnonneg : 0 ≤ d) (ha : extended? draw = some a) :
    interpolate draw minimum maximum ≤ maximum ↔
      draw < 1 ∨ minimum + (maximum - minimum) ≤ maximum := by
  have hself := isNearest_self hd
  have hfar := nearestDouble_add hp hd
  obtain ⟨r, hr, hsum⟩ := exists_part hp hq hpq hd hnonneg ha
  rw [lt_iff_of_extended ha extended_one]
  constructor
  · intro hle
    by_cases hone : a < 1
    · exact .inl hone
    · rw [way_of_one_le (not_lt.1 hone), mul_one] at hr
      have hr : d ≤ r := hself.mono hr le_rfl
      exact .inr (Double.le_trans (hfar.mono hsum (add_le_add_right hr p)) hle)
  · rintro (hone | hle)
    · obtain ⟨k, hk⟩ := exists_sub_eq_mul hp hq
      have hway := (isNearest_self (value_clamped ha)).le_of_lt_one (way_lt_one_iff.2 hone)
      have hr : r ≤ q - p := hnearest.part_le hself hk (sub_pos.2 hpq) hway hr
      exact hsum.mono (nearestDouble_self hq) (by linarith)
    · have hr : r ≤ d := hr.mono hself (mul_le_of_le_one_right hnonneg (way_le_one a))
      exact Double.le_trans (hsum.mono hfar (add_le_add_right hr p)) hle

/-- An interpolation that is a number stays within the upper end exactly if the difference is
finite, and either the draw is below one or the ends add up to no more. -/
theorem interpolate_le_iff (hpq : p ≤ q)
    (hresult : Scalar.isNaN (interpolate draw minimum maximum) = false) :
    interpolate draw minimum maximum ≤ maximum ↔ Scalar.isFinite (maximum - minimum) = true ∧
      (draw < 1 ∨ minimum + (maximum - minimum) ≤ maximum) := by
  rcases hpq.eq_or_lt with rfl | hpq
  · have hzero : value? (0 : Float) = some 0 := rfl
    obtain ⟨d, hd, hnearest⟩ := (nearestDouble_sub hq hp).exists_value hzero
      (sub_nonneg.2 le_rfl) (sub_nonpos.2 le_rfl)
    have hnonpos : d ≤ 0 := hnearest.roundsTo.nonpos (sub_nonpos.2 le_rfl)
    have hfar : minimum + (maximum - minimum) ≤ maximum :=
      (nearestDouble_add hp hd).mono (nearestDouble_self hq) (add_le_of_nonpos_right hnonpos)
    rw [interpolate_of_values hp hq, if_pos rfl]
    exact iff_of_true ((le_iff_of_values hp hq).2 le_rfl) ⟨isFinite_of_value hd, .inr hfar⟩
  · obtain ⟨a, ha⟩ := exists_extended_draw hp hq hpq hresult
    rcases value_or_top_of_sub hp hq hpq.le with ⟨d, hd, hnearest, hnonneg⟩ | htop
    · rw [interpolate_le_iff_of_value hp hq hpq hd hnearest hnonneg ha, isFinite_of_value hd]
      exact (and_iff_right rfl).symm
    · have hinfinite : Scalar.isFinite (maximum - minimum) = false := by
        rw [Scalar.isFinite, isInfinite_of_extended_eq_top htop]
        exact Bool.and_false _
      obtain ⟨-, htop⟩ := interpolate_eq_top hp hq hpq htop ha hresult
      rw [le_iff_of_extended htop (extended_of_value hq), hinfinite]
      exact iff_of_false (not_le.2 (EReal.coe_lt_top q)) fun h => nomatch h.1

end Between

/-- Between finite ends, a draw that is a number is mapped to a number, unless the difference of the ends
is infinite. A result that is a number is not below the lower end, and a larger draw has no smaller
result. It passes the upper end if the difference is infinite, or if the difference was rounded to a
number that leads from the lower end beyond the upper one and the draw is at least one. -/
theorem interpolate_between_finite_ends {minimum maximum : Float}
    (hminimum : Scalar.isFinite minimum = true) (hmaximum : Scalar.isFinite maximum = true)
    (hle : minimum ≤ maximum) :
    (∀ draw, Scalar.isNaN (interpolate draw minimum maximum) = true ↔ minimum < maximum ∧
      (Scalar.isNaN draw = true ∨ Scalar.isInfinite (maximum - minimum) = true ∧ draw ≤ 0)) ∧
    (∀ draw, Scalar.isNaN (interpolate draw minimum maximum) = false →
      minimum ≤ interpolate draw minimum maximum ∧
      (interpolate draw minimum maximum ≤ maximum ↔ Scalar.isFinite (maximum - minimum) = true ∧
        (draw < 1 ∨ minimum + (maximum - minimum) ≤ maximum))) ∧
    ∀ draw draw', draw ≤ draw' → Scalar.isNaN (interpolate draw minimum maximum) = false →
      interpolate draw minimum maximum ≤ interpolate draw' minimum maximum := by
  obtain ⟨p, hp⟩ := exists_value_of_isFinite hminimum
  obtain ⟨q, hq⟩ := exists_value_of_isFinite hmaximum
  have hpq : p ≤ q := (le_iff_of_values hp hq).1 hle
  refine ⟨fun draw => isNaN_interpolate_iff hp hq hpq, fun draw hresult => ?_, ?_⟩
  · exact ⟨le_interpolate hp hq hpq hresult, interpolate_le_iff hp hq hpq hresult⟩
  · exact fun draw draw' hdraw hresult => interpolate_mono hp hq hpq hdraw hresult

/-- Half of the way from minus four to one fifth is between them, and below the end of the way, which is
not. -/
theorem interpolate_between_finite_ends_fifth :
    (-4.0 : Float) ≤ interpolate 0.5 (-4.0) 0.2 ∧ interpolate 0.5 (-4.0) (0.2 : Float) ≤ 0.2 ∧
      interpolate 0.5 (-4.0) (0.2 : Float) ≤ interpolate 1.0 (-4.0) 0.2 ∧
      ¬ interpolate 1.0 (-4.0) (0.2 : Float) ≤ 0.2 := by
  have hlower : Scalar.isFinite (-4.0 : Float) = true := by decide +kernel
  have hupper : Scalar.isFinite (0.2 : Float) = true := by decide +kernel
  obtain ⟨hnan, hrange, hmono⟩ := interpolate_between_finite_ends hlower hupper (by decide +kernel)
  have hhalf : Scalar.isNaN (interpolate 0.5 (-4.0) (0.2 : Float)) = false := by decide +kernel
  have hone : Scalar.isNaN (interpolate 1.0 (-4.0) (0.2 : Float)) = false := by decide +kernel
  refine ⟨(hrange 0.5 hhalf).1, (hrange 0.5 hhalf).2.2 ?_, ?_, ?_⟩
  · exact ⟨by decide +kernel, .inl (by decide +kernel)⟩
  · exact hmono 0.5 1.0 (by decide +kernel) hhalf
  · rw [(hrange 1.0 hone).2]
    decide +kernel

/-- The end of the way from minus four to one fifth is above one fifth. From the least to the greatest
finite number there is no start of the way, and its middle is infinite. -/
theorem interpolate_leaves_range :
    Scalar.isFinite (-4.0 : Float) = true ∧ Scalar.isFinite (0.2 : Float) = true ∧
      (-4.0 : Float) ≤ 0.2 ∧ (0.2 : Float) < interpolate 1.0 (-4.0) 0.2 ∧
      Scalar.isFinite (1.7976931348623157e308 : Float) = true ∧
      Scalar.isNaN (interpolate 0.0 (-1.7976931348623157e308) (1.7976931348623157e308 : Float)) =
        true ∧
      (1.7976931348623157e308 : Float) <
        interpolate 0.5 (-1.7976931348623157e308) 1.7976931348623157e308 := by
  decide +kernel

end PlantGrowth
