import PlantGrowth.Proofs.Scalar.HalfEven

/-!
# The nearest double

At the size of a number doubles are the multiples of a power of two, and a number is rounded to the
nearest multiple, the even one of two (`IsNearest`). There is no bound above here. Sharper than
`RoundsTo`, this says which of its two neighbours a number is rounded to; so a larger number is not
rounded to a smaller one (`IsNearest.mono`).

The rounding of an exact mantissa takes the nearest double (`nearestTo_roundWithAccuracy`).
-/

set_option autoImplicit false

namespace PlantGrowth.Double

open Float.Model Float.Model.UnpackedFloat

/-! ## Signs -/

namespace RoundsTo

variable {x r c : ℝ}

/-- No number is rounded above a double that it has not passed. -/
theorem le_of_fits (h : RoundsTo x r) (hc : Fits |c|) (hx : x ≤ c) : r ≤ c := by
  rcases le_total 0 x with hnonneg | hnonpos
  · have hle : |x| ≤ |c| := abs_le_abs_of_nonneg hnonneg hx
    rw [← abs_of_nonneg (hnonneg.trans hx)]
    exact (le_abs_self r).trans (h.abs_le_of_fits _ hc hle)
  · rcases le_total 0 c with hc0 | hc0
    · exact (h.nonpos hnonpos).trans hc0
    · have hle : |c| ≤ |x| := abs_le_abs_of_nonpos hc0 hx
      have habs := h.le_abs_of_fits _ hc hle
      rw [abs_of_nonpos hc0, abs_of_nonpos (h.nonpos hnonpos)] at habs
      exact neg_le_neg_iff.1 habs

/-- No number is rounded below a double that it has reached. -/
theorem ge_of_fits (h : RoundsTo x r) (hc : Fits |c|) (hx : c ≤ x) : c ≤ r := by
  have hneg : RoundsTo (-x) (-r) := h.signed .negative
  exact neg_le_neg_iff.1 (hneg.le_of_fits ((abs_neg c).symm ▸ hc) (neg_le_neg hx))

end RoundsTo

/-! ## Rounding to the nearest -/

/-- The binary logarithm of a number between two neighbouring powers of two. -/
theorem log_eq_of_zpow_le {x : ℝ} {k : ℤ} (hlow : 2 ^ k ≤ x) (hhigh : x < 2 ^ (k + 1)) :
    Int.log 2 x = k := by
  have hx : 0 < x := (zpow_pos two_pos k).trans_le hlow
  have hge : k ≤ Int.log 2 x := (Int.zpow_le_iff_le_log one_lt_two hx).1 (by exact_mod_cast hlow)
  have hlt : Int.log 2 x < k + 1 := (Int.lt_zpow_iff_log_lt one_lt_two hx).1 (by exact_mod_cast hhigh)
  omega

/-- The exponent of the last bit of a double of the size of a number. -/
noncomputable def gridExponent (x : ℝ) : ℤ := max (Int.log 2 |x| - 52) (-1074)

/-- A number and its negation have one spacing. -/
theorem gridExponent_neg (x : ℝ) : gridExponent (-x) = gridExponent x := by
  rw [gridExponent, gridExponent, abs_neg]

/-- A number above zero has fewer than `2 ^ 53` steps of its spacing. -/
theorem lt_two_pow_mul {x : ℝ} (hx : 0 < x) : x < 2 ^ (53 : ℕ) * 2 ^ gridExponent x := by
  calc x < 2 ^ (Int.log 2 x + 1) := by exact_mod_cast Int.lt_zpow_succ_log_self one_lt_two x
    _ ≤ 2 ^ (53 + gridExponent x) := by
      refine zpow_le_zpow_right₀ one_le_two ?_
      rw [gridExponent, abs_of_pos hx]
      omega
    _ = 2 ^ (53 : ℕ) * 2 ^ gridExponent x := by
      rw [zpow_add₀ two_ne_zero]
      rfl

/-- A number has all bits unless its last bit is the least one. -/
theorem two_pow_mul_le {x : ℝ} (hx : 0 < x) (hleast : gridExponent x ≠ -1074) :
    2 ^ (52 : ℕ) * 2 ^ gridExponent x ≤ x := by
  have hlog : 52 + gridExponent x = Int.log 2 x := by
    rw [gridExponent, abs_of_pos hx] at hleast ⊢
    omega
  calc (2 : ℝ) ^ (52 : ℕ) * 2 ^ gridExponent x = 2 ^ (52 + gridExponent x) := by
        rw [zpow_add₀ two_ne_zero]
        rfl
    _ = 2 ^ Int.log 2 x := by rw [hlog]
    _ ≤ x := by exact_mod_cast Int.zpow_log_le_self one_lt_two hx

/-- The multiples of the last bit that a number lies between are where rounding may take it. -/
theorem roundsTo_of_steps {x : ℝ} (hx : 0 < x) {m : ℕ} (hfloor : ⌊x / 2 ^ gridExponent x⌋₊ ≤ m)
    (hceil : m ≤ ⌈x / 2 ^ gridExponent x⌉₊) : RoundsTo x (m * 2 ^ gridExponent x) := by
  obtain ⟨e, he⟩ : ∃ e, gridExponent x = e := ⟨_, rfl⟩
  rw [he] at hfloor hceil ⊢
  have hscale : (0 : ℝ) < 2 ^ e := zpow_pos two_pos e
  have hfull : 2 ^ 52 ≤ ⌊x / 2 ^ e⌋₊ ∨ e = -1074 := by
    by_cases hleast : e = -1074
    · exact .inr hleast
    · have hlow := two_pow_mul_le hx (he ▸ hleast)
      rw [he] at hlow
      refine .inl (Nat.le_floor ?_)
      rw [le_div_iff₀ hscale]
      exact_mod_cast hlow
  have hrounds := roundsTo_of_between (div_pos hx hscale).le hfloor hceil hfull
  rwa [div_mul_cancel₀ x hscale.ne'] at hrounds

/-- The multiple of the last bit that is nearest to a number, and the even one of two. -/
inductive IsNearest (x r : ℝ) : Prop
  | intro (n : ℤ) (hn : IsHalfEven (x / 2 ^ gridExponent x) n) (hr : r = n * 2 ^ gridExponent x)

namespace IsNearest

variable {x y r s : ℝ}

/-- Rounding to the nearest double commutes with negation. -/
theorem neg (h : IsNearest x r) : IsNearest (-x) (-r) := by
  obtain ⟨n, hn, rfl⟩ := h
  refine ⟨-n, ?_, ?_⟩
  · rw [gridExponent_neg, neg_div]
    exact hn.neg
  · rw [gridExponent_neg, Int.cast_neg, neg_mul]

/-- Rounding to the nearest double commutes with signs. -/
theorem signed (h : IsNearest x r) (sign : Sign) : IsNearest (signed sign x) (signed sign r) := by
  cases sign with
  | positive => exact h
  | negative => exact h.neg

/-- Zero is rounded to itself. -/
theorem zero : IsNearest 0 0 := by
  refine ⟨0, ?_, ?_⟩
  · rw [zero_div]
    exact_mod_cast IsHalfEven.intCast 0
  · rw [Int.cast_zero, zero_mul]

/-- The nearest double of a number above zero keeps its place among the powers of two. -/
theorem roundsTo_of_pos (h : IsNearest x r) (hx : 0 < x) : RoundsTo x r := by
  obtain ⟨n, hn, rfl⟩ := h
  have hy : 0 ≤ x / 2 ^ gridExponent x := (div_pos hx (zpow_pos two_pos _)).le
  have hpos : 0 ≤ n := hn.le_of_intCast_le (by exact_mod_cast hy)
  obtain ⟨m, rfl⟩ := Int.eq_ofNat_of_zero_le hpos
  have hfloor : ⌊x / 2 ^ gridExponent x⌋₊ ≤ m := by
    have hfloor := hn.le_of_intCast_le (m := ⌊x / 2 ^ gridExponent x⌋₊)
      (by exact_mod_cast Nat.floor_le hy)
    exact_mod_cast hfloor
  have hceil : m ≤ ⌈x / 2 ^ gridExponent x⌉₊ := by
    have hceil := hn.le_of_le_intCast (m := ⌈x / 2 ^ gridExponent x⌉₊)
      (by exact_mod_cast Nat.le_ceil _)
    exact_mod_cast hceil
  exact_mod_cast roundsTo_of_steps hx hfloor hceil

/-- The nearest double of a number keeps its place among the powers of two. -/
theorem roundsTo (h : IsNearest x r) : RoundsTo x r := by
  rcases lt_trichotomy x 0 with hx | rfl | hx
  · have hrounds := (h.neg.roundsTo_of_pos (neg_pos.2 hx)).signed .negative
    simpa only [Double.signed, neg_neg] using hrounds
  · obtain ⟨n, hn, rfl⟩ := h
    rw [zero_div] at hn
    have hzero : n = 0 := le_antisymm (hn.le_of_le_intCast (by simp)) (hn.le_of_intCast_le (by simp))
    rw [hzero, Int.cast_zero, zero_mul]
    exact .refl 0
  · exact h.roundsTo_of_pos hx

/-- Between numbers of one spacing, rounding to the nearest double keeps the order. -/
theorem mono_of_gridExponent_eq (hr : IsNearest x r) (hs : IsNearest y s)
    (hgrid : gridExponent x = gridExponent y) (hxy : x ≤ y) : r ≤ s := by
  obtain ⟨m, hm, rfl⟩ := hr
  obtain ⟨n, hn, rfl⟩ := hs
  rw [hgrid] at hm ⊢
  have hscale : (0 : ℝ) < 2 ^ gridExponent y := zpow_pos two_pos _
  have hle := hm.mono hn (div_le_div_of_nonneg_right hxy hscale.le)
  exact mul_le_mul_of_nonneg_right (Int.cast_le.2 hle) hscale.le

/-- Between numbers above zero, rounding to the nearest double keeps the order. -/
theorem mono_of_pos (hr : IsNearest x r) (hs : IsNearest y s) (hx : 0 < x) (hxy : x ≤ y) :
    r ≤ s := by
  by_cases hgrid : gridExponent x = gridExponent y
  · exact hr.mono_of_gridExponent_eq hs hgrid hxy
  · -- A power of two lies between the numbers.
    have hy : 0 < y := hx.trans_le hxy
    have hlog : Int.log 2 x ≤ Int.log 2 y := Int.log_mono_right hx hxy
    rw [gridExponent, gridExponent, abs_of_pos hx, abs_of_pos hy] at hgrid
    obtain ⟨k, hk⟩ : ∃ k, Int.log 2 y = k := ⟨_, rfl⟩
    have hfits : Fits |(2 : ℝ) ^ k| := by
      rw [abs_of_pos (zpow_pos two_pos k)]
      exact fits_two_zpow (by omega)
    have hbelow : x ≤ 2 ^ k := by
      calc x ≤ 2 ^ (Int.log 2 x + 1) := by
            exact_mod_cast (Int.lt_zpow_succ_log_self one_lt_two x).le
        _ ≤ 2 ^ k := zpow_le_zpow_right₀ one_le_two (by omega)
    have habove : (2 : ℝ) ^ k ≤ y := by
      rw [← hk]
      exact_mod_cast Int.zpow_log_le_self one_lt_two hy
    exact (hr.roundsTo.le_of_fits hfits hbelow).trans (hs.roundsTo.ge_of_fits hfits habove)

/-- A larger number is not rounded to a smaller one. -/
theorem mono (hr : IsNearest x r) (hs : IsNearest y s) (hxy : x ≤ y) : r ≤ s := by
  rcases lt_or_ge 0 x with hx | hx
  · exact hr.mono_of_pos hs hx hxy
  · rcases lt_or_ge y 0 with hy | hy
    · exact neg_le_neg_iff.1 (hs.neg.mono_of_pos hr.neg (neg_pos.2 hy) (neg_le_neg hxy))
    · exact (hr.roundsTo.nonpos hx).trans (hs.roundsTo.nonneg hy)

/-- A number is at most half a spacing away from its nearest double. -/
theorem abs_sub_le (h : IsNearest x r) : |x - r| ≤ 2 ^ gridExponent x / 2 := by
  obtain ⟨n, hn, rfl⟩ := h
  have hscale : (0 : ℝ) < 2 ^ gridExponent x := zpow_pos two_pos _
  have hsteps : x - n * 2 ^ gridExponent x =
      (x / 2 ^ gridExponent x - n) * 2 ^ gridExponent x := by
    rw [sub_mul, div_mul_cancel₀ x hscale.ne']
  rw [hsteps, abs_mul, abs_of_pos hscale]
  calc |x / 2 ^ gridExponent x - n| * 2 ^ gridExponent x ≤ 1 / 2 * 2 ^ gridExponent x :=
        mul_le_mul_of_nonneg_right hn.abs_sub_le hscale.le
    _ = 2 ^ gridExponent x / 2 := by ring

/-- Every double is a multiple of the least positive one. -/
theorem exists_eq_mul (h : IsNearest x r) : ∃ n : ℤ, r = n * 2 ^ (-1074 : ℤ) := by
  obtain ⟨n, -, rfl⟩ := h
  have hleast : -1074 ≤ gridExponent x := le_max_right _ _
  refine ⟨n * 2 ^ (gridExponent x + 1074).toNat, ?_⟩
  push_cast
  rw [mul_assoc, ← zpow_natCast, ← zpow_add₀ two_ne_zero]
  congr 2
  omega

/-- A number below the middle between two neighbouring doubles is not rounded to the upper one. -/
theorem le_of_lt_middle (h : IsNearest x r) {n e : ℤ} (hlow : 2 ^ 52 ≤ n) (hhigh : n < 2 ^ 53)
    (he : -1074 ≤ e) (hx : x < (n + 1 / 2) * 2 ^ e) : r ≤ n * 2 ^ e := by
  have hscale : (0 : ℝ) < 2 ^ e := zpow_pos two_pos e
  have hlow' : (2 : ℝ) ^ (52 : ℕ) ≤ n := by exact_mod_cast hlow
  have hhigh' : (n : ℝ) + 1 ≤ 2 ^ (53 : ℕ) := by exact_mod_cast hhigh
  have hpos : (0 : ℝ) ≤ n := (by positivity : (0 : ℝ) ≤ 2 ^ (52 : ℕ)).trans hlow'
  by_cases hle : x ≤ n * 2 ^ e
  · have hfits : Fits |(n : ℝ) * 2 ^ e| := by
      rw [abs_of_nonneg (mul_nonneg hpos hscale.le)]
      refine ⟨n.toNat, e, by omega, he, ?_⟩
      rw [← Int.cast_natCast, Int.toNat_of_nonneg (by omega)]
    exact h.roundsTo.le_of_fits hfits hle
  · -- Above the lower one the last bit is the one of the middle.
    have hgrid : gridExponent x = e := by
      have hlower : (2 : ℝ) ^ (52 + e) ≤ x := by
        calc (2 : ℝ) ^ (52 + e) = 2 ^ (52 : ℕ) * 2 ^ e := by rw [zpow_add₀ two_ne_zero]; rfl
          _ ≤ n * 2 ^ e := mul_le_mul_of_nonneg_right hlow' hscale.le
          _ ≤ x := (not_le.1 hle).le
      have hupper : x < 2 ^ (52 + e + 1) := by
        calc x < (n + 1 / 2) * 2 ^ e := hx
          _ ≤ 2 ^ (53 : ℕ) * 2 ^ e := mul_le_mul_of_nonneg_right (by linarith) hscale.le
          _ = 2 ^ (52 + e + 1) := by
            rw [← zpow_natCast, ← zpow_add₀ two_ne_zero]
            congr 1
            push_cast
            ring
      rw [gridExponent, abs_of_pos ((zpow_pos two_pos _).trans_le hlower),
        log_eq_of_zpow_le hlower hupper]
      omega
    obtain ⟨m, hm, rfl⟩ := h
    rw [hgrid] at hm ⊢
    have hsteps : x / 2 ^ e < n + 1 / 2 := (div_lt_iff₀ hscale).2 hx
    have hnear := abs_le.1 hm.abs_sub_le
    have hlt : (m : ℝ) < n + 1 := by linarith
    have hle : m ≤ n := by
      have hlt : m < n + 1 := by exact_mod_cast hlt
      omega
    exact mul_le_mul_of_nonneg_right (Int.cast_le.2 hle) hscale.le

/-- Where the last bit is at most one, no integer is passed. -/
theorem le_intCast (h : IsNearest x r) (hgrid : gridExponent x ≤ 0) {c : ℤ} (hx : x ≤ c) : r ≤ c := by
  obtain ⟨n, hn, rfl⟩ := h
  have hscale : (0 : ℝ) < 2 ^ gridExponent x := zpow_pos two_pos _
  have hsteps : (c : ℝ) = (c * 2 ^ (-gridExponent x).toNat : ℤ) * 2 ^ gridExponent x := by
    push_cast
    rw [mul_assoc, ← zpow_natCast, ← zpow_add₀ two_ne_zero, Int.toNat_of_nonneg (by omega),
      neg_add_cancel, zpow_zero, mul_one]
  rw [hsteps] at hx ⊢
  have hle := hn.le_of_le_intCast ((div_le_iff₀ hscale).2 hx)
  exact mul_le_mul_of_nonneg_right (Int.cast_le.2 hle) hscale.le

end IsNearest

/-- The spacing of a number below a power of two is at least fifty-three bits finer, unless it is
the least one. -/
theorem gridExponent_le {x : ℝ} {k : ℤ} (hk : 0 < k) (hx : |x| < 2 ^ k) :
    gridExponent x ≤ max (k - 53) (-1074) := by
  have hlog : Int.log 2 |x| < k := by
    rcases eq_or_ne x 0 with rfl | hne
    · rw [abs_zero, Int.log_zero_right]
      exact hk
    · exact (Int.lt_zpow_iff_log_lt one_lt_two (abs_pos.2 hne)).1 (by exact_mod_cast hx)
  rw [gridExponent]
  omega

/-! ## Rounding of mantissas -/

/-- To shift a mantissa to the right is to round its quotient to the nearest integer. -/
theorem isHalfEven_shiftRight (m n : ℕ) :
    IsHalfEven (m / 2 ^ n) (ExtendedMantissa.ofMantissaAndAccuracy m .exact >>> n).roundedMantissa := by
  cases n with
  | zero =>
    rw [pow_zero, div_one]
    exact .intCast m
  | succ n =>
    have hdouble : (m : ℝ) / 2 ^ n = 2 * (m / 2 ^ (n + 1)) := by
      rw [pow_succ]
      ring
    have hrepresents := (represents_exact m).shiftRight n
    rw [hdouble] at hrepresents
    exact hrepresents.isHalfEven (by positivity)

/-- The shift of a mantissa to the exponent of its last bit rounds it to the nearest double. -/
theorem isNearest_shiftRight {m : ℕ} (hm : 0 < m) {e : ℤ} {n : ℕ}
    (hn : e + n = max (m.log2 + e - 52) (-1074)) :
    IsNearest (m * 2 ^ e)
      ((ExtendedMantissa.ofMantissaAndAccuracy m .exact >>> n).roundedMantissa * 2 ^ (e + n)) := by
  have hscale (k : ℤ) : (0 : ℝ) < 2 ^ k := zpow_pos two_pos k
  have hpos : (0 : ℝ) < m * 2 ^ e := mul_pos (Nat.cast_pos.2 hm) (hscale e)
  have hlog : Int.log 2 ((m : ℝ) * 2 ^ e) = m.log2 + e := by
    refine log_eq_of_zpow_le ?_ ?_
    · rw [zpow_add₀ two_ne_zero, zpow_natCast]
      exact mul_le_mul_of_nonneg_right (by exact_mod_cast Nat.log2_self_le hm.ne') (hscale e).le
    · rw [add_right_comm, zpow_add₀ two_ne_zero, ← Nat.cast_succ, zpow_natCast]
      exact mul_lt_mul_of_pos_right (by exact_mod_cast Nat.lt_log2_self) (hscale e)
  have hgrid : gridExponent (m * 2 ^ e) = e + n := by
    rw [gridExponent, abs_of_pos hpos, hlog, hn]
  refine ⟨(ExtendedMantissa.ofMantissaAndAccuracy m .exact >>> n).roundedMantissa, ?_, ?_⟩
  · have hshifted : (m : ℝ) * 2 ^ e / 2 ^ (e + n) = m / 2 ^ n := by
      rw [zpow_add₀ two_ne_zero, zpow_natCast]
      have := (hscale e).ne'
      field_simp
    rw [hgrid, hshifted]
    exact isHalfEven_shiftRight m n
  · rw [hgrid, Int.cast_natCast]

/-- The number is the double nearest to the exact result of an operation. -/
def NearestTo (x : ℝ) (u : UnpackedFloat) : Prop :=
  IsCanonical u ∧ ∃ r, valueOf u = some r ∧ IsNearest x r

/-- What is nearest to a number rounds it. -/
theorem NearestTo.rounds {x : ℝ} {u : UnpackedFloat} (h : NearestTo x u) : Rounds x u := by
  obtain ⟨hu, r, hr, hnearest⟩ := h
  exact ⟨hu, r, hr, hnearest.roundsTo⟩

/-- Zero of either sign is nearest to zero. -/
theorem nearestTo_zero (s : Sign) : NearestTo 0 (.zero s) := ⟨trivial, 0, rfl, .zero⟩

/-- An exact mantissa with enough bits, or at the least exponent, is rounded to the nearest
double. -/
theorem nearestTo_roundWithAccuracy (s : Sign) {m : Nat} (hm : 0 < m) {e : ℤ}
    (hbits : 52 ≤ m.log2 ∨ e ≤ -1074) :
    NearestTo (signed s (m * 2 ^ e)) (roundWithAccuracy Format.binary64 s m e .exact) := by
  obtain ⟨n, hn⟩ : ∃ n, (Format.binary64.targetExponent (totalExponent m e) - e).toNat = n :=
    ⟨_, rfl⟩
  obtain ⟨hcanonical, hvalue⟩ := valueOf_roundWithAccuracy s (represents_exact m) hbits hn
  rw [targetExponent_eq] at hn
  exact ⟨hcanonical, _, hvalue, (isNearest_shiftRight hm (by omega)).signed s⟩

end PlantGrowth.Double
