import PlantGrowth.Proofs.Scalar.Arithmetic
import PlantGrowth.Draw.Mulberry

/-!
# Magnitudes of doubles

Bounds of doubles by powers of two (`Within`), which sums and products carry on. An operation that has
a value was given values (`exists_values_of_add`, `exists_values_of_mul`), so a sum of squares that is
finite is a sum of finite squares. A result that fits is exact (`IsRounding.value_eq`), as natural
numbers of at most 53 bits are (`value_ofNat`) and words of 32 bits over `2 ^ 32` (`value_fraction`).
-/

set_option autoImplicit false

namespace PlantGrowth.Double

open Float.Model Float.Model.UnpackedFloat

/-! ## Results of operations -/

/-- The double is what a number is rounded to, or infinite if that is too large. -/
def IsRounding (x : ℝ) (y : Float) : Prop := ∃ u, Rounds x u ∧ y.toModel = Float.Model.pack u

variable {x : ℝ} {y : Float}

/-- The rounding of a number that is not too large has a value. -/
theorem IsRounding.exists_value (h : IsRounding x y) {k : ℤ} (hleast : -1074 ≤ k) (hk : k < 1024)
    (hx : |x| ≤ 2 ^ k) : ∃ r, value? y = some r ∧ RoundsTo x r := by
  obtain ⟨u, ⟨hu, r, hr, hrounds⟩, hy⟩ := h
  have hlt : |r| < 2 ^ (1024 : ℤ) :=
    (hrounds.abs_le k hleast hx).trans_lt (zpow_lt_zpow_right₀ one_lt_two hk)
  refine ⟨r, ?_, hrounds⟩
  rw [value?, hy, valueOf_unpack_pack hu hr, if_pos hlt]

/-- The value of a rounding is what the number is rounded to, and it is below the bound of
doubles. -/
theorem IsRounding.of_value (h : IsRounding x y) {r : ℝ} (hr : value? y = some r) :
    RoundsTo x r ∧ |r| < 2 ^ (1024 : ℤ) := by
  obtain ⟨u, ⟨hu, q, hq, hrounds⟩, hy⟩ := h
  rw [value?, hy, valueOf_unpack_pack hu hq] at hr
  split at hr
  · next hlt =>
    cases hr
    exact ⟨hrounds, hlt⟩
  · cases hr

/-- A mantissa on the scale of an exponent that a double can have is not changed by rounding. -/
theorem IsRounding.value_eq (h : IsRounding x y) {m : Nat} {e : ℤ} (hx : x = m * 2 ^ e)
    (hm : m < 2 ^ 53) (hleast : -1074 ≤ e) (hfits : e ≤ 971) : value? y = some x := by
  obtain ⟨u, ⟨hu, r, hr, hrounds⟩, hy⟩ := h
  have hscale : (0 : ℝ) < 2 ^ e := zpow_pos two_pos e
  have habs : |x| = m * 2 ^ e := by
    rw [hx]
    exact abs_of_nonneg (mul_nonneg (Nat.cast_nonneg m) hscale.le)
  have hlt : |x| < 2 ^ (1024 : ℤ) := by
    calc |x| = m * 2 ^ e := habs
      _ < 2 ^ (53 : ℕ) * 2 ^ e := mul_lt_mul_of_pos_right (by exact_mod_cast hm) hscale
      _ = 2 ^ (53 + e) := by rw [zpow_add₀ two_ne_zero]; rfl
      _ ≤ 2 ^ (1024 : ℤ) := zpow_le_zpow_right₀ one_le_two (by omega)
  rw [hrounds.eq_of_fits ⟨m, e, hm, hleast, habs⟩] at hr
  rw [value?, hy, valueOf_unpack_pack hu hr, if_pos hlt]

variable {a b : Float} {p q : ℝ}

/-- Sums of doubles are rounded. -/
theorem isRounding_add (hp : value? a = some p) (hq : value? b = some q) :
    IsRounding (p + q) (a + b) :=
  ⟨_, rounds_add (isCanonical_unpack _) (isCanonical_unpack _) hp hq, rfl⟩

/-- Products of doubles are rounded. -/
theorem isRounding_mul (hp : value? a = some p) (hq : value? b = some q) :
    IsRounding (p * q) (a * b) :=
  ⟨_, rounds_mul (isCanonical_unpack _) (isCanonical_unpack _) hp hq, rfl⟩

/-- Quotients of doubles are rounded, unless the divisor is zero. -/
theorem isRounding_div (hp : value? a = some p) (hq : value? b = some q) (hne : q ≠ 0) :
    IsRounding (p / q) (a / b) :=
  ⟨_, rounds_div hp hq hne, rfl⟩

/-- Roots of doubles that are not negative are rounded. -/
theorem isRounding_sqrt (hp : value? a = some p) (hnonneg : 0 ≤ p) :
    IsRounding (√p) (Scalar.sqrt a) :=
  ⟨_, rounds_sqrt hp hnonneg, rfl⟩

/-! ## Operands of results that have values -/

/-- A sum with a part that has no value has none. -/
theorem valueOf_add_eq_none {u v : UnpackedFloat} (h : valueOf u = none ∨ valueOf v = none) :
    valueOf (UnpackedFloat.add Format.binary64 u v) = none := by
  have hinfinities (s t : Sign) :
      valueOf (UnpackedFloat.add Format.binary64 (.infinity s) (.infinity t)) = none := by
    rw [UnpackedFloat.add]
    split <;> rfl
  rcases h with h | h
  · rcases eq_of_valueOf_eq_none h with ⟨s, rfl⟩ | rfl
    · cases v with
      | infinity t => exact hinfinities s t
      | notANumber | zero | finite => rfl
    · rfl
  · rcases eq_of_valueOf_eq_none h with ⟨t, rfl⟩ | rfl
    · cases u with
      | infinity s => exact hinfinities s t
      | notANumber | zero | finite => rfl
    · cases u <;> rfl

/-- A product with a factor that has no value has none. -/
theorem valueOf_mul_eq_none {u v : UnpackedFloat} (h : valueOf u = none ∨ valueOf v = none) :
    valueOf (UnpackedFloat.mul Format.binary64 u v) = none := by
  rcases h with h | h
  · rcases eq_of_valueOf_eq_none h with ⟨s, rfl⟩ | rfl
    · cases v <;> rfl
    · rfl
  · rcases eq_of_valueOf_eq_none h with ⟨t, rfl⟩ | rfl <;> cases u <;> rfl

/-- An operation that needs the values of both sides has a value only where both have one. -/
theorem exists_values {r : ℝ} {op : UnpackedFloat → UnpackedFloat → UnpackedFloat}
    (hop : ∀ u v, valueOf u = none ∨ valueOf v = none → valueOf (op u v) = none)
    (hy : y.toModel = Float.Model.pack (op a.toModel.unpack b.toModel.unpack))
    (hr : value? y = some r) : ∃ p q, value? a = some p ∧ value? b = some q := by
  cases hp : value? a with
  | none =>
    rw [value?, hy, valueOf_unpack_pack_eq_none (hop _ _ (.inl hp))] at hr
    cases hr
  | some p =>
    cases hq : value? b with
    | none =>
      rw [value?, hy, valueOf_unpack_pack_eq_none (hop _ _ (.inr hq))] at hr
      cases hr
    | some q => exact ⟨p, q, rfl, rfl⟩

/-- A sum that has a value is a sum of numbers that have values. -/
theorem exists_values_of_add {r : ℝ} (hr : value? (a + b) = some r) :
    ∃ p q, value? a = some p ∧ value? b = some q :=
  exists_values (fun _ _ => valueOf_add_eq_none) rfl hr

/-- A product with a value has factors with values. -/
theorem exists_values_of_mul {r : ℝ} (hr : value? (a * b) = some r) :
    ∃ p q, value? a = some p ∧ value? b = some q :=
  exists_values (fun _ _ => valueOf_mul_eq_none) rfl hr

/-- Every value but zero is at least the least positive double. -/
theorem le_abs_of_value {r : ℝ} (hr : value? y = some r) (hne : r ≠ 0) : 2 ^ (-1074 : ℤ) ≤ |r| := by
  have hcanonical := isCanonical_unpack y.toModel
  rcases eq_of_valueOf_eq_some hr with ⟨s, -, rfl⟩ | ⟨s, m, e, hm, hy, rfl⟩
  · exact absurd rfl hne
  · rw [hy] at hcanonical
    obtain ⟨-, he, -⟩ := hcanonical
    have hscale : (0 : ℝ) < 2 ^ e := zpow_pos two_pos e
    have hone : (1 : ℝ) ≤ m := Nat.one_le_cast.2 hm
    rw [abs_signed_mul_zpow]
    calc (2 : ℝ) ^ (-1074 : ℤ) ≤ 2 ^ e := zpow_le_zpow_right₀ one_le_two he
      _ ≤ m * 2 ^ e := le_mul_of_one_le_left hscale.le hone

/-! ## Tests -/

/-- A double with a value is not infinite. -/
theorem isInfinite_of_value {r : ℝ} (hr : value? y = some r) : Scalar.isInfinite y = false := by
  show y.toModel.unpack.isInf = false
  rcases eq_of_valueOf_eq_some hr with ⟨s, hy, -⟩ | ⟨s, m, e, hm, hy, -⟩ <;> rw [hy] <;> rfl

/-- A finite double has a value. -/
theorem exists_value_of_isFinite (h : Scalar.isFinite y = true) : ∃ r, value? y = some r := by
  have hunpacked : (!y.toModel.unpack.isNaN && !y.toModel.unpack.isInf) = true := h
  cases hr : value? y with
  | some r => exact ⟨r, rfl⟩
  | none =>
    rcases eq_of_valueOf_eq_none hr with ⟨s, hy⟩ | hy <;> rw [hy] at hunpacked <;> cases hunpacked

/-! ## Bounds -/

/-- The double has a value of at most this power of two. -/
inductive Within (k : ℤ) (y : Float) : Prop
  | intro (r : ℝ) (hr : value? y = some r) (hle : |r| ≤ 2 ^ k)

/-- A double within a bound is not infinite. -/
theorem Within.isInfinite {k : ℤ} (h : Within k y) : Scalar.isInfinite y = false := by
  obtain ⟨r, hr, -⟩ := h
  exact isInfinite_of_value hr

/-- A greater bound holds, too. -/
theorem Within.mono {j k : ℤ} (hjk : j ≤ k) (h : Within j y) : Within k y := by
  obtain ⟨r, hr, hle⟩ := h
  exact ⟨r, hr, hle.trans (zpow_le_zpow_right₀ one_le_two hjk)⟩

/-- The rounding of a number that a power of two bounds is within this bound. -/
theorem IsRounding.within (h : IsRounding x y) {k : ℤ} (hleast : -1074 ≤ k) (hk : k < 1024)
    (hx : |x| ≤ 2 ^ k) : Within k y := by
  obtain ⟨r, hr, hrounds⟩ := h.exists_value hleast hk hx
  exact ⟨r, hr, hrounds.abs_le k hleast hx⟩

/-- A sum of two doubles within a bound is within the double of the bound. -/
theorem Within.add {k : ℤ} (ha : Within k a) (hb : Within k b) (hleast : -1074 ≤ k)
    (hk : k < 1023) : Within (k + 1) (a + b) := by
  obtain ⟨p, hp, hple⟩ := ha
  obtain ⟨q, hq, hqle⟩ := hb
  have hle : |p + q| ≤ 2 ^ (k + 1) := by
    calc |p + q| ≤ |p| + |q| := abs_add_le p q
      _ ≤ 2 ^ k + 2 ^ k := add_le_add hple hqle
      _ = 2 ^ (k + 1) := by rw [zpow_add_one₀ two_ne_zero]; ring
  exact (isRounding_add hp hq).within (by omega) (by omega) hle

/-- A product of doubles within bounds is within the product of the bounds. -/
theorem Within.mul {j k : ℤ} (ha : Within j a) (hb : Within k b) (hleast : -1074 ≤ j + k)
    (hk : j + k < 1024) : Within (j + k) (a * b) := by
  obtain ⟨p, hp, hple⟩ := ha
  obtain ⟨q, hq, hqle⟩ := hb
  have hle : |p * q| ≤ 2 ^ (j + k) := by
    rw [abs_mul, zpow_add₀ two_ne_zero]
    exact mul_le_mul hple hqle (abs_nonneg q) (zpow_pos two_pos j).le
  exact (isRounding_mul hp hq).within hleast hk hle

/-! ## Numerals -/

/-- One has its value. -/
theorem value_one : value? 1.0 = some 1 := by
  have hunpack : (1.0 : Float).toModel.unpack = .finite .positive (2 ^ 52) (-52) (by decide) := rfl
  have hvalue : ((2 ^ 52 : ℕ) : ℝ) * 2 ^ (-52 : ℤ) = 1 := by
    norm_num
  rw [value?, hunpack, valueOf_finite, hvalue]
  rfl

/-- A numeral is bounded by the exponent that it is read with. -/
theorem within_of_unpack {s : Sign} {m : Nat} {e : ℤ} {hm : 0 < m}
    (h : y.toModel.unpack = .finite s m e hm) : Within (53 + e) y := by
  have hcanonical := isCanonical_unpack y.toModel
  rw [h] at hcanonical
  have hlt : (m : ℝ) ≤ 2 ^ (53 : ℕ) := by exact_mod_cast hcanonical.1.le
  have hscale : (0 : ℝ) < 2 ^ e := zpow_pos two_pos e
  refine ⟨signed s (m * 2 ^ e), ?_, ?_⟩
  · rw [value?, h, valueOf_finite]
  · rw [abs_signed_mul_zpow, zpow_add₀ two_ne_zero]
    exact mul_le_mul_of_nonneg_right hlt hscale.le

/-- Zero is within every bound. -/
theorem within_zero (k : ℤ) : Within k 0 := by
  refine ⟨0, rfl, ?_⟩
  rw [abs_zero]
  exact (zpow_pos two_pos k).le

/-- Half a turn is within four. -/
theorem within_pi : Within 2 pi := by
  have hunpack : pi.toModel.unpack = .finite .positive 7074237752028440 (-51) (by decide) := rfl
  exact within_of_unpack hunpack

/-- A long numeral is read with 53 bits behind the point. -/
theorem rounds_ofScientific {n : Nat} (hn : 0 < n) :
    Rounds n (UnpackedFloat.ofScientific Format.binary64 n 0) := by
  have hresult : UnpackedFloat.ofScientific Format.binary64 n 0 =
      roundWithAccuracy Format.binary64 .positive (n * 2 ^ 53) (-53) .exact := by
    have hexponent : ¬ (0 : ℤ) < -(2 ^ Format.binary64.exponentBits + n.log2) := by
      show ¬ (0 : ℤ) < -(2 ^ 11 + n.log2)
      omega
    rw [UnpackedFloat.ofScientific, dif_neg hn.ne', if_neg (by decide), if_neg hexponent,
      if_pos le_rfl, UnpackedFloat.mul]
    show roundWithAccuracy Format.binary64 .positive (n <<< 53 * 1) (-53) .exact = _
    rw [Nat.mul_one, Nat.shiftLeft_eq]
  have hvalue : (n : ℝ) = signed .positive ((n * 2 ^ 53 : ℕ) * 2 ^ (-53 : ℤ)) := by
    show (n : ℝ) = (n * 2 ^ 53 : ℕ) * 2 ^ (-53 : ℤ)
    rw [Nat.cast_mul, mul_assoc]
    norm_num
  have hbits : 52 ≤ (n * 2 ^ 53).log2 := by
    have hlog := le_log2_mul_two_pow hn 53
    omega
  rw [hresult, hvalue]
  exact rounds_roundWithAccuracy .positive (Nat.cast_nonneg _) (represents_exact _) (.inl hbits)

/-- A natural number is read as what it is rounded to, whatever its size. -/
theorem isRounding_ofNat (n : Nat) : IsRounding n (Float.ofNat n) := by
  show IsRounding n (Float.ofScientific n false 0)
  rw [Float.ofScientific]
  split
  · next hfast =>
    -- A short numeral is read as a word, and multiplied by one.
    have hword : n.toUInt64.toNat = n := by
      rw [Nat.toUInt64, UInt64.toNat_ofNat_of_lt' (hfast.1.trans (by decide))]
    have hrounding : IsRounding n n.toUInt64.toFloat := by
      refine ⟨_, ?_, rfl⟩
      have hnormalized := (nearestTo_normalize n 0 .positive).rounds
      rw [zpow_zero, mul_one, Int.cast_natCast] at hnormalized
      show Rounds n (UnpackedFloat.normalize Format.binary64 n.toUInt64.toNat 0 .positive)
      rw [hword]
      exact hnormalized
    have hvalue := hrounding.value_eq (e := 0) (by simp) hfast.1 (by norm_num) (by norm_num)
    have hproduct := isRounding_mul hvalue value_one
    rw [mul_one] at hproduct
    exact hproduct
  · next hslow =>
    have hpos : 0 < n := by
      by_contra hzero
      exact hslow ⟨by omega, by norm_num⟩
    exact ⟨_, rounds_ofScientific hpos, rfl⟩

/-- A natural number of at most 53 bits is a double. -/
theorem value_ofNat {n : Nat} (hn : n < 2 ^ 53) : value? (Float.ofNat n) = some (n : ℝ) := by
  have hscale : (n : ℝ) = n * 2 ^ (0 : ℤ) := by rw [zpow_zero, mul_one]
  exact (isRounding_ofNat n).value_eq hscale hn (by norm_num) (by norm_num)

/-- The number of all words has its value. -/
theorem value_two_pow_32 : value? 4294967296.0 = some (2 ^ 32) := by
  have hunpack : (4294967296.0 : Float).toModel.unpack =
    .finite .positive (2 ^ 52) (-20) (by decide) := rfl
  have hscale : ((2 ^ 52 : ℕ) : ℝ) * 2 ^ (-20 : ℤ) = 2 ^ 32 := by
    norm_num
  rw [value?, hunpack, valueOf_finite, hscale]
  rfl

/-- A part of the number of all words is a multiple of a power of two. -/
theorem natCast_div_two_pow_32 (k : Nat) : (k / 2 ^ 32 : ℝ) = k * 2 ^ (-32 : ℤ) := by
  rw [zpow_neg, div_eq_mul_inv]
  rfl

/-- A word of 32 bits over `2 ^ 32` is a double. -/
theorem value_fraction {k : Nat} (hk : k < 2 ^ 32) :
    value? (Float.ofNat k / 4294967296.0) = some (k / 2 ^ 32 : ℝ) := by
  have hquotient := isRounding_div (value_ofNat (hk.trans (by norm_num))) value_two_pow_32 (by norm_num)
  exact hquotient.value_eq (natCast_div_two_pow_32 k) (hk.trans (by norm_num)) (by norm_num)
    (by norm_num)

/-- A word of 32 bits over `2 ^ 32`, times a natural number of at most 21 bits, is a double. -/
theorem value_fraction_mul {k n : Nat} (hk : k < 2 ^ 32) (hn : n ≤ 2 ^ 21) :
    value? (Float.ofNat k / 4294967296.0 * Float.ofNat n) = some ((k * n : ℕ) / 2 ^ 32 : ℝ) := by
  have hnumber := value_ofNat (hn.trans_lt (by norm_num))
  have hproduct := isRounding_mul (value_fraction hk) hnumber
  have hsmall : k * n < 2 ^ 53 := by
    calc k * n ≤ k * 2 ^ 21 := Nat.mul_le_mul_left k hn
      _ < 2 ^ 32 * 2 ^ 21 := Nat.mul_lt_mul_of_pos_right hk (by norm_num)
      _ = 2 ^ 53 := by norm_num
  have hquotient : (k / 2 ^ 32 * n : ℝ) = (k * n : ℕ) / 2 ^ 32 := by
    rw [Nat.cast_mul]
    ring
  rw [hquotient] at hproduct
  exact hproduct.value_eq (natCast_div_two_pow_32 (k * n)) hsmall (by norm_num) (by norm_num)

/-- The draws of a seed are at most one. -/
theorem within_seeded (seed : Int) (n : Nat) :
    ∃ u, Source.seeded seed n = .ok u ∧ Within 0 u := by
  have hk := UInt32.toNat_lt (Mulberry.output (UInt32.ofInt seed) n)
  refine ⟨_, rfl, _, value_fraction hk, ?_⟩
  rw [abs_of_nonneg (by positivity), zpow_zero, div_le_one (by positivity)]
  exact_mod_cast hk.le

end PlantGrowth.Double
