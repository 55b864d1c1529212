import Mathlib
import PlantGrowth.Proofs.Scalar.Exact
import PlantGrowth.Scalar.Double

/-!
# Rounding to doubles

What is left of a real number when it is rounded to the mantissa and the exponent of a double: its
sign, and on which side of each magnitude that fits into them it lies (`RoundsTo`). This needs no bound
of the error, and holds for numbers of every size, the subnormal ones included. A number that fits is
not changed (`RoundsTo.eq_of_fits`).

A mantissa with its residual bits stands for a number between two neighbouring integers
(`Represents`); shifting it to the right keeps this, and rounding it takes one of the two. The mantissa
of the result fits into a double (`IsCanonical`).
-/

set_option autoImplicit false

namespace PlantGrowth.Double

open Float.Model Float.Model.UnpackedFloat

/-! ## Numbers and their values -/

/-- A magnitude with a sign. -/
def signed : Sign → ℝ → ℝ
  | .negative, x => -x
  | .positive, x => x

/-- The value of a number that is neither infinite nor undefined. -/
noncomputable def valueOf : UnpackedFloat → Option ℝ
  | .zero _ => some 0
  | .finite s m e _ => some (signed s (m * (2 : ℕ) ^ e))
  | .infinity _ => none
  | .notANumber => none

/-- The value of a finite number. -/
theorem valueOf_finite (s : Sign) {m : Nat} (e : ℤ) (hm : 0 < m) :
    valueOf (.finite s m e hm) = some (signed s (m * 2 ^ e)) := by
  rw [valueOf, Nat.cast_ofNat]

/-- A number that has a value is a zero or a mantissa with an exponent. -/
theorem eq_of_valueOf_eq_some {u : UnpackedFloat} {r : ℝ} (h : valueOf u = some r) :
    (∃ s, u = .zero s ∧ r = 0) ∨
      ∃ s m e, ∃ hm : 0 < m, u = .finite s m e hm ∧ r = signed s (m * 2 ^ e) := by
  cases u with
  | infinity s => cases h
  | notANumber => cases h
  | zero s =>
    cases h
    exact .inl ⟨s, rfl, rfl⟩
  | finite s m e hm =>
    rw [valueOf_finite] at h
    cases h
    exact .inr ⟨s, m, e, hm, rfl, rfl⟩

/-- Only infinities and what is not a number have no value. -/
theorem eq_of_valueOf_eq_none {u : UnpackedFloat} (h : valueOf u = none) :
    (∃ s, u = .infinity s) ∨ u = .notANumber := by
  cases u with
  | infinity s => exact .inl ⟨s, rfl⟩
  | notANumber => exact .inr rfl
  | zero s => cases h
  | finite s m e hm => cases h

/-- A sign does not change the magnitude. -/
theorem abs_signed (s : Sign) (x : ℝ) : |signed s x| = |x| := by
  cases s with
  | positive => rfl
  | negative => exact abs_neg x

/-- The magnitude of a finite number is its mantissa, scaled. -/
theorem abs_signed_mul_zpow (s : Sign) (m : Nat) (e : ℤ) : |signed s (m * 2 ^ e)| = m * 2 ^ e := by
  rw [abs_signed]
  exact abs_of_nonneg (mul_nonneg (Nat.cast_nonneg m) (zpow_pos two_pos e).le)

/-- The mantissa has at most 53 bits, and it has all of them unless the exponent is the least one. -/
def IsCanonical : UnpackedFloat → Prop
  | .finite _ m e _ => m < 2 ^ 53 ∧ -1074 ≤ e ∧ (2 ^ 52 ≤ m ∨ e = -1074)
  | _ => True

/-- A magnitude with a mantissa of at most 53 bits and an exponent that a double can have. There is no
bound above. -/
inductive Fits (c : ℝ) : Prop
  | intro (m : ℕ) (e : ℤ) (hm : m < 2 ^ 53) (he : -1074 ≤ e) (hc : c = m * 2 ^ e)

/-- Every power of two from the least double on fits. -/
theorem fits_two_zpow {k : ℤ} (hk : -1074 ≤ k) : Fits (2 ^ k) :=
  ⟨1, k, by norm_num, hk, by rw [Nat.cast_one, one_mul]⟩

/-- What rounding keeps of a number: its sign, and its place among the magnitudes that fit. -/
structure RoundsTo (x r : ℝ) : Prop where
  nonneg : 0 ≤ x → 0 ≤ r
  nonpos : x ≤ 0 → r ≤ 0
  abs_le_of_fits : ∀ c, Fits c → |x| ≤ c → |r| ≤ c
  le_abs_of_fits : ∀ c, Fits c → c ≤ |x| → c ≤ |r|

namespace RoundsTo

variable {x r : ℝ}

/-- Rounding does not pass a power of two from below. -/
theorem abs_le (h : RoundsTo x r) (k : ℤ) (hk : -1074 ≤ k) (hx : |x| ≤ 2 ^ k) : |r| ≤ 2 ^ k :=
  h.abs_le_of_fits _ (fits_two_zpow hk) hx

/-- Rounding does not pass a power of two from above. -/
theorem le_abs (h : RoundsTo x r) (k : ℤ) (hk : -1074 ≤ k) (hx : 2 ^ k ≤ |x|) : 2 ^ k ≤ |r| :=
  h.le_abs_of_fits _ (fits_two_zpow hk) hx

/-- A number that fits is not changed by rounding. -/
theorem eq_of_fits (h : RoundsTo x r) (hx : Fits |x|) : r = x := by
  have habs : |r| = |x| :=
    le_antisymm (h.abs_le_of_fits _ hx le_rfl) (h.le_abs_of_fits _ hx le_rfl)
  rcases le_total 0 x with hnonneg | hnonpos
  · rw [abs_of_nonneg hnonneg, abs_of_nonneg (h.nonneg hnonneg)] at habs
    exact habs
  · rw [abs_of_nonpos hnonpos, abs_of_nonpos (h.nonpos hnonpos)] at habs
    exact neg_injective habs

end RoundsTo

/-- The number is what the exact result of an operation is rounded to. -/
def Rounds (x : ℝ) (u : UnpackedFloat) : Prop :=
  IsCanonical u ∧ ∃ r, valueOf u = some r ∧ RoundsTo x r

/-- Every number may be rounded to itself. -/
theorem RoundsTo.refl (x : ℝ) : RoundsTo x x :=
  ⟨fun h => h, fun h => h, fun _ _ h => h, fun _ _ h => h⟩

/-- Zero of either sign rounds zero. -/
theorem rounds_zero (s : Sign) : Rounds 0 (.zero s) := ⟨trivial, 0, rfl, .refl 0⟩

/-- Rounding commutes with signs. -/
theorem RoundsTo.signed {x r : ℝ} (h : RoundsTo x r) (s : Sign) :
    RoundsTo (signed s x) (signed s r) := by
  cases s with
  | positive => exact h
  | negative =>
    refine ⟨?_, ?_, ?_, ?_⟩
    · intro hx
      exact neg_nonneg.2 (h.nonpos (neg_nonneg.1 hx))
    · intro hx
      exact neg_nonpos.2 (h.nonneg (neg_nonpos.1 hx))
    · intro c hc hx
      rw [abs_signed] at hx ⊢
      exact h.abs_le_of_fits c hc hx
    · intro c hc hx
      rw [abs_signed] at hx ⊢
      exact h.le_abs_of_fits c hc hx

/-! ## Mantissas -/

/-- The least integer that is not below what a mantissa with its residual bits stands for. -/
def ceiling (em : ExtendedMantissa) : Nat := em.mantissa + (em.roundBit || em.stickyBit).toNat

/-- A mantissa with its residual bits stands for a number between two neighbouring integers. -/
structure Represents (em : ExtendedMantissa) (x : ℝ) : Prop where
  mantissa_eq : em.mantissa = ⌊x⌋₊
  ceiling_eq : ceiling em = ⌈x⌉₊

/-- An exact mantissa represents itself. -/
theorem represents_exact (m : Nat) : Represents (.ofMantissaAndAccuracy m .exact) m :=
  ⟨(Nat.floor_natCast m).symm, (Nat.ceil_natCast m).symm⟩

/-- A mantissa shifted by one bit represents one half of the number. -/
theorem Represents.shiftRightOne {em : ExtendedMantissa} {x : ℝ} (h : Represents em x) :
    Represents em.shiftRightOne (x / 2) := by
  obtain ⟨hmantissa, hceiling⟩ := h
  constructor
  · rw [ExtendedMantissa.shiftRightOne, hmantissa]
    exact (Nat.floor_div_ofNat x 2).symm
  · have hhalf : ⌈x / 2⌉₊ = (⌈x⌉₊ + 1) / 2 := by
      refine eq_of_forall_ge_iff fun c => ?_
      have hdouble : x / 2 ≤ c ↔ x ≤ (2 * c : ℕ) := by
        push_cast
        constructor <;> intro hc <;> linarith
      rw [Nat.ceil_le, hdouble, ← Nat.ceil_le]
      omega
    rw [hhalf, ← hceiling]
    obtain ⟨m, round, sticky⟩ := em
    rcases Nat.mod_two_eq_zero_or_one m with hm | hm <;> cases round <;> cases sticky <;>
      simp [ceiling, ExtendedMantissa.shiftRightOne, hm] <;> omega

/-- A mantissa shifted by some bits represents the number without these bits. -/
theorem Represents.shiftRight {em : ExtendedMantissa} {x : ℝ} (h : Represents em x) (n : Nat) :
    Represents (em >>> n) (x / 2 ^ n) := by
  induction n with
  | zero =>
    rw [pow_zero, div_one]
    exact h
  | succ n ih =>
    rw [pow_succ, ← div_div]
    exact ih.shiftRightOne

/-- Rounding takes one of the two neighbouring integers. -/
theorem Represents.roundedMantissa {em : ExtendedMantissa} {x : ℝ} (h : Represents em x) :
    ⌊x⌋₊ ≤ em.roundedMantissa ∧ em.roundedMantissa ≤ ⌈x⌉₊ := by
  rw [← h.mantissa_eq, ← h.ceiling_eq]
  obtain ⟨m, round, sticky⟩ := em
  cases round <;> cases sticky <;>
    simp [ceiling, ExtendedMantissa.roundedMantissa, ExtendedMantissa.accuracy,
      Accuracy.roundToNearestEven]
  omega

/-- A greater exponent outweighs the mantissas. -/
theorem mul_zpow_lt_mul_zpow {m n : Nat} {d e : ℤ} (hm : m < 2 ^ 53) (hd : -1074 ≤ d)
    (hn : 2 ^ 52 ≤ n ∨ e = -1074) (hde : d < e) : (m : ℝ) * 2 ^ d < n * 2 ^ e := by
  have hn : 2 ^ 52 ≤ n := hn.resolve_right (by omega)
  have hscale (k : ℤ) : (0 : ℝ) < 2 ^ k := zpow_pos two_pos k
  calc (m : ℝ) * 2 ^ d < 2 ^ (53 : ℕ) * 2 ^ d :=
        mul_lt_mul_of_pos_right (by exact_mod_cast hm) (hscale d)
    _ = 2 ^ (52 : ℕ) * 2 ^ (d + 1) := by rw [zpow_add_one₀ two_ne_zero]; ring
    _ ≤ n * 2 ^ (d + 1) := mul_le_mul_of_nonneg_right (by exact_mod_cast hn) (hscale _).le
    _ ≤ n * 2 ^ e :=
        mul_le_mul_of_nonneg_left (zpow_le_zpow_right₀ one_le_two (by omega)) (Nat.cast_nonneg n)

/-- Rounding to an integer keeps the sign and the place among the magnitudes that fit, where the
integer part has all bits of a mantissa or the exponent is the least one. -/
theorem roundsTo_of_between {y : ℝ} (hy : 0 ≤ y) {m : Nat} (hfloor : ⌊y⌋₊ ≤ m) (hceil : m ≤ ⌈y⌉₊)
    {e : ℤ} (hfull : 2 ^ 52 ≤ ⌊y⌋₊ ∨ e = -1074) : RoundsTo (y * 2 ^ e) (m * 2 ^ e) := by
  have hscale : (0 : ℝ) < 2 ^ e := zpow_pos two_pos e
  have hm : (0 : ℝ) ≤ m * 2 ^ e := mul_nonneg (Nat.cast_nonneg m) hscale.le
  -- From the exponent on, what fits is an integer on the scale of the mantissa.
  have hinteger (n : ℕ) {k : ℤ} (hk : e ≤ k) :
      (n : ℝ) * 2 ^ k = (n * 2 ^ (k - e).toNat : ℕ) * 2 ^ e := by
    push_cast
    rw [mul_assoc, ← zpow_natCast, ← zpow_add₀ two_ne_zero]
    congr 2
    omega
  refine ⟨fun _ => hm, ?_, ?_, ?_⟩
  · intro hx
    have hzero : y ≤ 0 := nonpos_of_mul_nonpos_left hx hscale
    rw [Nat.ceil_eq_zero.2 hzero, Nat.le_zero] at hceil
    rw [hceil, Nat.cast_zero, zero_mul]
  · rintro c ⟨n, k, hn, hk, rfl⟩ hx
    rw [abs_of_nonneg (mul_nonneg hy hscale.le)] at hx
    rw [abs_of_nonneg hm]
    by_cases hek : e ≤ k
    · rw [hinteger n hek] at hx ⊢
      have hle := le_of_mul_le_mul_right hx hscale
      exact mul_le_mul_of_nonneg_right (Nat.cast_le.2 (hceil.trans (Nat.ceil_le.2 hle))) hscale.le
    · have hbelow := mul_zpow_lt_mul_zpow hn hk hfull (not_le.1 hek)
      have habove : (⌊y⌋₊ : ℝ) * 2 ^ e ≤ y * 2 ^ e :=
        mul_le_mul_of_nonneg_right (Nat.floor_le hy) hscale.le
      exact absurd (habove.trans hx) (not_le.2 hbelow)
  · rintro c ⟨n, k, hn, hk, rfl⟩ hx
    rw [abs_of_nonneg (mul_nonneg hy hscale.le)] at hx
    rw [abs_of_nonneg hm]
    by_cases hek : e ≤ k
    · rw [hinteger n hek] at hx ⊢
      have hle := le_of_mul_le_mul_right hx hscale
      exact mul_le_mul_of_nonneg_right (Nat.cast_le.2 ((Nat.le_floor hle).trans hfloor)) hscale.le
    · exact (mul_zpow_lt_mul_zpow hn hk (hfull.imp_left hfloor.trans') (not_le.1 hek)).le

/-! ## Rounding to the format -/

/-- The exponent that a number is rounded at leaves fifty-three bits, but is never below the least
one. -/
theorem targetExponent_eq (m : Nat) (e : ℤ) :
    Format.binary64.targetExponent (totalExponent m e) = max (m.log2 + e - 52) (-1074) := by
  simp only [Format.targetExponent, totalExponent, Format.mantissaBits, Format.minExponent]
  norm_num
  omega

/-- A mantissa that fits is not shifted. -/
theorem shiftToTargetExponent_of_lt {m : Nat} {e : ℤ} (hm : m < 2 ^ 53) (he : -1074 ≤ e) :
    shiftToTargetExponent Format.binary64 m e .exact = (.ofMantissaAndAccuracy m .exact, e) := by
  have hlog : m.log2 < 53 := by
    rcases Nat.eq_zero_or_pos m with rfl | hpos
    · simp
    · exact (Nat.log2_lt hpos.ne').2 hm
  have hshift : (Format.binary64.targetExponent (totalExponent m e) - e).toNat = 0 := by
    rw [targetExponent_eq]
    omega
  rw [shiftToTargetExponent, shiftToExponent, hshift, Nat.cast_zero, add_zero]
  rfl

/-- A mantissa that rounding made one bit too long loses the bit. -/
theorem shiftToTargetExponent_two_pow {e : ℤ} (he : -1074 ≤ e) :
    shiftToTargetExponent Format.binary64 (2 ^ 53) e .exact =
      (.ofMantissaAndAccuracy (2 ^ 52) .exact, e + 1) := by
  have hshift : (Format.binary64.targetExponent (totalExponent (2 ^ 53) e) - e).toNat = 1 := by
    rw [targetExponent_eq, Nat.log2_two_pow]
    omega
  rw [shiftToTargetExponent, shiftToExponent, hshift]
  rfl

/-- The first shift leaves at most 53 bits before the point, and it leaves 53 of them unless the
exponent becomes the least one. -/
theorem shift_bits {m : Nat} {e : ℤ} (hbits : 52 ≤ m.log2 ∨ e ≤ -1074) :
    let n := (Format.binary64.targetExponent (totalExponent m e) - e).toNat
    m / 2 ^ n < 2 ^ 53 ∧ -1074 ≤ e + n ∧ (2 ^ 52 ≤ m / 2 ^ n ∨ e + n = -1074) := by
  intro n
  have hn : e + n = max (m.log2 + e - 52) (-1074) := by
    have hshift : n = (max (m.log2 + e - 52) (-1074) - e).toNat := by
      rw [← targetExponent_eq]
    omega
  refine ⟨?_, by omega, ?_⟩
  · rw [Nat.div_lt_iff_lt_mul (Nat.two_pow_pos n), ← pow_add]
    calc m < 2 ^ (m.log2 + 1) := Nat.lt_log2_self
      _ ≤ 2 ^ (53 + n) := Nat.pow_le_pow_right two_pos (by omega)
  · by_cases hleast : e + n = -1074
    · exact .inr hleast
    · have hlog : m.log2 = 52 + n := by omega
      have hm : m ≠ 0 := by
        rintro rfl
        rw [Nat.log2_zero] at hlog
        omega
      refine .inl ?_
      rw [Nat.le_div_iff_mul_le (Nat.two_pow_pos n), ← pow_add, ← hlog]
      exact Nat.log2_self_le hm

/-- The integer part of what a shifted mantissa stands for. -/
theorem Represents.floor_div {m : Nat} {accuracy : Accuracy} {x : ℝ}
    (hm : Represents (.ofMantissaAndAccuracy m accuracy) x) (n : ℕ) : ⌊x / 2 ^ n⌋₊ = m / 2 ^ n := by
  have hmantissa : (ExtendedMantissa.ofMantissaAndAccuracy m accuracy).mantissa = m := by
    cases accuracy with
    | exact => rfl
    | inexact o => cases o <;> rfl
  have hpow : ((2 ^ n : ℕ) : ℝ) = 2 ^ n := by push_cast; rfl
  rw [← hpow, Nat.floor_div_natCast, ← hm.mantissa_eq, hmantissa]

/-- The rounding of a mantissa that is long enough is canonical. Its value is the rounded mantissa on
the scale of the shifted exponent, also where rounding made the mantissa one bit too long. -/
theorem valueOf_roundWithAccuracy (s : Sign) {m : Nat} {e : ℤ} {accuracy : Accuracy} {x : ℝ}
    (hm : Represents (.ofMantissaAndAccuracy m accuracy) x) (hbits : 52 ≤ m.log2 ∨ e ≤ -1074) {n : ℕ}
    (hn : (Format.binary64.targetExponent (totalExponent m e) - e).toNat = n) :
    IsCanonical (roundWithAccuracy Format.binary64 s m e accuracy) ∧
      valueOf (roundWithAccuracy Format.binary64 s m e accuracy) =
        some (signed s ((ExtendedMantissa.ofMantissaAndAccuracy m accuracy >>> n).roundedMantissa *
          2 ^ (e + n))) := by
  obtain ⟨hlt, hleast, hfull⟩ := shift_bits hbits
  rw [hn] at hlt hleast hfull
  let em := ExtendedMantissa.ofMantissaAndAccuracy m accuracy >>> n
  obtain ⟨hlow, hhigh⟩ := (hm.shiftRight n).roundedMantissa
  have hfloor := hm.floor_div n
  change ⌊x / 2 ^ n⌋₊ ≤ em.roundedMantissa at hlow
  have hle : em.roundedMantissa ≤ 2 ^ 53 := by
    have hceil := Nat.ceil_le_floor_add_one (x / 2 ^ n)
    change em.roundedMantissa ≤ _ at hhigh
    omega
  have hfirst : shiftToTargetExponent Format.binary64 m e accuracy = (em, e + n) := by
    rw [shiftToTargetExponent, shiftToExponent, hn]
  change IsCanonical _ ∧ valueOf _ = some (signed s (em.roundedMantissa * 2 ^ (e + n)))
  rw [roundWithAccuracy, hfirst]
  dsimp only
  rcases hle.lt_or_eq with hfits | hcarry
  · rw [shiftToTargetExponent_of_lt hfits hleast]
    dsimp only
    split
    · next hzero =>
      have hzero : em.roundedMantissa = 0 := hzero
      rw [hzero, Nat.cast_zero, zero_mul]
      refine ⟨trivial, ?_⟩
      cases s <;> simp [valueOf, signed]
    · refine ⟨⟨hfits, hleast, hfull.imp_left ?_⟩, valueOf_finite s _ _⟩
      exact fun hfull => (hfloor ▸ hfull).trans hlow
  · rw [hcarry, shiftToTargetExponent_two_pow hleast]
    refine ⟨⟨?_, ?_, .inl le_rfl⟩, (valueOf_finite s _ _).trans ?_⟩
    · exact Nat.pow_lt_pow_right one_lt_two (by norm_num)
    · omega
    · have hsame : (((2 ^ 52 : ℕ) : ℝ) * 2 ^ (e + n + 1)) = ((2 ^ 53 : ℕ) : ℝ) * 2 ^ (e + n) := by
        rw [zpow_add₀ two_ne_zero (e + n) 1]
        push_cast
        ring
      exact congrArg (fun magnitude => some (signed s magnitude)) hsame

/-- The rounding of a mantissa that is long enough rounds the number that it stands for. -/
theorem rounds_roundWithAccuracy (s : Sign) {m : Nat} {e : ℤ} {accuracy : Accuracy} {x : ℝ}
    (hx : 0 ≤ x) (hm : Represents (.ofMantissaAndAccuracy m accuracy) x)
    (hbits : 52 ≤ m.log2 ∨ e ≤ -1074) :
    Rounds (signed s (x * 2 ^ e)) (roundWithAccuracy Format.binary64 s m e accuracy) := by
  obtain ⟨n, hn⟩ : ∃ n, (Format.binary64.targetExponent (totalExponent m e) - e).toNat = n :=
    ⟨_, rfl⟩
  obtain ⟨hcanonical, hvalue⟩ := valueOf_roundWithAccuracy s hm hbits hn
  obtain ⟨hlow, hhigh⟩ := (hm.shiftRight n).roundedMantissa
  obtain ⟨-, -, hfull⟩ := shift_bits hbits
  rw [hn, ← hm.floor_div] at hfull
  have hscaled : x / 2 ^ n * 2 ^ (e + n) = x * 2 ^ e := by
    rw [zpow_add₀ two_ne_zero, zpow_natCast]
    field_simp
  have hrounds := (roundsTo_of_between (by positivity) hlow hhigh hfull).signed s
  rw [hscaled] at hrounds
  exact ⟨hcanonical, _, hvalue, hrounds⟩

end PlantGrowth.Double
