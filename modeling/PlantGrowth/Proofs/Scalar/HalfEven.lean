import PlantGrowth.Proofs.Scalar.Rounding
import PlantGrowth.Scalar.Quotient

/-!
# The nearest integer

An integer that is nearest to a number, and the even one of two that are equally near to it
(`IsHalfEven`). A larger number has no smaller nearest integer (`IsHalfEven.mono`), so there is one
nearest integer only. The rounding of rational numbers takes it (`isHalfEven_roundHalfEven`), and so does
the rounding of a mantissa that was shifted (`Represents.isHalfEven`): the last bit that was shifted out
and whether anything was lost before tell on which side of the middle the number lies.
-/

set_option autoImplicit false

namespace PlantGrowth.Double

open Float.Model Float.Model.UnpackedFloat

/-- The integer is nearest to the number, and even if another one is as near. -/
structure IsHalfEven (x : ℝ) (n : ℤ) : Prop where
  abs_sub_le : |x - n| ≤ 1 / 2
  even : |x - n| = 1 / 2 → Even n

namespace IsHalfEven

variable {x y : ℝ} {m n : ℤ}

/-- Rounding to integers keeps the order. -/
theorem mono (hm : IsHalfEven x m) (hn : IsHalfEven y n) (hxy : x ≤ y) : m ≤ n := by
  by_contra hlt
  have hstep : n + 1 ≤ m := by omega
  have hstep' : (n : ℝ) + 1 ≤ m := by exact_mod_cast hstep
  have hlow := abs_le.1 hm.abs_sub_le
  have hhigh := abs_le.1 hn.abs_sub_le
  -- Both numbers lie in the middle between the integers, of which only one is even.
  have hx : x - m = -(1 / 2) := by linarith
  have hy : y - n = 1 / 2 := by linarith
  have hnext : m = n + 1 := by
    have hnext : (m : ℝ) = n + 1 := by linarith
    exact_mod_cast hnext
  have hmeven : Even m := hm.even (by rw [hx, abs_neg]; exact abs_of_pos one_half_pos)
  have hneven : Even n := hn.even (by rw [hy]; exact abs_of_pos one_half_pos)
  rw [hnext, Int.even_add_one] at hmeven
  exact hmeven hneven

/-- Rounding to integers commutes with negation. -/
theorem neg (h : IsHalfEven x n) : IsHalfEven (-x) (-n) := by
  have hdistance : |-x - ((-n : ℤ) : ℝ)| = |x - n| := by
    rw [Int.cast_neg, ← neg_sub', abs_neg]
  refine ⟨?_, ?_⟩
  · rw [hdistance]
    exact h.abs_sub_le
  · rw [hdistance]
    exact fun htie => (h.even htie).neg

/-- An integer is rounded to itself. -/
theorem intCast (n : ℤ) : IsHalfEven n n := by
  refine ⟨?_, ?_⟩
  · rw [sub_self, abs_zero]
    exact one_half_pos.le
  · rw [sub_self, abs_zero]
    intro htie
    norm_num at htie

/-- No number is rounded below an integer that it has reached. -/
theorem le_of_intCast_le (h : IsHalfEven x n) (hm : m ≤ x) : m ≤ n := (intCast m).mono h hm

/-- No number is rounded above an integer that it has not passed. -/
theorem le_of_le_intCast (h : IsHalfEven x n) (hm : x ≤ m) : n ≤ m := h.mono (intCast m) hm

/-- An integer that is nearer than one half. -/
theorem of_abs_sub_lt (h : |x - n| < 1 / 2) : IsHalfEven x n := ⟨h.le, fun htie => absurd htie h.ne⟩

end IsHalfEven

/-- Rational numbers are rounded to the nearest integer. -/
theorem isHalfEven_roundHalfEven (q : ℚ) : IsHalfEven q (Quotient.roundHalfEven q) := by
  have hfloor : (q.floor : ℝ) ≤ q := by exact_mod_cast q.floor_le
  have hlt : (q : ℝ) < q.floor + 1 := by exact_mod_cast q.lt_floor_add_one
  have hpart : ((q - q.floor : ℚ) : ℝ) = q - q.floor := by push_cast; rfl
  have hhalf : ((1 / 2 : ℚ) : ℝ) = 1 / 2 := by norm_num
  rw [Quotient.roundHalfEven]
  split
  · next hbelow =>
    have hbelow : (q : ℝ) - q.floor < 1 / 2 := by rw [← hpart, ← hhalf]; exact_mod_cast hbelow
    refine .of_abs_sub_lt (abs_lt.2 ⟨?_, hbelow⟩)
    linarith
  · next hbelow =>
    split
    · next habove =>
      have habove : 1 / 2 < (q : ℝ) - q.floor := by rw [← hpart, ← hhalf]; exact_mod_cast habove
      refine .of_abs_sub_lt (abs_lt.2 ?_)
      push_cast
      constructor <;> linarith
    · next habove =>
      have hmiddle : q - q.floor = 1 / 2 := le_antisymm (not_lt.1 habove) (not_lt.1 hbelow)
      have hmiddle : (q : ℝ) - q.floor = 1 / 2 := by rw [← hpart, ← hhalf, hmiddle]
      split
      · next heven =>
        refine ⟨?_, fun _ => Int.even_iff.2 heven⟩
        rw [hmiddle]
        exact (abs_of_pos one_half_pos).le
      · next hodd =>
        refine ⟨?_, fun _ => ?_⟩
        · rw [abs_le]
          push_cast
          constructor <;> linarith
        · rw [Int.even_add_one, Int.even_iff]
          exact hodd

/-- The two residual bits of a mantissa say how far the number is above it: by one half or not, and by
something less than that or not. -/
theorem isHalfEven_roundedMantissa {k : ℕ} {round sticky : Bool} {y : ℝ}
    (hexact : sticky = false → y = k + (round.toNat : ℝ) / 2)
    (hinexact : sticky = true →
      k + (round.toNat : ℝ) / 2 < y ∧ y < k + (round.toNat : ℝ) / 2 + 1 / 2) :
    IsHalfEven y (ExtendedMantissa.mk k round sticky).roundedMantissa := by
  cases sticky with
  | false =>
    have hy := hexact rfl
    cases round with
    | false =>
      have hinteger : y = (k : ℤ) := by simpa using hy
      rw [hinteger]
      exact .intCast k
    | true =>
      have hround : (ExtendedMantissa.mk k true false).roundedMantissa = k + k % 2 := rfl
      have hmiddle : y = k + 1 / 2 := by simpa using hy
      rw [hround, hmiddle]
      rcases Nat.mod_two_eq_zero_or_one k with hparity | hparity
      · rw [hparity]
        refine ⟨by norm_num, fun _ => ?_⟩
        exact_mod_cast Nat.even_iff.2 hparity
      · rw [hparity]
        refine ⟨by norm_num, fun _ => ?_⟩
        exact_mod_cast Nat.even_iff.2 (by omega)
  | true =>
    obtain ⟨hlow, hhigh⟩ := hinexact rfl
    cases round with
    | false =>
      have hround : (ExtendedMantissa.mk k false true).roundedMantissa = k := rfl
      rw [Bool.toNat_false, Nat.cast_zero] at hlow hhigh
      rw [hround]
      refine .of_abs_sub_lt (abs_lt.2 ?_)
      push_cast
      constructor <;> linarith
    | true =>
      have hround : (ExtendedMantissa.mk k true true).roundedMantissa = k + 1 := rfl
      rw [Bool.toNat_true, Nat.cast_one] at hlow hhigh
      rw [hround]
      refine .of_abs_sub_lt (abs_lt.2 ?_)
      push_cast
      constructor <;> linarith

/-- A mantissa that was shifted at least once is rounded to the nearest integer. -/
theorem Represents.isHalfEven {em : ExtendedMantissa} {y : ℝ} (h : Represents em (2 * y))
    (hy : 0 ≤ y) : IsHalfEven y em.shiftRightOne.roundedMantissa := by
  have hnonneg : 0 ≤ 2 * y := mul_nonneg zero_le_two hy
  obtain ⟨m, round, sticky⟩ := em
  obtain ⟨hmantissa, hceiling⟩ := h
  have hmantissa : m = ⌊2 * y⌋₊ := hmantissa
  have hceiling : m + (round || sticky).toNat = ⌈2 * y⌉₊ := hceiling
  have hlow : (m : ℝ) ≤ 2 * y := hmantissa ▸ Nat.floor_le hnonneg
  have hhigh : 2 * y < m + 1 := hmantissa ▸ Nat.lt_floor_add_one (2 * y)
  have hhalves : ((m / 2 : ℕ) : ℝ) + ((m % 2 != 0).toNat : ℝ) / 2 = m / 2 := by
    have hbit : (m % 2 != 0).toNat = m % 2 := by
      rcases Nat.mod_two_eq_zero_or_one m with hparity | hparity <;> rw [hparity] <;> rfl
    have hdivision : (m : ℝ) = 2 * (m / 2 : ℕ) + (m % 2 : ℕ) := by
      exact_mod_cast (Nat.div_add_mod m 2).symm
    rw [hbit]
    linarith
  refine isHalfEven_roundedMantissa ?_ ?_
  · intro hlost
    rw [hlost, Bool.toNat_false, Nat.add_zero] at hceiling
    have hexact : 2 * y ≤ m := Nat.ceil_le.1 hceiling.ge
    rw [hhalves]
    linarith
  · intro hlost
    rw [hlost, Bool.toNat_true] at hceiling
    have hinexact : (m : ℝ) < 2 * y := Nat.lt_ceil.1 (by omega)
    rw [hhalves]
    constructor <;> linarith

end PlantGrowth.Double
