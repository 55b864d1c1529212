import PlantGrowth.Proofs.Scalar.Nearest
import PlantGrowth.Proofs.Scalar.Packing

/-!
# The arithmetic of doubles

A sum, a product, a quotient or a square root of doubles that have values is what the exact result is
rounded to (`IsRounding`). So it has a value wherever the exact result is at most `2 ^ 1023`, and this
value keeps the sign of the exact result and its place among the powers of two. A sum, a difference or a
product is the nearest double (`nearestTo_add`, `nearestTo_sub`, `nearestTo_mul`).
-/

set_option autoImplicit false

namespace PlantGrowth.Double

open Float.Model Float.Model.UnpackedFloat

/-! ## Before packing -/

/-- To decrease an exponent does not change the value. -/
theorem decreaseExponent_value (m : Nat) (e t : ℤ) :
    ((decreaseExponent m e t).1 : ℝ) * 2 ^ (decreaseExponent m e t).2 = m * 2 ^ e := by
  have hshift : e = (e - t).toNat + (e - (e - t).toNat) := by omega
  rw [decreaseExponent]
  dsimp only
  conv_rhs => rw [hshift, zpow_add₀ two_ne_zero, zpow_natCast]
  rw [Nat.shiftLeft_eq]
  push_cast
  ring

/-- Bits that are appended lengthen a number by at least as many. -/
theorem le_log2_mul_two_pow {m : Nat} (hm : 0 < m) (n : Nat) : m.log2 + n ≤ (m * 2 ^ n).log2 := by
  have hpos : 0 < m * 2 ^ n := Nat.mul_pos hm (Nat.two_pow_pos n)
  rw [Nat.le_log2 hpos.ne', pow_add]
  exact Nat.mul_le_mul_right _ (Nat.log2_self_le hm.ne')

/-- Rounding a number with a sign gives the nearest double. -/
theorem nearestTo_round (s : Sign) {m : Nat} (hm : 0 < m) (e : ℤ) :
    NearestTo (signed s (m * 2 ^ e)) (UnpackedFloat.round Format.binary64 s m e) := by
  rw [UnpackedFloat.round, targetExponent_eq]
  let d := decreaseExponent m e (max (m.log2 + e - 52) (-1074))
  have hvalue : (d.1 : ℝ) * 2 ^ d.2 = m * 2 ^ e := decreaseExponent_value m e _
  have hbits : 52 ≤ d.1.log2 ∨ d.2 ≤ -1074 := by
    have hlog : m.log2 + (e - max (m.log2 + e - 52) (-1074)).toNat ≤ d.1.log2 := by
      show _ ≤ (m <<< _).log2
      rw [Nat.shiftLeft_eq]
      exact le_log2_mul_two_pow hm _
    have hexponent : d.2 = e - (e - max (m.log2 + e - 52) (-1074)).toNat := rfl
    omega
  have hpos : 0 < d.1 := by
    show 0 < m <<< _
    rw [Nat.shiftLeft_eq]
    exact Nat.mul_pos hm (Nat.two_pow_pos _)
  rw [← hvalue]
  exact nearestTo_roundWithAccuracy s hpos hbits

/-- Rounding an integer of steps gives the nearest double. -/
theorem nearestTo_normalize (m e : ℤ) (s : Sign) :
    NearestTo (m * 2 ^ e) (UnpackedFloat.normalize Format.binary64 m e s) := by
  rw [UnpackedFloat.normalize]
  rcases lt_trichotomy m 0 with hm | rfl | hm
  · have hcompare : compare m 0 = .lt := compare_lt_iff_lt.2 hm
    have hvalue : (m : ℝ) * 2 ^ e = signed .negative ((-m).toNat * 2 ^ e) := by
      have hneg : (((-m).toNat : ℕ) : ℝ) = -m := by
        rw [← Int.cast_natCast, Int.toNat_of_nonneg (by omega), Int.cast_neg]
      rw [signed, hneg, neg_mul, neg_neg]
    rw [hcompare, hvalue]
    exact nearestTo_round .negative (by omega) e
  · rw [Int.cast_zero, zero_mul]
    exact nearestTo_zero s
  · have hcompare : compare m 0 = .gt := compare_gt_iff_gt.2 hm
    have hvalue : (m : ℝ) * 2 ^ e = signed .positive (m.toNat * 2 ^ e) := by
      have hcast : ((m.toNat : ℕ) : ℝ) = m := by
        rw [← Int.cast_natCast, Int.toNat_of_nonneg (by omega)]
      rw [signed, hcast]
    rw [hcompare, hvalue]
    exact nearestTo_round .positive (by omega) e

/-- A sign goes before a product as before its first factor. -/
theorem signed_mul (s : Sign) (x y : ℝ) : signed s x * y = signed s (x * y) := by
  cases s <;> simp [signed]

/-- A number keeps its value when its exponent is lowered. -/
theorem signed_decreaseExponent (s : Sign) (m : Nat) {e t : ℤ} (ht : t ≤ e) :
    ((s.apply (decreaseExponent m e t).1 : ℤ) : ℝ) * 2 ^ t = signed s (m * 2 ^ e) := by
  have hexponent : (decreaseExponent m e t).2 = t := by
    show e - (e - t).toNat = t
    omega
  have hvalue := decreaseExponent_value m e t
  rw [hexponent] at hvalue
  rw [← hvalue, ← signed_mul]
  cases s <;> simp [Sign.apply, signed]

variable {a b : UnpackedFloat} {p q : ℝ}

/-- A canonical number is the double nearest to its own value. -/
theorem nearestTo_self (ha : IsCanonical a) (hp : valueOf a = some p) : NearestTo p a := by
  refine ⟨ha, p, hp, ?_⟩
  rcases eq_of_valueOf_eq_some hp with ⟨s, rfl, rfl⟩ | ⟨s, m, e, hm, rfl, rfl⟩
  · exact .zero
  · obtain ⟨hlt, hleast, hfull⟩ := ha
    have hlog : m.log2 < 53 := (Nat.log2_lt hm.ne').2 hlt
    have hexponent : e + (0 : ℕ) = max (m.log2 + e - 52) (-1074) := by
      rcases hfull with hfull | hfull
      · have hlog' : 52 ≤ m.log2 := (Nat.le_log2 hm.ne').2 hfull
        omega
      · omega
    have hnearest := (isNearest_shiftRight hm hexponent).signed s
    rw [Nat.cast_zero, add_zero] at hnearest
    exact hnearest

/-- The sum of two doubles is nearest to the sum of their values. -/
theorem nearestTo_add (ha : IsCanonical a) (hb : IsCanonical b) (hp : valueOf a = some p)
    (hq : valueOf b = some q) : NearestTo (p + q) (UnpackedFloat.add Format.binary64 a b) := by
  rcases eq_of_valueOf_eq_some hp with ⟨s, rfl, rfl⟩ | ⟨s, m, e, hm, rfl, rfl⟩ <;>
    rcases eq_of_valueOf_eq_some hq with ⟨t, rfl, rfl⟩ | ⟨t, n, f, hn, rfl, rfl⟩
  · rw [add_zero, UnpackedFloat.add]
    split <;> exact nearestTo_zero _
  · rw [zero_add]
    exact nearestTo_self hb hq
  · rw [add_zero]
    exact nearestTo_self ha hp
  · have hsum : signed s (m * 2 ^ e) + signed t (n * 2 ^ f) =
        ((s.apply (decreaseExponent m e (min e f)).1 +
          t.apply (decreaseExponent n f (min e f)).1 : ℤ) : ℝ) * 2 ^ min e f := by
      rw [Int.cast_add, add_mul, signed_decreaseExponent s m (min_le_left e f),
        signed_decreaseExponent t n (min_le_right e f)]
    rw [hsum]
    exact nearestTo_normalize _ _ .positive

/-- The sum of two doubles rounds the sum of their values. -/
theorem rounds_add (ha : IsCanonical a) (hb : IsCanonical b) (hp : valueOf a = some p)
    (hq : valueOf b = some q) : Rounds (p + q) (UnpackedFloat.add Format.binary64 a b) :=
  (nearestTo_add ha hb hp hq).rounds

/-- To subtract is to add the negated number. -/
theorem sub_eq_add (a b : UnpackedFloat) :
    UnpackedFloat.sub Format.binary64 a b = UnpackedFloat.add Format.binary64 a b.neg := by
  have happly (s : Sign) (m : ℕ) : (-s).apply (m : ℤ) = -s.apply (m : ℤ) := by
    cases s <;> simp [Sign.apply]
  cases a <;> cases b <;> try rfl
  rw [UnpackedFloat.sub, UnpackedFloat.neg, UnpackedFloat.add]
  simp only [happly, Int.sub_eq_add_neg]

/-- A negated canonical number is canonical. -/
theorem isCanonical_neg (ha : IsCanonical a) : IsCanonical a.neg := by
  cases a <;> exact ha

/-- A negated number has the negated value. -/
theorem valueOf_neg (hp : valueOf a = some p) : valueOf a.neg = some (-p) := by
  rcases eq_of_valueOf_eq_some hp with ⟨s, rfl, rfl⟩ | ⟨s, m, e, hm, rfl, rfl⟩
  · rw [neg_zero]
    rfl
  · rw [UnpackedFloat.neg, valueOf_finite]
    cases s with
    | positive => rfl
    | negative => exact congrArg some (neg_neg _).symm

/-- The difference of two doubles is nearest to the difference of their values. -/
theorem nearestTo_sub (ha : IsCanonical a) (hb : IsCanonical b) (hp : valueOf a = some p)
    (hq : valueOf b = some q) : NearestTo (p - q) (UnpackedFloat.sub Format.binary64 a b) := by
  rw [sub_eq_add, sub_eq_add_neg]
  exact nearestTo_add ha (isCanonical_neg hb) hp (valueOf_neg hq)

/-- Signs are multiplied apart from magnitudes. -/
theorem signed_mul_signed (s t : Sign) (x y : ℝ) :
    signed s x * signed t y = signed (s * t) (x * y) := by
  cases s with
  | positive =>
    cases t with
    | positive => rfl
    | negative => exact mul_neg x y
  | negative =>
    cases t with
    | positive => exact neg_mul x y
    | negative => exact neg_mul_neg x y

/-- The product of two doubles is nearest to the product of their values. -/
theorem nearestTo_mul (ha : IsCanonical a) (hb : IsCanonical b) (hp : valueOf a = some p)
    (hq : valueOf b = some q) : NearestTo (p * q) (UnpackedFloat.mul Format.binary64 a b) := by
  rcases eq_of_valueOf_eq_some hp with ⟨s, rfl, rfl⟩ | ⟨s, m, e, hm, rfl, rfl⟩ <;>
    rcases eq_of_valueOf_eq_some hq with ⟨t, rfl, rfl⟩ | ⟨t, n, f, hn, rfl, rfl⟩
  · rw [mul_zero]
    exact nearestTo_zero _
  · rw [zero_mul]
    exact nearestTo_zero _
  · rw [mul_zero]
    exact nearestTo_zero _
  · have hpos : 0 < m * n := Nat.mul_pos hm hn
    have hproduct : signed s (m * 2 ^ e) * signed t (n * 2 ^ f) =
        signed (s * t) ((m * n : ℕ) * 2 ^ (e + f)) := by
      rw [signed_mul_signed, zpow_add₀ two_ne_zero, Nat.cast_mul]
      congr 1
      ring
    have hbits : 52 ≤ (m * n).log2 ∨ e + f ≤ -1074 := by
      obtain ⟨-, he, hm'⟩ := ha
      obtain ⟨-, hf, hn'⟩ := hb
      rw [Nat.le_log2 hpos.ne']
      rcases hm' with hm' | hm'
      · exact .inl (hm'.trans (Nat.le_mul_of_pos_right m hn))
      · rcases hn' with hn' | hn'
        · exact .inl (hn'.trans (Nat.le_mul_of_pos_left n hm))
        · omega
    rw [hproduct]
    exact nearestTo_roundWithAccuracy _ hpos hbits

/-- The product of two doubles rounds the product of their values. -/
theorem rounds_mul (ha : IsCanonical a) (hb : IsCanonical b) (hp : valueOf a = some p)
    (hq : valueOf b = some q) : Rounds (p * q) (UnpackedFloat.mul Format.binary64 a b) :=
  (nearestTo_mul ha hb hp hq).rounds

/-- A mantissa that is marked as inexact represents every number strictly between it and the next
one. -/
theorem represents_inexact {m : Nat} {x : ℝ} (hlow : (m : ℝ) < x) (hhigh : x < m + 1) (o : Ordering) :
    Represents (.ofMantissaAndAccuracy m (.inexact o)) x := by
  have hmantissa : m = ⌊x⌋₊ :=
    ((Nat.floor_eq_iff ((Nat.cast_nonneg m).trans hlow.le)).2 ⟨hlow.le, hhigh⟩).symm
  have hceiling : m + 1 = ⌈x⌉₊ := by
    refine ((Nat.ceil_eq_iff (Nat.succ_ne_zero m)).2 ⟨hlow, ?_⟩).symm
    push_cast
    exact hhigh.le
  cases o <;> exact ⟨hmantissa, hceiling⟩

/-- Signs are divided apart from magnitudes. -/
theorem signed_div_signed (s t : Sign) (x y : ℝ) :
    signed s x / signed t y = signed (s / t) (x / y) := by
  cases s with
  | positive =>
    cases t with
    | positive => rfl
    | negative => exact div_neg x
  | negative =>
    cases t with
    | positive => exact neg_div y x
    | negative => exact neg_div_neg_eq x y

/-- An integer quotient with the accuracy of its remainder represents the quotient. -/
theorem represents_quotient (m : Nat) {n : Nat} (hn : 0 < n) :
    Represents (.ofMantissaAndAccuracy (m / n) (accuracyOfFraction (m % n) n)) (m / n) := by
  have hreal : (0 : ℝ) < n := Nat.cast_pos.2 hn
  have hdivision : (m : ℝ) = n * (m / n : ℕ) + (m % n : ℕ) := by
    exact_mod_cast (Nat.div_add_mod m n).symm
  rw [accuracyOfFraction]
  split
  · next hexact =>
    have hquotient : (m : ℝ) / n = (m / n : ℕ) := by
      rw [div_eq_iff hreal.ne', hdivision, hexact]
      push_cast
      ring
    rw [hquotient]
    exact represents_exact _
  · next hinexact =>
    have hpos : (0 : ℝ) < (m % n : ℕ) := Nat.cast_pos.2 (Nat.pos_of_ne_zero hinexact)
    have hlt : ((m % n : ℕ) : ℝ) < n := Nat.cast_lt.2 (Nat.mod_lt m hn)
    refine represents_inexact ?_ ?_ _
    · rw [lt_div_iff₀ hreal]
      linarith
    · rw [div_lt_iff₀ hreal]
      linarith

/-- The quotient of two doubles rounds the quotient of their values, if the divisor is not zero. -/
theorem rounds_div (hp : valueOf a = some p) (hq : valueOf b = some q) (hne : q ≠ 0) :
    Rounds (p / q) (UnpackedFloat.div Format.binary64 a b) := by
  rcases eq_of_valueOf_eq_some hq with ⟨t, rfl, rfl⟩ | ⟨t, n, f, hn, rfl, rfl⟩
  · exact absurd rfl hne
  rcases eq_of_valueOf_eq_some hp with ⟨s, rfl, rfl⟩ | ⟨s, m, e, hm, rfl, rfl⟩
  · rw [zero_div]
    exact rounds_zero _
  · let target := min (e - f) (max (m.log2 + e - (n.log2 + f) - 53) (-1074))
    let shift := (e - f - target).toNat
    have htarget : min (e - f) (Format.binary64.targetExponent
        (totalExponent m e - totalExponent n f)) = target := by
      simp only [Format.targetExponent, totalExponent, Format.mantissaBits, Format.minExponent]
      norm_num
      omega
    have hresult : UnpackedFloat.div Format.binary64 (.finite s m e hm) (.finite t n f hn) =
        roundWithAccuracy Format.binary64 (s / t) (m * 2 ^ shift / n) target
          (accuracyOfFraction (m * 2 ^ shift % n) n) := by
      rw [UnpackedFloat.div, divCore, htarget, Nat.shiftLeft_eq]
    have hquotient : signed s (m * 2 ^ e) / signed t (n * 2 ^ f) =
        signed (s / t) ((m * 2 ^ shift : ℕ) / n * 2 ^ target) := by
      have he : e = f + shift + target := by omega
      have hreal : (n : ℝ) ≠ 0 := (Nat.cast_pos.2 hn).ne'
      rw [signed_div_signed]
      congr 1
      conv_lhs => rw [he, zpow_add₀ two_ne_zero, zpow_add₀ two_ne_zero, zpow_natCast]
      push_cast
      field_simp
    have hbits : 52 ≤ (m * 2 ^ shift / n).log2 ∨ target ≤ -1074 := by
      by_cases hleast : target ≤ -1074
      · exact .inr hleast
      · have hbits : 52 + (n.log2 + 1) ≤ m.log2 + shift := by omega
        have hle : 2 ^ 52 ≤ m * 2 ^ shift / n := by
          rw [Nat.le_div_iff_mul_le hn]
          calc 2 ^ 52 * n ≤ 2 ^ 52 * 2 ^ (n.log2 + 1) :=
                Nat.mul_le_mul_left _ Nat.lt_log2_self.le
            _ = 2 ^ (52 + (n.log2 + 1)) := (pow_add 2 52 _).symm
            _ ≤ 2 ^ (m.log2 + shift) := Nat.pow_le_pow_right two_pos hbits
            _ = 2 ^ m.log2 * 2 ^ shift := pow_add 2 _ _
            _ ≤ m * 2 ^ shift := Nat.mul_le_mul_right _ (Nat.log2_self_le hm.ne')
        exact .inl ((Nat.le_log2 (by omega)).2 hle)
    rw [hresult, hquotient]
    exact rounds_roundWithAccuracy _ (by positivity) (represents_quotient _ hn) hbits

/-- An integer root with the accuracy of its remainder represents the root. -/
theorem represents_sqrt (m : Nat) :
    Represents (.ofMantissaAndAccuracy m.sqrt
      (if m - m.sqrt * m.sqrt = 0 then .exact
        else .inexact (if m - m.sqrt * m.sqrt ≤ m.sqrt then .lt else .gt))) (√m) := by
  split
  · next hexact =>
    have hsquare : m.sqrt * m.sqrt = m := by
      have := Nat.sqrt_le m
      omega
    have hroot : √(m : ℝ) = m.sqrt := by
      rw [Real.sqrt_eq_iff_mul_self_eq (Nat.cast_nonneg _) (Nat.cast_nonneg _)]
      exact_mod_cast hsquare.symm
    rw [hroot]
    exact represents_exact _
  · next hinexact =>
    refine represents_inexact ?_ Real.real_sqrt_lt_nat_sqrt_succ _
    rw [Real.lt_sqrt (Nat.cast_nonneg _), sq]
    have hlt : m.sqrt * m.sqrt < m := by omega
    exact_mod_cast hlt

/-- The root of a double that is not negative rounds the root of its value. -/
theorem rounds_sqrt (hp : valueOf a = some p) (hnonneg : 0 ≤ p) :
    Rounds (√p) (UnpackedFloat.sqrt Format.binary64 a) := by
  rcases eq_of_valueOf_eq_some hp with ⟨s, rfl, rfl⟩ | ⟨s, m, e, hm, rfl, rfl⟩
  · rw [Real.sqrt_zero]
    exact rounds_zero _
  · have hpos : (0 : ℝ) < m * 2 ^ e := mul_pos (Nat.cast_pos.2 hm) (zpow_pos two_pos e)
    cases s with
    | negative => exact absurd hnonneg (not_le.2 (neg_neg_of_pos hpos))
    | positive =>
      let target := min (e / 2) (max ((m.log2 + e + 2) / 2 - 53) (-1074))
      let shift := (e - 2 * target).toNat
      have htarget : min (e.ediv 2) (Format.binary64.targetExponent
          ((totalExponent m e + 1).ediv 2)) = target := by
        have hhalf (n : ℤ) : n.ediv 2 = n / 2 := rfl
        simp only [Format.targetExponent, totalExponent, Format.mantissaBits, Format.minExponent,
          hhalf]
        norm_num
        omega
      have hresult : UnpackedFloat.sqrt Format.binary64 (.finite .positive m e hm) =
          roundWithAccuracy Format.binary64 .positive (m * 2 ^ shift).sqrt target
            (if m * 2 ^ shift - (m * 2 ^ shift).sqrt * (m * 2 ^ shift).sqrt = 0 then .exact
              else .inexact (if m * 2 ^ shift - (m * 2 ^ shift).sqrt * (m * 2 ^ shift).sqrt ≤
                (m * 2 ^ shift).sqrt then .lt else .gt)) := by
        rw [UnpackedFloat.sqrt, sqrtCore, htarget, Nat.shiftLeft_eq]
      have hroot : √(signed .positive (m * 2 ^ e)) =
          signed .positive (√(m * 2 ^ shift : ℕ) * 2 ^ target) := by
        have he : e = shift + (target + target) := by omega
        have hscale : (0 : ℝ) ≤ 2 ^ target := (zpow_pos two_pos target).le
        show √((m : ℝ) * 2 ^ e) = √(m * 2 ^ shift : ℕ) * 2 ^ target
        conv_lhs => rw [he, zpow_add₀ two_ne_zero, zpow_add₀ two_ne_zero, zpow_natCast, ← mul_assoc]
        rw [Real.sqrt_mul' _ (mul_self_nonneg _), Real.sqrt_mul_self hscale]
        push_cast
        rfl
      have hbits : 52 ≤ (m * 2 ^ shift).sqrt.log2 ∨ target ≤ -1074 := by
        by_cases hleast : target ≤ -1074
        · exact .inr hleast
        · have hlog := le_log2_mul_two_pow hm shift
          have hle : 2 ^ 52 ≤ (m * 2 ^ shift).sqrt := by
            rw [Nat.le_sqrt, ← pow_add]
            refine (Nat.le_log2 ?_).1 (le_trans ?_ hlog)
            · exact (Nat.mul_pos hm (Nat.two_pow_pos shift)).ne'
            · omega
          exact .inl ((Nat.le_log2 (by omega)).2 hle)
      rw [hresult, hroot]
      exact rounds_roundWithAccuracy _ (Real.sqrt_nonneg _) (represents_sqrt _) hbits

end PlantGrowth.Double
