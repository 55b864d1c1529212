import PlantGrowth.Proofs.Scalar.Magnitude

/-!
# The integer part of a double

The ratio that a double is read as is its value (`ratio_of_value`), so cutting it to its integer part
is the cut of exact arithmetic (`truncate_of_value`): the value lies between the integer part and the
next integer on the side away from zero, whatever the size of the double. The greatest integer not above
it is likewise that of its value (`floor_of_value`).
-/

set_option autoImplicit false

namespace PlantGrowth.Double

open Float.Model Float.Model.UnpackedFloat

/-! ## The fields of the bits -/

variable (bits : BitVec Format.binary64.numBits)

/-- The fraction bits are the remainder of all bits. -/
theorem toNat_unpackMantissa : (unpackMantissa bits).toNat = bits.toNat % 0x10000000000000 := by
  unfold unpackMantissa
  rw [BitVec.toNat_cast, BitVec.extractLsb_toNat, Nat.shiftRight_zero]
  rfl

/-- The exponent bits are the bits in front of the fraction. -/
theorem toNat_unpackExponent :
    (unpackExponent bits).toNat = bits.toNat / 0x10000000000000 % 0x800 := by
  unfold unpackExponent
  rw [BitVec.toNat_cast, BitVec.extractLsb_toNat, Nat.shiftRight_eq_div_pow]
  rfl

/-- The sign is negative where the first bit is set. -/
theorem ofBitVec_unpackSign :
    Sign.ofBitVec (unpackSign bits) =
      if 0x8000000000000000 ≤ bits.toNat then .negative else .positive := by
  have hbits : bits.toNat < 2 ^ 64 := bits.isLt
  have hsign : (unpackSign bits).toNat = bits.toNat / 0x8000000000000000 % 2 := by
    unfold unpackSign
    rw [BitVec.toNat_cast, BitVec.extractLsb_toNat, Nat.shiftRight_eq_div_pow]
    rfl
  have hzero : unpackSign bits = 0#1 ↔ bits.toNat < 0x8000000000000000 := by
    rw [BitVec.toNat_eq, hsign, BitVec.toNat_ofNat]
    omega
  unfold Sign.ofBitVec
  by_cases hnegative : 0x8000000000000000 ≤ bits.toNat
  · rw [if_pos hnegative, if_neg (fun h => absurd (hzero.1 h) (by omega))]
  · rw [if_neg hnegative, if_pos (hzero.2 (by omega))]

/-- A sign bit is read back as it is. -/
theorem toBitVec_ofBitVec (sign : BitVec 1) : (Sign.ofBitVec sign).toBitVec = sign := by
  rcases BitVec.eq_zero_or_eq_one sign with rfl | rfl <;> rfl

/-- The fields of the bits, side by side, are the bits. -/
theorem packComponents_unpack :
    packComponents Format.binary64 (Sign.ofBitVec (unpackSign bits)) (unpackExponent bits)
      (unpackMantissa bits) = bits := by
  unfold packComponents
  rw [toBitVec_ofBitVec]
  unfold unpackSign unpackExponent unpackMantissa
  ext i hi
  grind

/-- Bits whose exponent is all ones have no value. -/
theorem valueOf_unpack_eq_none (hones : unpackExponent bits = -1#_) :
    valueOf (UnpackedFloat.unpack Format.binary64 bits) = none := by
  rw [UnpackedFloat.unpack]
  dsimp only
  rw [if_pos hones]
  split <;> rfl

/-! ## Values -/

variable {x : Float} {r : ℝ}

/-- The exponent bits of a double are those of its bits. -/
theorem exponentBits_eq {bits : BitVec Format.binary64.numBits} (hbits : x.toBits.toBitVec = bits) :
    exponentBits x = (unpackExponent bits).toNat := by
  rw [toNat_unpackExponent, ← hbits]
  rfl

/-- The exponent bits of a double that has a value are not all set. -/
theorem unpackExponent_ne_of_value {bits : BitVec Format.binary64.numBits}
    (hbits : x.toBits.toBitVec = bits) (hr : value? x = some r) : unpackExponent bits ≠ -1#_ := by
  intro hones
  have hunpacked : value? x = none := by
    rw [value?, Float.Model.unpack]
    exact hbits ▸ valueOf_unpack_eq_none bits hones
  rw [hunpacked] at hr
  cases hr

/-- A double with a value has not all exponent bits set. -/
theorem exponentBits_lt_of_value (hr : value? x = some r) : exponentBits x < 0x7ff := by
  obtain ⟨bits, hbits⟩ : ∃ bits : BitVec Format.binary64.numBits, x.toBits.toBitVec = bits :=
    ⟨_, rfl⟩
  have hlt : (unpackExponent bits).toNat < 0x800 := (unpackExponent bits).isLt
  have hne : (unpackExponent bits).toNat ≠ 0x7ff := fun hones =>
    unpackExponent_ne_of_value hbits hr (BitVec.eq_of_toNat_eq hones)
  rw [exponentBits_eq hbits]
  omega

/-- A value is a whole number of steps with a sign; all three are read off the bits. -/
theorem eq_signed_of_value (hr : value? x = some r) :
    r = signed (if isNegative x then .negative else .positive)
      (significand x * 2 ^ ((max 1 (exponentBits x) : Nat) - 1075 : ℤ)) := by
  obtain ⟨bits, hbits⟩ : ∃ bits : BitVec Format.binary64.numBits, x.toBits.toBitVec = bits :=
    ⟨_, rfl⟩
  have hmantissa : fractionBits x = (unpackMantissa bits).toNat := by
    rw [toNat_unpackMantissa, ← hbits]
    rfl
  have hexponent : exponentBits x = (unpackExponent bits).toNat := exponentBits_eq hbits
  have hsign : (if isNegative x then Sign.negative else .positive) =
      Sign.ofBitVec (unpackSign bits) := by
    rw [ofBitVec_unpackSign, ← hbits]
    simp [isNegative]
  have hunpacked : valueOf (UnpackedFloat.unpack Format.binary64 bits) = some r := by
    rw [← hbits]
    exact hr
  have hfinite : unpackExponent bits ≠ -1#_ := unpackExponent_ne_of_value hbits hr
  rw [← packComponents_unpack bits, valueOf_unpack_packComponents _ hfinite] at hunpacked
  cases hunpacked
  rw [hsign, hexponent, significand, hexponent, hmantissa]
  by_cases hzero : unpackExponent bits = 0#_
  · rw [if_pos hzero, hzero]
    norm_num
  · have hpos : (unpackExponent bits).toNat ≠ 0 := by
      intro h
      exact hzero (BitVec.eq_of_toNat_eq h)
    rw [if_neg hzero, if_neg hpos, Nat.max_eq_right (by omega)]
    norm_num

/-- Every value is below `2 ^ 1024`. -/
theorem abs_lt_of_value (hr : value? x = some r) : |r| < 2 ^ (1024 : ℤ) := by
  have hexponent := exponentBits_lt_of_value hr
  have hsignificand : significand x < 2 ^ 53 := by
    have hfraction : fractionBits x < 0x10000000000000 := Nat.mod_lt _ (by norm_num)
    rw [significand]
    split <;> omega
  rw [eq_signed_of_value hr, abs_signed_mul_zpow]
  calc (significand x : ℝ) * 2 ^ ((max 1 (exponentBits x) : Nat) - 1075 : ℤ)
      < 2 ^ (53 : ℕ) * 2 ^ ((max 1 (exponentBits x) : Nat) - 1075 : ℤ) :=
        mul_lt_mul_of_pos_right (by exact_mod_cast hsignificand) (zpow_pos two_pos _)
    _ = 2 ^ (53 + ((max 1 (exponentBits x) : Nat) - 1075) : ℤ) := by
        rw [zpow_add₀ two_ne_zero]
        rfl
    _ ≤ 2 ^ (1024 : ℤ) := zpow_le_zpow_right₀ one_le_two (by omega)

/-- The denominator of a double is positive. -/
theorem ratio_pos (x : Float) : 0 < (ratio x).2 := by
  show 0 < 1 <<< _
  rw [Nat.one_shiftLeft]
  exact Nat.two_pow_pos _

/-- Shifting by a difference of exponents multiplies by its power of two: one of the shifts is by
nothing. -/
theorem shiftLeft_div_shiftLeft (m e k : Nat) :
    ((m <<< (e - k) : Nat) : ℝ) / (1 <<< (k - e) : Nat) = m * 2 ^ ((e : ℤ) - k) := by
  rw [Nat.shiftLeft_eq, Nat.one_shiftLeft]
  push_cast
  rw [mul_div_assoc, ← zpow_natCast, ← zpow_natCast, ← zpow_sub₀ two_ne_zero]
  congr 2
  omega

/-- The ratio that a double is read as is its value. -/
theorem ratio_of_value (hr : value? x = some r) : ((ratio x).1 : ℝ) / (ratio x).2 = r := by
  rw [eq_signed_of_value hr, ← Nat.cast_ofNat (R := ℤ), ← shiftLeft_div_shiftLeft, ratio]
  by_cases hnegative : isNegative x
  · simp only [hnegative, if_true, signed, Int.cast_neg, Int.cast_natCast, neg_div]
  · simp only [hnegative, signed]
    rfl

/-- The integer part of a double is the one of its value. -/
theorem truncate_of_value (hr : value? x = some r) : truncate x = Scalar.truncate r := by
  obtain ⟨⟨m, n⟩, hratio⟩ : ∃ p : ℤ × ℕ, ratio x = p := ⟨_, rfl⟩
  have hpos := ratio_pos x
  have hvalue := ratio_of_value hr
  rw [hratio] at hpos hvalue
  have hfloor (k : ℤ) : ⌊(k : ℝ) / n⌋ = k / (n : ℤ) := by
    rw [Int.floor_div_natCast, Int.floor_intCast]
  have hpos : (0 : ℝ) < n := Nat.cast_pos.2 hpos
  show Int.tdiv (ratio x).1 (ratio x).2 = if 0 ≤ r then ⌊r⌋ else ⌈r⌉
  rw [hratio, ← hvalue]
  by_cases hm : 0 ≤ m
  · rw [if_pos (div_nonneg (Int.cast_nonneg hm) hpos.le), hfloor]
    exact Int.tdiv_eq_ediv_of_nonneg hm
  · have hneg : (m : ℝ) / n < 0 := div_neg_of_neg_of_pos (Int.cast_lt_zero.2 (not_le.1 hm)) hpos
    have hceil : ⌈(m : ℝ) / n⌉ = -(-m / (n : ℤ)) := by
      rw [← hfloor, Int.cast_neg, neg_div, Int.floor_neg, neg_neg]
    rw [if_neg (not_le.2 hneg), hceil, ← Int.tdiv_eq_ediv_of_nonneg (by omega), Int.neg_tdiv, neg_neg]

/-- The greatest integer not above a double is the one of its value. -/
theorem floor_of_value (hr : value? x = some r) : floor x = ⌊r⌋ := by
  rw [← ratio_of_value hr, Int.floor_div_natCast, Int.floor_intCast]
  exact Int.fdiv_eq_ediv_of_nonneg _ (Int.natCast_nonneg _)

/-- The value is an integer where the denominator of the ratio divides its numerator. -/
theorem value_eq_intCast_iff (hr : value? x = some r) {n : Int} :
    r = n ↔ (ratio x).1 % (ratio x).2 = 0 ∧ (ratio x).1 / (ratio x).2 = n := by
  have hpos : (0 : ℤ) < (ratio x).2 := by exact_mod_cast ratio_pos x
  rw [← ratio_of_value hr]
  generalize (ratio x).1 = m at hpos ⊢
  generalize (ratio x).2 = d at hpos ⊢
  rw [div_eq_iff (by exact_mod_cast hpos.ne')]
  constructor
  · intro h
    have hm : m = n * d := by exact_mod_cast h
    rw [hm]
    exact ⟨Int.mul_emod_left n d, Int.mul_ediv_cancel n hpos.ne'⟩
  · rintro ⟨hmod, rfl⟩
    have hm : m = m / d * d := (Int.ediv_mul_cancel (Int.dvd_of_emod_eq_zero hmod)).symm
    exact_mod_cast hm

/-- A double with a value is a number. -/
theorem isNaN_of_value (hr : value? x = some r) : Scalar.isNaN x = false := by
  show x.toModel.unpack.isNaN = false
  rcases eq_of_valueOf_eq_some hr with ⟨s, hx, -⟩ | ⟨s, m, e, hm, hx, -⟩ <;> rw [hx] <;> rfl

/-- A double with a value is finite. -/
theorem isFinite_of_value (hr : value? x = some r) : Scalar.isFinite x = true := by
  unfold Scalar.isFinite
  rw [isNaN_of_value hr, isInfinite_of_value hr]
  rfl

/-- A double that has a value has integers near it, without a fault. -/
theorem toInteger_eq_ok (near : Float → Int) (hr : value? x = some r) :
    Scalar.toInteger near x = .ok (near x) := by
  unfold Scalar.toInteger
  rw [isNaN_of_value hr, isInfinite_of_value hr]
  rfl

/-- A double with a value has an integer part, the cut of the value. -/
theorem toInteger_of_value (hr : value? x = some r) :
    Scalar.toInteger Scalar.truncate x = .ok (Scalar.truncate r) :=
  (toInteger_eq_ok _ hr).trans (congrArg Except.ok (truncate_of_value hr))

/-- A double with a value has a floor, that of the value. -/
theorem toInteger_floor_of_value (hr : value? x = some r) :
    Scalar.toInteger Scalar.floor x = .ok ⌊r⌋ :=
  (toInteger_eq_ok _ hr).trans (congrArg Except.ok (floor_of_value hr))

end PlantGrowth.Double
