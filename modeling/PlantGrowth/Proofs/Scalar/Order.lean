import PlantGrowth.Proofs.Scalar.Magnitude

/-!
# The order of doubles

Doubles that have values compare as their values do (`lt_iff_of_values`, `beq_iff_of_values`). The
comparison looks at the exponents first, which is right for canonical numbers only: a greater exponent
outweighs every mantissa.

A sum of squares is not below zero, not even where it is infinite (`isNonneg_sum_of_squares`), so one
that is less than a finite number is finite (`exists_value_of_lt`), as is what lies between two finite
numbers (`exists_value_of_between`).
-/

set_option autoImplicit false

namespace PlantGrowth.Double

open Float.Model Float.Model.UnpackedFloat

/-! ## Comparison by value -/

/-- Exponents are compared first, and mantissas only if the exponents are equal. -/
theorem then_compare_eq {m n : Nat} {d e : ℤ} (hm : m < 2 ^ 53 ∧ -1074 ≤ d ∧ (2 ^ 52 ≤ m ∨ d = -1074))
    (hn : n < 2 ^ 53 ∧ -1074 ≤ e ∧ (2 ^ 52 ≤ n ∨ e = -1074)) :
    (compare d e).then (compare m n) = compare ((m : ℝ) * 2 ^ d) (n * 2 ^ e) := by
  obtain ⟨hm53, hd, hmfull⟩ := hm
  obtain ⟨hn53, he, hnfull⟩ := hn
  rcases lt_trichotomy d e with hde | rfl | hed
  · rw [compare_lt_iff_lt.2 hde, compare_lt_iff_lt.2 (mul_zpow_lt_mul_zpow hm53 hd hnfull hde)]
    rfl
  · have hscale : (0 : ℝ) < 2 ^ d := zpow_pos two_pos d
    rw [compare_eq_iff_eq.2 rfl, Ordering.eq_then, ← cmp_eq_compare, ← cmp_eq_compare,
      cmp_mul_pos_right hscale]
    exact (Nat.strictMono_cast.cmp_map_eq m n).symm
  · rw [compare_gt_iff_gt.2 hed, compare_gt_iff_gt.2 (mul_zpow_lt_mul_zpow hn53 he hmfull hed)]
    rfl

/-- Negation turns comparisons around. -/
theorem compare_neg_neg (x y : ℝ) : compare (-x) (-y) = (compare x y).swap := by
  have hneg : StrictAnti fun x : ℝ => -x := fun _ _ hlt => neg_lt_neg hlt
  rw [← cmp_eq_compare, ← cmp_eq_compare, cmp_swap]
  exact hneg.cmp_map_eq x y

/-- Canonical numbers that have values compare as their values do. -/
theorem compare_of_values {u v : UnpackedFloat} (hu : IsCanonical u) (hv : IsCanonical v) {p q : ℝ}
    (hp : valueOf u = some p) (hq : valueOf v = some q) :
    UnpackedFloat.compare u v = some (compare p q) := by
  have hpos {m : Nat} (hm : 0 < m) (e : ℤ) : (0 : ℝ) < m * 2 ^ e :=
    mul_pos (Nat.cast_pos.2 hm) (zpow_pos two_pos e)
  rcases eq_of_valueOf_eq_some hp with ⟨s, rfl, rfl⟩ | ⟨s, m, d, hm, rfl, rfl⟩ <;>
    rcases eq_of_valueOf_eq_some hq with ⟨t, rfl, rfl⟩ | ⟨t, n, e, hn, rfl, rfl⟩
  · rw [compare_eq_iff_eq.2 rfl]
    rfl
  · have hn := hpos hn e
    cases t with
    | positive => exact congrArg some (compare_lt_iff_lt.2 hn).symm
    | negative => exact congrArg some (compare_gt_iff_gt.2 (neg_neg_of_pos hn)).symm
  · have hm := hpos hm d
    cases s with
    | positive => exact congrArg some (compare_gt_iff_gt.2 hm).symm
    | negative => exact congrArg some (compare_lt_iff_lt.2 (neg_neg_of_pos hm)).symm
  · have hmagnitudes := then_compare_eq hu hv
    have hm := hpos hm d
    have hn := hpos hn e
    cases s <;> cases t
    · exact congrArg some ((congrArg Ordering.swap hmagnitudes).trans (compare_neg_neg _ _).symm)
    · exact congrArg some (compare_lt_iff_lt.2 ((neg_neg_of_pos hm).trans hn)).symm
    · exact congrArg some (compare_gt_iff_gt.2 ((neg_neg_of_pos hn).trans hm)).symm
    · exact congrArg some hmagnitudes

variable {x y : Float} {p q : ℝ}

/-- Less-than on doubles is a comparison of what they unpack to. -/
theorem lt_iff_compare : x < y ↔
    UnpackedFloat.compare x.toModel.unpack y.toModel.unpack = some .lt := by
  have hlt : x < y ↔ UnpackedFloat.lt x.toModel.unpack y.toModel.unpack = true := decide_eq_true_iff
  rw [hlt, UnpackedFloat.lt, beq_iff_eq]

/-- At-most on doubles is a comparison of what they unpack to. -/
theorem le_iff_compare : x ≤ y ↔
    (UnpackedFloat.compare x.toModel.unpack y.toModel.unpack).any (·.isLE) = true := by
  have hle : x ≤ y ↔ UnpackedFloat.le x.toModel.unpack y.toModel.unpack = true := decide_eq_true_iff
  rw [hle, UnpackedFloat.le]

/-- A double with a value is less than another one exactly if its value is less. -/
theorem lt_iff_of_values (hp : value? x = some p) (hq : value? y = some q) : x < y ↔ p < q := by
  have hcompare := compare_of_values (isCanonical_unpack _) (isCanonical_unpack _) hp hq
  rw [lt_iff_compare, hcompare, Option.some_inj, compare_lt_iff_lt]

/-- A double with a value is at most another one exactly if its value is. -/
theorem le_iff_of_values (hp : value? x = some p) (hq : value? y = some q) : x ≤ y ↔ p ≤ q := by
  have hcompare := compare_of_values (isCanonical_unpack _) (isCanonical_unpack _) hp hq
  rw [le_iff_compare, hcompare, Option.any_some, Ordering.isLE_iff_ne_gt]
  exact compare_le_iff_le

/-- Doubles with values are equal exactly if their values are. -/
theorem beq_iff_of_values (hp : value? x = some p) (hq : value? y = some q) :
    (x == y) = true ↔ p = q := by
  have hcompare := compare_of_values (isCanonical_unpack _) (isCanonical_unpack _) hp hq
  have hbeq : (x == y) = UnpackedFloat.beq x.toModel.unpack y.toModel.unpack := rfl
  rw [hbeq, UnpackedFloat.beq, hcompare, beq_iff_eq, Option.some_inj, compare_eq_iff_eq]

/-! ## Sums of squares -/

/-- The number is not less than zero. This says nothing of an undefined one. -/
def IsNonneg : UnpackedFloat → Prop
  | .infinity s => s = .positive
  | .finite s _ _ _ => s = .positive
  | .zero _ => True
  | .notANumber => True

variable {u v : UnpackedFloat}

/-- A number with a value is not negative where its value is not. -/
theorem isNonneg_iff_of_value (hp : valueOf u = some p) : IsNonneg u ↔ 0 ≤ p := by
  rcases eq_of_valueOf_eq_some hp with ⟨s, rfl, rfl⟩ | ⟨s, m, e, hm, rfl, rfl⟩
  · exact iff_of_true trivial le_rfl
  · have hpos : (0 : ℝ) < m * 2 ^ e := mul_pos (Nat.cast_pos.2 hm) (zpow_pos two_pos e)
    cases s with
    | positive => exact iff_of_true rfl hpos.le
    | negative => exact iff_of_false Sign.noConfusion (not_le.2 (neg_neg_of_pos hpos))

/-- The rounding of a number that is not negative is not negative. -/
theorem isNonneg_of_rounds (h : Rounds p u) (hnonneg : 0 ≤ p) : IsNonneg u := by
  obtain ⟨-, r, hr, hrounds⟩ := h
  exact (isNonneg_iff_of_value hr).2 (hrounds.nonneg hnonneg)

/-- What is packed with a positive sign is not negative when it is unpacked. -/
theorem isNonneg_unpack_packComponents (exponent : BitVec 11) (mantissa : BitVec 52) :
    IsNonneg (UnpackedFloat.unpack Format.binary64
      (packComponents Format.binary64 .positive exponent mantissa)) := by
  rw [UnpackedFloat.unpack]
  simp only [unpackMantissa_packComponents, unpackExponent_packComponents,
    unpackSign_packComponents, Sign.ofBitVec_toBitVec]
  by_cases hmantissa : mantissa = 0#_
  · subst hmantissa
    split
    · rfl
    · split <;> trivial
  · rw [dif_neg hmantissa, if_neg hmantissa]
    split
    · trivial
    · split <;> rfl

/-- Packing keeps the sign, also of a number that becomes infinite. -/
theorem isNonneg_unpack_pack (hu : IsNonneg u) : IsNonneg (Float.Model.pack u).unpack := by
  cases u with
  | infinity s =>
    cases hu
    rfl
  | notANumber => trivial
  | zero s => cases s <;> trivial
  | finite s m e hm =>
    cases hu
    show IsNonneg (UnpackedFloat.unpack Format.binary64
      (UnpackedFloat.pack Format.binary64 (.finite .positive m e hm)))
    rw [UnpackedFloat.pack]
    dsimp only
    split
    · exact isNonneg_unpack_packComponents _ _
    · split <;> exact isNonneg_unpack_packComponents _ _

/-- The product of a number with itself is not negative. -/
theorem isNonneg_mul_self (hu : IsCanonical u) :
    IsNonneg (UnpackedFloat.mul Format.binary64 u u) := by
  cases hp : valueOf u with
  | some p => exact isNonneg_of_rounds (rounds_mul hu hu hp hp) (mul_self_nonneg p)
  | none =>
    rcases eq_of_valueOf_eq_none hp with ⟨s, rfl⟩ | rfl
    · cases s <;> rfl
    · trivial

/-- The sum of two numbers that are not negative is not negative. -/
theorem isNonneg_add (hu : IsCanonical u) (hv : IsCanonical v) (hu0 : IsNonneg u)
    (hv0 : IsNonneg v) : IsNonneg (UnpackedFloat.add Format.binary64 u v) := by
  cases hp : valueOf u with
  | some p =>
    cases hq : valueOf v with
    | some q =>
      exact isNonneg_of_rounds (rounds_add hu hv hp hq)
        (add_nonneg ((isNonneg_iff_of_value hp).1 hu0) ((isNonneg_iff_of_value hq).1 hv0))
    | none =>
      rcases eq_of_valueOf_eq_none hq with ⟨t, rfl⟩ | rfl <;>
        rcases eq_of_valueOf_eq_some hp with ⟨s, rfl, -⟩ | ⟨s, m, e, hm, rfl, -⟩
      exacts [hv0, hv0, trivial, trivial]
  | none =>
    rcases eq_of_valueOf_eq_none hp with ⟨s, rfl⟩ | rfl
    · cases hu0
      cases v with
      | infinity t =>
        cases hv0
        rfl
      | notANumber => trivial
      | zero t => rfl
      | finite t n e hn => rfl
    · trivial

/-- A sum of three squares is not below zero, whether it is finite or not. -/
theorem isNonneg_sum_of_squares (x y z : Float) :
    IsNonneg (x * x + y * y + z * z).toModel.unpack := by
  have hsquare (c : Float) : IsNonneg (c * c).toModel.unpack :=
    isNonneg_unpack_pack (isNonneg_mul_self (isCanonical_unpack _))
  have hsum {a b : Float} (ha : IsNonneg a.toModel.unpack) (hb : IsNonneg b.toModel.unpack) :
      IsNonneg (a + b).toModel.unpack :=
    isNonneg_unpack_pack (isNonneg_add (isCanonical_unpack _) (isCanonical_unpack _) ha hb)
  exact hsum (hsum (hsquare x) (hsquare y)) (hsquare z)

/-- What is less than a finite number and not below zero is finite. -/
theorem exists_value_of_lt (hx : IsNonneg x.toModel.unpack) (hq : value? y = some q)
    (hlt : x < y) : ∃ p, value? x = some p := by
  have hcompare : UnpackedFloat.lt x.toModel.unpack y.toModel.unpack = true :=
    of_decide_eq_true hlt
  cases hp : value? x with
  | some p => exact ⟨p, rfl⟩
  | none =>
    -- Only the infinity below zero is less than a finite number.
    exfalso
    rcases eq_of_valueOf_eq_none hp with ⟨s, hs⟩ | hnan
    · rw [hs] at hx hcompare
      cases hx
      rcases eq_of_valueOf_eq_some hq with ⟨t, ht, -⟩ | ⟨t, n, e, hn, ht, -⟩ <;>
        · rw [ht] at hcompare
          cases hcompare
    · rw [hnan] at hcompare
      cases hcompare

/-- What lies between two finite numbers is finite. -/
theorem exists_value_of_between {z : Float} (hp : value? y = some p) (hq : value? z = some q)
    (hle : y ≤ x) (hlt : x < z) : ∃ r, value? x = some r ∧ p ≤ r ∧ r < q := by
  cases hr : value? x with
  | some r => exact ⟨r, rfl, (le_iff_of_values hp hr).1 hle, (lt_iff_of_values hr hq).1 hlt⟩
  | none =>
    exfalso
    have hbelow : UnpackedFloat.lt x.toModel.unpack z.toModel.unpack = true := of_decide_eq_true hlt
    have habove : UnpackedFloat.le y.toModel.unpack x.toModel.unpack = true := of_decide_eq_true hle
    rcases eq_of_valueOf_eq_none hr with ⟨s, hx⟩ | hx <;> rw [hx] at hbelow habove
    · cases s with
      | positive =>
        rcases eq_of_valueOf_eq_some hq with ⟨t, hz, -⟩ | ⟨t, n, e, hn, hz, -⟩ <;>
          · rw [hz] at hbelow
            cases hbelow
      | negative =>
        rcases eq_of_valueOf_eq_some hp with ⟨t, hy, -⟩ | ⟨t, n, e, hn, hy, -⟩ <;>
          · rw [hy] at habove
            cases habove
    · cases hbelow

end PlantGrowth.Double
