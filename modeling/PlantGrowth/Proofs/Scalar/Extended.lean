import PlantGrowth.Proofs.Scalar.Order
import PlantGrowth.Proofs.Scalar.Truncation

/-!
# Doubles as extended reals

A double that is not undefined stands for an extended real number (`extended?`), and such doubles compare
as these numbers do (`lt_iff_of_extended`, `le_iff_of_extended`). Sums, differences and products of
doubles that have values are the nearest doubles, where those that are too large count as infinite
(`NearestDouble`); so a larger exact result has no smaller double, whether it is finite or not
(`NearestDouble.mono`).
-/

set_option autoImplicit false

namespace PlantGrowth.Double

open Float.Model Float.Model.UnpackedFloat

/-! ## Extended reals -/

/-- The extended real number that a number stands for, unless it is undefined. -/
noncomputable def extendedOf : UnpackedFloat → Option EReal
  | .infinity .positive => some ⊤
  | .infinity .negative => some ⊥
  | u => (valueOf u).map fun r => (r : EReal)

/-- A number with a value is read as this value. -/
theorem extendedOf_of_valueOf {u : UnpackedFloat} {r : ℝ} (h : valueOf u = some r) :
    extendedOf u = some (r : EReal) := by
  rcases eq_of_valueOf_eq_some h with ⟨s, rfl, -⟩ | ⟨s, m, e, hm, rfl, -⟩ <;>
    exact congrArg (Option.map _) h

/-- A number is undefined, or one of the two infinities, or it has a value. -/
theorem extendedOf_cases (u : UnpackedFloat) :
    (u = .notANumber ∧ extendedOf u = none) ∨ (u = .infinity .positive ∧ extendedOf u = some ⊤) ∨
      (u = .infinity .negative ∧ extendedOf u = some ⊥) ∨
      ∃ r, valueOf u = some r ∧ extendedOf u = some (r : EReal) := by
  cases u with
  | notANumber => exact .inl ⟨rfl, rfl⟩
  | infinity s =>
    cases s with
    | positive => exact .inr (.inl ⟨rfl, rfl⟩)
    | negative => exact .inr (.inr (.inl ⟨rfl, rfl⟩))
  | zero s => exact .inr (.inr (.inr ⟨0, rfl, rfl⟩))
  | finite s m e hm => exact .inr (.inr (.inr ⟨_, rfl, rfl⟩))

/-- Only what is not a number is read as nothing. -/
theorem eq_of_extendedOf_eq_none {u : UnpackedFloat} (h : extendedOf u = none) :
    u = .notANumber := by
  rcases extendedOf_cases u with ⟨hu, -⟩ | ⟨-, h'⟩ | ⟨-, h'⟩ | ⟨r, -, h'⟩
  · exact hu
  all_goals
    rw [h'] at h
    cases h

/-- Only the positive infinity is read as the greatest element. -/
theorem eq_of_extendedOf_eq_top {u : UnpackedFloat} (h : extendedOf u = some ⊤) :
    u = .infinity .positive := by
  rcases extendedOf_cases u with ⟨-, h'⟩ | ⟨hu, -⟩ | ⟨-, h'⟩ | ⟨r, -, h'⟩
  · rw [h'] at h
    cases h
  · exact hu
  · rw [h'] at h
    cases h
  · rw [h'] at h
    exact absurd (Option.some_inj.1 h) (EReal.coe_ne_top r)

/-- Canonical numbers compare as the extended reals that they stand for. -/
theorem compare_of_extended {u v : UnpackedFloat} (hu : IsCanonical u) (hv : IsCanonical v) {a b : EReal}
    (ha : extendedOf u = some a) (hb : extendedOf v = some b) :
    UnpackedFloat.compare u v = some (compare a b) := by
  have hreals (r s : ℝ) : compare (r : EReal) (s : EReal) = compare r s := by
    rw [← cmp_eq_compare, ← cmp_eq_compare]
    exact EReal.coe_strictMono.cmp_map_eq r s
  have hfinite {u : UnpackedFloat} {r : ℝ} (h : valueOf u = some r) :
      (∃ s, u = .zero s) ∨ ∃ s m e, ∃ hm : 0 < m, u = .finite s m e hm := by
    rcases eq_of_valueOf_eq_some h with ⟨s, hu, -⟩ | ⟨s, m, e, hm, hu, -⟩
    · exact .inl ⟨s, hu⟩
    · exact .inr ⟨s, m, e, hm, hu⟩
  rcases extendedOf_cases u with ⟨-, hnone⟩ | ⟨rfl, hu'⟩ | ⟨rfl, hu'⟩ | ⟨r, hr, hu'⟩
  · rw [hnone] at ha
    cases ha
  all_goals
    rw [hu'] at ha
    cases ha
    rcases extendedOf_cases v with ⟨-, hnone⟩ | ⟨rfl, hv'⟩ | ⟨rfl, hv'⟩ | ⟨s, hs, hv'⟩
    · rw [hnone] at hb
      cases hb
    all_goals
      rw [hv'] at hb
      cases hb
  · exact congrArg some (compare_eq_iff_eq.2 rfl).symm
  · exact congrArg some (compare_gt_iff_gt.2 bot_lt_top).symm
  · rw [compare_gt_iff_gt.2 (EReal.coe_lt_top s)]
    rcases hfinite hs with ⟨t, rfl⟩ | ⟨t, m, e, hm, rfl⟩ <;> rfl
  · exact congrArg some (compare_lt_iff_lt.2 bot_lt_top).symm
  · exact congrArg some (compare_eq_iff_eq.2 rfl).symm
  · rw [compare_lt_iff_lt.2 (EReal.bot_lt_coe s)]
    rcases hfinite hs with ⟨t, rfl⟩ | ⟨t, m, e, hm, rfl⟩ <;> rfl
  · rw [compare_lt_iff_lt.2 (EReal.coe_lt_top r)]
    rcases hfinite hr with ⟨t, rfl⟩ | ⟨t, m, e, hm, rfl⟩ <;> rfl
  · rw [compare_gt_iff_gt.2 (EReal.bot_lt_coe r)]
    rcases hfinite hr with ⟨t, rfl⟩ | ⟨t, m, e, hm, rfl⟩ <;> rfl
  · rw [hreals]
    exact compare_of_values hu hv hr hs

/-- The extended real number that a double stands for, unless it is undefined. -/
noncomputable def extended? (x : Float) : Option EReal := extendedOf x.toModel.unpack

section Comparison

variable {x y : Float} {a b : EReal}

/-- A double with a value is read as this value. -/
theorem extended_of_value {r : ℝ} (h : value? x = some r) : extended? x = some (r : EReal) :=
  extendedOf_of_valueOf h

/-- A double is less than another one exactly if what it is read as is less. -/
theorem lt_iff_of_extended (ha : extended? x = some a) (hb : extended? y = some b) :
    x < y ↔ a < b := by
  have hcompare := compare_of_extended (isCanonical_unpack _) (isCanonical_unpack _) ha hb
  rw [lt_iff_compare, hcompare, Option.some_inj, compare_lt_iff_lt]

/-- A double is at most another one exactly if what it is read as is. -/
theorem le_iff_of_extended (ha : extended? x = some a) (hb : extended? y = some b) :
    x ≤ y ↔ a ≤ b := by
  have hcompare := compare_of_extended (isCanonical_unpack _) (isCanonical_unpack _) ha hb
  rw [le_iff_compare, hcompare, Option.any_some, Ordering.isLE_iff_ne_gt]
  exact compare_le_iff_le

/-- What is not a number is what is read as nothing. -/
theorem isNaN_iff_extended : Scalar.isNaN x = true ↔ extended? x = none := by
  have htest : Scalar.isNaN x = x.toModel.unpack.isNaN := rfl
  rw [htest, extended?]
  rcases extendedOf_cases x.toModel.unpack with ⟨hx, h⟩ | ⟨hx, h⟩ | ⟨hx, h⟩ | ⟨r, hr, h⟩
  · rw [h, hx]
    exact iff_of_true rfl rfl
  · rw [h, hx]
    exact iff_of_false nofun nofun
  · rw [h, hx]
    exact iff_of_false nofun nofun
  · have hnan : Scalar.isNaN x = false := isNaN_of_value hr
    rw [h, ← htest, hnan]
    exact iff_of_false nofun nofun

/-- What is read as something is a number. -/
theorem isNaN_of_extended (ha : extended? x = some a) : Scalar.isNaN x = false := by
  rw [← Bool.not_eq_true, isNaN_iff_extended, ha]
  exact Option.some_ne_none a

/-- An undefined number is neither below nor above another one. -/
theorem compare_eq_none (h : extended? x = none ∨ extended? y = none) :
    UnpackedFloat.compare x.toModel.unpack y.toModel.unpack = none := by
  rcases h with h | h
  · rw [eq_of_extendedOf_eq_none h]
    cases y.toModel.unpack <;> rfl
  · rw [eq_of_extendedOf_eq_none h]
    cases x.toModel.unpack <;> rfl

/-- Nothing is less than what is not a number, nor greater. -/
theorem not_lt_of_extended_eq_none (h : extended? x = none ∨ extended? y = none) : ¬ x < y := by
  rw [lt_iff_compare, compare_eq_none h]
  exact nofun

/-- Nothing is at most what is not a number, nor at least. -/
theorem not_le_of_extended_eq_none (h : extended? x = none ∨ extended? y = none) : ¬ x ≤ y := by
  rw [le_iff_compare, compare_eq_none h]
  exact Bool.false_ne_true

/-- A double that is read as a real has it as its value. -/
theorem value_of_extended {r : ℝ} (h : extended? x = some (r : EReal)) : value? x = some r := by
  rcases extendedOf_cases x.toModel.unpack with ⟨-, h'⟩ | ⟨-, h'⟩ | ⟨-, h'⟩ | ⟨s, hs, h'⟩ <;>
    rw [extended?, h'] at h
  · cases h
  · cases h
  · cases h
  · rw [EReal.coe_injective (Option.some_inj.1 h)] at hs
    exact hs

/-- The larger of two doubles is the larger number. -/
theorem extended_maxOf (ha : extended? x = some a) (hb : extended? y = some b) :
    extended? (Scalar.maxOf x y) = some (max a b) := by
  rw [Scalar.maxOf]
  split
  · next h =>
    rw [max_eq_right ((lt_iff_of_extended ha hb).1 h).le]
    exact hb
  · next h =>
    rw [max_eq_left (not_lt.1 fun hlt => h ((lt_iff_of_extended ha hb).2 hlt))]
    exact ha

/-- The lesser of two doubles is read as the lesser of what they are read as. -/
theorem extended_minOf (ha : extended? x = some a) (hb : extended? y = some b) :
    extended? (Scalar.minOf x y) = some (min a b) := by
  rw [Scalar.minOf]
  split
  · next h =>
    rw [min_eq_right ((lt_iff_of_extended hb ha).1 h).le]
    exact hb
  · next h =>
    rw [min_eq_left (not_lt.1 fun hlt => h ((lt_iff_of_extended hb ha).2 hlt))]
    exact ha

/-- The order of doubles is transitive. -/
theorem le_trans {z : Float} (hxy : x ≤ y) (hyz : y ≤ z) : x ≤ z := by
  cases hx : extended? x with
  | none => exact absurd hxy (not_le_of_extended_eq_none (.inl hx))
  | some a =>
    cases hy : extended? y with
    | none => exact absurd hxy (not_le_of_extended_eq_none (.inr hy))
    | some b =>
      cases hz : extended? z with
      | none => exact absurd hyz (not_le_of_extended_eq_none (.inr hz))
      | some c =>
        exact (le_iff_of_extended hx hz).2
          (((le_iff_of_extended hx hy).1 hxy).trans ((le_iff_of_extended hy hz).1 hyz))

/-- What is read as the greatest element is infinite. -/
theorem isInfinite_of_extended_eq_top (h : extended? x = some ⊤) : Scalar.isInfinite x = true := by
  show x.toModel.unpack.isInf = true
  rw [eq_of_extendedOf_eq_top h]
  rfl

/-- The larger and the smaller one of two doubles are the first one if that is undefined. -/
theorem maxOf_of_extended_eq_none (h : extended? x = none) : Scalar.maxOf x y = x :=
  if_neg (not_lt_of_extended_eq_none (.inl h))

/-- What is not a number stays so where it comes first in a minimum. -/
theorem minOf_of_extended_eq_none (h : extended? x = none) : Scalar.minOf x y = x :=
  if_neg (not_lt_of_extended_eq_none (.inr h))

end Comparison

/-! ## Undefined and infinite operands -/

section Operands

variable {x y : Float} {p : ℝ}

/-- A sum with what is not a number is not a number. -/
theorem extended_add_eq_none (h : extended? y = none) : extended? (x + y) = none := by
  have hsum : UnpackedFloat.add Format.binary64 x.toModel.unpack .notANumber = .notANumber := by
    cases x.toModel.unpack <;> rfl
  show extendedOf (Float.Model.pack (UnpackedFloat.add Format.binary64 x.toModel.unpack
    y.toModel.unpack)).unpack = none
  rw [eq_of_extendedOf_eq_none h, hsum, unpack_pack_notANumber]
  rfl

/-- A product with what is not a number is not a number. -/
theorem extended_mul_eq_none (h : extended? y = none) : extended? (x * y) = none := by
  have hproduct : UnpackedFloat.mul Format.binary64 x.toModel.unpack .notANumber = .notANumber := by
    cases x.toModel.unpack <;> rfl
  show extendedOf (Float.Model.pack (UnpackedFloat.mul Format.binary64 x.toModel.unpack
    y.toModel.unpack)).unpack = none
  rw [eq_of_extendedOf_eq_none h, hproduct, unpack_pack_notANumber]
  rfl

/-- A number with a value and infinity add up to infinity. -/
theorem extended_add_eq_top (hp : value? x = some p) (h : extended? y = some ⊤) :
    extended? (x + y) = some ⊤ := by
  have hsum : UnpackedFloat.add Format.binary64 x.toModel.unpack (.infinity .positive) =
      .infinity .positive := by
    rcases eq_of_valueOf_eq_some hp with ⟨s, hx, -⟩ | ⟨s, m, e, hm, hx, -⟩ <;> rw [hx] <;> rfl
  show extendedOf (Float.Model.pack (UnpackedFloat.add Format.binary64 x.toModel.unpack
    y.toModel.unpack)).unpack = some ⊤
  rw [eq_of_extendedOf_eq_top h, hsum, unpack_pack_infinity]
  rfl

/-- An infinite number times zero is undefined, and times a greater number infinite. -/
theorem extended_mul_of_top (h : extended? x = some ⊤) (hp : value? y = some p) (hnonneg : 0 ≤ p) :
    extended? (x * y) = if p = 0 then none else some ⊤ := by
  show extendedOf (Float.Model.pack (UnpackedFloat.mul Format.binary64 x.toModel.unpack
    y.toModel.unpack)).unpack = _
  rw [eq_of_extendedOf_eq_top h]
  rcases eq_of_valueOf_eq_some hp with ⟨s, hy, rfl⟩ | ⟨s, m, e, hm, hy, rfl⟩
  · have hproduct : UnpackedFloat.mul Format.binary64 (.infinity .positive) (.zero s) =
      .notANumber := rfl
    rw [hy, if_pos rfl, hproduct, unpack_pack_notANumber]
    rfl
  · have hpos : (0 : ℝ) < m * 2 ^ e := mul_pos (Nat.cast_pos.2 hm) (zpow_pos two_pos e)
    cases s with
    | positive =>
      have hproduct : UnpackedFloat.mul Format.binary64 (.infinity .positive)
        (.finite .positive m e hm) = .infinity .positive := rfl
      have hne : signed .positive (m * 2 ^ e) ≠ 0 := hpos.ne'
      rw [hy, if_neg hne, hproduct, unpack_pack_infinity]
      rfl
    | negative => exact absurd hnonneg (not_le.2 (neg_neg_of_pos hpos))

end Operands

/-! ## The nearest double -/

/-- A number that is too large for a double becomes infinite. -/
noncomputable def clip (r : ℝ) : EReal :=
  if |r| < (2 : ℕ) ^ (1024 : ℤ) then r else if 0 < r then ⊤ else ⊥

/-- A real is clipped where its magnitude has more than 1024 bits, to the infinity on its side. -/
theorem clip_eq (r : ℝ) :
    clip r = if |r| < 2 ^ (1024 : ℤ) then (r : EReal) else if 0 < r then ⊤ else ⊥ := by
  rw [clip, Nat.cast_ofNat]

/-- A real that is not too large is not clipped. -/
theorem clip_of_lt {r : ℝ} (h : |r| < 2 ^ (1024 : ℤ)) : clip r = r := (clip_eq r).trans (if_pos h)

/-- Clipping keeps the order. -/
theorem clip_mono {r s : ℝ} (h : r ≤ s) : clip r ≤ clip s := by
  rw [clip_eq, clip_eq]
  by_cases hr : |r| < 2 ^ (1024 : ℤ)
  · rw [if_pos hr]
    by_cases hs : |s| < 2 ^ (1024 : ℤ)
    · rw [if_pos hs]
      exact EReal.coe_le_coe_iff.2 h
    · -- The larger number is too large, and not below zero.
      have hpos : 0 < s := by
        by_contra hneg
        rw [abs_of_nonpos (not_lt.1 hneg)] at hs
        have hlow := (abs_lt.1 hr).1
        linarith
      rw [if_neg hs, if_pos hpos]
      exact le_top
  · rw [if_neg hr]
    by_cases hpos : 0 < r
    · have hs : ¬ |s| < 2 ^ (1024 : ℤ) := by
        rw [abs_of_pos hpos] at hr
        rw [abs_of_pos (hpos.trans_le h)]
        exact fun hs => hr (h.trans_lt hs)
      rw [if_pos hpos, if_neg hs, if_pos (hpos.trans_le h)]
    · rw [if_neg hpos]
      exact bot_le

/-- A canonical number that is packed and unpacked is read as its value, clipped. -/
theorem extendedOf_unpack_pack {u : UnpackedFloat} (hu : IsCanonical u) {r : ℝ}
    (hr : valueOf u = some r) : extendedOf (Float.Model.pack u).unpack = some (clip r) := by
  by_cases hlt : |r| < 2 ^ (1024 : ℤ)
  · have hvalue := valueOf_unpack_pack hu hr
    rw [if_pos hlt] at hvalue
    rw [clip_of_lt hlt]
    exact extendedOf_of_valueOf hvalue
  · rcases eq_of_valueOf_eq_some hr with ⟨s, rfl, rfl⟩ | ⟨s, m, e, hm, rfl, rfl⟩
    · rw [abs_zero] at hlt
      exact absurd (zpow_pos two_pos 1024) hlt
    · have hpos : (0 : ℝ) < m * 2 ^ e := mul_pos (Nat.cast_pos.2 hm) (zpow_pos two_pos e)
      have hlarge : 971 < e := by
        rw [abs_signed_mul_zpow] at hlt
        exact not_le.1 fun hfits => hlt ((lt_two_zpow_iff hu.1 hu.2.2).2 hfits)
      rw [unpack_pack_of_lt s hm hlarge, clip_eq, if_neg hlt]
      cases s with
      | positive => exact congrArg some (if_pos hpos).symm
      | negative => exact congrArg some (if_neg (neg_neg_of_pos hpos).not_gt).symm

/-- The double is the one nearest to a number, or infinite if that one is too large. -/
inductive NearestDouble (x : ℝ) (y : Float) : Prop
  | intro (r : ℝ) (hr : IsNearest x r) (hy : extended? y = some (clip r))

/-- What packs to a double that is nearest to a real is the double nearest to it. -/
theorem nearestDouble_of_nearestTo {x : ℝ} {u : UnpackedFloat} {y : Float} (h : NearestTo x u)
    (hy : y.toModel = Float.Model.pack u) : NearestDouble x y := by
  obtain ⟨hu, r, hr, hnearest⟩ := h
  refine ⟨r, hnearest, ?_⟩
  rw [extended?, hy]
  exact extendedOf_unpack_pack hu hr

section Operations

variable {x y : Float} {p q : ℝ}

/-- A sum is the double nearest to the sum of the values. -/
theorem nearestDouble_add (hp : value? x = some p) (hq : value? y = some q) :
    NearestDouble (p + q) (x + y) :=
  nearestDouble_of_nearestTo (nearestTo_add (isCanonical_unpack _) (isCanonical_unpack _) hp hq) rfl

/-- A difference is the double nearest to the difference of the values. -/
theorem nearestDouble_sub (hp : value? x = some p) (hq : value? y = some q) :
    NearestDouble (p - q) (x - y) :=
  nearestDouble_of_nearestTo (nearestTo_sub (isCanonical_unpack _) (isCanonical_unpack _) hp hq) rfl

/-- A product is the double nearest to the product of the values. -/
theorem nearestDouble_mul (hp : value? x = some p) (hq : value? y = some q) :
    NearestDouble (p * q) (x * y) :=
  nearestDouble_of_nearestTo (nearestTo_mul (isCanonical_unpack _) (isCanonical_unpack _) hp hq) rfl

/-- The value of a double is nearest to itself. -/
theorem isNearest_self (hp : value? x = some p) : IsNearest p p := by
  obtain ⟨-, r, hr, hnearest⟩ := nearestTo_self (isCanonical_unpack _) hp
  have hp : valueOf x.toModel.unpack = some p := hp
  rw [hp] at hr
  cases hr
  exact hnearest

/-- A double that has a value is the one nearest to it. -/
theorem nearestDouble_self (hp : value? x = some p) : NearestDouble p x := by
  refine ⟨p, isNearest_self hp, ?_⟩
  rw [clip_of_lt (abs_lt_of_value hp)]
  exact extended_of_value hp

end Operations

namespace NearestDouble

variable {r s : ℝ} {x y : Float}

/-- A larger number has no smaller nearest double. -/
theorem mono (hx : NearestDouble r x) (hy : NearestDouble s y) (h : r ≤ s) : x ≤ y := by
  obtain ⟨r', hr, hx⟩ := hx
  obtain ⟨s', hs, hy⟩ := hy
  exact (le_iff_of_extended hx hy).2 (clip_mono (hr.mono hs h))

/-- A double that is nearest to a real is a number. -/
theorem isNaN (hx : NearestDouble r x) : Scalar.isNaN x = false := by
  obtain ⟨r', -, hx⟩ := hx
  exact isNaN_of_extended hx

/-- The nearest double has a value or is infinite, where the exact result is not below zero. -/
theorem value_or_top (hx : NearestDouble r x) (hr : 0 ≤ r) :
    (∃ r', value? x = some r' ∧ IsNearest r r') ∨ extended? x = some ⊤ := by
  obtain ⟨r', hr', hx⟩ := hx
  by_cases hlt : |r'| < 2 ^ (1024 : ℤ)
  · rw [clip_of_lt hlt] at hx
    exact .inl ⟨r', value_of_extended hx, hr'⟩
  · have hpos : 0 < r' := by
      refine lt_of_le_of_ne (hr'.roundsTo.nonneg hr) ?_
      rintro rfl
      rw [abs_zero] at hlt
      exact hlt (zpow_pos two_pos 1024)
    rw [clip_eq, if_neg hlt, if_pos hpos] at hx
    exact .inr hx

/-- The nearest double of a number that is at most the value of a double has a value. -/
theorem exists_value (hx : NearestDouble r x) (hs : value? y = some s) (hr : 0 ≤ r) (h : r ≤ s) :
    ∃ r', value? x = some r' ∧ IsNearest r r' := by
  refine (hx.value_or_top hr).resolve_right fun htop => ?_
  have hle := (le_iff_of_extended htop (extended_of_value hs)).1 (hx.mono (nearestDouble_self hs) h)
  exact absurd (EReal.coe_lt_top s) (not_lt.2 hle)

end NearestDouble

end PlantGrowth.Double
