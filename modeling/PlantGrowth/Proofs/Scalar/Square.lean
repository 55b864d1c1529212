import PlantGrowth.Proofs.Scalar.Order
import PlantGrowth.Proofs.Scalar.Quotient
import PlantGrowth.Proofs.Scalar.Truncation

/-!
# Second powers of doubles

The second power of a double is one of the two doubles next to the exact square. So it is infinite or
undefined just where the product is (`isInfinite_squared`), and elsewhere it keeps the place of the exact
square among the powers of two (`exists_value_squared`), as a product does.
-/

set_option autoImplicit false

namespace PlantGrowth.Double

variable {x y : Float} {v : ℝ}

/-! ## Rational values -/

/-- A double that has a value is read as that rational number. -/
theorem cast_toRat (hv : value? x = some v) : ((toRat x : ℚ) : ℝ) = v := by
  rw [toRat, Rat.mkRat_eq_div, Rat.cast_div, Rat.cast_intCast, Rat.cast_natCast]
  exact ratio_of_value hv

/-- Both neighbours of a number above zero are where rounding may take it. -/
theorem roundsTo_of_isNextTo {q : ℚ} (hq : 0 < q) (hnext : isNextTo q x = true)
    (hv : value? x = some v) : RoundsTo q v := by
  have hpos : (0 : ℝ) < q := Rat.cast_pos.2 hq
  have hspacing := Quotient.cast_spacing hq.ne'
  have hsteps : ((q / Quotient.spacing q : ℚ) : ℝ) = q / 2 ^ gridExponent q := by
    rw [Rat.cast_div, hspacing]
  have hnonneg : (0 : ℝ) ≤ q / 2 ^ gridExponent q := (div_pos hpos (zpow_pos two_pos _)).le
  have hfloor : (q / Quotient.spacing q).floor = (⌊(q : ℝ) / 2 ^ gridExponent q⌋₊ : ℕ) := by
    rw [Int.natCast_floor_eq_floor hnonneg, ← hsteps, Rat.floor_cast]
    rfl
  have hceil : (q / Quotient.spacing q).ceil = (⌈(q : ℝ) / 2 ^ gridExponent q⌉₊ : ℕ) := by
    rw [Int.natCast_ceil_eq_ceil hnonneg, ← hsteps, Rat.ceil_cast]
    exact Rat.ceil_eq_neg_floor_neg _
  have hgrid {n : ℤ} {m : ℕ} (hm : n = m) (h : toRat x = n * Quotient.spacing q) :
      v = m * 2 ^ gridExponent q := by
    rw [← cast_toRat hv, h, hm, Rat.cast_mul, hspacing]
    norm_cast
  simp only [isNextTo, Bool.or_eq_true, beq_iff_eq] at hnext
  rcases hnext with hbelow | habove
  · rw [hgrid hfloor hbelow]
    exact roundsTo_of_steps hpos le_rfl (Nat.floor_le_ceil _)
  · rw [hgrid hceil habove]
    exact roundsTo_of_steps hpos (Nat.floor_le_ceil _) le_rfl

/-! ## Second powers -/

/-- The two tests for finite doubles agree. -/
theorem isFinite_eq (x : Float) : x.isFinite = Scalar.isFinite x := by
  show x.toModel.unpack.isFinite = (!x.toModel.unpack.isNaN && !x.toModel.unpack.isInf)
  cases x.toModel.unpack <;> rfl

/-- A second power is the product, or both are finite and it is the other double next to the exact
square. -/
theorem squared_cases (x : Float) :
    squared x = x * x ∨
      Scalar.isFinite (x * x) = true ∧ toRat (x * x) ≠ toRat x * toRat x ∧
        Scalar.isFinite (squared x) = true ∧ isNextTo (toRat x * toRat x) (squared x) = true := by
  rw [squared]
  split
  · next h =>
    simp only [Bool.and_eq_true, Bool.not_eq_true', beq_eq_false_iff_ne, isFinite_eq] at h
    obtain ⟨⟨⟨hproduct, hinexact⟩, hpower⟩, hnext⟩ := h
    exact .inr ⟨hproduct, hinexact, hpower, hnext⟩
  · exact .inl rfl

/-- A second power is too large where the product is. -/
theorem isInfinite_squared (x : Float) :
    Scalar.isInfinite (Scalar.squared x) = Scalar.isInfinite (x * x) := by
  show Scalar.isInfinite (squared x) = _
  rcases squared_cases x with hproduct | ⟨hproduct, -, hpower, -⟩
  · rw [hproduct]
  · rw [Scalar.isFinite, Bool.and_eq_true, Bool.not_eq_true', Bool.not_eq_true'] at hproduct hpower
    rw [hproduct.2, hpower.2]

/-- Where the product has a value, the second power has one, and it is what the exact square may be
rounded to. -/
theorem exists_value_squared {s : ℝ} (hv : value? x = some v) (hs : value? (x * x) = some s) :
    ∃ p, value? (Scalar.squared x) = some p ∧ RoundsTo (v * v) p := by
  show ∃ p, value? (squared x) = some p ∧ RoundsTo (v * v) p
  rcases squared_cases x with hproduct | ⟨-, hinexact, hpower, hnext⟩
  · rw [hproduct]
    exact ⟨s, hs, ((isRounding_mul hv hv).of_value hs).1⟩
  · obtain ⟨p, hp⟩ := exists_value_of_isFinite hpower
    refine ⟨p, hp, ?_⟩
    have hexact : ((toRat x * toRat x : ℚ) : ℝ) = v * v := by rw [Rat.cast_mul, cast_toRat hv]
    -- The square of zero is exact, so the exact square is above zero here.
    have hne : v ≠ 0 := by
      rintro rfl
      have hzero := ((isRounding_mul hv hv).of_value hs).1.eq_of_fits
        ⟨0, 0, by norm_num, by norm_num, by simp⟩
      refine hinexact (Rat.cast_injective (α := ℝ) ?_)
      rw [cast_toRat hs, hexact, hzero]
    have hpos : 0 < toRat x * toRat x := by
      have hreal : (0 : ℝ) < v * v := mul_self_pos.2 hne
      rw [← hexact] at hreal
      exact_mod_cast hreal
    rw [← hexact]
    exact roundsTo_of_isNextTo hpos hnext hp

/-! ## Squares -/

/-- Where the product is not infinite, the square exists and is the second power. -/
theorem square_of_not_isInfinite (h : Scalar.isInfinite (y * y) = false) :
    Scalar.square y = .ok (Scalar.squared y) := by
  rw [Scalar.square, isInfinite_squared, h]
  rfl

/-- The square of a number that is not too large is a number. -/
theorem Within.square {k : ℤ} (h : Within k y) (hleast : -1074 ≤ k + k) (hk : k + k < 1024) :
    Scalar.square y = .ok (Scalar.squared y) :=
  square_of_not_isInfinite (h.mul h hleast hk).isInfinite

end PlantGrowth.Double
