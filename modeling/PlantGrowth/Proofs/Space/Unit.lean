import Mathlib.Analysis.SpecialFunctions.Trigonometric.Basic
import PlantGrowth.Proofs.Scalar.Exact
import PlantGrowth.Proofs.Space.Frame
import PlantGrowth.Proofs.Space.Norm

/-!
# Directions in exact arithmetic

In exact arithmetic every vector has a direction, `Vec3.unit`. It has length one, unless the vector is
zero: then there is nothing to point to, and the direction is zero as well.
-/

set_option autoImplicit false

namespace PlantGrowth.Vec3

/-- The vector of length one along a vector; the zero vector stays as it is. -/
noncomputable def unit (v : Vec3 ℝ) : Vec3 ℝ :=
  if v.normSq = 0 then v else v.scale (1 / √v.normSq)

/-- The square of a vector is not negative. -/
theorem normSq_nonneg (v : Vec3 ℝ) : 0 ≤ v.normSq :=
  add_nonneg (add_nonneg (mul_self_nonneg v.x) (mul_self_nonneg v.y)) (mul_self_nonneg v.z)

/-- Only the origin has the square zero. -/
theorem normSq_eq_zero_iff {v : Vec3 ℝ} : v.normSq = 0 ↔ v = origin := by
  have hx := mul_self_nonneg v.x
  have hy := mul_self_nonneg v.y
  have hz := mul_self_nonneg v.z
  constructor
  · intro h
    unfold normSq at h
    exact Vec3.ext (mul_self_eq_zero.1 (by linarith)) (mul_self_eq_zero.1 (by linarith))
      (mul_self_eq_zero.1 (by linarith))
  · rintro rfl
    simp [normSq, origin]

/-- In exact arithmetic every vector has a direction. -/
theorem normalize_exact (v : Vec3 ℝ) : v.normalize = .ok v.unit := by
  have hlength : v.length = .ok √v.normSq := rfl
  have hzero : (√v.normSq == 0) = true ↔ v.normSq = 0 := by
    rw [beq_iff_eq, Real.sqrt_eq_zero v.normSq_nonneg]
  rw [normalize, hlength, unit]
  by_cases h : v.normSq = 0
  · rw [if_pos h]
    exact congrArg Except.ok (if_pos (hzero.2 h))
  · rw [if_neg h]
    exact congrArg Except.ok (if_neg fun hroot => h (hzero.1 hroot))

/-- The direction of a vector of known length. -/
theorem unit_of_normSq_eq {v : Vec3 ℝ} {r : ℝ} (hr : 0 < r) (h : v.normSq = r ^ 2) :
    v.unit = v.scale (1 / r) := by
  have hne : v.normSq ≠ 0 := by
    rw [h]
    exact (pow_pos hr 2).ne'
  rw [unit, if_neg hne, h, Real.sqrt_sq hr.le]

/-- The origin has no direction, and stays what it is. -/
theorem unit_origin : (origin : Vec3 ℝ).unit = origin := if_pos (normSq_eq_zero_iff.2 rfl)

/-- Every other vector has a direction of length one. -/
theorem normSq_unit {v : Vec3 ℝ} (h : v ≠ origin) : v.unit.normSq = 1 := by
  have hne : v.normSq ≠ 0 := fun hzero => h (normSq_eq_zero_iff.1 hzero)
  rw [unit, if_neg hne, normSq_scale, div_pow, one_pow, Real.sq_sqrt v.normSq_nonneg,
    mul_one_div_cancel hne]

/-- Every multiple of the origin is the origin. -/
theorem scale_origin (weight : ℝ) : (origin : Vec3 ℝ).scale weight = origin := by
  simp [scale, origin]

/-- A vector of length one is its own direction. -/
theorem unit_of_normSq_eq_one {v : Vec3 ℝ} (h : v.normSq = 1) : v.unit = v := by
  rw [unit_of_normSq_eq one_pos (h.trans (one_pow 2).symm), one_div_one]
  exact Vec3.ext (mul_one v.x) (mul_one v.y) (mul_one v.z)

end PlantGrowth.Vec3
