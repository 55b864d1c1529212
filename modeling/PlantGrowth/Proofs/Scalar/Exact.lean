import Mathlib.Analysis.SpecialFunctions.Trigonometric.Basic
import PlantGrowth.Scalar.Basic

/-!
# Exact arithmetic

The real numbers as scalars. Read over them, the definitions of the library say what they would
compute without rounding: no number is infinite or undefined, so no square, sine or cosine fails.

A module that writes decimals over `ℝ` imports Mathlib before the modules of the library, so that
every module reads its decimals by the same instance.
-/

set_option autoImplicit false

namespace PlantGrowth

noncomputable instance Scalar.exact : Scalar ℝ where
  decidableLT := inferInstance
  decidableLE := inferInstance
  squared x := x * x
  sqrt := Real.sqrt
  sin := Real.sin
  cos := Real.cos
  pi := Real.pi
  ofNat n := n
  isNaN _ := false
  isInfinite _ := false
  floor := Int.floor
  truncate x := if 0 ≤ x then ⌊x⌋ else ⌈x⌉

namespace Scalar

/-- The sine is that of the reals. -/
@[simp] theorem exact_sin (x : ℝ) : Scalar.sin x = Real.sin x := rfl

/-- The cosine is that of the reals. -/
@[simp] theorem exact_cos (x : ℝ) : Scalar.cos x = Real.cos x := rfl

/-- Natural numbers are exact. -/
@[simp] theorem exact_ofNat (n : Nat) : (Scalar.ofNat n : ℝ) = n := rfl

/-- Every real is a number. -/
@[simp] theorem exact_isNaN (x : ℝ) : Scalar.isNaN x = false := rfl

/-- No real is infinite. -/
@[simp] theorem exact_isInfinite (x : ℝ) : Scalar.isInfinite x = false := rfl

/-- Every real is finite. -/
@[simp] theorem exact_isFinite (x : ℝ) : Scalar.isFinite x = true := rfl

/-- The second power is the product. -/
@[simp] theorem exact_squared (x : ℝ) : Scalar.squared x = x * x := rfl

/-- Every square exists. -/
@[simp] theorem exact_square (x : ℝ) : Scalar.square x = .ok (x * x) := rfl

/-- Every sine exists. -/
@[simp] theorem exact_sine (x : ℝ) : Scalar.sine x = .ok (Real.sin x) := rfl

/-- Every cosine exists. -/
@[simp] theorem exact_cosine (x : ℝ) : Scalar.cosine x = .ok (Real.cos x) := rfl

/-- Every real has an integer near it. -/
@[simp] theorem exact_toInteger (near : ℝ → Int) (x : ℝ) :
    Scalar.toInteger near x = .ok (near x) := rfl

end Scalar

end PlantGrowth
