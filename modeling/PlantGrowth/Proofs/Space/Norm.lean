import Mathlib.Tactic.Ring
import PlantGrowth.Space.Quat

/-!
# Lengths in space

Squares of lengths of directions and orientations, over any commutative ring. The length of a product
of orientations is the product of their lengths, and an orientation of length one turns a direction
without a change of its length.
-/

set_option autoImplicit false

namespace PlantGrowth

variable {R : Type} [CommRing R]

namespace Vec3

/-- The square of the length of a direction. -/
def normSq (v : Vec3 R) : R := v.x * v.x + v.y * v.y + v.z * v.z

/-- The upward direction has length one. -/
theorem normSq_up : (up : Vec3 R).normSq = 1 := by
  simp [normSq, up]

/-- To scale a vector multiplies its square by the square of the weight. -/
theorem normSq_scale (v : Vec3 R) (weight : R) :
    (v.scale weight).normSq = v.normSq * weight ^ 2 := by
  simp only [normSq, scale]
  ring

/-- A point that is moved by a vector is away from where it was by this vector. -/
theorem distanceSq_add_self (point v : Vec3 R) : (point + v).distanceSq point = v.normSq := by
  have hx : (point + v - point).x = point.x + v.x - point.x := rfl
  have hy : (point + v - point).y = point.y + v.y - point.y := rfl
  have hz : (point + v - point).z = point.z + v.z - point.z := rfl
  simp only [distanceSq, normSq, hx, hy, hz]
  ring

end Vec3

namespace Quat

/-- The square of the length of an orientation. -/
def normSq (q : Quat R) : R := q.w * q.w + q.x * q.x + q.y * q.y + q.z * q.z

/-- The identity has norm one. -/
theorem normSq_identity : (identity : Quat R).normSq = 1 := by
  simp [normSq, identity]

/-- The norm of a product is the product of the norms. -/
theorem normSq_mul (a b : Quat R) : (a * b).normSq = a.normSq * b.normSq := by
  have hw : (a * b).w = a.w * b.w - a.x * b.x - a.y * b.y - a.z * b.z := rfl
  have hx : (a * b).x = a.w * b.x + a.x * b.w + a.y * b.z - a.z * b.y := rfl
  have hy : (a * b).y = a.w * b.y - a.x * b.z + a.y * b.w + a.z * b.x := rfl
  have hz : (a * b).z = a.w * b.z + a.x * b.y - a.y * b.x + a.z * b.w := rfl
  simp only [normSq, hw, hx, hy, hz]
  ring

/-- A rotation multiplies the square of a vector by the square of the norm. -/
theorem normSq_rotate (q : Quat R) (v : Vec3 R) :
    (q.rotate v).normSq = q.normSq ^ 2 * v.normSq := by
  simp only [normSq, Vec3.normSq, rotate]
  ring

/-- An orientation of length one turns a direction without a change of its length. -/
theorem normSq_rotate_of_normSq_eq_one {q : Quat R} (h : q.normSq = 1) (v : Vec3 R) :
    (q.rotate v).normSq = v.normSq := by
  rw [normSq_rotate, h, one_pow, one_mul]

end Quat

end PlantGrowth
