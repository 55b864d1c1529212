import Mathlib.Tactic.Ring
import PlantGrowth.Space.Quat

/-!
# Frames in space

Products and rotations of orientations, over any commutative ring. To be turned by a product is to be
turned by its second factor and then by its first one (`Quat.rotate_mul`), and a rotation is linear. So
what is measured in a frame that is itself measured in another frame can be measured in that one.
-/

set_option autoImplicit false

namespace PlantGrowth

variable {R : Type} [CommRing R]

namespace Vec3

/-- The first coordinate of a sum. -/
@[simp] theorem x_add (u v : Vec3 R) : (u + v).x = u.x + v.x := rfl

/-- The second coordinate of a sum. -/
@[simp] theorem y_add (u v : Vec3 R) : (u + v).y = u.y + v.y := rfl

/-- The third coordinate of a sum. -/
@[simp] theorem z_add (u v : Vec3 R) : (u + v).z = u.z + v.z := rfl

/-- The first coordinate of a difference. -/
@[simp] theorem x_sub (u v : Vec3 R) : (u - v).x = u.x - v.x := rfl

/-- The second coordinate of a difference. -/
@[simp] theorem y_sub (u v : Vec3 R) : (u - v).y = u.y - v.y := rfl

/-- The third coordinate of a difference. -/
@[simp] theorem z_sub (u v : Vec3 R) : (u - v).z = u.z - v.z := rfl

/-- Sums of vectors are associative. -/
protected theorem add_assoc (u v w : Vec3 R) : u + v + w = u + (v + w) := by
  ext <;> simp [add_assoc]

/-- The origin adds nothing. -/
theorem add_origin (v : Vec3 R) : v + origin = v := by
  ext <;> simp [origin]

/-- The origin takes nothing away. -/
theorem sub_origin (v : Vec3 R) : v - origin = v := by
  ext <;> simp [origin]

end Vec3

namespace Quat

/-- The real part of a product. -/
@[simp] theorem w_mul (a b : Quat R) :
    (a * b).w = a.w * b.w - a.x * b.x - a.y * b.y - a.z * b.z := rfl

/-- The first imaginary part of a product. -/
@[simp] theorem x_mul (a b : Quat R) :
    (a * b).x = a.w * b.x + a.x * b.w + a.y * b.z - a.z * b.y := rfl

/-- The second imaginary part of a product. -/
@[simp] theorem y_mul (a b : Quat R) :
    (a * b).y = a.w * b.y - a.x * b.z + a.y * b.w + a.z * b.x := rfl

/-- The third imaginary part of a product. -/
@[simp] theorem z_mul (a b : Quat R) :
    (a * b).z = a.w * b.z + a.x * b.y - a.y * b.x + a.z * b.w := rfl

/-- Products of orientations are associative. -/
protected theorem mul_assoc (a b c : Quat R) : a * b * c = a * (b * c) := by
  ext <;> simp only [w_mul, x_mul, y_mul, z_mul] <;> ring

/-- The identity is neutral as the second factor. -/
theorem mul_identity (a : Quat R) : a * identity = a := by
  ext <;> simp [identity]

/-- A rotation of a sum is the sum of the rotations. -/
theorem rotate_add (q : Quat R) (u v : Vec3 R) : q.rotate (u + v) = q.rotate u + q.rotate v := by
  ext <;> simp only [rotate, Vec3.x_add, Vec3.y_add, Vec3.z_add] <;> ring

/-- A rotation of a multiple is the multiple of the rotation. -/
theorem rotate_scale (q : Quat R) (v : Vec3 R) (weight : R) :
    q.rotate (v.scale weight) = (q.rotate v).scale weight := by
  ext <;> simp only [rotate, Vec3.scale] <;> ring

/-- A rotation leaves the origin where it is. -/
theorem rotate_origin (q : Quat R) : q.rotate Vec3.origin = Vec3.origin := by
  ext <;> simp [rotate, Vec3.origin]

/-- The second factor of a product turns first. -/
theorem rotate_mul (a b : Quat R) (v : Vec3 R) : (a * b).rotate v = a.rotate (b.rotate v) := by
  ext <;> simp only [rotate, w_mul, x_mul, y_mul, z_mul] <;> ring

end Quat

end PlantGrowth
