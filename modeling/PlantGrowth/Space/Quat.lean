import PlantGrowth.Space.Vec3

/-!
# Orientations

Quaternions with the Hamilton product, and the rotation of a direction by a unit quaternion.
-/

set_option autoImplicit false

namespace PlantGrowth

/-- An orientation: a scalar part and an axis part. -/
@[ext] structure Quat (α : Type) where
  w : α
  x : α
  y : α
  z : α
  deriving Repr, DecidableEq

namespace Quat

section Ring

variable {α : Type} [Add α] [Sub α] [Mul α] [Neg α] [Zero α] [One α]

/-- The orientation of an unturned plant. -/
def identity : Quat α := ⟨1, 0, 0, 0⟩

/-- The Hamilton product: `b`, applied in the frame of `a`. -/
instance : Mul (Quat α) := ⟨fun a b =>
  ⟨a.w * b.w - a.x * b.x - a.y * b.y - a.z * b.z,
   a.w * b.x + a.x * b.w + a.y * b.z - a.z * b.y,
   a.w * b.y - a.x * b.z + a.y * b.w + a.z * b.x,
   a.w * b.z + a.x * b.y - a.y * b.x + a.z * b.w⟩⟩

/-- The direction `v`, turned by `q`: the axis part of `q v q⁻¹`, written out. -/
def rotate (q : Quat α) (v : Vec3 α) : Vec3 α :=
  let ix := q.w * v.x + q.y * v.z - q.z * v.y
  let iy := q.w * v.y + q.z * v.x - q.x * v.z
  let iz := q.w * v.z + q.x * v.y - q.y * v.x
  let iw := -q.x * v.x - q.y * v.y - q.z * v.z
  ⟨ix * q.w + iw * -q.x + iy * -q.z - iz * -q.y,
   iy * q.w + iw * -q.y + iz * -q.x - ix * -q.z,
   iz * q.w + iw * -q.z + ix * -q.y - iy * -q.x⟩

end Ring

variable {α : Type} [Scalar α]

/-- The turn by an angle in degrees about an axis of length one; the angle must not be infinite. -/
def aboutAxis (axis : Vec3 α) (degrees : α) : Except Fault (Quat α) := do
  let half := Scalar.radians degrees / 2.0
  let s ← Scalar.sine half
  let c ← Scalar.cosine half
  return ⟨c, axis.x * s, axis.y * s, axis.z * s⟩

end Quat

end PlantGrowth
