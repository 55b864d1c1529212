import PlantGrowth.Scalar.Basic

/-!
# Points and directions in space

Triples of coordinates with the componentwise operations. What needs only sums and products is
stated over any type that has them; length and direction need the scalars.
-/

set_option autoImplicit false

namespace PlantGrowth

/-- A point or a direction. -/
@[ext] structure Vec3 (α : Type) where
  x : α
  y : α
  z : α
  deriving Repr, DecidableEq

namespace Vec3

section Ring

variable {α : Type} [Add α] [Sub α] [Mul α] [Zero α] [One α]

/-- The point that growth starts from. -/
def origin : Vec3 α := ⟨0, 0, 0⟩

/-- The direction of growth of an unturned plant. -/
def up : Vec3 α := ⟨0, 1, 0⟩

instance : Add (Vec3 α) := ⟨fun a b => ⟨a.x + b.x, a.y + b.y, a.z + b.z⟩⟩

instance : Sub (Vec3 α) := ⟨fun a b => ⟨a.x - b.x, a.y - b.y, a.z - b.z⟩⟩

/-- Every coordinate times a weight. -/
def scale (v : Vec3 α) (weight : α) : Vec3 α := ⟨v.x * weight, v.y * weight, v.z * weight⟩

/-- The square of the distance between two points. -/
def distanceSq (a b : Vec3 α) : α :=
  let d := a - b
  d.x * d.x + d.y * d.y + d.z * d.z

end Ring

variable {α : Type} [Scalar α]

/-- The length of a direction. The square of every finite coordinate has to be finite. -/
def length (v : Vec3 α) : Except Fault α := do
  let xx ← Scalar.square v.x
  let yy ← Scalar.square v.y
  let zz ← Scalar.square v.z
  return Scalar.sqrt (xx + yy + zz)

/-- The direction of length one along `v`; a direction of length zero stays as it is. -/
def normalize (v : Vec3 α) : Except Fault (Vec3 α) := do
  let magnitude ← v.length
  return if magnitude == 0 then v else v.scale (1 / magnitude)

end Vec3

end PlantGrowth
