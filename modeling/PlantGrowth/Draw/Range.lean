import PlantGrowth.Draw.Basic
import PlantGrowth.Space.Vec3

/-!
# Draws on a range

`interpolate` maps a draw onto a closed range, `aroundZero` takes a draw and spreads it around
zero, and `rotation` takes three such draws for the three angles of a leaf or a bloom.
-/

set_option autoImplicit false

namespace PlantGrowth

variable {α : Type} [Scalar α]

/-- The point that lies at the part `draw` of the way from `minimum` to `maximum`. A draw outside
`[0, 1]` counts as the nearer end, and a range of one point is that point. -/
def interpolate (draw minimum maximum : α) : α :=
  if minimum == maximum then minimum
  else minimum + (maximum - minimum) * Scalar.minOf (Scalar.maxOf draw 0) 1

/-- A number around zero: the next draw, moved by one half and scaled. -/
def Drawing.aroundZero (spread : α) : Drawing α α := do
  let u ← Drawing.draw
  return (u - 0.5) * spread

/-- Three angles around zero, each from one draw. -/
def Drawing.rotation (spread : α) : Drawing α (Vec3 α) := do
  let x ← Drawing.aroundZero spread
  let y ← Drawing.aroundZero spread
  let z ← Drawing.aroundZero spread
  return ⟨x, y, z⟩

end PlantGrowth
