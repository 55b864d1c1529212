import PlantGrowth.Draw.Basic
import PlantGrowth.Space.Vec3

/-!
# Attractors

The points that a vine grows toward, scattered in a shell around the trunk: each takes three draws,
for its direction, its distance from the trunk's axis and its height.
-/

set_option autoImplicit false

namespace PlantGrowth.Attractor

variable {α : Type} [Scalar α]

/-- The point at an angle around the trunk, a distance from its axis and a height. -/
def place (angle distance height : α) : Except Fault (Vec3 α) := do
  let c ← Scalar.cosine angle
  let s ← Scalar.sine angle
  return ⟨c * distance, height, s * distance⟩

/-- One attractor, between `1.5` and `4` from the trunk's axis and between `1` and `6` high. -/
def scatterOne : Drawing α (Vec3 α) := do
  let u ← Drawing.draw
  let v ← Drawing.draw
  let w ← Drawing.draw
  Drawing.ofExcept (place (u * Scalar.pi * 2.0) (1.5 + v * 2.5) (1.0 + w * 5.0))

/-- That many attractors, in the order of their draws. -/
def scatter : Nat → Drawing α (List (Vec3 α))
  | 0 => return []
  | count + 1 => do
    let attractor ← scatterOne
    let others ← scatter count
    return attractor :: others

end PlantGrowth.Attractor
