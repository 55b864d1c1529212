import PlantGrowth.Scalar.Basic

/-!
# Presets of species that grow toward attractors

The measures of a vine. A preset is only made of radii that are in order.
-/

set_option autoImplicit false

namespace PlantGrowth

/-- The measures of a vine. Attractors within the influence radius of a tip pull it, attractors
within the kill radius are consumed; the kill radius does not reach the influence radius. -/
structure ColonizationPreset (α : Type) [Scalar α] where
  attractorCount : Int
  influenceRadius : α
  killRadius : α
  /-- The length of the first step. -/
  stepSize : α
  /-- The radius at the root. -/
  baseRadius : α
  leafColor : String
  radii_in_order : ¬ influenceRadius ≤ killRadius

/-- The preset of the given measures, if their radii are in order. -/
def ColonizationPreset.ofMeasures {α : Type} [Scalar α] (attractorCount : Int)
    (influenceRadius killRadius stepSize baseRadius : α) (leafColor : String) :
    Except Fault (ColonizationPreset α) :=
  if h : influenceRadius ≤ killRadius then .error .radiiOutOfOrder
  else .ok ⟨attractorCount, influenceRadius, killRadius, stepSize, baseRadius, leafColor, h⟩

end PlantGrowth
