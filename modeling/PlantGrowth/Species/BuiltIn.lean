import PlantGrowth.Scalar.Double
import PlantGrowth.Species.Basic

/-!
# The built-in species

A fern and a flower that grow from a grammar, and a vine that grows toward attractors.
-/

set_option autoImplicit false

namespace PlantGrowth

namespace Species

variable {α : Type} [Scalar α]

/-- What a fern grows from. -/
def fernPreset : GrammarPreset α where
  initial := "X"
  rules := ⟨[("X", "F[-X][X]F[-X]+X"), ("F", "FF")]⟩
  angle := 22.5
  segmentLength := 0.6
  radius := 0.08
  iterations := 5
  leafColor := "#8fbf8f"
  randomness := 0.12
  bloomColor := none

/-- What a flower grows from. -/
def flowerPreset : GrammarPreset α where
  initial := "X"
  rules := ⟨[("X", "F[+X][-X]F*"), ("F", "FF")]⟩
  angle := 28.0
  segmentLength := 0.5
  radius := 0.09
  iterations := 4
  leafColor := "#9bc6a4"
  randomness := 0.08
  bloomColor := some "#f5a9b8"

/-- What a vine grows from, over scalars that order its two radii. -/
def vinePreset (radii_in_order : ¬ (1.8 : α) ≤ 0.4) : ColonizationPreset α where
  attractorCount := 45
  influenceRadius := 1.8
  killRadius := 0.4
  stepSize := 0.55
  baseRadius := 0.07
  leafColor := "#9ac997"
  radii_in_order := radii_in_order

end Species

/-- The built-in catalogue, over scalars that order the radii of the vine. -/
def Catalogue.builtInOver {α : Type} [Scalar α] (radii_in_order : ¬ (1.8 : α) ≤ 0.4) :
    Catalogue α
  | .fern => .grammar Species.fernPreset
  | .flower => .grammar Species.flowerPreset
  | .vine => .colonization (Species.vinePreset radii_in_order)

/-- The built-in catalogue in doubles. -/
def Catalogue.builtIn : Catalogue Float := builtInOver (by decide)

end PlantGrowth
