import PlantGrowth.Draw.Range
import PlantGrowth.Grammar.Preset
import PlantGrowth.Turtle.Trace

/-!
# The interpretation of a word

The word is read as turtle commands, the turtle leaves its marks, and every leaf and bloom is then
oriented by three draws, in the order of the marks.
-/

set_option autoImplicit false

namespace PlantGrowth

namespace GrammarPreset

variable {α : Type} [Scalar α]

/-- A mark in its final form. Leaves tilt a little, blooms turn every way. -/
def orient (preset : GrammarPreset α) : Mark α → Drawing α (Organ α)
  | .segment s => return .segment s
  | .leaf site => do
    let rotation ← Drawing.rotation 0.6
    return .leaf ⟨site.position, rotation, site.scale, preset.leafColor⟩
  | .bloom site => do
    let rotation ← Drawing.rotation Scalar.pi
    return .bloom ⟨site.position, rotation, site.scale, preset.colorOfBlooms⟩

/-- The marks of the commands that a word spells. -/
def marksOf (preset : GrammarPreset α) (rotations : Rotations α) (word : List Char) :
    List (Mark α) :=
  Walk.trace rotations ⟨.start preset.segmentLength preset.radius, []⟩ (word.map Command.ofChar)

/-- The plant that a word stands for. -/
def interpret (preset : GrammarPreset α) (word : List Char) : Drawing α (Plant α) := do
  let rotations ← Drawing.ofExcept (Rotations.ofAngle preset.angle)
  let organs ← (preset.marksOf rotations word).mapM preset.orient
  return Plant.ofOrgans organs

end GrammarPreset

end PlantGrowth
