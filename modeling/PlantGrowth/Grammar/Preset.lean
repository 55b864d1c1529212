import PlantGrowth.Grammar.Rules
import PlantGrowth.Plant

/-!
# Presets of species that grow from a grammar

The grammar of a species, and the measures and colours of the plants that the turtle draws from it.
-/

set_option autoImplicit false

namespace PlantGrowth

/-- A first word, its rules, and the measures of the turtle that walks the expanded word. -/
structure GrammarPreset (α : Type) where
  /-- The word of generation zero. -/
  initial : String
  rules : Rules
  /-- The angle of every turn, in degrees. -/
  angle : α
  segmentLength : α
  radius : α
  /-- The last generation, which is also the greatest stage of the species. -/
  iterations : Int
  leafColor : String
  /-- Alternatives are drawn where this is positive. -/
  randomness : α
  bloomColor : Option String
  deriving Repr, DecidableEq

namespace GrammarPreset

variable {α : Type}

/-- The colour of blooms where neither the plant nor its preset names one. -/
def defaultBloomColor : String := "#ef798a"

/-- The colour of the blooms of a preset. -/
def colorOfBlooms (preset : GrammarPreset α) : String :=
  (Ornament.namedColor? preset.bloomColor).getD defaultBloomColor

end GrammarPreset

end PlantGrowth
