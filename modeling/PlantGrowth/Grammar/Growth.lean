import PlantGrowth.Draw.SeedHash
import PlantGrowth.Grammar.Expansion
import PlantGrowth.Turtle.Interpretation

/-!
# Growth from a grammar

A plant of some stage is the interpretation of the word of that generation. Expansion and
interpretation take their draws from one stream, in this order.
-/

set_option autoImplicit false

namespace PlantGrowth.GrammarPreset

variable {α : Type} [Scalar α]

/-- The generation of a stage: at least one, and at most the last one of the preset. -/
def generation (preset : GrammarPreset α) (stage : Int) : Int :=
  min (max stage 1) preset.iterations

/-- The word of a stage. A negative generation is generation zero. -/
def wordAt (preset : GrammarPreset α) (stage : Int) : Drawing α (List Char) :=
  preset.rules.expand preset.randomness (preset.generation stage).toNat preset.initial.toList

/-- The plant of a stage. -/
def grow (preset : GrammarPreset α) (stage : Int) : Drawing α (Plant α) := do
  let word ← preset.wordAt stage
  preset.interpret word

/-- The draws of a plant that is given none: those that its first word seeds. -/
def ownSource (preset : GrammarPreset α) : Source α := .keyed preset.initial

end PlantGrowth.GrammarPreset
