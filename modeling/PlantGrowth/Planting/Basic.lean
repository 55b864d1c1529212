import PlantGrowth.Grammar.Growth
import PlantGrowth.Species.Stage
import PlantGrowth.Vine.Dressing

/-!
# Planting

A plant of the garden is grown from the preset of its species, at a stage of the species, from the
draws that a key seeds. Species are named by text here; an unknown name is a fault where it is used.
-/

set_option autoImplicit false

namespace PlantGrowth

variable {α : Type} [Scalar α]

/-- A grammar preset whose blooms have the given colour, if it is named. -/
def GrammarPreset.colored (preset : GrammarPreset α) (bloomColor : Option String) :
    GrammarPreset α :=
  match Ornament.namedColor? bloomColor with
  | some color => { preset with bloomColor := some color }
  | none => preset

/-- The plant that a preset makes at a stage, with blooms of the given colour, if it is named. -/
def Preset.grow (preset : Preset α) (stage : Int) (bloomColor : Option String) :
    Drawing α (Plant α) :=
  match preset with
  | .grammar p => (p.colored bloomColor).grow stage
  | .colonization p =>
    p.grow stage
      ((Ornament.namedColor? bloomColor).getD ColonizationPreset.defaultBloomColor)

namespace Catalogue

/-- The plant of a species at a stage, from the draws of a key. -/
def plant (catalogue : Catalogue α) (species : Species) (stage : Int) (key : String)
    (bloomColor : Option String) : Except Fault (Plant α) := do
  let reached ← catalogue.boundedStage species stage
  (((catalogue species).grow reached bloomColor).run (.keyed key) 0).1

/-- The greatest stage of a named species. -/
def greatestStageNamed (catalogue : Catalogue α) (species : String) : Except Fault Int := do
  let s ← Species.named species
  catalogue.greatestStage s

/-- A stage, moved into the range of a named species. The stage is looked at before the name. -/
def boundedStageNamed (catalogue : Catalogue α) (species : String) (stage : Stage α) :
    Except Fault Int := do
  let n ← stage.toInteger
  let s ← Species.named species
  catalogue.boundedStage s n

/-- The plant of a named species. The name is looked at before the stage. -/
def plantNamed (catalogue : Catalogue α) (species : String) (stage : Stage α) (key : String)
    (bloomColor : Option String) : Except Fault (Plant α) := do
  let s ← Species.named species
  let n ← stage.toInteger
  catalogue.plant s n key bloomColor

end Catalogue

end PlantGrowth
