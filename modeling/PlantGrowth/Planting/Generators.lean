import PlantGrowth.Grammar.Growth
import PlantGrowth.Species.Stage
import PlantGrowth.Vine.Dressing

/-!
# Generators

The two generators take a stage as it is asked for. It is cut to its integer before the first draw, so a
stage that is no number is a fault that takes none.
-/

set_option autoImplicit false

namespace PlantGrowth

variable {α : Type} [Scalar α]

/-- What grows at a stage as it is asked for: what grows at its integer. -/
def Stage.grow {β : Type} (stage : Stage α) (growth : Int → Drawing α β) : Drawing α β := do
  let n ← Drawing.ofExcept stage.toInteger
  growth n

/-- The plant that a grammar generates at a stage. -/
def GrammarPreset.generate (preset : GrammarPreset α) (stage : Stage α) : Drawing α (Plant α) :=
  stage.grow preset.grow

/-- The vine that is generated at a stage among the given attractors. -/
def ColonizationPreset.generateAmong (preset : ColonizationPreset α) (stage : Stage α)
    (bloomColor : String) (attractors : List (Vec3 α)) : Drawing α (Plant α) :=
  stage.grow fun n => preset.growAmong n bloomColor attractors

/-- The vine that is generated at a stage among attractors that the first draws scatter. -/
def ColonizationPreset.generate (preset : ColonizationPreset α) (stage : Stage α)
    (bloomColor : String) : Drawing α (Plant α) :=
  stage.grow fun n => preset.grow n bloomColor

end PlantGrowth
