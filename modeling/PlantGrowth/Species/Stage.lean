import PlantGrowth.Scalar.Quotient
import PlantGrowth.Species.Basic

/-!
# Stages

A stage is asked for as an integer, as a number that is cut to its integer part, or not at all. The
catalogue bounds the stages of a species: they lie between one and its greatest stage.
-/

set_option autoImplicit false

namespace PlantGrowth

/-- A stage as it is asked for. -/
inductive Stage (α : Type) where
  | absent
  | whole (stage : Int)
  | real (stage : α)
  deriving Repr

/-- The integer that a stage stands for. -/
def Stage.toInteger {α : Type} [Scalar α] : Stage α → Except Fault Int
  | .absent => .error .stageAbsent
  | .whole n => .ok n
  | .real x => Scalar.toInteger Scalar.truncate x

namespace Catalogue

variable {α : Type} [Scalar α]

/-- The greatest stage of a vine with that many attractors: one stage for each six of them, rounded
up, and never less than four. The quotient is rounded to a double before it is rounded up. -/
def vineStages (attractorCount : Int) : Except Fault Int :=
  match Quotient.nearestDouble (attractorCount / 6) with
  | some quotient => .ok (max 4 quotient.ceil)
  | none => .error .quotientTooLarge

/-- The greatest stage of a species. -/
def greatestStage (catalogue : Catalogue α) (species : Species) : Except Fault Int :=
  match catalogue species with
  | .grammar preset => .ok preset.iterations
  | .colonization preset => vineStages preset.attractorCount

/-- A stage, moved into the range of the stages of a species. -/
def boundedStage (catalogue : Catalogue α) (species : Species) (stage : Int) :
    Except Fault Int := do
  let greatest ← catalogue.greatestStage species
  return min (max stage 1) greatest

end Catalogue

end PlantGrowth
