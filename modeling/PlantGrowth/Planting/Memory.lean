import PlantGrowth.Planting.Basic

/-!
# Memories

A memory is planted as a species. How important it is decides which stage its plant grows toward,
and its identifier together with the stage seeds the plant.
-/

set_option autoImplicit false

namespace PlantGrowth

/-- How important a memory is. -/
inductive Importance where
  | low
  | medium
  | high
  deriving DecidableEq, Repr

namespace Importance

/-- Every importance. -/
def all : List Importance := [.low, .medium, .high]

/-- The name of an importance. -/
def name : Importance → String
  | .low => "low"
  | .medium => "medium"
  | .high => "high"

/-- The importance of exactly this name. -/
def ofName? (text : String) : Option Importance := all.find? (·.name == text)

/-- The importance of a name; another text is a fault. -/
def named (text : String) : Except Fault Importance :=
  match ofName? text with
  | some importance => .ok importance
  | none => .error (.unknownImportance text)

/-- A text is the name of at most one importance. -/
theorem named_eq_ok_iff {text : String} {importance : Importance} :
    named text = .ok importance ↔ text = importance.name := by
  constructor
  · intro h
    unfold named at h
    split at h
    · next i hi =>
      have := List.find?_some hi
      simp only [beq_iff_eq] at this
      cases h
      exact this.symm
    · cases h
  · rintro rfl
    cases importance <;> rfl

/-- The name of an importance names it. -/
@[simp] theorem named_name (importance : Importance) : named importance.name = .ok importance :=
  named_eq_ok_iff.2 rfl

/-- How far from the greatest stage a plant of this importance aims. -/
def stageOffset : Importance → Int
  | .low => -1
  | .medium => 0
  | .high => 1

end Importance

/-- A memory planted in the garden. Its species and its importance are names that may be unknown. -/
structure Memory where
  id : String
  species : String
  importance : String
  note : Option String
  deriving DecidableEq, Repr

/-- The key that seeds the plant of an identifier at a stage. Writing the stage is idealised: it has all
its digits, however many they are, while the numerals that are read are not longer than
`Text.Integer.longest`. -/
def growthKey (id : String) (stage : Int) : String := id ++ "-" ++ stage.repr

namespace Catalogue

variable {α : Type} [Scalar α]

/-- The stage that a memory of a named species and importance grows toward. The species is looked at
before the importance. -/
def aimedStage (catalogue : Catalogue α) (species importance : String) : Except Fault Int := do
  let s ← Species.named species
  let greatest ← catalogue.greatestStage s
  let i ← Importance.named importance
  catalogue.boundedStage s (greatest + i.stageOffset)

/-- The stage to grow a memory to: the one that is asked for, or else the one it grows toward. -/
def wantedStage (catalogue : Catalogue α) (memory : Memory) : Stage α → Except Fault (Stage α)
  | .absent => do
    let target ← catalogue.aimedStage memory.species memory.importance
    return .whole target
  | stage => return stage

/-- The stage that a memory is grown to, and its plant. -/
def growMemory (catalogue : Catalogue α) (memory : Memory) (stage : Stage α) :
    Except Fault (Int × Plant α) := do
  let wanted ← catalogue.wantedStage memory stage
  let reached ← catalogue.boundedStageNamed memory.species wanted
  let plant ← catalogue.plantNamed memory.species (.whole reached)
    (growthKey memory.id reached) none
  return (reached, plant)

end Catalogue

end PlantGrowth
