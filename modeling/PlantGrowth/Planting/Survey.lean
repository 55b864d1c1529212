import PlantGrowth.Planting.Memory

/-!
# A survey of the catalogue

For every species its greatest stage, and for each of its stages how many segments, leaves and
blooms a sample plant has.
-/

set_option autoImplicit false

namespace PlantGrowth.Catalogue

variable {α : Type} [Scalar α]

/-- The identifier of the sample plants of a species. -/
def sampleId (species : Species) : String := "debug-" ++ species.name

/-- The line on one stage of a species. -/
def surveyStage (catalogue : Catalogue α) (species : Species) (stage : Int) :
    Except Fault String := do
  let plant ← catalogue.plant species stage (growthKey (sampleId species) stage) none
  return "  Stage=" ++ stage.repr
    ++ ", Segments=" ++ plant.segments.length.repr
    ++ ", Leaves=" ++ plant.leaves.length.repr
    ++ ", Blooms=" ++ plant.blooms.length.repr

/-- The lines on one species. -/
def surveySpecies (catalogue : Catalogue α) (species : Species) : Except Fault (List String) := do
  let greatest ← catalogue.greatestStage species
  let stages ← (List.range greatest.toNat).mapM fun (n : Nat) =>
    catalogue.surveyStage species ((n : Int) + 1)
  return (species.name ++ ": max stage=" ++ greatest.repr) :: stages

/-- The lines of the survey. -/
def survey (catalogue : Catalogue α) : Except Fault (List String) := do
  let lines ← Species.all.mapM catalogue.surveySpecies
  return lines.flatten

end PlantGrowth.Catalogue
