import PlantGrowth.Planting.Survey
import PlantGrowth.Species.BuiltIn

/-!
# The survey on the command line

Prints the survey of the built-in catalogue, one line at a time.
-/

set_option autoImplicit false

/-- Prints the survey; a fault goes to the error stream. -/
def main : IO UInt32 := do
  match PlantGrowth.Catalogue.builtIn.survey with
  | .ok lines =>
    for line in lines do
      IO.println line
    return 0
  | .error fault =>
    IO.eprintln fault.message
    return 1
