import PlantGrowth.Json.Writable
import PlantGrowth.Planting.Record
import PlantGrowth.Service.Request
import PlantGrowth.Service.Route

/-!
# Answers

What the service answers to a request, over a catalogue of species. Lists and entries of the
catalogue are read; the plant of a species and the plant of a memory are posted for. A number that
is not finite is null in an answer that gives what was asked for.
-/

set_option autoImplicit false

namespace PlantGrowth.Service

/-- An answer. -/
inductive Answer where
  | success (body : Json)
  | unreadable
  | unknownPath
  | unknownSpecies
  | wrongVerb
  | rejected (complaints : List Complaint)

/-- The status code of an answer. -/
def Answer.status : Answer → Nat
  | .success _ => 200
  | .unreadable => 400
  | .unknownPath => 404
  | .unknownSpecies => 404
  | .wrongVerb => 405
  | .rejected _ => 422

/-- An answer that is a text only. -/
def Answer.detail (text : String) : Json := .obj [("detail", .str text)]

/-- The body of an answer, unless it is a list of complaints. -/
def Answer.body? : Answer → Option Json
  | .success body => some body.toFinite
  | .unreadable => some (detail "There was an error parsing the body")
  | .unknownPath => some (detail "Not Found")
  | .unknownSpecies => some (detail "Species not found")
  | .wrongVerb => some (detail "Method Not Allowed")
  | .rejected _ => none

/-- The stage and the plant that a request for a species gets. -/
def PlantRequest.grown (catalogue : Catalogue Float) (r : PlantRequest) :
    Except Fault (Int × Plant Float) := do
  let reached ← catalogue.boundedStage r.species r.stage
  let plant ← catalogue.plant r.species reached r.seed r.bloomColor
  return (reached, plant)

/-- The stage and the plant that a request for a memory gets. -/
def MemoryRequest.grown (catalogue : Catalogue Float) (r : MemoryRequest) :
    Except Fault (Int × Plant Float) :=
  catalogue.growMemory r.memory (match r.stage with
    | some stage => .whole stage
    | none => .absent)

/-- The body of the answer to a request for a species. -/
def PlantRequest.record (r : PlantRequest) (stage : Int) (plant : Plant Float) : Json :=
  .obj [("species", .str r.species.name), ("stage", .int stage), ("structure", plant.record)]

/-- The body of the answer to a request for a memory. -/
def MemoryRequest.record (r : MemoryRequest) (stage : Int) (plant : Plant Float) : Json :=
  .obj [("id", .str r.id), ("species", .str r.species.name), ("stage", .int stage),
    ("structure", plant.record)]

/-- The answer to a request that is turned down. -/
def Refusal.answer : Refusal → Answer
  | .unreadable => .unreadable
  | .defective complaints => .rejected complaints

/-- The answer to a post for a species. -/
def answerPlant (catalogue : Catalogue Float) (payload : Payload) : Except Fault Answer :=
  match PlantRequest.ofPayload payload with
  | .error refusal => .ok refusal.answer
  | .ok request => do
    let (stage, plant) ← request.grown catalogue
    return .success (request.record stage plant)

/-- The answer to a post for a memory. -/
def answerMemory (catalogue : Catalogue Float) (payload : Payload) : Except Fault Answer :=
  match MemoryRequest.ofPayload payload with
  | .error refusal => .ok refusal.answer
  | .ok request => do
    let (stage, plant) ← request.grown catalogue
    return .success (request.record stage plant)

/-- The answer to a request for the list of species. -/
def answerSpeciesList (catalogue : Catalogue Float) : Except Fault Answer := do
  let records ← Species.all.mapM catalogue.record
  return .success (.obj [("species", .arr records)])

/-- The answer to a request for one species. -/
def answerSpecies (catalogue : Catalogue Float) (name : List UInt8) : Except Fault Answer :=
  match speciesOfBytes? name with
  | some species => do
    let record ← catalogue.record species
    return .success record
  | none => .ok .unknownSpecies

/-- The answer to a request, by its verb, its address and its body. The pages that describe the
service are not kept here. -/
def answer (catalogue : Catalogue Float) (verb address : String) (payload : Payload) :
    Except Fault Answer :=
  match Route.ofSegments? (Path.segments address) with
  | none => .ok .unknownPath
  | some route =>
    if verb ∉ route.verbs then .ok .wrongVerb
    else match route with
      | .speciesList => answerSpeciesList catalogue
      | .species name => answerSpecies catalogue name
      | .plant => answerPlant catalogue payload
      | .memoryPlant => answerMemory catalogue payload
      | .documentation => .ok .unknownPath

end PlantGrowth.Service
