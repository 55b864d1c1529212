import PlantGrowth.Json.Reader
import PlantGrowth.Service.Field

/-!
# Requests

The bodies that the two posts take. A body is turned down with one complaint for each bad field, in
the order of the fields of its model; fields that the model does not have are ignored. A body that
could not be read is turned down without a look at its fields.
-/

set_option autoImplicit false

namespace PlantGrowth.Service

/-- The body of a request as it arrives. -/
inductive Payload where
  | absent
  /-- The body is not JSON. -/
  | malformed
  /-- The body could not be read to its end. -/
  | unreadable
  | json (value : Json)

/-- The body that a row of bytes is, by a reader of JSON. No bytes are no body; on a body that has another
flaw than not to be JSON the reader gives up. -/
def Payload.ofBytes (read : List UInt8 → Except Json.Flaw Json) (bytes : List UInt8) : Payload :=
  if bytes.isEmpty then .absent
  else match read bytes with
    | .ok value => .json value
    | .error .malformed => .malformed
    | .error _ => .unreadable

/-- Why a request is turned down. -/
inductive Refusal where
  /-- Its body could not be read to its end. -/
  | unreadable
  /-- Its body has defects. -/
  | defective (complaints : List Complaint)

/-- The fields of a body, which has to be an object. -/
def Payload.fields : Payload → Except Refusal (List (JsonString × Json))
  | .absent => .error (.defective [⟨.missing, none, .null⟩])
  | .malformed => .error (.defective [⟨.notJson, none, .null⟩])
  | .unreadable => .error .unreadable
  | .json (.obj fields) => .ok fields
  | .json value => .error (.defective [⟨.notObject, none, value⟩])

/-- A request for the plant of a species. -/
structure PlantRequest where
  species : Species
  stage : Int
  seed : String
  bloomColor : Option String
  deriving DecidableEq, Repr

/-- The request that the fields of a body make. -/
def PlantRequest.ofFields (body : List (JsonString × Json)) : Except Refusal PlantRequest :=
  let species := required "species" (.listed Species.ofName?) body
  let stage := optional "stage" .integer 1 body
  let seed := required "seed" .nonemptyText body
  let bloomColor := optional "bloom_color" (.nullable .text) none body
  match species, stage, seed, bloomColor with
  | .ok species, .ok stage, .ok seed, .ok bloomColor => .ok ⟨species, stage, seed, bloomColor⟩
  | _, _, _, _ =>
    .error (.defective ([complaint? species, complaint? stage, complaint? seed,
      complaint? bloomColor].filterMap fun c => c))

/-- The request that a body makes. -/
def PlantRequest.ofPayload (payload : Payload) : Except Refusal PlantRequest :=
  payload.fields >>= PlantRequest.ofFields

/-- A request for the plant of a memory. -/
structure MemoryRequest where
  id : String
  species : Species
  importance : Importance
  stage : Option Int
  note : Option String
  deriving DecidableEq, Repr

/-- The request that the fields of a body make. -/
def MemoryRequest.ofFields (body : List (JsonString × Json)) : Except Refusal MemoryRequest :=
  let id := required "id" .nonemptyText body
  let species := required "species" (.listed Species.ofName?) body
  let importance := optional "importance" (.listed Importance.ofName?) .medium body
  let stage := optional "stage" (.nullable .integer) none body
  let note := optional "note" (.nullable .text) none body
  match id, species, importance, stage, note with
  | .ok id, .ok species, .ok importance, .ok stage, .ok note =>
    .ok ⟨id, species, importance, stage, note⟩
  | _, _, _, _, _ =>
    .error (.defective ([complaint? id, complaint? species, complaint? importance,
      complaint? stage, complaint? note].filterMap fun c => c))

/-- The request that a body makes. -/
def MemoryRequest.ofPayload (payload : Payload) : Except Refusal MemoryRequest :=
  payload.fields >>= MemoryRequest.ofFields

/-- The memory that a request is about. -/
def MemoryRequest.memory (r : MemoryRequest) : Memory :=
  ⟨r.id, r.species.name, r.importance.name, r.note⟩

end PlantGrowth.Service
