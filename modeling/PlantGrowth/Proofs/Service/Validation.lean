import PlantGrowth.Proofs.Scalar.Truncation
import PlantGrowth.Service.Request

/-!
# Valid bodies

Which bodies are valid is said without a reader: a model lists its fields, and each field says which
values it takes and whether it may be missing (`ModelField`). A reader gives a request exactly where
every field of its model is valid; otherwise its complaints are about the other fields, one about each,
in the order of the model (`Settles`). What else a body holds, and in which order, does not take part in
this.
-/

set_option autoImplicit false

namespace PlantGrowth.Service

/-! ## Values -/

/-- The integer that a value stands for. -/
inductive StandsFor : Json → Int → Prop where
  | int (n : Int) : StandsFor (.int n) n
  | bool (b : Bool) : StandsFor (.bool b) (if b then 1 else 0)
  | real {x : Float} {n : Int} (hvalue : Double.value? x = some (n : ℝ)) (hleast : -2 ^ 63 < n)
      (hgreatest : n < 2 ^ 63) : StandsFor (.real x) n
  | text {t : String} {n : Int} (hread : Text.Integer.read t.toList = .ok n) : StandsFor (.str t) n

/-- To rename an error leaves the results as they are. -/
theorem mapError_eq_ok_iff {ε ε' β : Type} {f : ε → ε'} {outcome : Except ε β} {b : β} :
    outcome.mapError f = .ok b ↔ outcome = .ok b := by
  cases outcome <;> simp [Except.mapError]

namespace FieldReader

/-- A real is read as the integer that it equals, if this is a signed word of sixty-four bits. -/
theorem integerOfReal_eq_ok_iff {x : Float} {n : Int} :
    integerOfReal x = .ok n ↔ Double.value? x = some (n : ℝ) ∧ -2 ^ 63 < n ∧ n < 2 ^ 63 := by
  unfold integerOfReal
  cases hvalue : Double.value? x with
  | none =>
    have hfinite : Scalar.isFinite x = false := by
      by_contra h
      obtain ⟨r, hr⟩ := Double.exists_value_of_isFinite (Bool.eq_true_of_not_eq_false h)
      rw [hvalue] at hr
      cases hr
    simp [hfinite]
  | some r =>
    rw [Option.some_inj, Double.value_eq_intCast_iff hvalue]
    simp only [Double.isFinite_of_value hvalue, Bool.not_true, Bool.false_eq_true, if_false]
    split
    · next hmod => simp [hmod]
    · next hmod =>
      rw [not_not] at hmod
      split
      · next hrange =>
        constructor
        · intro h
          cases h
          exact ⟨⟨hmod, rfl⟩, by omega⟩
        · rintro ⟨⟨-, rfl⟩, -⟩
          rfl
      · next hrange =>
        constructor
        · intro h
          cases h
        · rintro ⟨⟨-, rfl⟩, h⟩
          exact absurd h (by omega)

/-- An integer is read from exactly the values that stand for it. -/
theorem integer_eq_ok_iff {value : Json} {n : Int} : integer value = .ok n ↔ StandsFor value n := by
  constructor
  · intro h
    cases value with
    | int m =>
      cases h
      exact .int n
    | bool b =>
      cases h
      exact .bool b
    | real x =>
      obtain ⟨hvalue, hleast, hgreatest⟩ := integerOfReal_eq_ok_iff.1 h
      exact .real hvalue hleast hgreatest
    | str string =>
      cases string with
      | text t => exact .text (mapError_eq_ok_iff.1 h)
      | broken points => cases h
    | null => cases h
    | arr elements => cases h
    | obj fields => cases h
  · intro h
    cases h with
    | int => rfl
    | bool b => rfl
    | real hvalue hleast hgreatest =>
      exact integerOfReal_eq_ok_iff.2 ⟨hvalue, hleast, hgreatest⟩
    | text hread => exact mapError_eq_ok_iff.2 hread

/-- A reader gets a result out of exactly the values that are taken. -/
def Reads {β : Type} (read : FieldReader β) (Takes : Json → Prop) : Prop :=
  ∀ value, (∃ b, read value = .ok b) ↔ Takes value

/-- The integer reader takes the values that stand for an integer. -/
theorem reads_integer : integer.Reads fun value => ∃ n, StandsFor value n := by
  intro value
  simp only [integer_eq_ok_iff]

/-- The text reader takes texts. -/
theorem reads_text : text.Reads fun value => ∃ t : String, value = .str t := by
  intro value
  cases value with
  | str string => cases string <;> simp [text]
  | _ => simp [text]

/-- The reader of texts that are not empty takes these. -/
theorem reads_nonemptyText :
    nonemptyText.Reads fun value => ∃ t : String, value = .str t ∧ t ≠ "" := by
  intro value
  cases value with
  | str string =>
    cases string with
    | text t => by_cases ht : t = "" <;> simp [nonemptyText, ht]
    | broken points => simp [nonemptyText]
  | _ => simp [nonemptyText]

/-- The reader of names takes the names that are listed. -/
theorem reads_listed {β : Type} {ofName? : String → Option β} {name : β → String}
    (hnames : ∀ t b, ofName? t = some b ↔ t = name b) :
    (listed ofName?).Reads fun value => ∃ b, value = .str (name b) := by
  intro value
  cases value with
  | str string =>
    cases string with
    | text t =>
      simp only [Json.str.injEq, JsonString.text.injEq, ← hnames]
      cases hname : ofName? t <;> simp [listed, hname]
    | broken points => simp [listed]
  | _ => simp [listed]

/-- A value that may be null is null or what its reader takes. -/
theorem reads_nullable {β : Type} {read : FieldReader β} {Takes : Json → Prop}
    (h : read.Reads Takes) : (nullable read).Reads fun value => value = .null ∨ Takes value := by
  intro value
  show (∃ b, nullable read value = .ok b) ↔ value = .null ∨ Takes value
  by_cases hnull : value = .null
  · subst hnull
    exact ⟨fun _ => .inl rfl, fun _ => ⟨none, rfl⟩⟩
  · have hread : nullable read value = some <$> read value := by
      cases value <;> first | rfl | exact absurd rfl hnull
    rw [hread, ← h value]
    cases read value <;> simp [hnull]

end FieldReader

/-- The species of a name is the one that is called so. -/
theorem ofName?_species_iff (t : String) (s : Species) :
    Species.ofName? t = some s ↔ t = s.name := by
  rw [← Species.named_eq_ok_iff, Species.named]
  cases Species.ofName? t <;> simp

/-- The importance of a name is the one that is called so. -/
theorem ofName?_importance_iff (t : String) (i : Importance) :
    Importance.ofName? t = some i ↔ t = i.name := by
  rw [← Importance.named_eq_ok_iff, Importance.named]
  cases Importance.ofName? t <;> simp

/-! ## Fields -/

/-- A field of the model of a body: its name, whether it may be missing, and the values it takes. -/
structure ModelField where
  name : String
  mayBeMissing : Bool
  Takes : Json → Prop

namespace ModelField

variable (field : ModelField) (body : List (JsonString × Json))

/-- A field is valid where it has a value that it takes, or no value if it may be missing. -/
def IsValid : Prop :=
  match body.lookup (.text field.name) with
  | some value => field.Takes value
  | none => field.mayBeMissing = true

/-- What a complaint about a field quotes: its value, or the body where it has none. -/
def quoted : Json := (body.lookup (.text field.name)).getD (.obj body)

/-- Whether a complaint, or that there is none, is right about a field. -/
def Judges : Option Complaint → Prop
  | none => field.IsValid body
  | some c => ¬ field.IsValid body ∧ c.path = ["body", field.name] ∧ c.value = field.quoted body

variable {field body} {β : Type} {read : FieldReader β}

/-- A field that is there is judged by its value. -/
theorem judges_value {value : Json} (h : read.Reads field.Takes)
    (hlookup : body.lookup (.text field.name) = some value) :
    field.Judges body (complaint? ((read value).mapError fun defect =>
      ⟨defect, some field.name, value⟩)) := by
  have hvalid : field.IsValid body ↔ ∃ b, read value = .ok b := by
    rw [IsValid, hlookup]
    exact (h value).symm
  have hquoted : field.quoted body = value := by
    rw [quoted, hlookup]
    rfl
  cases hread : read value with
  | ok b => exact hvalid.2 ⟨b, hread⟩
  | error defect =>
    refine ⟨?_, rfl, hquoted.symm⟩
    rw [hvalid, hread]
    rintro ⟨b, h⟩
    cases h

/-- A field that has to be there is judged by its value, or complained about where it is missing. -/
theorem judges_required (h : read.Reads field.Takes) (hneeded : field.mayBeMissing = false) :
    field.Judges body (complaint? (required field.name read body)) := by
  unfold required
  cases hlookup : body.lookup (.text field.name) with
  | some value => exact judges_value h hlookup
  | none =>
    refine ⟨?_, rfl, ?_⟩
    · rw [IsValid, hlookup, hneeded]
      exact Bool.false_ne_true
    · rw [quoted, hlookup]
      rfl

/-- A field with a default is judged by its value, and is valid where it is missing. -/
theorem judges_optional {default : β} (h : read.Reads field.Takes)
    (hfree : field.mayBeMissing = true) :
    field.Judges body (complaint? (optional field.name read default body)) := by
  unfold optional
  cases hlookup : body.lookup (.text field.name) with
  | some value => exact judges_value h hlookup
  | none =>
    show field.IsValid body
    rw [IsValid, hlookup, hfree]

/-- The species, which has to be one of their names. -/
def species : ModelField := ⟨"species", false, fun value => ∃ s : Species, value = .str s.name⟩

/-- The importance, which has to be one of their names and may be missing. -/
def importance : ModelField :=
  ⟨"importance", true, fun value => ∃ i : Importance, value = .str i.name⟩

/-- The stage, which has to be an integer and may be missing. -/
def stage : ModelField := ⟨"stage", true, fun value => ∃ n, StandsFor value n⟩

/-- The field for a stage that may be left open. -/
def openStage : ModelField := ⟨"stage", true, fun value => value = .null ∨ ∃ n, StandsFor value n⟩

/-- A field for a text that is not empty. -/
def label (name : String) : ModelField :=
  ⟨name, false, fun value => ∃ t : String, value = .str t ∧ t ≠ ""⟩

/-- A field for a text that may be left out. -/
def remark (name : String) : ModelField :=
  ⟨name, true, fun value => value = .null ∨ ∃ t : String, value = .str t⟩

open FieldReader in

/-- The field of the species is judged. -/
theorem judges_species :
    species.Judges body (complaint? (required "species" (listed Species.ofName?) body)) :=
  judges_required (reads_listed ofName?_species_iff) rfl

open FieldReader in

/-- A field with a text that must not be empty is judged. -/
theorem judges_label (name : String) :
    (label name).Judges body (complaint? (required name nonemptyText body)) :=
  judges_required reads_nonemptyText rfl

open FieldReader in

/-- A field with a text that may be null is judged. -/
theorem judges_remark (name : String) :
    (remark name).Judges body (complaint? (optional name (nullable text) none body)) :=
  judges_optional (reads_nullable reads_text) rfl

end ModelField

/-! ## Models -/

section Models

variable (model : List ModelField) (body : List (JsonString × Json))

/-- Every field of a model is valid. -/
def IsValidBody : Prop := ∀ field ∈ model, field.IsValid body

open Classical in
/-- The fields of a model that are not valid, in the order of the model. -/
noncomputable def invalidFields : List ModelField :=
  model.filter fun field => ¬ field.IsValid body

/-- Whether what is made of a body is right: a request where every field is valid, otherwise one
complaint about each of the other fields, in the order of the model. -/
def Settles {ρ : Type} : Except Refusal ρ → Prop
  | .ok _ => IsValidBody model body
  | .error .unreadable => False
  | .error (.defective complaints) => ¬ IsValidBody model body ∧
      complaints.map (fun c => (c.path, c.value)) =
        (invalidFields model body).map fun field => (["body", field.name], field.quoted body)

variable {model body} {found : List (Option Complaint)}

/-- A body is valid exactly if there is no complaint about a field. -/
theorem isValidBody_iff (h : List.Forall₂ (fun field c => field.Judges body c) model found) :
    IsValidBody model body ↔ ∀ c ∈ found, c = none := by
  unfold IsValidBody
  induction h with
  | nil => simp
  | @cons field c fields others hjudged _ ih =>
    rw [List.forall_mem_cons, List.forall_mem_cons, ih]
    cases c with
    | none =>
      have hvalid : field.IsValid body := hjudged
      simp [hvalid]
    | some c => simp [hjudged.1]

/-- Which fields are flawed depends on the values of the fields of the model, and on nothing else. -/
theorem invalidFields_congr {body' : List (JsonString × Json)}
    (h : ∀ field ∈ model, body'.lookup (.text field.name) = body.lookup (.text field.name)) :
    invalidFields model body' = invalidFields model body := by
  unfold invalidFields
  apply List.filter_congr
  intro field hfield
  unfold ModelField.IsValid
  rw [h field hfield]

/-- A body without invalid fields is valid. -/
theorem invalidFields_eq_nil_iff : invalidFields model body = [] ↔ IsValidBody model body := by
  simp [invalidFields, IsValidBody]

/-- The complaints are about the invalid fields, in the order of the model. -/
theorem map_filterMap_complaints
    (h : List.Forall₂ (fun field c => field.Judges body c) model found) :
    (found.filterMap fun c => c).map (fun c => (c.path, c.value)) =
      (invalidFields model body).map fun field => (["body", field.name], field.quoted body) := by
  unfold invalidFields
  induction h with
  | nil => rfl
  | @cons field c fields others hjudged _ ih =>
    cases c with
    | none =>
      have hvalid : field.IsValid body := hjudged
      simpa [hvalid] using ih
    | some c =>
      obtain ⟨hinvalid, hpath, hvalue⟩ := hjudged
      simpa [hinvalid, hpath, hvalue] using ih

/-- Where every field is judged, the outcome settles whether the body is valid. -/
theorem settles_of_judges {ρ : Type} {outcome : Except Refusal ρ}
    (h : List.Forall₂ (fun field c => field.Judges body c) model found)
    (houtcome : (∃ r, outcome = .ok r) ∧ (∀ c ∈ found, c = none) ∨
      outcome = .error (.defective (found.filterMap fun c => c)) ∧ ∃ c ∈ found, c ≠ none) :
    Settles model body outcome := by
  rcases houtcome with ⟨⟨r, rfl⟩, hnone⟩ | ⟨rfl, c, hc, hsome⟩
  · exact (isValidBody_iff h).2 hnone
  · refine ⟨?_, map_filterMap_complaints h⟩
    intro hvalid
    exact hsome ((isValidBody_iff h).1 hvalid c hc)

end Models

/-- The fields of the body of a post for the plant of a species. -/
def PlantRequest.model : List ModelField :=
  [.species, .stage, .label "seed", .remark "bloom_color"]

/-- The fields of the body of a post for the plant of a memory. -/
def MemoryRequest.model : List ModelField :=
  [.label "id", .species, .importance, .openStage, .remark "note"]

open FieldReader ModelField in

/-- The request for a species settles whether its body is valid. -/
theorem PlantRequest.settles_ofFields (body : List (JsonString × Json)) :
    Settles model body (ofFields body) := by
  have hstage : ModelField.stage.Judges body (complaint? (optional "stage" integer 1 body)) :=
    judges_optional reads_integer rfl
  have hjudged : List.Forall₂ (fun (field : ModelField) c => field.Judges body c) model
      [complaint? (required "species" (listed Species.ofName?) body),
        complaint? (optional "stage" integer 1 body),
        complaint? (required "seed" nonemptyText body),
        complaint? (optional "bloom_color" (nullable text) none body)] :=
    .cons judges_species (.cons hstage (.cons (judges_label "seed")
      (.cons (judges_remark "bloom_color") .nil)))
  apply settles_of_judges hjudged
  -- from here on only which of the fields were read counts
  unfold ofFields
  generalize required "species" (listed Species.ofName?) body = species
  generalize optional "stage" integer 1 body = stage
  generalize required "seed" nonemptyText body = seed
  generalize optional "bloom_color" (nullable text) none body = color
  cases species <;> cases stage <;> cases seed <;> cases color <;> simp [complaint?]

open FieldReader ModelField in

/-- The request for a memory settles whether its body is valid. -/
theorem MemoryRequest.settles_ofFields (body : List (JsonString × Json)) :
    Settles model body (ofFields body) := by
  have himportance : ModelField.importance.Judges body
      (complaint? (optional "importance" (listed Importance.ofName?) .medium body)) :=
    judges_optional (reads_listed ofName?_importance_iff) rfl
  have hstage : ModelField.openStage.Judges body
      (complaint? (optional "stage" (nullable integer) none body)) :=
    judges_optional (reads_nullable reads_integer) rfl
  have hjudged : List.Forall₂ (fun (field : ModelField) c => field.Judges body c) model
      [complaint? (required "id" nonemptyText body),
        complaint? (required "species" (listed Species.ofName?) body),
        complaint? (optional "importance" (listed Importance.ofName?) .medium body),
        complaint? (optional "stage" (nullable integer) none body),
        complaint? (optional "note" (nullable text) none body)] :=
    .cons (judges_label "id") (.cons judges_species (.cons himportance (.cons hstage
      (.cons (judges_remark "note") .nil))))
  apply settles_of_judges hjudged
  unfold ofFields
  generalize required "id" nonemptyText body = id
  generalize required "species" (listed Species.ofName?) body = species
  generalize optional "importance" (listed Importance.ofName?) .medium body = importance
  generalize optional "stage" (nullable integer) none body = stage
  generalize optional "note" (nullable text) none body = note
  cases id <;> cases species <;> cases importance <;> cases stage <;> cases note <;>
    simp [complaint?]

end PlantGrowth.Service
