import PlantGrowth.Proofs.Json.Ascii
import PlantGrowth.Proofs.Service.Posts
import PlantGrowth.Proofs.Service.Validation
import PlantGrowth.Service.Framework

/-!
# Which posts are answered

A post is answered with a plant exactly when its body is valid (`posts_answer_valid_bodies`): every other
body is turned down, and no valid one makes a generator fail, at a stage of any size and with any texts.
What the framework gives up on is answered as unreadable; what else is turned down is rejected with a
complaint about each flaw, if the framework can write these complaints.
-/

set_option autoImplicit false

namespace PlantGrowth.Service

/-- The two posts of the service. -/
inductive Post where
  | plant
  | memory
  deriving DecidableEq, Repr

namespace Post

/-- Where a post is sent. -/
def address : Post → String
  | .plant => "/structure"
  | .memory => "/memories/structure"

/-- The fields that the body of a post has. -/
def model : Post → List ModelField
  | .plant => PlantRequest.model
  | .memory => MemoryRequest.model

/-- A body is valid if it is an object in which every field of the model is valid. -/
def IsValid (post : Post) (payload : Payload) : Prop :=
  ∃ body, payload = .json (.obj body) ∧ IsValidBody post.model body

/-- Where a body that is turned down has a flaw, and the value that has it. -/
noncomputable def flaws (post : Post) : Payload → List (List String × Json)
  | .absent => [(["body"], .null)]
  | .malformed => [(["body"], .null)]
  | .unreadable => []
  | .json (.obj body) =>
    (invalidFields post.model body).map fun field => (["body", field.name], field.quoted body)
  | .json value => [(["body"], value)]

/-- The flaws of an object are its fields that are not valid. -/
theorem flaws_obj (post : Post) (body : List (JsonString × Json)) :
    post.flaws (.json (.obj body)) =
      (invalidFields post.model body).map fun field =>
        (["body", field.name], field.quoted body) := rfl

end Post

/-! ## Valid requests are grown -/

/-- Every request for the plant of a species gets one. -/
theorem PlantRequest.exists_grown (r : PlantRequest) :
    ∃ t plant, r.grown .builtIn = .ok (t, plant) := by
  obtain ⟨greatest, hgreatest⟩ := Catalogue.exists_greatestStage_builtIn r.species
  have hreached := Catalogue.boundedStage_of_greatestStage hgreatest r.stage
  obtain ⟨plant, hplant⟩ := Catalogue.exists_plant_builtIn r.species
    (min (max r.stage 1) greatest) r.seed r.bloomColor
  refine ⟨min (max r.stage 1) greatest, plant, ?_⟩
  simp only [PlantRequest.grown, hreached, hplant, bind, Except.bind, pure, Except.pure]

/-- Every request for the plant of a memory gets one. -/
theorem MemoryRequest.exists_grown (r : MemoryRequest) :
    ∃ t plant, r.grown .builtIn = .ok (t, plant) := by
  obtain ⟨greatest, hgreatest⟩ := Catalogue.exists_greatestStage_builtIn r.species
  obtain ⟨t, -, hmemory⟩ :=
    Catalogue.exists_growMemory_eq_map hgreatest r.id r.importance r.note r.stage
  obtain ⟨plant, hplant⟩ := Catalogue.exists_plant_builtIn r.species t (growthKey r.id t) none
  refine ⟨t, plant, ?_⟩
  rw [hplant] at hmemory
  exact hmemory

/-! ## Answers -/

/-- Where valid requests are answered with plants, what is made of a body decides its answer. -/
theorem reply_of_settles {ρ : Type} {model : List ModelField} {body : List (JsonString × Json)}
    {outcome : Except Refusal ρ} {reply : Except Fault Answer} (h : Settles model body outcome)
    (hok : ∀ r, outcome = .ok r → ∃ record, reply = .ok (.success record))
    (herror : ∀ refusal, outcome = .error refusal → reply = .ok refusal.answer) :
    IsValidBody model body ∧ (∃ record, reply = .ok (.success record)) ∨
      ¬ IsValidBody model body ∧
        ∃ complaints, complaints.map (fun c => (c.path, c.value)) =
            (invalidFields model body).map (fun field => (["body", field.name], field.quoted body)) ∧
          reply = .ok (.rejected complaints) := by
  match outcome with
  | .ok r => exact .inl ⟨h, hok r rfl⟩
  | .error .unreadable => exact h.elim
  | .error (.defective complaints) =>
    exact .inr ⟨h.1, complaints, h.2, herror (.defective complaints) rfl⟩

/-- The answer to an object: a plant if it is valid, otherwise its complaints. -/
theorem Post.answer_obj (post : Post) (body : List (JsonString × Json)) :
    IsValidBody post.model body ∧
        (∃ record, answer .builtIn "POST" post.address (.json (.obj body)) = .ok (.success record)) ∨
      ¬ IsValidBody post.model body ∧
        ∃ complaints, complaints.map (fun c => (c.path, c.value)) = post.flaws (.json (.obj body)) ∧
          answer .builtIn "POST" post.address (.json (.obj body)) = .ok (.rejected complaints) := by
  cases post with
  | plant =>
    have hread : PlantRequest.ofPayload (.json (.obj body)) = PlantRequest.ofFields body := rfl
    rw [Post.address, answer_structure]
    refine reply_of_settles (PlantRequest.settles_ofFields body) ?_ ?_
    · intro r hr
      obtain ⟨t, plant, hgrown⟩ := r.exists_grown
      exact ⟨_, answerPlant_of_grown (hread.trans hr) hgrown⟩
    · intro refusal hrefusal
      rw [answerPlant, hread, hrefusal]
  | memory =>
    have hread : MemoryRequest.ofPayload (.json (.obj body)) = MemoryRequest.ofFields body := rfl
    rw [Post.address, answer_memories]
    refine reply_of_settles (MemoryRequest.settles_ofFields body) ?_ ?_
    · intro r hr
      obtain ⟨t, plant, hgrown⟩ := r.exists_grown
      exact ⟨_, answerMemory_of_grown (hread.trans hr) hgrown⟩
    · intro refusal hrefusal
      rw [answerMemory, hread, hrefusal]

/-- The answer to a payload without fields is the one of the refusal of them. -/
theorem Post.answer_of_fields (post : Post) {payload : Payload} {refusal : Refusal}
    (h : payload.fields = .error refusal) :
    answer .builtIn "POST" post.address payload = .ok refusal.answer := by
  cases post with
  | plant =>
    rw [Post.address, answer_structure, answerPlant, PlantRequest.ofPayload, h]
    rfl
  | memory =>
    rw [Post.address, answer_memories, answerMemory, MemoryRequest.ofPayload, h]
    rfl

/-- A valid body is answered with a plant, one that could not be read to its end is given up, and any
other one has complaints about its flaws. -/
theorem Post.answer_cases (post : Post) (payload : Payload) :
    post.IsValid payload ∧
        (∃ record, answer .builtIn "POST" post.address payload = .ok (.success record)) ∨
      payload = .unreadable ∧ answer .builtIn "POST" post.address payload = .ok .unreadable ∨
      ¬ post.IsValid payload ∧ payload ≠ .unreadable ∧
        ∃ complaints, complaints.map (fun c => (c.path, c.value)) = post.flaws payload ∧
          answer .builtIn "POST" post.address payload = .ok (.rejected complaints) := by
  -- A body without fields is turned down as a whole, with the only flaw that it has.
  have hother (complaints : List Complaint)
      (hfields : payload.fields = .error (.defective complaints))
      (hflaws : complaints.map (fun c => (c.path, c.value)) = post.flaws payload) :
      ¬ post.IsValid payload ∧ payload ≠ .unreadable ∧
        ∃ complaints, complaints.map (fun c => (c.path, c.value)) = post.flaws payload ∧
          answer .builtIn "POST" post.address payload = .ok (.rejected complaints) := by
    refine ⟨?_, ?_, complaints, hflaws, post.answer_of_fields hfields⟩
    · rintro ⟨body, rfl, -⟩
      cases hfields
    · rintro rfl
      cases hfields
  cases payload with
  | absent => exact .inr (.inr (hother _ rfl rfl))
  | malformed => exact .inr (.inr (hother _ rfl rfl))
  | unreadable =>
    have hfields : Payload.unreadable.fields = .error .unreadable := rfl
    exact .inr (.inl ⟨rfl, post.answer_of_fields hfields⟩)
  | json value =>
    cases value with
    | obj body =>
      rcases post.answer_obj body with ⟨hvalid, hrecord⟩ | ⟨hinvalid, hcomplaints⟩
      · exact .inl ⟨⟨body, rfl, hvalid⟩, hrecord⟩
      · refine .inr (.inr ⟨?_, ?_, hcomplaints⟩)
        · rintro ⟨_, hbody, hvalid⟩
          cases hbody
          exact hinvalid hvalid
        · rintro ⟨⟩
    | _ => exact .inr (.inr (hother _ rfl rfl))

/-- An object is valid where every field of the model is. -/
theorem Post.isValid_obj (post : Post) (body : List (JsonString × Json)) :
    post.IsValid (.json (.obj body)) ↔ IsValidBody post.model body := by
  constructor
  · rintro ⟨_, h, hvalid⟩
    cases h
    exact hvalid
  · intro hvalid
    exact ⟨body, rfl, hvalid⟩

/-- An object with a flaw is not valid. -/
theorem Post.not_isValid_of_flaws {post : Post} {body : List (JsonString × Json)}
    {flaw : List String × Json} {flaws : List (List String × Json)}
    (h : post.flaws (.json (.obj body)) = flaw :: flaws) : ¬ post.IsValid (.json (.obj body)) := by
  rw [isValid_obj, ← invalidFields_eq_nil_iff]
  intro hnil
  rw [flaws_obj, hnil] at h
  cases h

/-! ## Bytes -/

/-- The framework gives up on bytes in which it finds another flaw than that they are not JSON. -/
theorem Payload.ofBytes_eq_unreadable_iff {read : List UInt8 → Except Json.Flaw Json}
    {bytes : List UInt8} :
    ofBytes read bytes = .unreadable ↔
      bytes ≠ [] ∧ ∃ flaw, flaw ≠ .malformed ∧ read bytes = .error flaw := by
  unfold ofBytes
  cases bytes with
  | nil => simp
  | cons b rest =>
    cases read (b :: rest) with
    | ok value => simp
    | error flaw => cases flaw <;> simp

/-- A value is read from bytes, and from nothing else. -/
theorem Payload.ofBytes_eq_json_iff {read : List UInt8 → Except Json.Flaw Json}
    {bytes : List UInt8} {value : Json} :
    ofBytes read bytes = .json value ↔ bytes ≠ [] ∧ read bytes = .ok value := by
  unfold ofBytes
  cases bytes with
  | nil => simp
  | cons b rest =>
    cases read (b :: rest) with
    | ok value => simp
    | error flaw => cases flaw <;> simp

/-- The bytes of a text are the payload of the value that is read from the text. -/
theorem Payload.ofBytes_bytesOf {limits : Json.Limits} {text : List Char} {value : Json}
    (hascii : Json.IsAscii text) (hread : Json.read limits text = .ok value) :
    ofBytes (Json.ofBytes limits) (Json.bytesOf text) = .json value := by
  have hjson : Json.read limits text ≠ .error .malformed := by
    rw [hread]
    rintro ⟨⟩
  exact ofBytes_eq_json_iff.2
    ⟨Json.bytesOf_ne_nil hjson, (Json.ofBytes_bytesOf limits hascii).trans hread⟩

/-- Where a text has another flaw than that it is not JSON, its bytes are unreadable. -/
theorem Payload.ofBytes_bytesOf_of_flaw {limits : Json.Limits} {text : List Char} {flaw : Json.Flaw}
    (hascii : Json.IsAscii text) (hread : Json.read limits text = .error flaw)
    (hflaw : flaw ≠ .malformed) :
    ofBytes (Json.ofBytes limits) (Json.bytesOf text) = .unreadable := by
  have hother : Json.read limits text ≠ .error .malformed := by
    rw [hread]
    rintro ⟨⟩
    exact hflaw rfl
  exact ofBytes_eq_unreadable_iff.2
    ⟨Json.bytesOf_ne_nil hother, flaw, hflaw, (Json.ofBytes_bytesOf limits hascii).trans hread⟩

/-- Bytes are valid where an object is read from them in which every field of the model is valid. -/
theorem Post.isValid_ofBytes_iff (post : Post) {read : List UInt8 → Except Json.Flaw Json}
    {bytes : List UInt8} :
    post.IsValid (.ofBytes read bytes) ↔
      bytes ≠ [] ∧ ∃ body, read bytes = .ok (.obj body) ∧ IsValidBody post.model body := by
  simp only [IsValid, Payload.ofBytes_eq_json_iff]
  constructor
  · rintro ⟨body, ⟨hbytes, hread⟩, hvalid⟩
    exact ⟨hbytes, body, hread, hvalid⟩
  · rintro ⟨hbytes, body, hread, hvalid⟩
    exact ⟨body, ⟨hbytes, hread⟩, hvalid⟩

section Serving

variable (framework : Framework) (post : Post) (bytes : List UInt8)

/-- A valid body is served a plant, one that the framework gives up on is unreadable, and the complaints
about any other one are written. -/
theorem Framework.serve_cases :
    post.IsValid (.ofBytes framework.read bytes) ∧
        (∃ record, framework.serve .builtIn "POST" post.address bytes = .ok (.success record)) ∨
      Payload.ofBytes framework.read bytes = .unreadable ∧
        framework.serve .builtIn "POST" post.address bytes = .ok .unreadable ∨
      ¬ post.IsValid (.ofBytes framework.read bytes) ∧
        Payload.ofBytes framework.read bytes ≠ .unreadable ∧
        ∃ complaints, complaints.map (fun c => (c.path, c.value)) =
            post.flaws (.ofBytes framework.read bytes) ∧
          framework.serve .builtIn "POST" post.address bytes =
            (framework.write complaints).map fun _ => .rejected complaints := by
  unfold serve
  rcases post.answer_cases (.ofBytes framework.read bytes) with ⟨hvalid, record, hanswer⟩ |
    ⟨hgiven, hanswer⟩ | ⟨hinvalid, hread, complaints, hflaws, hanswer⟩
  · exact .inl ⟨hvalid, record, by rw [hanswer]; rfl⟩
  · exact .inr (.inl ⟨hgiven, by rw [hanswer]; rfl⟩)
  · refine .inr (.inr ⟨hinvalid, hread, complaints, hflaws, ?_⟩)
    rw [hanswer]
    show framework.send (.rejected complaints) = _
    rw [send]
    cases framework.write complaints <;> rfl

/-- What could not be read is not valid. -/
theorem Post.not_isValid_unreadable : ¬ post.IsValid .unreadable := by
  rintro ⟨_, h, -⟩
  cases h

/-- Exactly valid bodies are served a plant. -/
theorem Framework.status_eq_success_iff :
    (framework.serve .builtIn "POST" post.address bytes).map Answer.status = .ok 200 ↔
      post.IsValid (.ofBytes framework.read bytes) := by
  rcases framework.serve_cases post bytes with ⟨hvalid, record, hserved⟩ | ⟨hgiven, hserved⟩ |
    ⟨hinvalid, -, complaints, -, hserved⟩
  · simp [hserved, Except.map, Answer.status, hvalid]
  · simp [hserved, hgiven, Except.map, Answer.status, post.not_isValid_unreadable]
  · cases hwritten : framework.write complaints <;>
      simp [hserved, hwritten, Except.map, Answer.status, hinvalid]

/-- Exactly bodies that the framework gives up on are unreadable. -/
theorem Framework.status_eq_unreadable_iff :
    (framework.serve .builtIn "POST" post.address bytes).map Answer.status = .ok 400 ↔
      Payload.ofBytes framework.read bytes = .unreadable := by
  rcases framework.serve_cases post bytes with ⟨hvalid, record, hserved⟩ | ⟨hgiven, hserved⟩ |
    ⟨-, hread, complaints, -, hserved⟩
  · have hread : Payload.ofBytes framework.read bytes ≠ .unreadable := by
      intro hgiven
      rw [hgiven] at hvalid
      exact post.not_isValid_unreadable hvalid
    simp [hserved, Except.map, Answer.status, hread]
  · simp [hserved, hgiven, Except.map, Answer.status]
  · cases hwritten : framework.write complaints <;>
      simp [hserved, hwritten, Except.map, Answer.status, hread]

variable {post bytes}

/-- What is neither valid nor unreadable has complaints about its flaws, and the framework writes them or
fails. -/
theorem Framework.exists_complaints (hinvalid : ¬ post.IsValid (.ofBytes framework.read bytes))
    (hread : Payload.ofBytes framework.read bytes ≠ .unreadable) :
    ∃ complaints, complaints.map (fun c => (c.path, c.value)) =
        post.flaws (.ofBytes framework.read bytes) ∧
      framework.serve .builtIn "POST" post.address bytes =
        (framework.write complaints).map fun _ => .rejected complaints := by
  rcases framework.serve_cases post bytes with ⟨hvalid, -⟩ | ⟨hgiven, -⟩ | ⟨-, -, hcomplaints⟩
  · exact absurd hvalid hinvalid
  · exact absurd hgiven hread
  · exact hcomplaints

end Serving

/-- A post over the built-in species is answered with a plant exactly when its body is valid, so no
valid body makes a generator fail. It is unreadable exactly when the framework gives up on its body. Any
other body has one complaint about each flaw, which for an object are the fields that are not valid, in
the order of the model; it is rejected with them where the framework can write them, and otherwise the
framework fails. Neither the order of the fields of a body nor its further fields take part in this. -/
theorem posts_answer_valid_bodies (framework : Framework) (post : Post) :
    let serve := framework.serve .builtIn "POST" post.address
    let payload := Payload.ofBytes framework.read
    (∀ bytes, (serve bytes).map Answer.status = .ok 200 ↔
      bytes ≠ [] ∧ ∃ body, framework.read bytes = .ok (.obj body) ∧
        IsValidBody post.model body) ∧
    (∀ bytes, (serve bytes).map Answer.status = .ok 400 ↔
      bytes ≠ [] ∧ ∃ flaw, flaw ≠ .malformed ∧ framework.read bytes = .error flaw) ∧
    (∀ bytes, ¬ post.IsValid (payload bytes) → payload bytes ≠ .unreadable →
      ∃ complaints, complaints.map (fun c => (c.path, c.value)) = post.flaws (payload bytes) ∧
        (framework.write complaints = .ok () →
          serve bytes = .ok (.rejected complaints) ∧ (Answer.rejected complaints).status = 422) ∧
        ∀ fault, framework.write complaints = .error fault → serve bytes = .error fault) ∧
    ∀ body body' : List (JsonString × Json),
      (∀ field ∈ post.model, body'.lookup (.text field.name) = body.lookup (.text field.name)) →
      (IsValidBody post.model body' ↔ IsValidBody post.model body) ∧
        (post.flaws (.json (.obj body'))).map Prod.fst =
          (post.flaws (.json (.obj body))).map Prod.fst := by
  intro serve payload
  refine ⟨fun bytes => ?_, fun bytes => ?_, fun bytes hinvalid hread => ?_, fun body body' hsame => ?_⟩
  · rw [← post.isValid_ofBytes_iff]
    exact framework.status_eq_success_iff post bytes
  · rw [← Payload.ofBytes_eq_unreadable_iff]
    exact framework.status_eq_unreadable_iff post bytes
  · obtain ⟨complaints, hflaws, hserved⟩ := framework.exists_complaints hinvalid hread
    refine ⟨complaints, hflaws, fun hwritten => ⟨?_, rfl⟩, fun fault hfault => ?_⟩
    · rw [hwritten] at hserved
      exact hserved
    · rw [hfault] at hserved
      exact hserved
  · have hfields := invalidFields_congr hsame
    constructor
    · rw [← invalidFields_eq_nil_iff, hfields, invalidFields_eq_nil_iff]
    · simp only [Post.flaws_obj, hfields, List.map_map]
      rfl

/-- Whether the standard framework writes complaints depends on the values of the flaws. -/
theorem Framework.write_standard (limits : Json.Limits) {complaints : List Complaint}
    {flaws : List (List String × Json)}
    (hflaws : complaints.map (fun c => (c.path, c.value)) = flaws) :
    (standard limits).write complaints =
      if !flaws.all fun flaw => flaw.2.isFinite then .error .numberNotWritable
      else if !flaws.all fun flaw => flaw.2.isText then .error .textNotWritable
      else .ok () := by
  subst hflaws
  simp only [standard, List.all_map]
  rfl

/-- A post with an empty seed, a number that no model asks for, and an unknown species. -/
def cactusText : List Char :=
  "\x7b\"seed\":\"\",\"height\":3,\"species\":\"cactus\"\x7d".toList

/-- The body of this post. -/
def cactusBody : List (JsonString × Json) :=
  [("seed", .str ""), ("height", .int 3), ("species", .str "cactus")]

/-- The limits that hold where no others are set: whole numbers of up to 4300 digits. -/
def usualLimits : Json.Limits := ⟨some 4300, none⟩

/-- The bytes of the post are read as its body. -/
theorem read_cactusText :
    Payload.ofBytes (Framework.standard usualLimits).read (Json.bytesOf cactusText) =
      .json (.obj cactusBody) := by
  have hascii : Json.IsAscii cactusText := by decide +kernel
  have hread : Json.read usualLimits cactusText = .ok (.obj cactusBody) := rfl
  exact Payload.ofBytes_bytesOf hascii hread

/-- What is wrong with the post are its species and its seed. -/
theorem flaws_cactusBody :
    Post.plant.flaws (.json (.obj cactusBody)) =
      [(["body", "species"], .str "cactus"), (["body", "seed"], .str "")] := by
  have hspecies : ¬ ModelField.species.IsValid cactusBody := by
    rintro ⟨s, hs⟩
    cases s <;> simp [Species.name] at hs
  have hstage : ModelField.stage.IsValid cactusBody := rfl
  have hseed : ¬ (ModelField.label "seed").IsValid cactusBody := by
    rintro ⟨t, ht, hne⟩
    cases ht
    exact hne rfl
  have hcolor : (ModelField.remark "bloom_color").IsValid cactusBody := rfl
  have hinvalid : invalidFields Post.plant.model cactusBody = [.species, .label "seed"] := by
    simp [invalidFields, Post.model, PlantRequest.model, hspecies, hstage, hseed, hcolor]
  rw [Post.flaws_obj, hinvalid]
  rfl

/-- The bytes of the cactus are rejected for its species and its seed, in this order. -/
theorem posts_answer_valid_bodies_cactus :
    ¬ Post.plant.IsValid (.ofBytes (Framework.standard usualLimits).read (Json.bytesOf cactusText)) ∧
      ∃ complaints, (Framework.standard usualLimits).serve .builtIn "POST" "/structure"
            (Json.bytesOf cactusText) = .ok (.rejected complaints) ∧
        complaints.map (fun c => (c.path, c.value)) =
          [(["body", "species"], .str "cactus"), (["body", "seed"], .str "")] := by
  obtain ⟨-, -, hrejected, -⟩ := posts_answer_valid_bodies (.standard usualLimits) .plant
  have hinvalid : ¬ Post.plant.IsValid
      (.ofBytes (Framework.standard usualLimits).read (Json.bytesOf cactusText)) := by
    rw [read_cactusText]
    exact Post.not_isValid_of_flaws flaws_cactusBody
  obtain ⟨complaints, hflaws, hserved, -⟩ := hrejected _ hinvalid (by rw [read_cactusText]; rintro ⟨⟩)
  rw [read_cactusText, flaws_cactusBody] at hflaws
  have hwritten := Framework.write_standard usualLimits hflaws
  exact ⟨hinvalid, complaints, (hserved hwritten).1, hflaws⟩

/-! ## Bodies that are neither answered with a plant nor rejected -/

/-- The text of a post for a vine, with its stage written like this. -/
def vineText (stage : List Char) : List Char :=
  "\x7b\"species\":\"vine\",\"seed\":\"a\",\"stage\":".toList ++ stage ++ ['\x7d']

/-- A post with a stage that the framework gives up on is unreadable. -/
theorem status_of_read_vineText {limits : Json.Limits} {stage : List Char} {flaw : Json.Flaw}
    (hascii : Json.IsAscii (vineText stage))
    (hread : Json.read limits (vineText stage) = .error flaw) (hflaw : flaw ≠ .malformed) :
    ((Framework.standard limits).serve .builtIn "POST" "/structure"
      (Json.bytesOf (vineText stage))).map Answer.status = .ok 400 :=
  (Framework.status_eq_unreadable_iff (.standard limits) .plant _).2
    (Payload.ofBytes_bytesOf_of_flaw hascii hread hflaw)

/-- A post fails where the framework reads an object and does not write the complaints about it. -/
theorem Framework.status_of_not_written {framework : Framework} (post : Post) {bytes : List UInt8}
    {body : List (JsonString × Json)} {flaw : List String × Json} {flaws : List (List String × Json)}
    {fault : Fault} (hread : Payload.ofBytes framework.read bytes = .json (.obj body))
    (hflaws : post.flaws (.json (.obj body)) = flaw :: flaws)
    (hwrite : ∀ complaints : List Complaint,
      complaints.map (fun c => (c.path, c.value)) = flaw :: flaws →
        framework.write complaints = .error fault) :
    (framework.serve .builtIn "POST" post.address bytes).map Answer.status = .error fault := by
  have hinvalid : ¬ post.IsValid (.ofBytes framework.read bytes) := by
    rw [hread]
    exact Post.not_isValid_of_flaws hflaws
  obtain ⟨complaints, hfound, hserved⟩ :=
    framework.exists_complaints hinvalid (by rw [hread]; rintro ⟨⟩)
  rw [hread, hflaws] at hfound
  rw [hserved, hwrite complaints hfound]
  rfl

/-- A stage of one digit more than is read. -/
def longStage : List Char := List.replicate 4301 '9'

/-- The double that a stage of `1e400` is read as. -/
def hugeStage : Float := Json.Numeral.nearestDouble 1 400

/-- The body of a post with this stage. -/
def hugeBody : List (JsonString × Json) :=
  [("species", .str "vine"), ("seed", .str "a"), ("stage", .real hugeStage)]

/-- This double is not finite. -/
theorem isFinite_hugeStage :
    Scalar.isFinite hugeStage = false ∧ (Json.real hugeStage).isFinite = false := by
  decide +kernel

/-- The bytes of the post are read as its body. -/
theorem read_hugeBody :
    Payload.ofBytes (Framework.standard usualLimits).read (Json.bytesOf (vineText "1e400".toList)) =
      .json (.obj hugeBody) := by
  have hascii : Json.IsAscii (vineText "1e400".toList) := by decide +kernel
  have hread : Json.read usualLimits (vineText "1e400".toList) = .ok (.obj hugeBody) := rfl
  exact Payload.ofBytes_bytesOf hascii hread

/-- What is wrong with the post is its stage. -/
theorem flaws_hugeBody :
    Post.plant.flaws (.json (.obj hugeBody)) = [(["body", "stage"], .real hugeStage)] := by
  have hspecies : ModelField.species.IsValid hugeBody := ⟨.vine, rfl⟩
  have hstage : ¬ ModelField.stage.IsValid hugeBody := by
    rintro ⟨n, hn⟩
    cases hn with
    | real hvalue =>
      have hfinite : Scalar.isFinite hugeStage = true := Double.isFinite_of_value hvalue
      rw [isFinite_hugeStage.1] at hfinite
      cases hfinite
  have hseed : (ModelField.label "seed").IsValid hugeBody := ⟨"a", rfl, by decide⟩
  have hcolor : (ModelField.remark "bloom_color").IsValid hugeBody := rfl
  have hinvalid : invalidFields Post.plant.model hugeBody = [.stage] := by
    simp [invalidFields, Post.model, PlantRequest.model, hspecies, hstage, hseed, hcolor]
  rw [Post.flaws_obj, hinvalid]
  rfl

/-- The text of a post whose species is half of a character. -/
def halfText : List Char := "\x7b\"species\":\"\\ud800\",\"seed\":\"a\"\x7d".toList

/-- The body of this post. -/
def halfBody : List (JsonString × Json) :=
  [("species", .str (.broken [.half 0xD800])), ("seed", .str "a")]

/-- The bytes of the post are read as its body. -/
theorem read_halfText :
    Payload.ofBytes (Framework.standard usualLimits).read (Json.bytesOf halfText) =
      .json (.obj halfBody) := by
  have hascii : Json.IsAscii halfText := by decide +kernel
  have hread : Json.read usualLimits halfText = .ok (.obj halfBody) := rfl
  exact Payload.ofBytes_bytesOf hascii hread

/-- What is wrong with the post is its species. -/
theorem flaws_halfBody :
    Post.plant.flaws (.json (.obj halfBody)) =
      [(["body", "species"], .str (.broken [.half 0xD800]))] := by
  have hspecies : ¬ ModelField.species.IsValid halfBody := by
    rintro ⟨s, hs⟩
    cases hs
  have hstage : ModelField.stage.IsValid halfBody := rfl
  have hseed : (ModelField.label "seed").IsValid halfBody := ⟨"a", rfl, by decide⟩
  have hcolor : (ModelField.remark "bloom_color").IsValid halfBody := rfl
  have hinvalid : invalidFields Post.plant.model halfBody = [.species] := by
    simp [invalidFields, Post.model, PlantRequest.model, hspecies, hstage, hseed, hcolor]
  rw [Post.flaws_obj, hinvalid]
  rfl

set_option maxRecDepth 20000 in
/-- Without limits the long stage makes a request, but it is longer than is usually read. -/
theorem read_longStage :
    ((Json.read .unlimited (vineText longStage)).toOption.any fun value =>
        (PlantRequest.ofPayload (.json value)).isOk) = true ∧
      (Json.read usualLimits (vineText longStage)).map (fun _ => ()) = .error .numeralTooLong ∧
      Json.IsAscii (vineText longStage) := by
  decide +kernel

/-- What makes a request is an object, and a valid one. -/
theorem PlantRequest.exists_validBody {value : Json}
    (h : (ofPayload (.json value)).isOk = true) :
    ∃ body, value = .obj body ∧ IsValidBody model body := by
  cases value with
  | obj body =>
    have hsettled := settles_ofFields body
    have hread : ofPayload (.json (.obj body)) = ofFields body := rfl
    rw [hread] at h
    cases hrequest : ofFields body with
    | ok r =>
      rw [hrequest] at hsettled
      exact ⟨body, rfl, hsettled⟩
    | error refusal =>
      rw [hrequest] at h
      cases h
  | _ => cases h

/-- A valid body is unreadable for the length of its stage. A stage that is no number JSON can write is
neither taken nor rejected, and nor is a species that bytes cannot say. -/
theorem posts_without_plant_or_rejection :
    (∃ body, Json.ofBytes .unlimited (Json.bytesOf (vineText longStage)) = .ok (.obj body) ∧
      IsValidBody Post.plant.model body) ∧
    ((Framework.standard usualLimits).serve .builtIn "POST" "/structure"
      (Json.bytesOf (vineText longStage))).map Answer.status = .ok 400 ∧
    ((Framework.standard usualLimits).serve .builtIn "POST" "/structure"
      (Json.bytesOf (vineText "1e400".toList))).map Answer.status = .error .numberNotWritable ∧
    ((Framework.standard usualLimits).serve .builtIn "POST" "/structure"
      (Json.bytesOf halfText)).map Answer.status = .error .textNotWritable := by
  obtain ⟨hvalue, hlong, hascii⟩ := read_longStage
  refine ⟨?_, ?_, ?_, ?_⟩
  · rw [Json.ofBytes_bytesOf _ hascii]
    cases hread : Json.read .unlimited (vineText longStage) with
    | error flaw =>
      rw [hread] at hvalue
      cases hvalue
    | ok value =>
      rw [hread] at hvalue
      obtain ⟨body, rfl, hvalid⟩ := PlantRequest.exists_validBody hvalue
      exact ⟨body, rfl, hvalid⟩
  · have hread : Json.read usualLimits (vineText longStage) = .error .numeralTooLong := by
      cases hread : Json.read usualLimits (vineText longStage) with
      | error flaw =>
        rw [hread] at hlong
        cases hlong
        rfl
      | ok value =>
        rw [hread] at hlong
        cases hlong
    exact status_of_read_vineText hascii hread Json.Flaw.noConfusion
  · refine Framework.status_of_not_written .plant read_hugeBody flaws_hugeBody
      fun complaints hflaws => ?_
    rw [Framework.write_standard usualLimits hflaws]
    simp [isFinite_hugeStage.2]
  · exact Framework.status_of_not_written .plant read_halfText flaws_halfBody
      fun complaints hflaws => Framework.write_standard usualLimits hflaws

end PlantGrowth.Service
