import PlantGrowth.Proofs.Planting.BuiltIn
import PlantGrowth.Proofs.Planting.SharedSeed
import PlantGrowth.Service.Answer

/-!
# The two posts

A post for a memory is a post for a plant in other words: the stage of its answer, posted together with
the species and the key of the identifier at this stage, is answered with the same stage and the same
structure (`posts_agree`).
-/

set_option autoImplicit false

namespace PlantGrowth.Service

/-! ## The body of a post for a plant -/

/-- The body that asks for the plant of a species at a stage from a seed, and names no colour. -/
def plantBody (species : Species) (stage : Int) (seed : String) : Payload :=
  .json (.obj [("species", .str species.name), ("stage", .int stage), ("seed", .str seed)])

/-- The body of a post for a plant makes the request for it. -/
theorem ofPayload_plantBody (species : Species) (stage : Int) {seed : String}
    (hseed : seed.isEmpty = false) :
    PlantRequest.ofPayload (plantBody species stage seed) = .ok ⟨species, stage, seed, none⟩ := by
  let body : List (JsonString × Json) :=
    [("species", .str species.name), ("stage", .int stage), ("seed", .str seed)]
  have hspecies : required "species" (.listed Species.ofName?) body = .ok species := by
    cases species <;> rfl
  have hstage : Service.optional "stage" .integer 1 body = .ok stage := rfl
  have htext : required "seed" .nonemptyText body = .ok seed := by
    have hread : FieldReader.nonemptyText (.str seed) = .ok seed := by
      rw [FieldReader.nonemptyText, hseed]
      rfl
    have hlookup : body.lookup (.text "seed") = some (.str seed) := rfl
    simp only [required, hlookup, hread, Except.mapError]
  have hcolor : Service.optional "bloom_color" (.nullable .text) none body = .ok none := rfl
  show PlantRequest.ofFields body = _
  simp only [PlantRequest.ofFields, hspecies, hstage, htext, hcolor]

/-- No growth key is empty. -/
theorem isEmpty_growthKey (id : String) (stage : Int) : (growthKey id stage).isEmpty = false := by
  simp [growthKey]

/-! ## Answers to valid bodies -/

/-- A post to the address of memories is one for a memory. -/
theorem answer_memories (catalogue : Catalogue Float) (payload : Payload) :
    answer catalogue "POST" "/memories/structure" payload = answerMemory catalogue payload := by
  have hroute : Route.ofSegments? (Path.segments "/memories/structure") = some .memoryPlant := by
    decide +kernel
  rw [answer, hroute]
  rfl

/-- A post to the address of structures is one for a species. -/
theorem answer_structure (catalogue : Catalogue Float) (payload : Payload) :
    answer catalogue "POST" "/structure" payload = answerPlant catalogue payload := by
  have hroute : Route.ofSegments? (Path.segments "/structure") = some .plant := by decide +kernel
  rw [answer, hroute]
  rfl

variable {catalogue : Catalogue Float} {payload : Payload}

/-- A request for a memory that is grown is answered with its plant. -/
theorem answerMemory_of_grown {r : MemoryRequest} (h : MemoryRequest.ofPayload payload = .ok r)
    {t : Int} {plant : Plant Float} (hgrown : r.grown catalogue = .ok (t, plant)) :
    answerMemory catalogue payload = .ok (.success (r.record t plant)) := by
  rw [answerMemory, h]
  simp only [hgrown, bind, Except.bind, pure, Except.pure]

/-- A request for a species that is grown is answered with its plant. -/
theorem answerPlant_of_grown {r : PlantRequest} (h : PlantRequest.ofPayload payload = .ok r)
    {t : Int} {plant : Plant Float} (hgrown : r.grown catalogue = .ok (t, plant)) :
    answerPlant catalogue payload = .ok (.success (r.record t plant)) := by
  rw [answerPlant, h]
  simp only [hgrown, bind, Except.bind, pure, Except.pure]

/-- A request for a plant at a stage of its species gets it at this stage. -/
theorem PlantRequest.grown_of_boundedStage {r : PlantRequest}
    (hstage : catalogue.boundedStage r.species r.stage = .ok r.stage) {plant : Plant Float}
    (hplant : catalogue.plant r.species r.stage r.seed r.bloomColor = .ok plant) :
    r.grown catalogue = .ok (r.stage, plant) := by
  simp only [PlantRequest.grown, hstage, hplant, bind, Except.bind, pure, Except.pure]

/-- What a request for a memory gets does not depend on its note, nor on its importance if it asks for
a stage. -/
theorem grown_eq_of_fields_eq {r r' : MemoryRequest} (hid : r.id = r'.id)
    (hspecies : r.species = r'.species) (hstage : r.stage = r'.stage)
    (himportance : r.stage = none → r.importance = r'.importance) :
    r.grown catalogue = r'.grown catalogue := by
  have hseed : seedHash r.memory.id = seedHash r'.memory.id := congrArg seedHash hid
  have hname : r.memory.species = r'.memory.species := congrArg Species.name hspecies
  rw [MemoryRequest.grown, MemoryRequest.grown, ← hstage]
  apply catalogue.growMemory_eq_of_seedHash_eq hseed hname
  intro habsent
  cases hwanted : r.stage with
  | some n =>
    rw [hwanted] at habsent
    cases habsent
  | none => exact congrArg Importance.name (himportance hwanted)

/-- Requests for memories that agree in what the plant depends on have the same answer. -/
theorem answerMemory_eq_of_fields_eq {payload' : Payload} {r r' : MemoryRequest}
    (h : MemoryRequest.ofPayload payload = .ok r) (h' : MemoryRequest.ofPayload payload' = .ok r')
    (hid : r.id = r'.id) (hspecies : r.species = r'.species) (hstage : r.stage = r'.stage)
    (himportance : r.stage = none → r.importance = r'.importance) :
    answerMemory catalogue payload = answerMemory catalogue payload' := by
  have hrecord (t : Int) (plant : Plant Float) : r.record t plant = r'.record t plant := by
    rw [MemoryRequest.record, MemoryRequest.record, hid, hspecies]
  rw [answerMemory, answerMemory, h, h']
  simp only [grown_eq_of_fields_eq hid hspecies hstage himportance, hrecord]

/-! ## The two posts together -/

/-- A valid body of a post for a memory is answered with a stage and a structure. The post for this
species and this stage, from the identifier and the stage as its seed and without a colour, is answered
with the same stage and the same structure. Nothing else in the body of the memory takes part in its
answer: not its note, and not its importance where it asks for a stage. -/
theorem posts_agree (payload : Payload) (r : MemoryRequest)
    (h : MemoryRequest.ofPayload payload = .ok r) :
    ∃ (t : Int) (plant : Plant Float),
      answer Catalogue.builtIn "POST" "/memories/structure" payload =
        .ok (.success (.obj [("id", .str r.id), ("species", .str r.species.name),
          ("stage", .int t), ("structure", plant.record)])) ∧
      PlantRequest.ofPayload (plantBody r.species t (r.id ++ "-" ++ t.repr)) =
        .ok ⟨r.species, t, r.id ++ "-" ++ t.repr, none⟩ ∧
      (∀ body, PlantRequest.ofPayload body = .ok ⟨r.species, t, r.id ++ "-" ++ t.repr, none⟩ →
        answer Catalogue.builtIn "POST" "/structure" body =
          .ok (.success (.obj [("species", .str r.species.name), ("stage", .int t),
            ("structure", plant.record)]))) ∧
      ∀ payload' r', MemoryRequest.ofPayload payload' = .ok r' → r'.id = r.id →
        r'.species = r.species → r'.stage = r.stage →
        (r'.stage = none → r'.importance = r.importance) →
        answer Catalogue.builtIn "POST" "/memories/structure" payload' =
          answer Catalogue.builtIn "POST" "/memories/structure" payload := by
  obtain ⟨greatest, hgreatest⟩ := Catalogue.exists_greatestStage_builtIn r.species
  obtain ⟨t, hbounded, hmemory⟩ :=
    Catalogue.exists_growMemory_eq_map hgreatest r.id r.importance r.note r.stage
  obtain ⟨plant, hplant⟩ :=
    Catalogue.exists_plant_builtIn r.species t (growthKey r.id t) none
  have hgrown : r.grown .builtIn = .ok (t, plant) := by
    rw [hplant] at hmemory
    exact hmemory
  refine ⟨t, plant, ?_, ?_, ?_, ?_⟩
  · rw [answer_memories]
    exact answerMemory_of_grown h hgrown
  · exact ofPayload_plantBody r.species t (isEmpty_growthKey r.id t)
  · intro body hbody
    rw [answer_structure]
    exact answerPlant_of_grown hbody (PlantRequest.grown_of_boundedStage hbounded hplant)
  · intro payload' r' h' hid hspecies hstage himportance
    rw [answer_memories, answer_memories]
    exact answerMemory_eq_of_fields_eq h' h hid hspecies hstage himportance

/-- The body of a post for a memory, with a stage that no flower reaches. -/
def eagerRose : Payload :=
  .json (.obj [("id", .str "rose"), ("species", .str "flower"), ("importance", .str "low"),
    ("stage", .int 40), ("note", .str "from the market")])

/-- The eager rose is answered like the flower of its key, and the same without an importance and a
note. -/
theorem posts_agree_eagerRose :
    MemoryRequest.ofPayload eagerRose =
      .ok ⟨"rose", .flower, .low, some 40, some "from the market"⟩ ∧
    ∃ (t : Int) (plant : Plant Float),
      answer Catalogue.builtIn "POST" "/memories/structure" eagerRose =
        .ok (.success (.obj [("id", .str "rose"), ("species", .str "flower"),
          ("stage", .int t), ("structure", plant.record)])) ∧
      answer Catalogue.builtIn "POST" "/structure" (plantBody .flower t ("rose" ++ "-" ++ t.repr)) =
        .ok (.success (.obj [("species", .str "flower"), ("stage", .int t),
          ("structure", plant.record)])) ∧
      answer Catalogue.builtIn "POST" "/memories/structure"
          (.json (.obj [("species", .str "flower"), ("stage", .int 40), ("id", .str "rose")])) =
        answer Catalogue.builtIn "POST" "/memories/structure" eagerRose := by
  have hrose : MemoryRequest.ofPayload eagerRose =
      .ok ⟨"rose", .flower, .low, some 40, some "from the market"⟩ := rfl
  have hbare : MemoryRequest.ofPayload
      (.json (.obj [("species", .str "flower"), ("stage", .int 40), ("id", .str "rose")])) =
      .ok ⟨"rose", .flower, .medium, some 40, none⟩ := rfl
  obtain ⟨t, plant, hmemory, hbody, hplant, hsame⟩ := posts_agree eagerRose _ hrose
  exact ⟨hrose, t, plant, hmemory, hplant _ hbody,
    hsame _ _ hbare rfl rfl rfl (fun h => by cases h)⟩

end PlantGrowth.Service
