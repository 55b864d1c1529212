import PlantGrowth.Planting.Memory

/-!
# Bounded stages

A stage that was moved into the range of a species stays where it is when it is moved again, and the
plant of a species does not tell the two apart. So it makes no difference how often a stage is bounded
on the way to a plant; the stage that a memory is grown to is already bounded.
-/

set_option autoImplicit false

namespace PlantGrowth.Catalogue

variable {α : Type} [Scalar α] {catalogue : Catalogue α} {species : Species}

/-- A bounded stage is the stage between one and the greatest stage. -/
theorem boundedStage_eq_ok_iff {n t : Int} :
    catalogue.boundedStage species n = .ok t ↔
      ∃ greatest, catalogue.greatestStage species = .ok greatest ∧ min (max n 1) greatest = t := by
  unfold boundedStage
  cases hgreatest : catalogue.greatestStage species with
  | error e =>
    constructor
    · intro h
      cases h
    · rintro ⟨greatest, h, -⟩
      cases h
  | ok greatest =>
    constructor
    · intro h
      cases h
      exact ⟨greatest, rfl, rfl⟩
    · rintro ⟨_, h, rfl⟩
      cases h
      rfl

/-- Where a species has a greatest stage, every stage has a bound. -/
theorem boundedStage_of_greatestStage {greatest : Int}
    (hgreatest : catalogue.greatestStage species = .ok greatest) (n : Int) :
    catalogue.boundedStage species n = .ok (min (max n 1) greatest) :=
  boundedStage_eq_ok_iff.2 ⟨greatest, hgreatest, rfl⟩

/-- A bounded stage is its own bound, even where the greatest stage is below one. -/
theorem boundedStage_boundedStage {n t : Int} (h : catalogue.boundedStage species n = .ok t) :
    catalogue.boundedStage species t = .ok t := by
  obtain ⟨greatest, hgreatest, rfl⟩ := boundedStage_eq_ok_iff.1 h
  refine boundedStage_eq_ok_iff.2 ⟨greatest, hgreatest, ?_⟩
  omega

/-- The plant of a species is grown at the bound of its stage. -/
theorem plant_of_boundedStage {stage t : Int} (h : catalogue.boundedStage species stage = .ok t)
    (key : String) (bloomColor : Option String) :
    catalogue.plant species stage key bloomColor =
      (((catalogue species).grow t bloomColor).run (.keyed key) 0).1 := by
  rw [plant, h]
  rfl

/-- The stage and the plant of a memory of this species: its plant at the bound of the stage that is
wanted, from the key of this stage. -/
theorem growMemory_eq_map {memory : Memory} (hspecies : memory.species = species.name)
    {stage wanted : Stage α} {n t : Int} (hwanted : catalogue.wantedStage memory stage = .ok wanted)
    (hn : wanted.toInteger = .ok n) (ht : catalogue.boundedStage species n = .ok t) :
    catalogue.growMemory memory stage =
      (catalogue.plant species t (growthKey memory.id t) none).map fun plant => (t, plant) := by
  have hreached : catalogue.boundedStageNamed memory.species wanted = .ok t := by
    rw [boundedStageNamed, hn, hspecies, Species.named_name]
    exact ht
  have hplant : catalogue.plantNamed memory.species (.whole t) (growthKey memory.id t) none =
      catalogue.plant species t (growthKey memory.id t) none := by
    rw [plantNamed, hspecies, Species.named_name]
    rfl
  simp only [growMemory, hwanted, hreached, hplant, bind, Except.bind, pure, Except.pure]
  cases catalogue.plant species t (growthKey memory.id t) none with
  | error e => rfl
  | ok plant => rfl

/-- A memory that is grown is of a known species, its stage is a bounded one, and its key seeds its
plant. -/
theorem exists_species_of_growMemory {memory : Memory} {stage : Stage α} {t : Int} {plant : Plant α}
    (h : catalogue.growMemory memory stage = .ok (t, plant)) :
    ∃ species : Species, memory.species = species.name ∧
      catalogue.boundedStage species t = .ok t ∧
      (((catalogue species).grow t none).run (.keyed (growthKey memory.id t)) 0).1 = .ok plant := by
  unfold growMemory at h
  obtain ⟨wanted, -, h⟩ := Fault.bind_eq_ok_iff.1 h
  obtain ⟨reached, hreached, h⟩ := Fault.bind_eq_ok_iff.1 h
  obtain ⟨grown, hgrown, h⟩ := Fault.bind_eq_ok_iff.1 h
  cases h
  unfold boundedStageNamed at hreached
  obtain ⟨n, -, hreached⟩ := Fault.bind_eq_ok_iff.1 hreached
  obtain ⟨species, hspecies, hbounded⟩ := Fault.bind_eq_ok_iff.1 hreached
  have hname := Species.named_eq_ok_iff.1 hspecies
  have hstays := boundedStage_boundedStage hbounded
  rw [plantNamed, hname, Species.named_name] at hgrown
  refine ⟨species, hname, hstays, ?_⟩
  rw [← plant_of_boundedStage hstays]
  exact hgrown

/-- A memory aims at the greatest stage, moved by its importance and bounded. -/
theorem aimedStage_name {greatest : Int}
    (hgreatest : catalogue.greatestStage species = .ok greatest) (importance : Importance) :
    catalogue.aimedStage species.name importance.name =
      .ok (min (max (greatest + importance.stageOffset) 1) greatest) := by
  rw [aimedStage, Species.named_name, Importance.named_name]
  simp only [hgreatest, boundedStage_of_greatestStage hgreatest, bind, Except.bind]

/-- Without a stage the one that a memory aims at is wanted. -/
theorem wantedStage_absent {memory : Memory} {target : Int}
    (haimed : catalogue.aimedStage memory.species memory.importance = .ok target) :
    catalogue.wantedStage memory .absent = .ok (.whole target) := by
  rw [wantedStage, haimed]
  rfl

/-- A stage that is asked for is wanted. -/
theorem wantedStage_of_ne_absent {memory : Memory} {stage : Stage α} (hstage : stage ≠ .absent) :
    catalogue.wantedStage memory stage = .ok stage := by
  cases stage with
  | absent => exact absurd rfl hstage
  | whole n => rfl
  | real x => rfl

/-- Where the greatest stage exists, a memory of known species and importance has a stage to grow to,
and it is a bounded one. -/
theorem exists_growMemory_eq_map {greatest : Int}
    (hgreatest : catalogue.greatestStage species = .ok greatest) (id : String)
    (importance : Importance) (note : Option String) (stage : Option Int) :
    ∃ t, catalogue.boundedStage species t = .ok t ∧
      catalogue.growMemory ⟨id, species.name, importance.name, note⟩
          (match stage with
            | some n => .whole n
            | none => .absent) =
        (catalogue.plant species t (growthKey id t) none).map fun plant => (t, plant) := by
  have hbound := boundedStage_of_greatestStage hgreatest
  cases stage with
  | some n =>
    exact ⟨_, boundedStage_boundedStage (hbound n), growMemory_eq_map rfl rfl rfl (hbound n)⟩
  | none =>
    have haimed := aimedStage_name hgreatest importance
    have hwanted : catalogue.wantedStage ⟨id, species.name, importance.name, note⟩ .absent =
        .ok (.whole _) := wantedStage_absent haimed
    exact ⟨_, boundedStage_boundedStage (hbound _), growMemory_eq_map rfl hwanted rfl (hbound _)⟩

end PlantGrowth.Catalogue
