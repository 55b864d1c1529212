import PlantGrowth.Proofs.Planting.BuiltIn

/-!
# Obstacles

What keeps a memory of the built-in garden from growing, said without growing it: a stage that is no
number, a name that no species has, a name that no importance has. Which of these count, and in which
order, depends on whether a stage is asked for. The first one is the fault, and a memory without any
grows (`first_obstacle_decides`).
-/

set_option autoImplicit false

namespace PlantGrowth

/-! ## Names -/

namespace Species

/-- The three names are those of the species. -/
theorem mem_names_iff {text : String} :
    text ∈ ["fern", "flower", "vine"] ↔ ∃ species : Species, text = species.name := by
  constructor
  · intro h
    rcases List.mem_cons.1 h with rfl | h
    · exact ⟨.fern, rfl⟩
    rcases List.mem_cons.1 h with rfl | h
    · exact ⟨.flower, rfl⟩
    · exact ⟨.vine, List.mem_singleton.1 h⟩
  · rintro ⟨species, rfl⟩
    cases species <;> decide

/-- A text that is none of the three names is an unknown species. -/
theorem named_of_notMem {text : String} (h : text ∉ ["fern", "flower", "vine"]) :
    named text = .error (.unknownSpecies text) := by
  cases hnamed : named text with
  | ok species => exact absurd (mem_names_iff.2 ⟨species, named_eq_ok_iff.1 hnamed⟩) h
  | error e =>
    unfold named at hnamed
    split at hnamed
    · cases hnamed
    · exact hnamed.symm

end Species

namespace Importance

/-- The three names are those of the importances. -/
theorem mem_names_iff {text : String} :
    text ∈ ["low", "medium", "high"] ↔ ∃ importance : Importance, text = importance.name := by
  constructor
  · intro h
    rcases List.mem_cons.1 h with rfl | h
    · exact ⟨.low, rfl⟩
    rcases List.mem_cons.1 h with rfl | h
    · exact ⟨.medium, rfl⟩
    · exact ⟨.high, List.mem_singleton.1 h⟩
  · rintro ⟨importance, rfl⟩
    cases importance <;> decide

/-- A text that is none of the three names is an unknown importance. -/
theorem named_of_notMem {text : String} (h : text ∉ ["low", "medium", "high"]) :
    named text = .error (.unknownImportance text) := by
  cases hnamed : named text with
  | ok importance => exact absurd (mem_names_iff.2 ⟨importance, named_eq_ok_iff.1 hnamed⟩) h
  | error e =>
    unfold named at hnamed
    split at hnamed
    · cases hnamed
    · exact hnamed.symm

end Importance

/-! ## Obstacles -/

/-- A double that is no number, or that is infinite, is no stage. -/
def Stage.obstacles : Stage Float → List Fault
  | .absent => []
  | .whole _ => []
  | .real x => if x.isNaN then [.integerOfNaN] else if x.isInf then [.integerOfInfinity] else []

namespace Memory

/-- What is wrong with the species of a memory. -/
def speciesObstacles (memory : Memory) : List Fault :=
  if memory.species ∈ ["fern", "flower", "vine"] then [] else [.unknownSpecies memory.species]

/-- What is wrong with the importance of a memory. -/
def importanceObstacles (memory : Memory) : List Fault :=
  if memory.importance ∈ ["low", "medium", "high"] then []
  else [.unknownImportance memory.importance]

/-- All that keeps a memory from growing to a stage, in the order in which it is met. A stage that is
asked for is looked at first, and then the importance does not count. -/
def obstacles (memory : Memory) (stage : Stage Float) : List Fault :=
  match stage with
  | .absent => memory.speciesObstacles ++ memory.importanceObstacles
  | stage => stage.obstacles ++ memory.speciesObstacles

end Memory

/-- A stage has an integer, unless there is an obstacle; the first one is the fault. -/
theorem Stage.toInteger_of_obstacles {stage : Stage Float} (hstage : stage ≠ .absent) :
    match stage.obstacles with
    | [] => ∃ n, stage.toInteger = .ok n
    | e :: _ => stage.toInteger = .error e := by
  cases stage with
  | absent => exact absurd rfl hstage
  | whole n => exact ⟨n, rfl⟩
  | real x =>
    have htest : (Stage.real x).toInteger =
        if x.isNaN then .error .integerOfNaN
        else if x.isInf then .error .integerOfInfinity else .ok (Scalar.truncate x) := rfl
    rw [htest, obstacles]
    by_cases hnan : x.isNaN
    · rw [if_pos hnan, if_pos hnan]
    · rw [if_neg hnan, if_neg hnan]
      by_cases hinf : x.isInf
      · rw [if_pos hinf, if_pos hinf]
      · rw [if_neg hinf, if_neg hinf]
        exact ⟨_, rfl⟩

namespace Catalogue

/-! ## Memories with an obstacle -/

section Faults

variable {α : Type} [Scalar α] {catalogue : Catalogue α} {memory : Memory} {stage : Stage α}

/-- A memory without a wanted stage has the fault of this stage. -/
theorem growMemory_of_wantedStage_eq_error {e : Fault}
    (h : catalogue.wantedStage memory stage = .error e) :
    catalogue.growMemory memory stage = .error e := by
  rw [growMemory, h]
  rfl

/-- A memory whose wanted stage has no bound has the fault of the bound. -/
theorem growMemory_of_boundedStageNamed_eq_error {wanted : Stage α} {e : Fault}
    (hwanted : catalogue.wantedStage memory stage = .ok wanted)
    (h : catalogue.boundedStageNamed memory.species wanted = .error e) :
    catalogue.growMemory memory stage = .error e := by
  simp only [growMemory, hwanted, h, bind, Except.bind]

/-- The importance of a memory is not looked at where a stage is asked for. -/
theorem growMemory_importance (hstage : stage ≠ .absent) (importance : String) :
    catalogue.growMemory { memory with importance := importance } stage =
      catalogue.growMemory memory stage := by
  rw [growMemory, growMemory, wantedStage_of_ne_absent hstage, wantedStage_of_ne_absent hstage]

end Faults

/-! ## Memories of the built-in garden -/

variable {memory : Memory} {stage : Stage Float}

/-- A memory that has a species and a stage is grown to the bound of the stage. -/
theorem exists_growMemory_builtIn {species : Species} {greatest : Int}
    (hgreatest : builtIn.greatestStage species = .ok greatest)
    (hspecies : memory.species = species.name) {wanted : Stage Float} {n : Int}
    (hwanted : builtIn.wantedStage memory stage = .ok wanted) (hn : wanted.toInteger = .ok n) :
    ∃ plant, builtIn.growMemory memory stage = .ok (min (max n 1) greatest, plant) := by
  have hbounded := boundedStage_of_greatestStage hgreatest n
  obtain ⟨plant, hplant⟩ := exists_plant_builtIn species (min (max n 1) greatest)
    (growthKey memory.id (min (max n 1) greatest)) none
  refine ⟨plant, ?_⟩
  rw [growMemory_eq_map hspecies hwanted hn hbounded, hplant]
  rfl

/-- Without a stage the first obstacle of a memory is its fault; if there is none, it is grown. -/
theorem growMemory_absent_of_obstacles :
    match memory.obstacles .absent with
    | [] => ∃ t plant, builtIn.growMemory memory .absent = .ok (t, plant)
    | e :: _ => builtIn.growMemory memory .absent = .error e := by
  have hwanted : builtIn.wantedStage memory .absent = (do
      let target ← builtIn.aimedStage memory.species memory.importance
      return .whole target) := rfl
  rw [Memory.obstacles, Memory.speciesObstacles]
  by_cases hspecies : memory.species ∈ ["fern", "flower", "vine"]
  · rw [if_pos hspecies, Memory.importanceObstacles]
    obtain ⟨species, hspecies⟩ := Species.mem_names_iff.1 hspecies
    obtain ⟨greatest, hgreatest⟩ := exists_greatestStage_builtIn species
    by_cases himportance : memory.importance ∈ ["low", "medium", "high"]
    · rw [if_pos himportance]
      obtain ⟨importance, himportance⟩ := Importance.mem_names_iff.1 himportance
      have haimed := aimedStage_name hgreatest importance
      rw [← hspecies, ← himportance] at haimed
      exact ⟨_, exists_growMemory_builtIn hgreatest hspecies (wantedStage_absent haimed) rfl⟩
    · rw [if_neg himportance]
      refine growMemory_of_wantedStage_eq_error ?_
      rw [hwanted, aimedStage, hspecies, Species.named_name]
      simp only [hgreatest, Importance.named_of_notMem himportance, bind, Except.bind]
  · rw [if_neg hspecies]
    refine growMemory_of_wantedStage_eq_error ?_
    rw [hwanted, aimedStage, Species.named_of_notMem hspecies]
    rfl

/-- At a stage the first obstacle of a memory is its fault; if there is none, it is grown. -/
theorem growMemory_of_obstacles (hstage : stage ≠ .absent) :
    match memory.obstacles stage with
    | [] => ∃ t plant, builtIn.growMemory memory stage = .ok (t, plant)
    | e :: _ => builtIn.growMemory memory stage = .error e := by
  have hwanted : builtIn.wantedStage memory stage = .ok stage := wantedStage_of_ne_absent hstage
  have hobstacles : memory.obstacles stage = stage.obstacles ++ memory.speciesObstacles := by
    cases stage with
    | absent => exact absurd rfl hstage
    | whole n => rfl
    | real x => rfl
  have hinteger := Stage.toInteger_of_obstacles hstage
  rw [hobstacles]
  cases hobstacle : stage.obstacles with
  | cons e others =>
    rw [hobstacle] at hinteger
    refine growMemory_of_boundedStageNamed_eq_error hwanted ?_
    rw [boundedStageNamed, hinteger]
    rfl
  | nil =>
    rw [hobstacle] at hinteger
    obtain ⟨n, hn⟩ := hinteger
    rw [List.nil_append, Memory.speciesObstacles]
    by_cases hspecies : memory.species ∈ ["fern", "flower", "vine"]
    · rw [if_pos hspecies]
      obtain ⟨species, hspecies⟩ := Species.mem_names_iff.1 hspecies
      obtain ⟨greatest, hgreatest⟩ := exists_greatestStage_builtIn species
      exact ⟨_, exists_growMemory_builtIn hgreatest hspecies hwanted hn⟩
    · rw [if_neg hspecies]
      refine growMemory_of_boundedStageNamed_eq_error hwanted ?_
      rw [boundedStageNamed, hn, Species.named_of_notMem hspecies]
      rfl

end Catalogue

/-- The first obstacle decides. A memory of the built-in garden, of any identifier and note, does not
grow exactly if there is an obstacle, and the fault is the first one: without a stage the name of its
species and then that of its importance; with a stage, whatever integer or double it is, the stage and
then the name of its species. The importance makes no difference where a stage is asked for. -/
theorem first_obstacle_decides (memory : Memory) (stage : Stage Float) :
    (∀ e, Catalogue.builtIn.growMemory memory stage = .error e ↔
      (memory.obstacles stage).head? = some e) ∧
    ((∃ t plant, Catalogue.builtIn.growMemory memory stage = .ok (t, plant)) ↔
      memory.obstacles stage = []) ∧
    (stage ≠ .absent → ∀ importance : String,
      Catalogue.builtIn.growMemory { memory with importance := importance } stage =
        Catalogue.builtIn.growMemory memory stage) := by
  have hdecides : match memory.obstacles stage with
      | [] => ∃ t plant, Catalogue.builtIn.growMemory memory stage = .ok (t, plant)
      | e :: _ => Catalogue.builtIn.growMemory memory stage = .error e := by
    by_cases hstage : stage = .absent
    · rw [hstage]
      exact Catalogue.growMemory_absent_of_obstacles
    · exact Catalogue.growMemory_of_obstacles hstage
  refine ⟨?_, ?_, Catalogue.growMemory_importance⟩
  · intro e
    cases hobstacles : memory.obstacles stage with
    | nil =>
      rw [hobstacles] at hdecides
      obtain ⟨t, plant, hgrown⟩ := hdecides
      simp [hgrown]
    | cons first others =>
      rw [hobstacles] at hdecides
      simp [hdecides]
  · cases hobstacles : memory.obstacles stage with
    | nil =>
      rw [hobstacles] at hdecides
      obtain ⟨t, plant, hgrown⟩ := hdecides
      simp [hgrown]
    | cons first others =>
      rw [hobstacles] at hdecides
      simp [hdecides]

/-- A cactus, which is no species, of an importance that there is not. -/
theorem first_obstacle_decides_cactus :
    Catalogue.builtIn.growMemory ⟨"spine", "cactus", "vital", none⟩ .absent =
      .error (.unknownSpecies "cactus") ∧
    Catalogue.builtIn.growMemory ⟨"spine", "cactus", "vital", none⟩ (.real (0.0 / 0.0)) =
      .error .integerOfNaN ∧
    Catalogue.builtIn.growMemory ⟨"spine", "cactus", "vital", none⟩ (.real (-1.0 / 0.0)) =
      .error .integerOfInfinity ∧
    Catalogue.builtIn.growMemory ⟨"spine", "fern", "vital", none⟩ .absent =
      .error (.unknownImportance "vital") ∧
    (Stage.real 2.5 : Stage Float) ≠ .absent ∧
    (∃ t plant, Catalogue.builtIn.growMemory ⟨"spine", "fern", "vital", none⟩ (.real 2.5) =
      .ok (t, plant)) ∧
    Catalogue.builtIn.growMemory ⟨"spine", "fern", "low", none⟩ (.real 2.5) =
      Catalogue.builtIn.growMemory ⟨"spine", "fern", "vital", none⟩ (.real 2.5) := by
  have hstage : (Stage.real 2.5 : Stage Float) ≠ .absent := by simp
  refine ⟨?_, ?_, ?_, ?_, hstage, ?_, ?_⟩
  · exact ((first_obstacle_decides ⟨"spine", "cactus", "vital", none⟩ .absent).1 _).2 (by decide)
  · exact ((first_obstacle_decides ⟨"spine", "cactus", "vital", none⟩ _).1 _).2 (by decide)
  · exact ((first_obstacle_decides ⟨"spine", "cactus", "vital", none⟩ _).1 _).2 (by decide)
  · exact ((first_obstacle_decides ⟨"spine", "fern", "vital", none⟩ .absent).1 _).2 (by decide)
  · exact (first_obstacle_decides ⟨"spine", "fern", "vital", none⟩ _).2.1.2 (by decide)
  · exact (first_obstacle_decides ⟨"spine", "fern", "vital", none⟩ _).2.2 hstage "low"

end PlantGrowth
