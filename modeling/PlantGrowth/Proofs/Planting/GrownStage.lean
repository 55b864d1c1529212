import PlantGrowth.Proofs.Planting.Stage
import PlantGrowth.Proofs.Scalar.Truncation
import PlantGrowth.Species.BuiltIn

/-!
# The stage that is grown

A stage is bounded more than once on the way to a plant: where it is named, where a plant is asked for,
and in the generator of its preset. The first of these bounds decides: the others leave its result where
it is, also where the greatest stage of a species is below one (`GrowsAt`). So a stage counts for no more
than its bound, and all stages beyond an end of the range are one stage.
-/

set_option autoImplicit false

namespace PlantGrowth

/-! ## Stages that are numbers -/

/-- A stage that is an integer or a finite double. -/
def Stage.IsNumber : Stage Float → Prop
  | .absent => False
  | .whole _ => True
  | .real x => Scalar.isFinite x = true

/-- The number that a stage is, if it is one. -/
noncomputable def Stage.value? : Stage Float → Option ℝ
  | .absent => none
  | .whole n => some n
  | .real x => Double.value? x

/-- A stage that is a number has a value. -/
theorem Stage.IsNumber.exists_value {stage : Stage Float} (h : stage.IsNumber) :
    ∃ v, stage.value? = some v := by
  cases stage with
  | absent => exact h.elim
  | whole n => exact ⟨n, rfl⟩
  | real x => exact Double.exists_value_of_isFinite h

/-- The integer of a stage is its value, cut to an integer. -/
theorem Stage.toInteger_of_value {stage : Stage Float} {v : ℝ} (hv : stage.value? = some v) :
    stage.toInteger = .ok (Scalar.truncate v) := by
  cases stage with
  | absent => cases hv
  | whole n =>
    cases hv
    show Except.ok n = Except.ok (if 0 ≤ (n : ℝ) then ⌊(n : ℝ)⌋ else ⌈(n : ℝ)⌉)
    rw [Int.floor_intCast, Int.ceil_intCast, ite_self]
  | real x => exact Double.toInteger_of_value hv

/-- An integer that is not above a number is not above the cut number. -/
theorem Scalar.le_truncate {n : ℤ} {v : ℝ} (h : n ≤ v) : n ≤ Scalar.truncate v := by
  show n ≤ if 0 ≤ v then ⌊v⌋ else ⌈v⌉
  split
  · exact Int.le_floor.2 h
  · exact Int.cast_le.1 (h.trans (Int.le_ceil v))

/-- An integer that is not below a number is not below the cut number. -/
theorem Scalar.truncate_le {n : ℤ} {v : ℝ} (h : v ≤ n) : Scalar.truncate v ≤ n := by
  show (if 0 ≤ v then ⌊v⌋ else ⌈v⌉) ≤ n
  split
  · exact Int.cast_le.1 ((Int.floor_le v).trans h)
  · exact Int.ceil_le.2 h

namespace Catalogue

/-- The plants of a species at the stage that is asked for are the ones at `t`, whatever layer bounds
the stage, and `t` is the stage that is reported for a memory. -/
structure GrowsAt (catalogue : Catalogue Float) (species : Species) (stage : Stage Float) (t : Int) :
    Prop where
  bounded : catalogue.boundedStageNamed species.name stage = .ok t
  stays : catalogue.boundedStageNamed species.name (.whole t) = .ok t
  /-- The generator of the species does not move the stage. -/
  reached : match catalogue species with
    | .grammar preset => preset.generation t = t
    | .colonization _ => max 1 t = t
  grown (key : String) (bloomColor : Option String) :
    catalogue.plantNamed species.name stage key bloomColor =
      (((catalogue species).grow t bloomColor).run (.keyed key) 0).1
  same (key : String) (bloomColor : Option String) :
    catalogue.plantNamed species.name stage key bloomColor =
      catalogue.plantNamed species.name (.whole t) key bloomColor
  reported (id importance : String) (note : Option String) :
    catalogue.growMemory ⟨id, species.name, importance, note⟩ stage =
      (catalogue.plantNamed species.name (.whole t) (id ++ "-" ++ t.repr) none).map
        fun plant => (t, plant)

variable {catalogue : Catalogue Float} {species : Species} {n t greatest : Int}

/-- The bound of a named species at a stage is the bound at its integer. -/
theorem boundedStageNamed_of_toInteger {stage : Stage Float} (hn : stage.toInteger = .ok n) :
    catalogue.boundedStageNamed species.name stage = catalogue.boundedStage species n := by
  unfold boundedStageNamed
  rw [hn, Species.named_name]
  rfl

/-- The plant of a named species at a stage is the plant at its integer. -/
theorem plantNamed_of_toInteger {stage : Stage Float} (hn : stage.toInteger = .ok n) (key : String)
    (bloomColor : Option String) :
    catalogue.plantNamed species.name stage key bloomColor =
      catalogue.plant species n key bloomColor := by
  unfold plantNamed
  rw [hn, Species.named_name]
  rfl

/-- A vine has at least four stages. -/
theorem four_le_of_vineStages {attractorCount : Int}
    (hgreatest : vineStages attractorCount = .ok greatest) : 4 ≤ greatest := by
  unfold vineStages at hgreatest
  split at hgreatest
  · cases hgreatest
    exact le_max_left _ _
  · cases hgreatest

/-- No generator moves a bounded stage: a grammar has the same range, and a vine has a stage. -/
theorem reached_of_boundedStage (ht : catalogue.boundedStage species n = .ok t) :
    match catalogue species with
    | .grammar preset => preset.generation t = t
    | .colonization _ => max 1 t = t := by
  obtain ⟨greatest, hgreatest, rfl⟩ := boundedStage_eq_ok_iff.1 ht
  unfold greatestStage at hgreatest
  cases hpreset : catalogue species with
  | grammar preset =>
    rw [hpreset] at hgreatest
    cases hgreatest
    simp only [GrammarPreset.generation]
    omega
  | colonization preset =>
    rw [hpreset] at hgreatest
    have hfour := four_le_of_vineStages hgreatest
    simp only
    omega

/-- At a stage that has an integer the plants of a species are those of the bound. -/
theorem growsAt_of_boundedStage {stage : Stage Float} (hn : stage.toInteger = .ok n)
    (ht : catalogue.boundedStage species n = .ok t) : catalogue.GrowsAt species stage t := by
  have htwice := boundedStage_boundedStage ht
  have hwhole : (Stage.whole t : Stage Float).toInteger = .ok t := rfl
  have hgrown (key : String) (bloomColor : Option String) :
      catalogue.plantNamed species.name stage key bloomColor =
        (((catalogue species).grow t bloomColor).run (.keyed key) 0).1 := by
    rw [plantNamed_of_toInteger hn]
    exact plant_of_boundedStage ht key bloomColor
  refine ⟨?_, ?_, reached_of_boundedStage ht, hgrown, ?_, ?_⟩
  · rw [boundedStageNamed_of_toInteger hn]
    exact ht
  · rw [boundedStageNamed_of_toInteger hwhole]
    exact htwice
  · intro key bloomColor
    rw [hgrown, plantNamed_of_toInteger hwhole]
    exact (plant_of_boundedStage htwice key bloomColor).symm
  · intro id importance note
    have hstage : stage ≠ .absent := by
      rintro rfl
      cases hn
    rw [growMemory_eq_map rfl (wantedStage_of_ne_absent hstage) hn ht, plantNamed_of_toInteger hwhole]
    rfl

/-- The stage that a plant is reported to have is the stage that it was grown at. Whatever number is
asked for as the stage, of any size and sign, its bound stands for it: bounding it once more does not
move it, and the plants of every key and colour, and every memory, are the ones of the bound. Without a
stage this holds of the target of the memory. Beyond the two ends of the range all stages are one. -/
theorem stage_reported_is_stage_grown (hgreatest : catalogue.greatestStage species = .ok greatest) :
    (∀ stage : Stage Float, stage.IsNumber →
      ∃ t, catalogue.GrowsAt species stage t ∧ (1 ≤ greatest → 1 ≤ t ∧ t ≤ greatest)) ∧
    (∀ (id : String) (importance : Importance) (note : Option String),
      ∃ target, catalogue.aimedStage species.name importance.name = .ok target ∧
        catalogue.GrowsAt species (.whole target) target ∧
        catalogue.growMemory ⟨id, species.name, importance.name, note⟩ .absent =
          catalogue.growMemory ⟨id, species.name, importance.name, note⟩ (.whole target)) ∧
    (∀ (stage stage' : Stage Float) (v v' : ℝ), stage.value? = some v → stage'.value? = some v' →
      (greatest ≤ v ∧ greatest ≤ v' ∨ v ≤ 1 ∧ v' ≤ 1) →
      ∀ (key : String) (bloomColor : Option String),
        catalogue.plantNamed species.name stage key bloomColor =
          catalogue.plantNamed species.name stage' key bloomColor) := by
  have hbound := boundedStage_of_greatestStage hgreatest
  refine ⟨?_, ?_, ?_⟩
  · intro stage hnumber
    obtain ⟨v, hv⟩ := hnumber.exists_value
    refine ⟨_, growsAt_of_boundedStage (Stage.toInteger_of_value hv) (hbound _), ?_⟩
    omega
  · intro id importance note
    have haimed := aimedStage_name hgreatest importance
    refine ⟨_, haimed, growsAt_of_boundedStage rfl (boundedStage_boundedStage (hbound _)), ?_⟩
    unfold growMemory
    rw [wantedStage_absent haimed]
    rfl
  · intro stage stage' v v' hv hv' hends key bloomColor
    have hsame : min (max (Scalar.truncate v) 1) greatest =
        min (max (Scalar.truncate v') 1) greatest := by
      rcases hends with ⟨h, h'⟩ | ⟨h, h'⟩
      · have hreach := Scalar.le_truncate h
        have hreach' := Scalar.le_truncate h'
        omega
      · rw [← Int.cast_one] at h h'
        have hreach := Scalar.truncate_le h
        have hreach' := Scalar.truncate_le h'
        omega
    rw [(growsAt_of_boundedStage (Stage.toInteger_of_value hv) (hbound _)).grown,
      (growsAt_of_boundedStage (Stage.toInteger_of_value hv') (hbound _)).grown, hsame]

end Catalogue

/-- Nine and a half stages make a flower of stage four, as more stages do. -/
theorem Catalogue.stage_reported_is_stage_grown_flower :
    builtIn.greatestStage .flower = .ok 4 ∧ builtIn.GrowsAt .flower (.real 9.5) 4 ∧
      builtIn.plantNamed "flower" (.real 9.5) "pond" none =
        builtIn.plantNamed "flower" (.whole (10 ^ 30)) "pond" none := by
  have hgreatest : builtIn.greatestStage .flower = .ok 4 := rfl
  have hvalue : (Stage.real 9.5).value? = some (19 / 2) := by
    have hunpack : (9.5 : Float).toModel.unpack = .finite .positive (19 * 2 ^ 48) (-49) (by decide) :=
      rfl
    show Double.valueOf (9.5 : Float).toModel.unpack = _
    rw [hunpack, Double.valueOf_finite]
    norm_num [Double.signed]
  obtain ⟨hnumber, -, hends⟩ := stage_reported_is_stage_grown hgreatest
  refine ⟨hgreatest, ?_, ?_⟩
  · have hfinite : (Stage.real 9.5).IsNumber := rfl
    obtain ⟨t, hgrows, -⟩ := hnumber _ hfinite
    have hbounded : builtIn.boundedStageNamed "flower" (.real 9.5) = .ok 4 := rfl
    have ht := hgrows.bounded.symm.trans hbounded
    cases ht
    exact hgrows
  · have habove : ((4 : ℤ) : ℝ) ≤ 19 / 2 ∧ ((4 : ℤ) : ℝ) ≤ (10 ^ 30 : ℤ) := by
      constructor <;> norm_num
    exact hends _ (.whole (10 ^ 30)) _ _ hvalue rfl (.inl habove) "pond" none

end PlantGrowth
