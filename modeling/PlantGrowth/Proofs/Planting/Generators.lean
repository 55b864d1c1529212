import Mathlib.Analysis.SpecialFunctions.Trigonometric.Basic
import PlantGrowth.Planting.Generators
import PlantGrowth.Proofs.Grammar.LaterStages
import PlantGrowth.Proofs.Planting.Coloring
import PlantGrowth.Proofs.Planting.GrownStage
import PlantGrowth.Proofs.Vine.Advance
import PlantGrowth.Proofs.Vine.Faultless
import PlantGrowth.Proofs.Vine.Leaves
import PlantGrowth.Proofs.Vine.OutOfReach
import PlantGrowth.Proofs.Vine.Stages

/-!
# Stages as the generators are asked for them

A generator asked for a stage grows the integer of the stage, or has the fault of a stage without one
(`Stage.run_grow_eq_ok_iff`). Cutting keeps the order of stages (`Stage.le_of_value_le`), so what is
known of the plants of integers, one stage or two, carries over to every stage that can be asked for.
-/

set_option autoImplicit false

namespace PlantGrowth

/-- Cutting numbers to their integer parts keeps their order. -/
theorem Scalar.truncate_mono {v w : ℝ} (h : v ≤ w) : Scalar.truncate v ≤ Scalar.truncate w := by
  show (if 0 ≤ v then ⌊v⌋ else ⌈v⌉) ≤ if 0 ≤ w then ⌊w⌋ else ⌈w⌉
  split_ifs with hv hw hw
  · exact Int.floor_mono h
  · exact absurd (hv.trans h) hw
  · have hceil : ⌈v⌉ ≤ 0 := Int.ceil_le.2 (by push_cast; exact (not_le.1 hv).le)
    exact hceil.trans (Int.floor_nonneg.2 hw)
  · exact Int.ceil_mono h

namespace Stage

section Growth

variable {α β : Type} [Scalar α] {stage : Stage α} {growth : Int → Drawing α β} {s : Source α}
  {i j : Nat}

/-- At a stage that has an integer there grows what grows at the integer. -/
theorem grow_of_toInteger {n : Int} (h : stage.toInteger = .ok n) : stage.grow growth = growth n := by
  rw [grow, h]
  rfl

/-- At a stage without an integer nothing grows, and no draw is taken. -/
theorem run_grow_of_error {e : Fault} (h : stage.toInteger = .error e) :
    (stage.grow growth).run s i = (.error e, i) := by
  rw [grow, h]
  rfl

/-- What has grown at a stage has grown at its integer. -/
theorem run_grow_eq_ok_iff {b : β} :
    (stage.grow growth).run s i = (.ok b, j) ↔
      ∃ n, stage.toInteger = .ok n ∧ (growth n).run s i = (.ok b, j) := by
  cases hstage : stage.toInteger with
  | error e => simp [run_grow_of_error hstage]
  | ok n => simp [grow_of_toInteger hstage]

end Growth

/-- Of two numbers the integer of the lesser one is not above that of the other. -/
theorem le_of_value_le {stage later : Stage Float} {v w : ℝ} (hv : stage.value? = some v)
    (hw : later.value? = some w) (hle : v ≤ w) {m n : Int} (hm : stage.toInteger = .ok m)
    (hn : later.toInteger = .ok n) : m ≤ n := by
  rw [toInteger_of_value hv] at hm
  rw [toInteger_of_value hw] at hn
  cases hm
  cases hn
  exact Scalar.truncate_mono hle

end Stage

/-! ## Plants of grammars -/

namespace GrammarPreset

section

variable {α : Type} [Scalar α] {preset : GrammarPreset α}

/-- Stages that are cut and bounded to one generation have the same plant. -/
theorem generate_eq_of_generation_eq {stage later : Stage α} {m n : Int}
    (hm : stage.toInteger = .ok m) (hn : later.toInteger = .ok n)
    (h : preset.generation m = preset.generation n) :
    preset.generate stage = preset.generate later := by
  rw [generate, generate, Stage.grow_of_toInteger hm, Stage.grow_of_toInteger hn, grow, grow, wordAt,
    wordAt, h]

/-- To generate a plant in other colours is to generate it and to dye it. -/
theorem generate_withColors (preset : GrammarPreset α) (leafColor : String)
    (bloomColor : Option String) (stage : Stage α) :
    (preset.withColors leafColor bloomColor).generate stage =
      Plant.dyed leafColor (preset.withColors leafColor bloomColor).colorOfBlooms <$>
        preset.generate stage := by
  simp only [generate, Stage.grow, preset.grow_withColors, map_bind]

end

/-- Where each part of the rule of the step ahead keeps a step ahead, no stage has fewer segments than a
lesser one of the same draws. -/
theorem segments_length_le_of_run_generate {preset : GrammarPreset Float}
    (hkeeps : preset.rules.Keeps 'F') {stage later : Stage Float} {v w : ℝ}
    (hv : stage.value? = some v) (hw : later.value? = some w) (hle : v ≤ w) {s : Source Float}
    {i j j' : Nat} {plant plant' : Plant Float}
    (h : (preset.generate stage).run s i = (.ok plant, j))
    (h' : (preset.generate later).run s i = (.ok plant', j')) :
    plant.segments.length ≤ plant'.segments.length := by
  obtain ⟨m, hm, hgrown⟩ := Stage.run_grow_eq_ok_iff.1 h
  obtain ⟨n, hn, hgrown'⟩ := Stage.run_grow_eq_ok_iff.1 h'
  exact segments_length_le_of_run_grow hkeeps (Stage.le_of_value_le hv hw hle hm hn) hgrown hgrown'

end GrammarPreset

/-! ## Vines -/

namespace ColonizationPreset

section

variable {α : Type} [Scalar α] {preset : ColonizationPreset α} {stage : Stage α} {color : String}
  {s : Source α} {i j : Nat} {plant : Plant α}

/-- Among given attractors a vine does not branch, and the integer of its stage bounds its steps. -/
theorem isUnbranched_of_run_generateAmong {attractors : List (Vec3 α)}
    (h : (preset.generateAmong stage color attractors).run s i = (.ok plant, j)) :
    ∃ n, stage.toInteger = .ok n ∧ preset.IsUnbranched n plant := by
  obtain ⟨n, hn, hgrown⟩ := Stage.run_grow_eq_ok_iff.1 h
  exact ⟨n, hn, isUnbranched_of_run_growAmong hgrown⟩

/-- Among scattered attractors a vine does not branch either. -/
theorem isUnbranched_of_run_generate (h : (preset.generate stage color).run s i = (.ok plant, j)) :
    ∃ n, stage.toInteger = .ok n ∧ preset.IsUnbranched n plant := by
  obtain ⟨n, hn, hgrown⟩ := Stage.run_grow_eq_ok_iff.1 h
  exact ⟨n, hn, isUnbranched_of_run_grow hgrown⟩

/-- The given attractors steer a vine for as many steps as the integer of its stage has. -/
theorem isSteered_of_run_generateAmong {attractors : List (Vec3 α)}
    (h : (preset.generateAmong stage color attractors).run s i = (.ok plant, j)) :
    ∃ n reach, stage.toInteger = .ok n ∧ preset.IsSteered reach n attractors plant := by
  obtain ⟨n, hn, hgrown⟩ := Stage.run_grow_eq_ok_iff.1 h
  obtain ⟨reach, hsteered⟩ := isSteered_of_run_growAmong hgrown
  exact ⟨n, reach, hn, hsteered⟩

/-- The draws after the start of a vine make its leaves and its bloom, at every stage. -/
theorem isDressedFrom_of_run_generateAmong {u : Nat → α} (hs : ∀ n, s n = .ok (u n))
    {attractors : List (Vec3 α)}
    (h : (preset.generateAmong stage color attractors).run s i = (.ok plant, j)) :
    preset.IsDressedFrom color u i plant ∧
      j = i + plant.segments.length + 7 * plant.leaves.length +
        if plant.segments.length = 0 then 0 else 4 := by
  obtain ⟨n, -, hgrown⟩ := Stage.run_grow_eq_ok_iff.1 h
  exact isDressedFrom_of_run_growAmong hs hgrown

/-- To generate a vine in other colours is to generate it and to dye it. -/
theorem generate_withLeafColor (preset : ColonizationPreset α) (leafColor : String) (stage : Stage α)
    (color color' : String) :
    (preset.withLeafColor leafColor).generate stage color =
      Plant.dyed leafColor color <$> preset.generate stage color' := by
  simp only [generate, Stage.grow, preset.grow_withLeafColor leafColor _ color color', map_bind]

end

section Doubles

variable {preset : ColonizationPreset Float} {stage later : Stage Float} {v w : ℝ} {color : String}
  {s : Source Float} {i j k : Nat} {plant older : Plant Float}

/-- Among given attractors the vine of a stage begins the vine of every greater one. -/
theorem isYounger_of_run_generateAmong (hv : stage.value? = some v) (hw : later.value? = some w)
    (hle : v ≤ w) {attractors : List (Vec3 Float)}
    (h : (preset.generateAmong stage color attractors).run s i = (.ok plant, j))
    (holder : (preset.generateAmong later color attractors).run s i = (.ok older, k)) :
    ∃ n, stage.toInteger = .ok n ∧ IsYounger n plant j older k := by
  obtain ⟨m, hm, hgrown⟩ := Stage.run_grow_eq_ok_iff.1 h
  obtain ⟨n, hn, hgrown'⟩ := Stage.run_grow_eq_ok_iff.1 holder
  have hlater : max 1 m ≤ max 1 n := max_le_max_left 1 (Stage.le_of_value_le hv hw hle hm hn)
  exact ⟨m, hm, isYounger_of_run_growAmong hlater hgrown hgrown'⟩

/-- Among scattered attractors the vine of a stage begins the vine of every greater one, too. -/
theorem isYounger_of_run_generate (hv : stage.value? = some v) (hw : later.value? = some w)
    (hle : v ≤ w) (h : (preset.generate stage color).run s i = (.ok plant, j))
    (holder : (preset.generate later color).run s i = (.ok older, k)) :
    ∃ n, stage.toInteger = .ok n ∧ IsYounger n plant j older k := by
  obtain ⟨m, hm, hgrown⟩ := Stage.run_grow_eq_ok_iff.1 h
  obtain ⟨n, hn, hgrown'⟩ := Stage.run_grow_eq_ok_iff.1 holder
  have hlater : max 1 m ≤ max 1 n := max_le_max_left 1 (Stage.le_of_value_le hv hw hle hm hn)
  exact ⟨m, hm, isYounger_of_run_grow hlater hgrown hgrown'⟩

/-- Draws of at most one generate a vine at every stage that is a number. -/
theorem exists_run_generate {reach : Reach Float} (hreach : preset.reach = .ok reach)
    (hfew : preset.attractorCount ≤ 500) (hstage : stage.IsNumber) (hs : s.WithinOne) :
    ∃ plant j, (preset.generate stage color).run s i = (.ok plant, j) := by
  obtain ⟨v, hv⟩ := hstage.exists_value
  rw [generate, Stage.grow_of_toInteger (Stage.toInteger_of_value hv)]
  exact exists_run_grow hreach hfew _ color hs i

end Doubles

section Exact

variable {preset : ColonizationPreset ℝ} {stage : Stage ℝ} {color : String} {s : Source ℝ} {i j : Nat}

/-- In exact arithmetic the steps of a generated vine lead as far as their depth says, but for those on
whose node the pulls cancel. -/
theorem advances_of_run_generateAmong (hstep : 0 < preset.stepSize) {attractors : List (Vec3 ℝ)}
    {plant : Plant ℝ}
    (h : (preset.generateAmong stage color attractors).run s i = (.ok plant, j)) :
    ∃ n, stage.toInteger = .ok n ∧ preset.Advances n attractors plant := by
  obtain ⟨n, hn, hgrown⟩ := Stage.run_grow_eq_ok_iff.1 h
  exact ⟨n, hn, advances_of_run_growAmong hstep hgrown⟩

/-- At no stage does a vine grow whose influence radius ends before the shell of attractors. -/
theorem run_generate_of_short_influence (hshort : preset.influenceRadius ^ 2 < 3.25)
    (hstage : stage ≠ .absent) (hs : s.InUnit) :
    (preset.generate stage color).run s i =
      (.ok ⟨[], [], []⟩, i + 3 * preset.attractorCount.toNat) := by
  have hinteger : ∃ n, stage.toInteger = .ok n := by
    cases stage with
    | absent => exact absurd rfl hstage
    | whole n => exact ⟨n, rfl⟩
    | real x => exact ⟨_, rfl⟩
  obtain ⟨n, hn⟩ := hinteger
  rw [generate, Stage.grow_of_toInteger hn]
  exact run_grow_of_short_influence hshort n color hs i

end Exact

end ColonizationPreset

end PlantGrowth
