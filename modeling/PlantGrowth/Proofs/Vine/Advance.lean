import Mathlib.Analysis.SpecialFunctions.Trigonometric.Basic
import PlantGrowth.Proofs.Vine.Exact

/-!
# How far the steps of a vine lead

In exact arithmetic the step from node `k` is as long as its depth says, unless the attractors that
steer it pull against each other and their pulls cancel. Then the step leads nowhere. The next node is
the same point and the same attractors steer it, so the vine stays there for all the steps of its stage
(`IsSteered.rests`), and its segments from there on are points.
-/

set_option autoImplicit false

namespace PlantGrowth

/-- The length of a segment. -/
noncomputable def Segment.length (segment : Segment ℝ) : ℝ :=
  √(segment.finish.distanceSq segment.start)

/-- A segment without a length ends where it starts. -/
theorem Segment.length_eq_zero_iff {segment : Segment ℝ} :
    segment.length = 0 ↔ segment.start = segment.finish := by
  have hlength : segment.length = √(segment.finish - segment.start).normSq := rfl
  rw [hlength, Real.sqrt_eq_zero (Vec3.normSq_nonneg _), Vec3.normSq_eq_zero_iff, Vec3.ext_iff,
    Vec3.ext_iff]
  exact and_congr (sub_eq_zero.trans eq_comm)
    (and_congr (sub_eq_zero.trans eq_comm) (sub_eq_zero.trans eq_comm))

/-! ## Steps from the same point -/

namespace Reach

variable {α : Type} [Scalar α]

/-- What steers a step also steers the next one, if this begins where the step began. -/
theorem steering_succ_of_node_eq (reach : Reach α) (attractors : List (Vec3 α))
    {node : Nat → Vec3 α} {k : Nat} (h : node (k + 1) = node k) :
    reach.steering attractors node (k + 1) = reach.steering attractors node k := by
  refine List.filter_congr fun attractor _ => ?_
  have hkill : (∀ j ≤ k + 1, ¬ attractor.distanceSq (node j) < reach.killSq) ↔
      ∀ j ≤ k, ¬ attractor.distanceSq (node j) < reach.killSq := by
    constructor
    · exact fun hall j hj => hall j (Nat.le_succ_of_le hj)
    · intro hall j hj
      rcases Nat.le_succ_iff.1 hj with hj | rfl
      · exact hall j hj
      · rw [h]
        exact hall k (Nat.le_refl k)
  rw [h, decide_eq_decide, hkill]

/-- Where a node is the one before it, the same attractors pull as strongly. -/
theorem pull_succ_of_node_eq (reach : Reach ℝ) (attractors : List (Vec3 ℝ))
    {node : Nat → Vec3 ℝ} {k : Nat} (h : node (k + 1) = node k) :
    reach.pull attractors node (k + 1) = reach.pull attractors node k := by
  rw [pull, pull, steering_succ_of_node_eq reach attractors h, h]

end Reach

namespace ColonizationPreset

/-- The ends of a segment are the nodes around it. -/
theorem IsUnbranched.ends_eq {α : Type} [Scalar α] {preset : ColonizationPreset α} {stage : Int}
    {plant : Plant α} (h : preset.IsUnbranched stage plant) {k : Nat} {segment : Segment α}
    (hsegment : plant.segments[k]? = some segment) :
    segment.start = plant.node k ∧ segment.finish = plant.node (k + 1) := by
  have hfinish {k : Nat} {segment : Segment α} (hsegment : plant.segments[k]? = some segment) :
      segment.finish = plant.node (k + 1) := by
    simp [Plant.node, pathNode, hsegment]
  refine ⟨?_, hfinish hsegment⟩
  cases k with
  | zero => exact h.starts_at_origin segment hsegment
  | succ k =>
    obtain ⟨before, hbefore⟩ : ∃ before, plant.segments[k]? = some before :=
      ⟨_, List.getElem?_eq_getElem (Nat.lt_of_succ_lt (List.getElem?_eq_some_iff.1 hsegment).1)⟩
    rw [h.joined k before segment hbefore hsegment, hfinish hbefore]

variable {preset : ColonizationPreset ℝ} {stage : Int} {attractors : List (Vec3 ℝ)}
  {plant : Plant ℝ}

/-- Where the pulls cancel, the next node is the same one. -/
theorem IsSteered.node_succ_of_pull_eq
    (h : preset.IsSteered preset.squaredRadii stage attractors plant) {k : Nat}
    (hk : k < plant.segments.length)
    (hpull : preset.squaredRadii.pull attractors plant.node k = Vec3.origin) :
    plant.node (k + 1) = plant.node k := by
  rw [h.node_succ_exact hk, hpull, Vec3.unit_origin, Vec3.scale_origin, Vec3.add_origin]

/-- Where the pulls cancel, the vine stays for all its steps. -/
theorem IsSteered.rests (h : preset.IsSteered preset.squaredRadii stage attractors plant) {k : Nat}
    (hk : k < plant.segments.length)
    (hpull : preset.squaredRadii.pull attractors plant.node k = Vec3.origin) {m : Nat}
    (hkm : k ≤ m) (hm : m < 16 * max 1 stage) :
    m < plant.segments.length ∧ plant.node m = plant.node k ∧
      preset.squaredRadii.pull attractors plant.node m = Vec3.origin := by
  induction m, hkm using Nat.le_induction with
  | base => exact ⟨hk, rfl, hpull⟩
  | succ m hkm ih =>
    obtain ⟨hlength, hnode, hcancel⟩ := ih (by omega)
    have hstay := h.node_succ_of_pull_eq hlength hcancel
    have hsteered := ((h.grows_iff m).1 hlength).2.2
    rw [← Reach.steering_succ_of_node_eq _ _ hstay] at hsteered
    refine ⟨(h.grows_iff (m + 1)).2 ⟨by omega, fun _ => hlength, hsteered⟩, hstay.trans hnode, ?_⟩
    rw [Reach.pull_succ_of_node_eq _ _ hstay, hcancel]

/-! ## The steps of a vine -/

/-- What the steps of a vine in exact arithmetic do: the step from node `k` is as long as its depth says if
the pulls on this node do not cancel, and only then; if they do, the vine takes all the steps of its
stage, and from there on they all stay at this node. -/
structure Advances (preset : ColonizationPreset ℝ) (stage : Int) (attractors : List (Vec3 ℝ))
    (plant : Plant ℝ) : Prop where
  ends_eq : ∀ (k : Nat) (segment : Segment ℝ), plant.segments[k]? = some segment →
    segment.start = plant.node k ∧ segment.finish = plant.node (k + 1)
  length_eq_iff : ∀ (k : Nat) (segment : Segment ℝ), plant.segments[k]? = some segment →
    (segment.length = preset.stepSize * max 0.4 (1 - 0.05 * (k : ℝ)) ↔
      preset.squaredRadii.pull attractors plant.node k ≠ Vec3.origin)
  start_ne_finish_iff : ∀ (k : Nat) (segment : Segment ℝ), plant.segments[k]? = some segment →
    (segment.start ≠ segment.finish ↔
      preset.squaredRadii.pull attractors plant.node k ≠ Vec3.origin)
  rests : ∀ k < plant.segments.length,
    preset.squaredRadii.pull attractors plant.node k = Vec3.origin →
      plant.segments.length = 16 * max 1 stage ∧
        ∀ m, k ≤ m → m ≤ plant.segments.length → plant.node m = plant.node k

/-- A step along a pull has the length that was meant, or none where there is nothing to follow. -/
theorem length_of_finish_eq {segment : Segment ℝ} {pull : Vec3 ℝ} {length : ℝ} (hlength : 0 < length)
    (h : segment.finish = segment.start + pull.unit.scale length) :
    segment.length = if pull = Vec3.origin then 0 else length := by
  split
  · next hpull =>
    rw [Segment.length_eq_zero_iff, h, hpull, Vec3.unit_origin, Vec3.scale_origin, Vec3.add_origin]
  · next hpull =>
    rw [Segment.length, h, Vec3.distanceSq_add_self, Vec3.normSq_scale, Vec3.normSq_unit hpull,
      one_mul, Real.sqrt_sq hlength.le]

/-- No step has length zero. -/
theorem step_pos (hstep : 0 < preset.stepSize) (k : Nat) :
    0 < preset.stepSize * max 0.4 (1 - 0.05 * (k : ℝ)) :=
  mul_pos hstep (lt_max_of_lt_left (by norm_num))

/-- A segment has the length of its step, or none where the pulls cancel. -/
theorem IsSteered.length_eq (h : preset.IsSteered preset.squaredRadii stage attractors plant)
    (hpath : preset.IsUnbranched stage plant) (hstep : 0 < preset.stepSize) {k : Nat}
    {segment : Segment ℝ} (hsegment : plant.segments[k]? = some segment) :
    segment.length = if preset.squaredRadii.pull attractors plant.node k = Vec3.origin then 0
      else preset.stepSize * max 0.4 (1 - 0.05 * (k : ℝ)) := by
  obtain ⟨hstart, hfinish⟩ := hpath.ends_eq hsegment
  refine length_of_finish_eq (step_pos hstep k) ?_
  rw [hstart, hfinish, h.node_succ_exact (List.getElem?_eq_some_iff.1 hsegment).1]

/-- A steered path without branches advances. -/
theorem advances_of_isSteered (hstep : 0 < preset.stepSize)
    (hpath : preset.IsUnbranched stage plant)
    (h : preset.IsSteered preset.squaredRadii stage attractors plant) :
    preset.Advances stage attractors plant := by
  refine ⟨fun k segment => hpath.ends_eq, ?_, ?_, ?_⟩
  · intro k segment hsegment
    rw [h.length_eq hpath hstep hsegment]
    by_cases hpull : preset.squaredRadii.pull attractors plant.node k = Vec3.origin
    · rw [if_pos hpull]
      exact iff_of_false (step_pos hstep k).ne (not_not_intro hpull)
    · rw [if_neg hpull]
      exact iff_of_true rfl hpull
  · intro k segment hsegment
    rw [ne_eq, ← Segment.length_eq_zero_iff, h.length_eq hpath hstep hsegment]
    by_cases hpull : preset.squaredRadii.pull attractors plant.node k = Vec3.origin
    · rw [if_pos hpull]
      exact iff_of_false (not_not_intro rfl) (not_not_intro hpull)
    · rw [if_neg hpull]
      exact iff_of_true (step_pos hstep k).ne' hpull
  · intro k hk hpull
    have hmost := hpath.length_segments_le
    have hall : plant.segments.length = 16 * max 1 stage := by
      by_contra hshort
      exact absurd (h.rests hk hpull hk.le (by omega)).1 (Nat.lt_irrefl _)
    refine ⟨hall, fun m hkm hm => ?_⟩
    obtain rfl | hlater := Nat.eq_or_lt_of_le hkm
    · rfl
    · obtain ⟨n, rfl⟩ := Nat.exists_eq_add_one_of_ne_zero (Nat.ne_zero_of_lt hlater)
      obtain ⟨hn, hnode, hcancel⟩ := h.rests hk hpull (Nat.le_of_lt_succ hlater) (by omega)
      exact (h.node_succ_of_pull_eq hn hcancel).trans hnode

/-- A vine that has grown advances. -/
theorem advances_of_run_growAmong (hstep : 0 < preset.stepSize) {color : String} {s : Source ℝ}
    {i j : Nat} (h : (preset.growAmong stage color attractors).run s i = (.ok plant, j)) :
    preset.Advances stage attractors plant :=
  advances_of_isSteered hstep (isUnbranched_of_run_growAmong h) (isSteered_exact h)

/-- A vine in exact arithmetic, among given attractors or scattered ones, grows unless a draw is
refused, and its steps lead as far as their depth says, but for those on whose node the pulls
cancel. -/
theorem steps_advance_unless_balanced (preset : ColonizationPreset ℝ) (hstep : 0 < preset.stepSize)
    (stage : Int) (color : String) (s : Source ℝ) (i : Nat) :
    (∀ attractors,
      (∃ plant j, (preset.growAmong stage color attractors).run s i = (.ok plant, j) ∧
        preset.Advances stage attractors plant) ∨
      ∃ n e j, s n = .error e ∧
        (preset.growAmong stage color attractors).run s i = (.error e, j)) ∧
    ((∃ plant j attractors k, (preset.grow stage color).run s i = (.ok plant, j) ∧
        (Attractor.scatter preset.attractorCount.toNat).run s i = (.ok attractors, k) ∧
          preset.Advances stage attractors plant) ∨
      ∃ n e j, s n = .error e ∧ (preset.grow stage color).run s i = (.error e, j)) := by
  constructor
  · intro attractors
    refine (preset.onlyRefuses_growAmong_exact stage color attractors).result_or_refused s i
      |>.imp_left ?_
    rintro ⟨plant, j, hrun⟩
    exact ⟨plant, j, hrun, advances_of_run_growAmong hstep hrun⟩
  · refine (preset.onlyRefuses_grow_exact stage color).result_or_refused s i |>.imp_left ?_
    rintro ⟨plant, j, hrun⟩
    obtain ⟨attractors, k, hscatter, hgrown⟩ := Drawing.run_bind_eq_ok_iff.1 hrun
    exact ⟨plant, j, attractors, k, hrun, hscatter, advances_of_run_growAmong hstep hgrown⟩

/-- A vine that sees two units far, consumes what is nearer than half a unit, and steps half a
unit. -/
noncomputable def lookout : ColonizationPreset ℝ :=
  ⟨1, 2.0, 0.5, 0.5, 0.1, "#9ac997", by norm_num⟩

/-- From the root the lookout sees all attractors at distance one. -/
theorem steering_lookout {attractors : List (Vec3 ℝ)} (plant : Plant ℝ)
    (h : ∀ attractor ∈ attractors, attractor.normSq = 1) :
    lookout.squaredRadii.steering attractors plant.node 0 = attractors := by
  refine Reach.steering_zero_of_forall fun attractor hmem => ?_
  have hroot : attractor.distanceSq (plant.node 0) = attractor.normSq :=
    congrArg Vec3.normSq attractor.sub_origin
  have hkill : lookout.squaredRadii.killSq = 1 / 4 := by
    norm_num [squaredRadii, lookout]
  have hinfluence : lookout.squaredRadii.influenceSq = 4 := by
    norm_num [squaredRadii, lookout]
  rw [hroot, h attractor hmem, hkill, hinfluence]
  norm_num

/-- Attractors at distance one pull the lookout by what they add up to. -/
theorem pull_lookout {attractors : List (Vec3 ℝ)} (plant : Plant ℝ)
    (h : ∀ attractor ∈ attractors, attractor.normSq = 1) :
    lookout.squaredRadii.pull attractors plant.node 0 =
      attractors.foldl (· + ·) Vec3.origin := by
  have hunits : (attractors.map fun attractor => (attractor - plant.node 0).unit) = attractors := by
    refine (List.map_congr_left fun attractor hmem => ?_).trans attractors.map_id
    exact (congrArg Vec3.unit attractor.sub_origin).trans
      (Vec3.unit_of_normSq_eq_one (h attractor hmem))
  rw [Reach.pull, steering_lookout plant h, hunits]

/-- Toward one attractor straight above the root the first step is half a unit long. -/
theorem steps_advance_lookout :
    0 < lookout.stepSize ∧
      ∃ plant j segment, (lookout.growAmong 1 "#d4f1cd" [⟨0, 1, 0⟩]).run (.cycle 0 []) 0 =
        (.ok plant, j) ∧ plant.segments[0]? = some segment ∧ segment.length = 1 / 2 ∧
          segment.start ≠ segment.finish := by
  have hstep : 0 < lookout.stepSize := by norm_num [lookout]
  refine ⟨hstep, ?_⟩
  obtain ⟨plant, j, hrun, hadvances⟩ :=
    ((steps_advance_unless_balanced lookout hstep 1 "#d4f1cd" (.cycle 0 []) 0).1
      [⟨0, 1, 0⟩]).resolve_right (by rintro ⟨n, e, j, hn, -⟩; cases hn)
  have hone : ∀ attractor ∈ [(⟨0, 1, 0⟩ : Vec3 ℝ)], attractor.normSq = 1 := by
    simp [Vec3.normSq]
  have hgrows : 0 < plant.segments.length := by
    refine (isSteered_exact hrun).length_pos ?_
    rw [steering_lookout plant hone]
    exact List.cons_ne_nil _ _
  have hpull : lookout.squaredRadii.pull [⟨0, 1, 0⟩] plant.node 0 ≠ Vec3.origin := by
    rw [pull_lookout plant hone]
    intro hzero
    have hy := congrArg Vec3.y hzero
    simp [Vec3.origin] at hy
  have hfirst := List.getElem?_eq_getElem hgrows
  refine ⟨plant, j, plant.segments[0], hrun, hfirst, ?_,
    (hadvances.start_ne_finish_iff 0 _ hfirst).2 hpull⟩
  rw [(hadvances.length_eq_iff 0 _ hfirst).2 hpull]
  norm_num [lookout]

/-- Between two attractors that pull against each other all sixteen steps of the vine stay at the
root. -/
theorem steps_stay_lookout :
    0 < lookout.stepSize ∧ 0 < lookout.killRadius ∧ lookout.killRadius < lookout.influenceRadius ∧
      ∃ plant j, (lookout.growAmong 1 "#d4f1cd" [⟨1, 0, 0⟩, ⟨-1, 0, 0⟩]).run (.cycle 0 []) 0 =
        (.ok plant, j) ∧ plant.segments.length = 16 ∧
          ∀ segment ∈ plant.segments, segment.start = segment.finish ∧ segment.length = 0 := by
  have hstep : 0 < lookout.stepSize := by norm_num [lookout]
  refine ⟨hstep, by norm_num [lookout], by norm_num [lookout], ?_⟩
  obtain ⟨plant, j, hrun⟩ := (lookout.onlyRefuses_growAmong_exact 1 "#d4f1cd"
    [⟨1, 0, 0⟩, ⟨-1, 0, 0⟩]).exists_result (s := .cycle 0 []) (fun n => ⟨_, rfl⟩) 0
  have hone : ∀ attractor ∈ [(⟨1, 0, 0⟩ : Vec3 ℝ), ⟨-1, 0, 0⟩], attractor.normSq = 1 := by
    simp [Vec3.normSq]
  have hgrows : 0 < plant.segments.length := by
    refine (isSteered_exact hrun).length_pos ?_
    rw [steering_lookout plant hone]
    exact List.cons_ne_nil _ _
  have hpull : lookout.squaredRadii.pull [⟨1, 0, 0⟩, ⟨-1, 0, 0⟩] plant.node 0 = Vec3.origin := by
    rw [pull_lookout plant hone]
    ext <;> simp [Vec3.origin]
  have hadvances := advances_of_run_growAmong hstep hrun
  obtain ⟨hall, hrests⟩ := hadvances.rests 0 hgrows hpull
  refine ⟨plant, j, hrun, by omega, fun segment hmem => ?_⟩
  obtain ⟨k, hk, hsegment⟩ := List.getElem_of_mem hmem
  have hplace : plant.segments[k]? = some segment := by
    rw [List.getElem?_eq_getElem hk, hsegment]
  obtain ⟨hstart, hfinish⟩ := hadvances.ends_eq k segment hplace
  have hpoint : segment.start = segment.finish := by
    rw [hstart, hfinish, hrests k (Nat.zero_le k) hk.le, hrests (k + 1) (Nat.zero_le _) hk]
  exact ⟨hpoint, Segment.length_eq_zero_iff.2 hpoint⟩

end ColonizationPreset

end PlantGrowth
