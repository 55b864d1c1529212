import PlantGrowth.Proofs.Draw.SideBySide
import PlantGrowth.Proofs.Vine.Unbranched

/-!
# What steers a vine

Growth removes attractors step by step. Looked at from the end, the step from node `k` is steered by
those of the first attractors that no node up to `k` consumes and that node `k` sees
(`Reach.steering`): the survivors of a round are what its node does not consume (`steering_succ`).
The vine grows as long as it has steps left and something steers it, along the pulls of just these
attractors (`IsSteered`). No draw after the scattering has a say in this.
-/

set_option autoImplicit false

namespace PlantGrowth

variable {α : Type} [Scalar α]

/-- The nodes of a path from a point: the point, and then the ends of the segments in order. -/
def pathNode (start : Vec3 α) (segments : List (Segment α)) : Nat → Vec3 α
  | 0 => start
  | k + 1 => (segments[k]?.map Segment.finish).getD Vec3.origin

/-- The nodes of a path after the first are those of the rest of the path. -/
theorem pathNode_cons (start : Vec3 α) (first : Segment α) (others : List (Segment α)) :
    (fun j => pathNode start (first :: others) (j + 1)) = pathNode first.finish others := by
  funext j
  cases j with
  | zero => rfl
  | succ j => rfl

/-! ## The attractors that steer a step -/

namespace Reach

/-- The attractors that steer the step from node `k`: the influence radius covers their distance
from this node, which is finite, and no node up to this one consumes them. -/
def steering (reach : Reach α) (attractors : List (Vec3 α)) (node : Nat → Vec3 α) (k : Nat) :
    List (Vec3 α) :=
  attractors.filter fun attractor =>
    Scalar.isFinite (attractor.distanceSq (node k)) ∧
      attractor.distanceSq (node k) ≤ reach.influenceSq ∧
        ∀ j ≤ k, ¬ attractor.distanceSq (node j) < reach.killSq

/-- The direction of the step from node `k`. The pulls of the attractors that steer it have length
one and are added to the zero vector, in the order of the attractors. -/
def heading (reach : Reach α) (attractors : List (Vec3 α)) (node : Nat → Vec3 α) (k : Nat) :
    Except Fault (Vec3 α) := do
  let pulls ← (reach.steering attractors node k).mapM fun attractor =>
    (attractor - node k).normalize
  (pulls.foldl (· + ·) Vec3.origin).normalize

/-- The first step is steered by what pulls a lone tip at the first node. -/
theorem steering_zero (reach : Reach α) (attractors : List (Vec3 α)) (node : Nat → Vec3 α) :
    reach.steering attractors node 0 = attractors.filter (reach.steers (node 0)) := by
  refine List.filter_congr fun attractor _ => ?_
  rw [Bool.eq_iff_iff]
  simp only [steers, consumes, Nat.le_zero, forall_eq, decide_eq_true_eq, Bool.and_eq_true,
    Bool.not_eq_true', decide_eq_false_iff_not]
  constructor
  · rintro ⟨hfinite, hinfluence, hkill⟩
    exact ⟨⟨hkill, hinfluence⟩, hfinite⟩
  · rintro ⟨⟨hkill, hinfluence⟩, hfinite⟩
    exact ⟨hfinite, hinfluence, hkill⟩

/-- A later step is steered as if growth had begun at the second node, among the survivors of the
round of the first one. -/
theorem steering_succ (reach : Reach α) (attractors : List (Vec3 α)) (node : Nat → Vec3 α)
    (k : Nat) :
    reach.steering attractors node (k + 1) =
      reach.steering (reach.survivors (node 0) attractors) (fun j => node (j + 1)) k := by
  rw [steering, steering, survivors, List.filter_filter]
  refine List.filter_congr fun attractor _ => ?_
  have hsplit : (∀ j ≤ k + 1, ¬ attractor.distanceSq (node j) < reach.killSq) ↔
      (∀ j ≤ k, ¬ attractor.distanceSq (node (j + 1)) < reach.killSq) ∧
        ¬ attractor.distanceSq (node 0) < reach.killSq := by
    constructor
    · intro h
      exact ⟨fun j hj => h (j + 1) (Nat.succ_le_succ hj), h 0 (Nat.zero_le _)⟩
    · rintro ⟨hlater, hfirst⟩ j hj
      cases j with
      | zero => exact hfirst
      | succ j => exact hlater j (Nat.le_of_succ_le_succ hj)
  rw [Bool.eq_iff_iff]
  simp only [hsplit, consumes, decide_eq_true_eq, Bool.and_eq_true, Bool.not_eq_true',
    decide_eq_false_iff_not, and_assoc]

/-- The heading further on is the one of the vine that goes on among the survivors. -/
theorem heading_succ (reach : Reach α) (attractors : List (Vec3 α)) (node : Nat → Vec3 α)
    (k : Nat) :
    reach.heading attractors node (k + 1) =
      reach.heading (reach.survivors (node 0) attractors) (fun j => node (j + 1)) k := by
  rw [heading, steering_succ]
  rfl

/-- The pulls on a node are the directions to the attractors that steer it. -/
theorem unitPulls_eq_mapM_steering (reach : Reach α) (attractors : List (Vec3 α))
    (node : Nat → Vec3 α) :
    reach.unitPulls (node 0) attractors =
      (reach.steering attractors node 0).mapM fun attractor => (attractor - node 0).normalize := by
  rw [steering_zero, unitPulls]

end Reach

/-! ## The path of a stem -/

namespace ColonizationPreset

/-- A node is one step from its tip, in the direction of its pull. -/
theorem position_of_sprout {preset : ColonizationPreset α} {tip new : Node α} {pull : Vec3 α}
    (h : preset.sprout tip pull = .ok new) :
    ∃ direction, pull.normalize = .ok direction ∧
      new.position = tip.position + direction.scale (preset.stepLength tip.depth) := by
  obtain ⟨direction, hdirection, h⟩ := Fault.bind_eq_ok_iff.1 h
  cases h
  exact ⟨direction, hdirection, rfl⟩

/-- Where there is something to compute, there are results. -/
theorem ne_nil_of_mapM_eq_ok {β γ : Type} {f : γ → Except Fault β} {xs : List γ} {ys : List β}
    (hxs : xs ≠ []) (h : xs.mapM f = .ok ys) : ys ≠ [] := by
  obtain ⟨x, hx⟩ := List.exists_mem_of_ne_nil xs hxs
  obtain ⟨y, hy, -⟩ := Fault.exists_of_mem_mapM h hx
  exact List.ne_nil_of_mem hy

/-- A stem ends where nothing steers it. -/
theorem stem_of_steering_eq_nil (preset : ColonizationPreset α) {reach : Reach α} (steps : Nat)
    {tip : Node α} {attractors : List (Vec3 α)} {node : Nat → Vec3 α}
    (hnode : node 0 = tip.position) (h : reach.steering attractors node 0 = []) :
    preset.stem reach steps tip attractors = ⟨[], none⟩ := by
  rw [Reach.steering_zero, hnode, List.filter_eq_nil_iff] at h
  exact preset.stem_of_forall_not_steers steps h

/-- A stem that something steers, and that no fault cuts short, goes on from the node in the
direction of its pulls, among the survivors. -/
theorem stem_of_steering_ne_nil {preset : ColonizationPreset α} {reach : Reach α} {steps : Nat}
    {tip : Node α} {attractors : List (Vec3 α)} {segments : List (Segment α)}
    (h : preset.stem reach (steps + 1) tip attractors = ⟨segments, none⟩) {node : Nat → Vec3 α}
    (hnode : node 0 = tip.position) (hsteered : reach.steering attractors node 0 ≠ []) :
    ∃ (direction : Vec3 α) (new : Node α) (others : List (Segment α)),
      reach.heading attractors node 0 = .ok direction ∧
      new.position = tip.position + direction.scale (preset.stepLength tip.depth) ∧
      new.depth = tip.depth + 1 ∧
      segments = ⟨tip.position, new.position, new.radius⟩ :: others ∧
      preset.stem reach steps new (reach.survivors tip.position attractors) = ⟨others, none⟩ := by
  have hpulls := reach.unitPulls_eq_mapM_steering attractors node
  rw [hnode] at hpulls
  rw [stem] at h
  cases hunits : reach.unitPulls tip.position attractors with
  | error e =>
    rw [hunits] at h
    cases h
  | ok units =>
    cases units with
    | nil => exact absurd rfl (ne_nil_of_mapM_eq_ok hsteered (hpulls.symm.trans hunits))
    | cons pull more =>
      simp only [hunits] at h
      cases hsprout : preset.sprout tip ((pull :: more).foldl (· + ·) Vec3.origin) with
      | error e =>
        rw [hsprout] at h
        cases h
      | ok new =>
        obtain ⟨direction, hdirection, hposition⟩ := position_of_sprout hsprout
        have hheading : reach.heading attractors node 0 = .ok direction := by
          rw [Reach.heading, hnode, ← hpulls, hunits]
          exact hdirection
        rw [hsprout] at h
        injection h with hsegments hfault
        refine ⟨direction, new, _, hheading, hposition, (sprout_ok hsprout).1, hsegments.symm, ?_⟩
        rw [← hfault]

/-- A stem has a segment from node `k` exactly when it has steps left there, comes to this node and
is steered at it. -/
theorem lt_length_stem_iff {preset : ColonizationPreset α} {reach : Reach α} {steps : Nat}
    {tip : Node α} {attractors : List (Vec3 α)} {segments : List (Segment α)}
    (h : preset.stem reach steps tip attractors = ⟨segments, none⟩) (k : Nat) :
    k < segments.length ↔ k < steps ∧ k ≤ segments.length ∧
      reach.steering attractors (pathNode tip.position segments) k ≠ [] := by
  -- Behind the first segment the stem goes on among the survivors, which is what `steering_succ`
  -- says about the later steps.
  induction steps generalizing tip attractors segments k with
  | zero =>
    cases h
    simp
  | succ steps ih =>
    have hnode : pathNode tip.position segments 0 = tip.position := rfl
    by_cases hsteered : reach.steering attractors (pathNode tip.position segments) 0 = []
    · rw [preset.stem_of_steering_eq_nil _ hnode hsteered] at h
      cases h
      cases k with
      | zero => simpa using hsteered
      | succ k => simp
    · obtain ⟨direction, new, others, -, -, -, rfl, hrest⟩ :=
        stem_of_steering_ne_nil h hnode hsteered
      cases k with
      | zero => simpa using hsteered
      | succ k =>
        rw [Reach.steering_succ, pathNode_cons, hnode]
        have hlater := ih hrest k
        simp only [List.length_cons, Nat.add_lt_add_iff_right, Nat.add_le_add_iff_right]
        exact hlater

/-- A segment of a stem ends one step from its node, in the direction of the pulls there. -/
theorem finish_of_stem {preset : ColonizationPreset α} {reach : Reach α} {steps : Nat}
    {tip : Node α} {attractors : List (Vec3 α)} {segments : List (Segment α)}
    (h : preset.stem reach steps tip attractors = ⟨segments, none⟩) {k : Nat} {s : Segment α}
    (hs : segments[k]? = some s) :
    ∃ direction, reach.heading attractors (pathNode tip.position segments) k = .ok direction ∧
      s.finish = pathNode tip.position segments k +
        direction.scale (preset.stepLength (tip.depth + k)) := by
  induction steps generalizing tip attractors segments k with
  | zero =>
    cases h
    cases hs
  | succ steps ih =>
    have hnode : pathNode tip.position segments 0 = tip.position := rfl
    by_cases hsteered : reach.steering attractors (pathNode tip.position segments) 0 = []
    · rw [preset.stem_of_steering_eq_nil _ hnode hsteered] at h
      cases h
      cases hs
    · obtain ⟨direction, new, others, hheading, hposition, hdepth, rfl, hrest⟩ :=
        stem_of_steering_ne_nil h hnode hsteered
      cases k with
      | zero =>
        cases hs
        exact ⟨direction, hheading, hposition⟩
      | succ k =>
        obtain ⟨later, hlater, hfinish⟩ := ih hrest hs
        refine ⟨later, ?_, ?_⟩
        · rw [Reach.heading_succ, pathNode_cons, hnode]
          exact hlater
        · have hplace := congrFun
            (pathNode_cons tip.position ⟨tip.position, new.position, new.radius⟩ others) k
          rw [hplace, hfinish, hdepth, Nat.add_right_comm, Nat.add_assoc]

end ColonizationPreset

/-! ## Scattering -/

namespace Attractor

/-- The attractors of a scattering are decided by three draws each. -/
theorem alike_scatter (count : Nat) :
    Drawing.Alike Eq (3 * count) Eq (scatter count : Drawing α (List (Vec3 α)))
      (scatter count) := by
  have hdraw : Drawing.Alike Eq 1 Eq (Drawing.draw : Drawing α α) Drawing.draw := by
    refine .draw ?_
    rintro d _ rfl
    cases d <;> rfl
  have hone : Drawing.Alike Eq 3 Eq (scatterOne : Drawing α (Vec3 α)) scatterOne := by
    refine hdraw.bind (p := 2) ?_
    rintro u _ rfl
    refine hdraw.bind (p := 1) ?_
    rintro v _ rfl
    refine hdraw.bind (p := 0) ?_
    rintro w _ rfl
    exact .ofExcept _
  induction count with
  | zero => exact .pure rfl
  | succ count ih =>
    have hall : Drawing.Alike Eq (3 + (3 * count + 0)) Eq
        (scatter (count + 1) : Drawing α (List (Vec3 α))) (scatter (count + 1)) := by
      refine hone.bind ?_
      rintro attractor _ rfl
      refine ih.bind ?_
      rintro others _ rfl
      exact .pure rfl
    exact hall.mono (by omega)

end Attractor

/-! ## The vine as a whole -/

/-- The nodes of a plant that is one path: the origin, and then the ends of its segments. -/
def Plant.node (plant : Plant α) : Nat → Vec3 α := pathNode Vec3.origin plant.segments

/-- What the path of a vine shows: its segments and where the bloom is. -/
def Plant.path (plant : Plant α) : List (Segment α) × List (Vec3 α) :=
  (plant.segments, plant.blooms.map Ornament.position)

namespace ColonizationPreset

/-- A plant that is the path of a vine among these attractors, by the squares of its radii. It has a
segment from node `k` exactly when the steps of the stage reach that far, it has the segment before, and
some attractor steers it; and this segment leads one step in the direction of the attractors that steer
it. -/
structure IsSteered (preset : ColonizationPreset α) (reach : Reach α) (stage : Int)
    (attractors : List (Vec3 α)) (plant : Plant α) : Prop where
  reach_eq : preset.reach = .ok reach
  grows_iff : ∀ k : Nat, k < plant.segments.length ↔
    k < max 8 (16 * max 1 stage) ∧ (0 < k → k - 1 < plant.segments.length) ∧
      reach.steering attractors plant.node k ≠ []
  node_succ : ∀ k < plant.segments.length, ∃ direction,
    reach.heading attractors plant.node k = .ok direction ∧
      plant.node (k + 1) = plant.node k +
        direction.scale (preset.stepSize * Scalar.maxOf 0.4 (1 - Scalar.ofNat k * 0.05))

/-- A vine that has a result is steered by its attractors. -/
theorem isSteered_of_run_growAmong {preset : ColonizationPreset α} {stage : Int} {color : String}
    {attractors : List (Vec3 α)} {s : Source α} {i j : Nat} {plant : Plant α}
    (h : (preset.growAmong stage color attractors).run s i = (.ok plant, j)) :
    ∃ reach, preset.IsSteered reach stage attractors plant := by
  obtain ⟨reach, hreach, hdress⟩ := run_growAmong_ok h
  obtain ⟨hfault, hsegments, -⟩ := run_dress_ok hdress
  rw [trailAt_eq_stem] at hfault hsegments
  have hstem : preset.stem reach (stepBudget (max 1 stage)).toNat preset.root
      attractors = ⟨plant.segments, none⟩ := by
    rw [hsegments, ← hfault]
  have hbudget := stepBudget_of_pos (Int.le_max_left 1 stage)
  refine ⟨reach, hreach, fun k => ?_, fun k hk => ?_⟩
  · rw [lt_length_stem_iff hstem k]
    refine and_congr ?_ (and_congr ?_ Iff.rfl)
    · omega
    · omega
  · obtain ⟨direction, hheading, hfinish⟩ :=
      finish_of_stem hstem (List.getElem?_eq_getElem hk)
    refine ⟨direction, hheading, ?_⟩
    have hdepth : preset.root.depth = 0 := rfl
    have hnext : plant.node (k + 1) = plant.segments[k].finish := by
      simp [Plant.node, pathNode, List.getElem?_eq_getElem hk]
    rw [hdepth, Nat.zero_add] at hfinish
    rw [hnext]
    exact hfinish

/-- A vine that something steers at its root has a segment. -/
theorem IsSteered.length_pos {preset : ColonizationPreset α} {reach : Reach α} {stage : Int}
    {attractors : List (Vec3 α)} {plant : Plant α}
    (h : preset.IsSteered reach stage attractors plant)
    (hsteered : reach.steering attractors plant.node 0 ≠ []) :
    0 < plant.segments.length :=
  (h.grows_iff 0).2 ⟨by omega, fun hlt => absurd hlt (Nat.lt_irrefl 0), hsteered⟩

/-- The path of a vine is a function of its preset, its stage and its attractors. -/
theorem path_eq_of_run_growAmong {preset : ColonizationPreset α} {stage : Int}
    {color color' : String} {attractors : List (Vec3 α)} {s s' : Source α} {i i' j j' : Nat}
    {plant plant' : Plant α}
    (h : (preset.growAmong stage color attractors).run s i = (.ok plant, j))
    (h' : (preset.growAmong stage color' attractors).run s' i' = (.ok plant', j')) :
    plant.path = plant'.path := by
  obtain ⟨reach, hreach, hdress⟩ := run_growAmong_ok h
  obtain ⟨reach', hreach', hdress'⟩ := run_growAmong_ok h'
  obtain ⟨-, hsegments, leaves, k, -, -, hblooms⟩ := run_dress_ok hdress
  obtain ⟨-, hsegments', leaves', k', -, -, hblooms'⟩ := run_dress_ok hdress'
  have hsame : reach = reach' := Except.ok.inj (hreach.symm.trans hreach')
  subst hsame
  rw [Plant.path, Plant.path, position_of_run_bloomsOf hblooms, position_of_run_bloomsOf hblooms',
    hsegments, hsegments']

/-- Which attractors steer a vine, given or scattered by its first draws, and that no draw after the
scattering has a say in its path. -/
theorem attractors_steer_vine (preset : ColonizationPreset α) (stage : Int)
    (color color' : String) (s s' : Source α) (i i' j j' : Nat) (plant plant' : Plant α) :
    (∀ attractors, (preset.growAmong stage color attractors).run s i = (.ok plant, j) →
      (∃ reach, preset.IsSteered reach stage attractors plant) ∧
        ((preset.growAmong stage color' attractors).run s' i' = (.ok plant', j') →
          plant.path = plant'.path)) ∧
    ((preset.grow stage color).run s i = (.ok plant, j) →
      (∃ attractors k,
        (Attractor.scatter preset.attractorCount.toNat).run s i = (.ok attractors, k) ∧
          ∃ reach, preset.IsSteered reach stage attractors plant) ∧
        ((∀ n < 3 * preset.attractorCount.toNat, s (i + n) = s' (i' + n)) →
          (preset.grow stage color').run s' i' = (.ok plant', j') →
            plant.path = plant'.path)) := by
  refine ⟨fun attractors h =>
    ⟨isSteered_of_run_growAmong h, fun h' => path_eq_of_run_growAmong h h'⟩, fun h => ?_⟩
  obtain ⟨attractors, k, hscatter, hgrown⟩ := Drawing.run_bind_eq_ok_iff.1 h
  refine ⟨⟨attractors, k, hscatter, isSteered_of_run_growAmong hgrown⟩, fun hdraws h' => ?_⟩
  obtain ⟨attractors', k', hscatter', hgrown'⟩ := Drawing.run_bind_eq_ok_iff.1 h'
  obtain ⟨taken, -, outcome, outcome', hrun, hrun', halike⟩ :=
    Attractor.alike_scatter _ s s' i i' hdraws
  cases hscatter.symm.trans hrun
  cases hscatter'.symm.trans hrun'
  have hsame : attractors = attractors' := halike
  subst hsame
  exact path_eq_of_run_growAmong hgrown hgrown'

/-- A vine that sees far, and that consumes what is a quarter of a unit away. -/
def farsightedVine : ColonizationPreset Float :=
  ⟨2, 1152921504606846976.0, 0.25, 0.5, 0.1, "#9ac997", by decide⟩

/-- Of two attractors above the root the lower one is consumed on the way, and the vine goes on toward
the upper one for all its steps, with leaves and without. A vine without attractors stays a root. -/
theorem attractors_steer_farsightedVine :
    (∃ plant plant' j j' reach,
      (farsightedVine.growAmong 1 "#d4f1cd" [⟨0, 1, 0⟩, ⟨0, 1152921504606846976.0, 0⟩]).run
        (.cycle 0.9 []) 0 = (.ok plant, j) ∧
      (farsightedVine.growAmong 1 "#ffffff" [⟨0, 1, 0⟩, ⟨0, 1152921504606846976.0, 0⟩]).run
        (.cycle 0.1 []) 0 = (.ok plant', j') ∧
      plant.segments.length = 16 ∧ plant.leaves.length = 16 ∧ plant'.leaves.length = 0 ∧
      farsightedVine.IsSteered reach 1 [⟨0, 1, 0⟩, ⟨0, 1152921504606846976.0, 0⟩] plant ∧
      plant.path = plant'.path) ∧
    (∃ plant plant' j j' reach,
      ((shortVine 0).grow 1 "#d4f1cd").run (.cycle 0.9 []) 0 = (.ok plant, j) ∧
      ((shortVine 0).grow 1 "#ffffff").run (.cycle 0.1 []) 0 = (.ok plant', j') ∧
      plant.segments.length = 0 ∧ (shortVine 0).IsSteered reach 1 [] plant ∧
      plant.path = plant'.path) := by
  constructor
  · obtain ⟨plant, j, hrun, hcounts⟩ := Drawing.exists_run_of_view
      (show ((farsightedVine.growAmong 1 "#d4f1cd"
        [⟨0, 1, 0⟩, ⟨0, 1152921504606846976.0, 0⟩]).run (.cycle 0.9 []) 0).1.toOption.map
        (fun p => (p.segments.length, p.leaves.length)) = some (16, 16) by decide +kernel)
    obtain ⟨plant', j', hrun', hcounts'⟩ := Drawing.exists_run_of_view
      (show ((farsightedVine.growAmong 1 "#ffffff"
        [⟨0, 1, 0⟩, ⟨0, 1152921504606846976.0, 0⟩]).run (.cycle 0.1 []) 0).1.toOption.map
        (fun p => p.leaves.length) = some 0 by decide +kernel)
    obtain ⟨hsegments, hleaves⟩ := Prod.mk.inj hcounts
    obtain ⟨⟨reach, hsteered⟩, hpath⟩ := (attractors_steer_vine farsightedVine 1 "#d4f1cd" "#ffffff"
      (.cycle 0.9 []) (.cycle 0.1 []) 0 0 j j' plant plant').1 _ hrun
    exact ⟨plant, plant', j, j', reach, hrun, hrun', hsegments, hleaves, hcounts', hsteered,
      hpath hrun'⟩
  · obtain ⟨plant, j, hrun, hlength⟩ := Drawing.exists_run_of_view
      (show (((shortVine 0).grow 1 "#d4f1cd").run (.cycle 0.9 []) 0).1.toOption.map
        (fun p => p.segments.length) = some 0 by decide +kernel)
    obtain ⟨plant', j', hrun', -⟩ := Drawing.exists_run_of_view
      (show (((shortVine 0).grow 1 "#ffffff").run (.cycle 0.1 []) 0).1.toOption.map
        (fun p => p.segments.length) = some 0 by decide +kernel)
    obtain ⟨⟨attractors, k, hscatter, reach, hsteered⟩, hpath⟩ :=
      (attractors_steer_vine (shortVine 0) 1 "#d4f1cd" "#ffffff" (.cycle 0.9 []) (.cycle 0.1 [])
        0 0 j j' plant plant').2 hrun
    cases hscatter
    refine ⟨plant, plant', j, j', reach, hrun, hrun', hlength, hsteered, hpath ?_ hrun'⟩
    intro n hn
    exact absurd hn (Nat.not_lt_zero n)

end ColonizationPreset

end PlantGrowth
