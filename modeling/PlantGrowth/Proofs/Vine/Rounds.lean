import PlantGrowth.Proofs.Vine.Competition
import PlantGrowth.Proofs.Vine.Unbranched

/-!
# The rounds of a vine never overflow

The direction along a vector does not exist where the square of a coordinate overflows. A round asks
only for directions between points of a finite distance, and if the sum of products is finite, no square
overflows (`Vec3.isSafe_sub`). So a round for tips that are nodes has a result, whatever the doubles are.

All rounds of a vine are of this kind. `watchedTrail` grows the trail and keeps what its rounds are
held for: the new tips of a step are its new nodes (`tipsAreNodes_extend`), so all tips are nodes in
every round.
-/

set_option autoImplicit false

namespace PlantGrowth

/-! ## Rounds for tips that are nodes -/

namespace Assignment

/-- The tip that a search ends with has the vote of the attractor. -/
theorem vote_of_seek {reach : Reach Float} {nodes : Array (Node Float)} {tips : List Nat}
    (htips : ∀ tip ∈ tips, tip < nodes.size) {attractor : Vec3 Float} {tip : Nat}
    (h : seek reach nodes attractor none tips = .ok (.nearest (some tip))) :
    vote reach nodes tips attractor = some tip := by
  rw [seek_eq reach nodes attractor htips] at h
  split at h
  · cases h
  · rw [(leads_foldl tips).vote_eq]
    exact Sighting.nearest.inj (Except.ok.inj h)

/-- The tip that an attractor pulls is a node, and the direction from it is safe to take. -/
theorem isSafe_of_seek {reach : Reach Float} {nodes : Array (Node Float)} {tips : List Nat}
    (htips : ∀ tip ∈ tips, tip < nodes.size) {attractor : Vec3 Float} {tip : Nat}
    (h : seek reach nodes attractor none tips = .ok (.nearest (some tip))) :
    ∃ node, nodeAt nodes tip = .ok node ∧ (attractor - node.position).IsSafe := by
  have hvote := vote_of_seek htips h
  obtain ⟨node, hnode, hplace⟩ := nodeAt_of_lt (htips tip (mem_of_vote hvote))
  refine ⟨node, hnode, Vec3.isSafe_sub ?_⟩
  rw [hplace]
  exact (isNearest_of_vote hvote).1.2

end Assignment

/-! ## The rounds of a run -/

/-- All active tips are nodes. -/
def Frontier.TipsAreNodes {α : Type} (f : Frontier α) : Prop := ∀ tip ∈ f.tips, tip < f.nodes.size

namespace ColonizationPreset

section

variable {α : Type} [Scalar α]

/-- The trail of at most that many steps, and the frontiers whose tips compete in its rounds. -/
def watchedTrail (preset : ColonizationPreset α) (reach : Reach α) :
    Nat → Frontier α → Trail α × List (Frontier α)
  | 0, _ => (⟨[], none⟩, [])
  | steps + 1, f =>
    if f.attractors.isEmpty || f.tips.isEmpty then (⟨[], none⟩, [])
    else
      match Assignment.assign reach f.nodes f.tips f.attractors with
      | .error e => (⟨[], some e⟩, [f])
      | .ok round =>
        if round.pulls.isEmpty then (⟨[], none⟩, [f])
        else
          match preset.extend f.nodes round.pulls with
          | (grown, .error e) => (⟨grown, some e⟩, [f])
          | (grown, .ok nodes) =>
            let rest := preset.watchedTrail reach steps
              ⟨nodes, List.range' f.nodes.size round.pulls.length, round.survivors⟩
            (⟨grown ++ rest.1.segments, rest.1.fault⟩, f :: rest.2)

/-- Watching does not change the trail. -/
theorem fst_watchedTrail (preset : ColonizationPreset α) (reach : Reach α) (steps : Nat)
    (f : Frontier α) : (preset.watchedTrail reach steps f).1 = preset.trail reach steps f := by
  induction steps generalizing f with
  | zero => rfl
  | succ steps ih =>
    rw [watchedTrail, trail]
    split
    · rfl
    · cases Assignment.assign reach f.nodes f.tips f.attractors with
      | error e => rfl
      | ok round =>
        dsimp only
        split
        · rfl
        · cases preset.extend f.nodes round.pulls with
          | mk grown outcome =>
            cases outcome with
            | error e => rfl
            | ok nodes => simp only [ih]

/-- A step adds one node for each pull. -/
theorem size_of_extend {preset : ColonizationPreset α} {nodes grownNodes : Array (Node α)}
    {pulls : List (Nat × Vec3 α)} {grown : List (Segment α)}
    (h : preset.extend nodes pulls = (grown, .ok grownNodes)) :
    grownNodes.size = nodes.size + pulls.length := by
  induction pulls generalizing nodes grown with
  | nil =>
    cases h
    rfl
  | cons pull others ih =>
    obtain ⟨tip, sum⟩ := pull
    rw [extend] at h
    split at h
    · cases h
    · next old new _ =>
      obtain ⟨-, hrest⟩ := Prod.mk.inj h
      have hsize := ih (Prod.ext rfl hrest)
      rw [hsize, Array.size_push, List.length_cons]
      omega

/-- The only tip of a sown vine is its root. -/
theorem tipsAreNodes_sown (preset : ColonizationPreset α) (attractors : List (Vec3 α)) :
    (preset.sown attractors).TipsAreNodes := by
  intro tip htip
  rw [List.mem_singleton.1 htip]
  exact Nat.zero_lt_one

/-- The new tips of a step are its new nodes. -/
theorem tipsAreNodes_extend {preset : ColonizationPreset α} {nodes grownNodes : Array (Node α)}
    {pulls : List (Nat × Vec3 α)} {grown : List (Segment α)}
    (h : preset.extend nodes pulls = (grown, .ok grownNodes)) (survivors : List (Vec3 α)) :
    (Frontier.mk grownNodes (List.range' nodes.size pulls.length) survivors).TipsAreNodes := by
  intro tip htip
  rw [size_of_extend h]
  exact (List.mem_range'_1.1 htip).2

/-- All tips are nodes in every round, if they are in the first one. -/
theorem tipsAreNodes_of_mem_watchedTrail (preset : ColonizationPreset α) (reach : Reach α)
    (steps : Nat) {first f : Frontier α} (hfirst : first.TipsAreNodes)
    (hf : f ∈ (preset.watchedTrail reach steps first).2) : f.TipsAreNodes := by
  induction steps generalizing first with
  | zero => cases hf
  | succ steps ih =>
    rw [watchedTrail] at hf
    split at hf
    · cases hf
    · split at hf
      · rw [List.mem_singleton.1 hf]
        exact hfirst
      · split at hf
        · rw [List.mem_singleton.1 hf]
          exact hfirst
        · split at hf
          · rw [List.mem_singleton.1 hf]
            exact hfirst
          · next hgrown =>
            rcases List.mem_cons.1 hf with rfl | hf
            · exact hfirst
            · exact ih (tipsAreNodes_extend hgrown _) hf

end

open Assignment

/-- A round for tips that are nodes has a result for all doubles, and takes only directions that are safe
to take. The rounds of a vine are for tips that are nodes, so none of them fails. -/
theorem rounds_never_overflow :
    (∀ (reach : Reach Float) (nodes : Array (Node Float)) (tips : List Nat),
      (∀ tip ∈ tips, tip < nodes.size) → ∀ attractors,
        (∃ round, assign reach nodes tips attractors = .ok round) ∧
        ∀ attractor ∈ attractors, ∀ tip,
          seek reach nodes attractor none tips = .ok (.nearest (some tip)) →
          ∃ node, nodeAt nodes tip = .ok node ∧ (attractor - node.position).IsSafe) ∧
    ∀ (preset : ColonizationPreset Float) (reach : Reach Float) (stage : Int)
      (attractors : List (Vec3 Float)),
      let run := preset.watchedTrail reach (stepBudget stage).toNat (preset.sown attractors)
      run.1 = preset.trailAt reach stage attractors ∧
      ∀ f ∈ run.2, f.TipsAreNodes ∧
        ∃ round, assign reach f.nodes f.tips f.attractors = .ok round := by
  constructor
  · intro reach nodes tips htips attractors
    exact ⟨⟨_, assign_eq htips attractors⟩, fun attractor _ tip h => isSafe_of_seek htips h⟩
  · intro preset reach stage attractors
    refine ⟨preset.fst_watchedTrail reach _ _, fun f hf => ?_⟩
    have hsown := preset.tipsAreNodes_sown attractors
    have htips := preset.tipsAreNodes_of_mem_watchedTrail reach _ hsown hf
    exact ⟨htips, _, assign_eq htips f.attractors⟩

/-- Attractors at distances that overflow or are undefined, one at the tip itself, and one that is two
units away. The direction along the first one does not exist, and no round asks for it; nor does a
distance whose square vanishes cut a round short. -/
theorem rounds_never_overflow_extremes :
    let reach : Reach Float := ⟨1.0 / 0.0, 0⟩
    let nodes : Array (Node Float) := #[⟨⟨0, 0, 0⟩, 0, 0.1⟩]
    let attractors : List (Vec3 Float) :=
      [⟨1e300, 0, 0⟩, ⟨1.0 / 0.0, 0, 0⟩, ⟨0.0 / 0.0, 0, 0⟩, ⟨0, 0, 0⟩, ⟨0, 2, 0⟩]
    let run := (shortVine 2).watchedTrail ⟨4, 0.09⟩ (stepBudget 1).toNat
      ((shortVine 2).sown [⟨0, 1, 0⟩, ⟨1e300, 0, 0⟩])
    (⟨1e300, 0, 0⟩ : Vec3 Float).normalize = .error .squareTooLarge ∧
    (∀ tip ∈ [0], tip < nodes.size) ∧
    (∃ round, assign reach nodes [0] attractors = .ok round ∧
      round.pulls = [(0, ⟨0, 1, 0⟩)] ∧ round.survivors.length = 5) ∧
    (∃ round, assign reach nodes [0] (⟨1e-200, 0, 0⟩ :: attractors) = .ok round) ∧
    run.2.map Frontier.tips = [[0], [1], [2]] ∧ ∀ f ∈ run.2, f.TipsAreNodes := by
  intro reach nodes attractors run
  have htips : ∀ tip ∈ [0], tip < nodes.size := by decide
  obtain ⟨⟨round, hround⟩, -⟩ := rounds_never_overflow.1 reach nodes [0] htips attractors
  have hview : (assign reach nodes [0] attractors).toOption.map
      (fun round => (round.pulls, round.survivors.length)) = some ([(0, ⟨0, 1, 0⟩)], 5) := by
    decide +kernel
  rw [hround] at hview
  obtain ⟨hpulls, hsurvivors⟩ := Prod.mk.inj (Option.some.inj hview)
  have hvanishing := (rounds_never_overflow.1 reach nodes [0] htips (⟨1e-200, 0, 0⟩ :: attractors)).1
  have hsquare : Scalar.square (1e300 : Float) = .error .squareTooLarge :=
    if_pos (by decide +kernel)
  have hnormalize : (⟨1e300, 0, 0⟩ : Vec3 Float).normalize = .error .squareTooLarge := by
    rw [Vec3.normalize, Vec3.length, hsquare]
    rfl
  have hrounds := (rounds_never_overflow.2 (shortVine 2) ⟨4, 0.09⟩ 1 [⟨0, 1, 0⟩, ⟨1e300, 0, 0⟩]).2
  exact ⟨hnormalize, htips, ⟨round, hround, hpulls, hsurvivors⟩, hvanishing, by decide +kernel,
    fun f hf => (hrounds f hf).1⟩

end ColonizationPreset

end PlantGrowth
