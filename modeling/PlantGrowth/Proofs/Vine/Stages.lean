import PlantGrowth.Proofs.Vine.Unbranched

/-!
# Younger and older vines

A stage gives a vine its number of steps and nothing else, and no step looks at how many are left
(`stem_succ`). With the same attractors and the same draws a vine of an earlier stage is therefore the
beginning of the vine of a later one, and where its steps were not used up it is the same vine
(`younger_begins_older`).
-/

set_option autoImplicit false

namespace PlantGrowth.ColonizationPreset

variable {α : Type} [Scalar α]

/-! ## Stems with more steps -/

/-- The first step of a stem does not depend on how many steps follow: it ends the stem, or it grows
the first segment and leaves a node and attractors to go on from. -/
theorem stem_succ (preset : ColonizationPreset α) (reach : Reach α) (tip : Node α)
    (attractors : List (Vec3 α)) :
    (∃ fault, ∀ steps, preset.stem reach (steps + 1) tip attractors = ⟨[], fault⟩) ∨
    ∃ first new others, ∀ steps, preset.stem reach (steps + 1) tip attractors =
      ⟨first :: (preset.stem reach steps new others).segments,
        (preset.stem reach steps new others).fault⟩ := by
  cases hpulls : reach.unitPulls tip.position attractors with
  | error e =>
    refine .inl ⟨some e, fun steps => ?_⟩
    rw [stem, hpulls]
  | ok pulls =>
    cases pulls with
    | nil =>
      refine .inl ⟨none, fun steps => ?_⟩
      rw [stem, hpulls]
    | cons pull more =>
      cases hsprout : preset.sprout tip ((pull :: more).foldl (· + ·) Vec3.origin) with
      | error e =>
        refine .inl ⟨some e, fun steps => ?_⟩
        simp only [stem, hpulls, hsprout]
      | ok new =>
        refine .inr ⟨⟨tip.position, new.position, new.radius⟩, new,
          reach.survivors tip.position attractors, fun steps => ?_⟩
        simp only [stem, hpulls, hsprout]

/-- A stem of fewer steps is the beginning of one of more steps. -/
theorem segments_stem_eq_take (preset : ColonizationPreset α) (reach : Reach α) {steps more : Nat}
    (hsteps : steps ≤ more) (tip : Node α) (attractors : List (Vec3 α)) :
    (preset.stem reach steps tip attractors).segments =
      (preset.stem reach more tip attractors).segments.take steps := by
  induction steps generalizing more tip attractors with
  | zero => rw [List.take_zero]; rfl
  | succ steps ih =>
    obtain ⟨more, rfl⟩ := Nat.exists_eq_add_of_lt hsteps
    have hrest : steps ≤ steps + more := Nat.le_add_right steps more
    rcases preset.stem_succ reach tip attractors with ⟨fault, hend⟩ | ⟨first, new, others, hnext⟩
    · rw [hend, hend, List.take_nil]
    · rw [hnext, hnext, List.take_succ_cons, ← ih hrest new others]

/-- A stem that does not use up its steps does not need more of them. -/
theorem stem_eq_of_length_lt (preset : ColonizationPreset α) (reach : Reach α) {steps more : Nat}
    (hsteps : steps ≤ more) (tip : Node α) (attractors : List (Vec3 α))
    (h : (preset.stem reach steps tip attractors).segments.length < steps) :
    preset.stem reach more tip attractors = preset.stem reach steps tip attractors := by
  induction steps generalizing more tip attractors with
  | zero => exact absurd h (Nat.not_lt_zero _)
  | succ steps ih =>
    obtain ⟨more, rfl⟩ := Nat.exists_eq_add_of_lt hsteps
    have hrest : steps ≤ steps + more := Nat.le_add_right steps more
    rcases preset.stem_succ reach tip attractors with ⟨fault, hend⟩ | ⟨first, new, others, hnext⟩
    · rw [hend, hend]
    · rw [hnext, List.length_cons] at h
      rw [hnext, hnext, ih hrest new others (Nat.lt_of_succ_lt_succ h)]

/-! ## Vines of two stages -/

/-- What the vine of a stage and the vine of a later one have in common, with the positions after their
draws: the segments of the first are those that its steps reach, its leaves come first, and both
vines and positions are the same if the first did not use up its steps. -/
structure IsYounger (stage : Int) (plant : Plant α) (j : Nat) (older : Plant α) (k : Nat) : Prop where
  segments_eq_take : plant.segments =
    older.segments.take (min (16 * max 1 stage).toNat older.segments.length)
  leaves_prefix : plant.leaves <+: older.leaves
  eq_of_length_lt : (plant.segments.length : Int) < 16 * max 1 stage → plant = older ∧ j = k

/-- Among the same attractors the vine of an earlier stage begins the one of a later stage. -/
theorem isYounger_of_run_growAmong {preset : ColonizationPreset α} {stage later : Int}
    (hlater : max 1 stage ≤ max 1 later) {color : String} {attractors : List (Vec3 α)} {s : Source α}
    {i j k : Nat} {plant older : Plant α}
    (h : (preset.growAmong stage color attractors).run s i = (.ok plant, j))
    (holder : (preset.growAmong later color attractors).run s i = (.ok older, k)) :
    IsYounger stage plant j older k := by
  obtain ⟨reach, hreach, hdress⟩ := run_growAmong_ok h
  have hsteps := stepBudget_of_pos (Int.le_max_left 1 stage)
  have hmore := stepBudget_of_pos (Int.le_max_left 1 later)
  have hle : (stepBudget (max 1 stage)).toNat ≤ (stepBudget (max 1 later)).toNat := by omega
  rw [growAmong_of_reach hreach] at holder
  rw [trailAt_eq_stem] at hdress holder
  obtain ⟨-, hsegments, leaves, l, hrun, hleaves, -⟩ := run_dress_ok hdress
  obtain ⟨-, hsegments', leaves', l', hrun', hleaves', -⟩ := run_dress_ok holder
  have htake := preset.segments_stem_eq_take reach hle preset.root attractors
  refine ⟨?_, ?_, ?_⟩
  · rw [hsegments, hsegments', htake, hsteps, List.take_eq_take_min]
  · rw [hleaves, hleaves']
    have hfront := List.take_prefix (stepBudget (max 1 stage)).toNat
      (preset.stem reach (stepBudget (max 1 later)).toNat preset.root attractors).segments
    rw [← htake] at hfront
    exact (Drawing.isPrefix_of_run_mapM hfront hrun hrun').filterMap id
  · intro hlength
    have hfew : (preset.stem reach (stepBudget (max 1 stage)).toNat preset.root
        attractors).segments.length < (stepBudget (max 1 stage)).toNat := by
      rw [← hsegments]
      omega
    rw [preset.stem_eq_of_length_lt reach hle preset.root attractors hfew, hdress] at holder
    cases holder
    exact ⟨rfl, rfl⟩

/-- Scattered attractors are the same at both stages, so the earlier vine begins the later one. -/
theorem isYounger_of_run_grow {preset : ColonizationPreset α} {stage later : Int}
    (hlater : max 1 stage ≤ max 1 later) {color : String} {s : Source α} {i j k : Nat}
    {plant older : Plant α} (h : (preset.grow stage color).run s i = (.ok plant, j))
    (holder : (preset.grow later color).run s i = (.ok older, k)) : IsYounger stage plant j older k := by
  obtain ⟨attractors, l, hscatter, hgrown⟩ := Drawing.run_bind_eq_ok_iff.1 h
  obtain ⟨attractors', l', hscatter', hgrown'⟩ := Drawing.run_bind_eq_ok_iff.1 holder
  cases hscatter.symm.trans hscatter'
  exact isYounger_of_run_growAmong hlater hgrown hgrown'

/-- A vine of an earlier stage is the beginning of the vine of a later one, whether the attractors are
given or scattered by the first draws. -/
theorem younger_begins_older (preset : ColonizationPreset α) (stage later : Int)
    (hlater : max 1 stage ≤ max 1 later) (color : String) (s : Source α) (i j k : Nat)
    (plant older : Plant α) :
    (∀ attractors, (preset.growAmong stage color attractors).run s i = (.ok plant, j) →
      (preset.growAmong later color attractors).run s i = (.ok older, k) →
      IsYounger stage plant j older k) ∧
    ((preset.grow stage color).run s i = (.ok plant, j) →
      (preset.grow later color).run s i = (.ok older, k) → IsYounger stage plant j older k) := by
  constructor
  · intro attractors h holder
    exact isYounger_of_run_growAmong hlater h holder
  · intro h holder
    exact isYounger_of_run_grow hlater h holder

/-- A vine that sees far and consumes no attractor, and so never comes to rest. -/
def restlessVine : ColonizationPreset Float :=
  ⟨0, 1152921504606846976.0, 0.0, 0.5, 0.1, "#9ac997", by decide⟩

/-- Draws of which one in seventeen is above the threshold for leaves. -/
def rareLeaves : Source Float := .cycle 0.9 (List.replicate 16 0.1)

/-- Toward a far attractor a restless vine uses up the steps of every stage. A short vine consumes its
attractor and is the same at all stages, and without attractors it stays a root. -/
theorem younger_begins_older_restlessVine :
    max 1 (1 : Int) ≤ max 1 2 ∧
    (∃ plant older j k,
      (restlessVine.growAmong 1 "#d4f1cd" [⟨0, 1152921504606846976.0, 0⟩]).run rareLeaves 0 =
        (.ok plant, j) ∧
      (restlessVine.growAmong 2 "#d4f1cd" [⟨0, 1152921504606846976.0, 0⟩]).run rareLeaves 0 =
        (.ok older, k) ∧
      (plant.segments.length, plant.leaves.length) = (16, 2) ∧
      (older.segments.length, older.leaves.length) = (32, 4) ∧ IsYounger 1 plant j older k) ∧
    (∃ plant older j k,
      ((shortVine 1).growAmong 1 "#d4f1cd" [⟨0, 1, 0⟩]).run rareLeaves 0 = (.ok plant, j) ∧
      ((shortVine 1).growAmong 2 "#d4f1cd" [⟨0, 1, 0⟩]).run rareLeaves 0 = (.ok older, k) ∧
      plant.segments.length = 2 ∧ IsYounger 1 plant j older k) ∧
    (∃ plant older j k,
      ((shortVine 0).grow 1 "#d4f1cd").run rareLeaves 0 = (.ok plant, j) ∧
      ((shortVine 0).grow 2 "#d4f1cd").run rareLeaves 0 = (.ok older, k) ∧
      plant.segments.length = 0 ∧ IsYounger 1 plant j older k) := by
  have hstages : max 1 (1 : Int) ≤ max 1 2 := by decide
  have hyounger (preset : ColonizationPreset Float) (j k : Nat) (plant older : Plant Float) :=
    younger_begins_older preset 1 2 hstages "#d4f1cd" rareLeaves 0 j k plant older
  refine ⟨hstages, ?_, ?_, ?_⟩
  · obtain ⟨plant, j, hrun, hcounts⟩ := Drawing.exists_run_of_view
      (show ((restlessVine.growAmong 1 "#d4f1cd" [⟨0, 1152921504606846976.0, 0⟩]).run
        rareLeaves 0).1.toOption.map (fun p => (p.segments.length, p.leaves.length)) = some (16, 2) by decide +kernel)
    obtain ⟨older, k, holder, hcounts'⟩ := Drawing.exists_run_of_view
      (show ((restlessVine.growAmong 2 "#d4f1cd" [⟨0, 1152921504606846976.0, 0⟩]).run
        rareLeaves 0).1.toOption.map (fun p => (p.segments.length, p.leaves.length)) = some (32, 4) by decide +kernel)
    exact ⟨plant, older, j, k, hrun, holder, hcounts, hcounts',
      (hyounger restlessVine j k plant older).1 _ hrun holder⟩
  · obtain ⟨plant, j, hrun, hlength⟩ := Drawing.exists_run_of_view
      (show (((shortVine 1).growAmong 1 "#d4f1cd" [⟨0, 1, 0⟩]).run rareLeaves 0).1.toOption.map
        (fun p => p.segments.length) = some 2 by decide +kernel)
    obtain ⟨older, k, holder, -⟩ := Drawing.exists_run_of_view
      (show (((shortVine 1).growAmong 2 "#d4f1cd" [⟨0, 1, 0⟩]).run rareLeaves 0).1.toOption.map
        (fun p => p.segments.length) = some 2 by decide +kernel)
    exact ⟨plant, older, j, k, hrun, holder, hlength,
      (hyounger (shortVine 1) j k plant older).1 _ hrun holder⟩
  · obtain ⟨plant, j, hrun, hlength⟩ := Drawing.exists_run_of_view
      (show (((shortVine 0).grow 1 "#d4f1cd").run rareLeaves 0).1.toOption.map
        (fun p => p.segments.length) = some 0 by decide +kernel)
    obtain ⟨older, k, holder, -⟩ := Drawing.exists_run_of_view
      (show (((shortVine 0).grow 2 "#d4f1cd").run rareLeaves 0).1.toOption.map
        (fun p => p.segments.length) = some 0 by decide +kernel)
    exact ⟨plant, older, j, k, hrun, holder, hlength,
      (hyounger (shortVine 0) j k plant older).2 hrun holder⟩

end PlantGrowth.ColonizationPreset
