import Mathlib.Analysis.SpecialFunctions.Trigonometric.Basic
import PlantGrowth.Proofs.Vine.Advance
import PlantGrowth.Proofs.Vine.Vote

/-!
# What a round consumes

A round consumes an attractor only where a tip is within the kill radius (`exists_tip_of_removed`). The
radii of a preset are in order, but a round compares squares, and a square forgets the sign. The order
of the squares follows from the order of the radii just where the two radii have no negative sum
(`killSq_le_influenceSq_iff`), as two radii that are not negative do. Where the sum is negative, the
first round already consumes attractors that no influence radius covers, and since it consumes all
that could pull, the vine stays a root.
-/

set_option autoImplicit false

namespace PlantGrowth

/-! ## Removed attractors -/

namespace Assignment

section

variable {α : Type} [Scalar α] {reach : Reach α} {nodes : Array (Node α)} {tips : List Nat}
  {attractor : Vec3 α}

/-- A search ends early only at a tip within the kill radius. -/
theorem exists_tip_of_seek {nearest : Option (Nat × α)}
    (h : seek reach nodes attractor nearest tips = .ok .reached) :
    ∃ tip ∈ tips, ∃ node, nodes[tip]? = some node ∧
      attractor.distanceSq node.position < reach.killSq := by
  induction tips generalizing nearest with
  | nil => cases h
  | cons tip others ih =>
    obtain ⟨node, hnode, h⟩ := Fault.bind_eq_ok_iff.1 h
    dsimp only at h
    split at h
    · next hkill => exact ⟨tip, List.mem_cons_self, node, nodeAt_eq_ok_iff.1 hnode, hkill⟩
    · -- Whoever is the nearest one now, the search goes on among the others.
      have hothers : ∃ nearest, seek reach nodes attractor nearest others = .ok .reached := by
        split at h
        · exact ⟨_, h⟩
        · exact ⟨_, h⟩
      obtain ⟨nearer, hothers⟩ := hothers
      obtain ⟨other, hother, hfound⟩ := ih hothers
      exact ⟨other, List.mem_cons_of_mem tip hother, hfound⟩

/-- An attractor that is not consumed survives. -/
theorem mem_survivors_ofFates {fates : List (Vec3 α × Fate α)} {f : Fate α}
    (h : (attractor, f) ∈ fates) (hf : f ≠ .consumed) : attractor ∈ (ofFates fates).survivors := by
  refine List.mem_filterMap.2 ⟨(attractor, f), h, ?_⟩
  cases f with
  | consumed => exact absurd rfl hf
  | idle => rfl
  | pulling tip pull => rfl

/-- What a round removes was consumed. -/
theorem fate_of_removed {attractors : List (Vec3 α)} {round : Assignment α}
    (h : assign reach nodes tips attractors = .ok round) (hmem : attractor ∈ attractors)
    (hgone : attractor ∉ round.survivors) : fate reach nodes tips attractor = .ok .consumed := by
  obtain ⟨fates, hfates, h⟩ := Fault.bind_eq_ok_iff.1 h
  cases h
  obtain ⟨entry, hentry, hfate⟩ := Fault.exists_of_mem_mapM hfates hmem
  obtain ⟨f, hf, hpair⟩ := Fault.bind_eq_ok_iff.1 hfate
  cases hpair
  by_cases hconsumed : f = .consumed
  · rw [← hconsumed]
    exact hf
  · exact absurd (mem_survivors_ofFates hentry hconsumed) hgone

/-- An attractor that is gone after a round was in reach of some tip. -/
theorem exists_tip_of_removed {attractors : List (Vec3 α)} {round : Assignment α}
    (h : assign reach nodes tips attractors = .ok round) (hmem : attractor ∈ attractors)
    (hgone : attractor ∉ round.survivors) :
    ∃ tip ∈ tips, ∃ node, nodes[tip]? = some node ∧
      attractor.distanceSq node.position < reach.killSq := by
  obtain ⟨sighting, hseek, hfate⟩ := Fault.bind_eq_ok_iff.1 (fate_of_removed h hmem hgone)
  match sighting with
  | .reached => exact exists_tip_of_seek hseek
  | .nearest none => cases hfate
  | .nearest (some tip) =>
    obtain ⟨node, -, hfate⟩ := Fault.bind_eq_ok_iff.1 hfate
    obtain ⟨pull, -, hfate⟩ := Fault.bind_eq_ok_iff.1 hfate
    cases hfate

/-- The nearest tip of a search is one of those it looked at. -/
theorem mem_of_foldl_nearer {tip : Nat} {distanceSq : α}
    (h : tips.foldl (nearer reach nodes attractor) none = some (tip, distanceSq)) : tip ∈ tips := by
  induction tips using List.reverseRecOn with
  | nil => cases h
  | append_singleton tips last ih =>
    rw [List.foldl_append, List.foldl_cons, List.foldl_nil, nearer] at h
    split at h
    · cases h
      exact List.mem_append_right tips (List.mem_singleton_self tip)
    · exact List.mem_append_left [last] (ih h)

end

/-! ## Rounds in exact arithmetic -/

section

variable {nodes : Array (Node ℝ)} {tips : List Nat}

/-- In exact arithmetic every attractor has a fate, if the tips are nodes. -/
theorem exists_fate_exact (reach : Reach ℝ) (htips : ∀ tip ∈ tips, tip < nodes.size)
    (attractor : Vec3 ℝ) : ∃ f, fate reach nodes tips attractor = .ok f := by
  rw [fate, seek_eq reach nodes attractor htips]
  by_cases hconsumed : IsConsumed reach nodes tips attractor
  · rw [if_pos hconsumed]
    exact ⟨.consumed, rfl⟩
  · rw [if_neg hconsumed]
    cases hnearest : tips.foldl (nearer reach nodes attractor) none with
    | none => exact ⟨.idle, rfl⟩
    | some leader =>
      obtain ⟨node, hnode, -⟩ := nodeAt_of_lt (htips leader.1 (mem_of_foldl_nearer hnearest))
      refine ⟨.pulling leader.1 (attractor - node.position).unit, ?_⟩
      simp only [bind, Except.bind, Option.map_some, hnode, Vec3.normalize_exact]
      rfl

/-- In exact arithmetic a round for tips that are nodes does not fail. -/
theorem exists_assign_exact (reach : Reach ℝ) (htips : ∀ tip ∈ tips, tip < nodes.size)
    (attractors : List (Vec3 ℝ)) : ∃ round, assign reach nodes tips attractors = .ok round := by
  choose f hf using exists_fate_exact reach htips
  have hfates : (attractors.mapM fun attractor => do
      let f ← fate reach nodes tips attractor
      return (attractor, f)) = .ok (attractors.map fun attractor => (attractor, f attractor)) := by
    simp only [hf]
    exact List.mapM_pure
  rw [assign, hfates]
  exact ⟨_, rfl⟩

end

end Assignment

/-! ## Radii and their squares -/

namespace ColonizationPreset

open Assignment

/-- Whatever attractors a round for the preset removes, each is within the influence radius of some
tip, by their squares. -/
def ConsumesInReach {α : Type} [Scalar α] (preset : ColonizationPreset α) : Prop :=
  ∀ (reach : Reach α) (nodes : Array (Node α)) (tips : List Nat) (attractors : List (Vec3 α))
    (round : Assignment α), preset.reach = .ok reach →
    assign reach nodes tips attractors = .ok round →
    ∀ attractor ∈ attractors, attractor ∉ round.survivors →
      ∃ tip ∈ tips, ∃ node, nodes[tip]? = some node ∧
        attractor.distanceSq node.position ≤ reach.influenceSq

variable (preset : ColonizationPreset ℝ)

/-- The squares of radii in order are in order unless the kill radius is further below zero than the
influence radius is above. -/
theorem killSq_le_influenceSq_iff :
    preset.squaredRadii.killSq ≤ preset.squaredRadii.influenceSq ↔
      0 ≤ preset.influenceRadius + preset.killRadius := by
  have horder : 0 < preset.influenceRadius - preset.killRadius :=
    sub_pos.2 (not_le.1 preset.radii_in_order)
  have hfactors : preset.squaredRadii.influenceSq - preset.squaredRadii.killSq =
      (preset.influenceRadius + preset.killRadius) *
        (preset.influenceRadius - preset.killRadius) := by
    simp only [squaredRadii]
    ring
  rw [← sub_nonneg, hfactors, mul_nonneg_iff_of_pos_right horder]

/-- A vine whose kill radius has no greater square consumes only what it sees. -/
theorem consumesInReach_of_le
    (h : preset.squaredRadii.killSq ≤ preset.squaredRadii.influenceSq) :
    preset.ConsumesInReach := by
  intro reach nodes tips attractors round hreach hround attractor hmem hgone
  rw [eq_squaredRadii_of_reach hreach] at hround ⊢
  obtain ⟨tip, htip, node, hnode, hkill⟩ := exists_tip_of_removed hround hmem hgone
  exact ⟨tip, htip, node, hnode, hkill.le.trans h⟩

variable {preset}

/-- The first round of a vine consumes an attractor that lies within the kill radius of the root. -/
theorem assign_sown_of_lt {reach : Reach ℝ} {attractor : Vec3 ℝ}
    (h : attractor.distanceSq Vec3.origin < reach.killSq) :
    assign reach (preset.sown [attractor]).nodes (preset.sown [attractor]).tips [attractor] =
      .ok ⟨[], []⟩ := by
  have hconsumes : reach.consumes Vec3.origin attractor = true := decide_eq_true h
  have hroot : (preset.sown [attractor]).nodes[0]? = some preset.root := rfl
  have hpulls : reach.unitPulls preset.root.position [attractor] = .ok [] :=
    Reach.unitPulls_cons_of_not_steers (Reach.not_steers_of_consumes hconsumes) []
  have hnone : reach.survivors preset.root.position [attractor] = [] :=
    Reach.survivors_cons_of_consumes hconsumes []
  have hround := assign_singleton reach hroot [attractor]
  rw [hpulls, hnone] at hround
  exact hround

/-- The squared distance of a point on the first axis. -/
theorem distanceSq_axis_origin (x : ℝ) : (⟨x, 0, 0⟩ : Vec3 ℝ).distanceSq Vec3.origin = x * x := by
  have hexpand : (⟨x, 0, 0⟩ : Vec3 ℝ).distanceSq Vec3.origin =
      (x - 0) * (x - 0) + (0 - 0) * (0 - 0) + (0 - 0) * (0 - 0) := rfl
  rw [hexpand]
  ring

/-- Between the two radii there is an attractor that the first round consumes. -/
theorem exists_consumed_of_lt
    (h : preset.squaredRadii.influenceSq < preset.squaredRadii.killSq) :
    ∃ attractor, preset.squaredRadii.influenceSq < attractor.distanceSq Vec3.origin ∧
      assign preset.squaredRadii (preset.sown [attractor]).nodes (preset.sown [attractor]).tips
        [attractor] = .ok ⟨[], []⟩ := by
  obtain ⟨d, hinfluence, hkill⟩ := exists_between h
  have hd : 0 ≤ d := (mul_self_nonneg preset.influenceRadius).trans hinfluence.le
  have hdistance : (⟨√d, 0, 0⟩ : Vec3 ℝ).distanceSq Vec3.origin = d :=
    (distanceSq_axis_origin √d).trans (Real.mul_self_sqrt hd)
  exact ⟨⟨√d, 0, 0⟩, hinfluence.trans_eq hdistance.symm,
    assign_sown_of_lt (hdistance.trans_lt hkill)⟩

/-- A vine whose kill radius has the greater square consumes what it does not see. -/
theorem not_consumesInReach_of_lt
    (h : preset.squaredRadii.influenceSq < preset.squaredRadii.killSq) :
    ¬ preset.ConsumesInReach := by
  intro hall
  obtain ⟨attractor, hfar, hround⟩ := exists_consumed_of_lt h
  obtain ⟨tip, htip, node, hnode, hle⟩ := hall preset.squaredRadii _ _ [attractor] _ rfl hround
    attractor (List.mem_singleton_self attractor) List.not_mem_nil
  cases List.mem_singleton.1 htip
  cases hnode
  exact absurd hle (not_le.2 hfar)

/-- A vine whose kill radius covers what its influence radius covers stays a root. -/
theorem run_growAmong_of_lt
    (h : preset.squaredRadii.influenceSq < preset.squaredRadii.killSq) (stage : Int)
    (color : String) (attractors : List (Vec3 ℝ)) (s : Source ℝ) (i : Nat) :
    (preset.growAmong stage color attractors).run s i = (.ok ⟨[], [], []⟩, i) := by
  have hreach : preset.reach = .ok preset.squaredRadii := rfl
  have hidle : ∀ attractor ∈ attractors,
      ¬ preset.squaredRadii.steers preset.root.position attractor := by
    intro attractor _ hsteers
    have hnear := Reach.distanceSq_le_of_steers hsteers
    have hconsumes : preset.squaredRadii.consumes preset.root.position attractor = true :=
      decide_eq_true (hnear.trans_lt h)
    exact Reach.not_steers_of_consumes hconsumes hsteers
  rw [growAmong_of_reach hreach, trailAt_eq_stem, preset.stem_of_forall_not_steers _ hidle,
    run_dress_nil]

/-- In exact arithmetic a round for tips that are nodes has a result. What it removes is within the
influence radius of a tip, for all presets whose radii have no negative sum, and so for all whose
kill radius is not negative. For any other preset this fails in the first round of a vine, and no
vine grows. -/
theorem consumes_in_reach_iff (preset : ColonizationPreset ℝ) :
    (preset.reach = .ok preset.squaredRadii ∧ ∀ nodes tips, (∀ tip ∈ tips, tip < nodes.size) →
      ∀ attractors, ∃ round, assign preset.squaredRadii nodes tips attractors = .ok round) ∧
    (preset.ConsumesInReach ↔ 0 ≤ preset.influenceRadius + preset.killRadius) ∧
    (0 ≤ preset.killRadius → preset.ConsumesInReach) ∧
    (preset.influenceRadius + preset.killRadius < 0 →
      (∃ attractor, preset.squaredRadii.influenceSq < attractor.distanceSq Vec3.origin ∧
        assign preset.squaredRadii (preset.sown [attractor]).nodes (preset.sown [attractor]).tips
          [attractor] = .ok ⟨[], []⟩) ∧
      ∀ stage color attractors s i,
        (preset.growAmong stage color attractors).run s i = (.ok ⟨[], [], []⟩, i)) := by
  have hsquares := preset.killSq_le_influenceSq_iff
  refine ⟨⟨rfl, fun nodes tips htips => exists_assign_exact _ htips⟩, ?_, ?_, ?_⟩
  · constructor
    · intro hall
      exact hsquares.1 (not_lt.1 fun hlt => not_consumesInReach_of_lt hlt hall)
    · exact fun hsum => preset.consumesInReach_of_le (hsquares.2 hsum)
  · intro hkill
    have hinfluence : 0 ≤ preset.influenceRadius := hkill.trans (not_le.1 preset.radii_in_order).le
    exact preset.consumesInReach_of_le (hsquares.2 (add_nonneg hinfluence hkill))
  · intro hsum
    have hlt : preset.squaredRadii.influenceSq < preset.squaredRadii.killSq :=
      not_le.1 fun hle => absurd (hsquares.1 hle) (not_le.2 hsum)
    exact ⟨exists_consumed_of_lt hlt, run_growAmong_of_lt hlt⟩

/-- Radii in order of which the one below zero is the larger one without its sign. -/
noncomputable def inverted : ColonizationPreset ℝ :=
  ⟨1, 1, -3, 0.5, 0.1, "#9ac997", by norm_num⟩

/-- Half a unit is consumed within two units, and under inverted radii nothing grows. -/
theorem consumes_in_reach_lookout :
    0 ≤ lookout.killRadius ∧ lookout.ConsumesInReach ∧
    (∃ round, assign lookout.squaredRadii (lookout.sown []).nodes [0] [⟨0, 1, 0⟩] = .ok round) ∧
    inverted.influenceRadius + inverted.killRadius < 0 ∧
      (inverted.growAmong 1 "#d4f1cd" [⟨0, 1, 0⟩]).run (.cycle 0 []) 0 = (.ok ⟨[], [], []⟩, 0) := by
  have hkill : 0 ≤ lookout.killRadius := by norm_num [lookout]
  have hsum : inverted.influenceRadius + inverted.killRadius < 0 := by norm_num [inverted]
  obtain ⟨⟨-, hrounds⟩, -, hconsumes, -⟩ := consumes_in_reach_iff lookout
  obtain ⟨-, -, -, hroot⟩ := consumes_in_reach_iff inverted
  exact ⟨hkill, hconsumes hkill, hrounds _ [0] (by simp [sown]) [⟨0, 1, 0⟩], hsum,
    (hroot hsum).2 1 "#d4f1cd" [⟨0, 1, 0⟩] (.cycle 0 []) 0⟩

/-- Inverted radii are in order, and so a preset. The first round of its vine consumes an attractor two
units away, twice as far as the influence radius. -/
theorem consumes_out_of_reach_inverted :
    ofMeasures 1 (1 : ℝ) (-3) 0.5 0.1 "#9ac997" = .ok inverted ∧
    inverted.reach = .ok ⟨1, 9⟩ ∧
    assign ⟨1, 9⟩ (inverted.sown [⟨2, 0, 0⟩]).nodes (inverted.sown [⟨2, 0, 0⟩]).tips [⟨2, 0, 0⟩] =
      .ok ⟨[], []⟩ ∧
    (⟨2, 0, 0⟩ : Vec3 ℝ).distanceSq Vec3.origin = 4 ∧ ¬ inverted.ConsumesInReach := by
  have haccepted : ofMeasures 1 (1 : ℝ) (-3) 0.5 0.1 "#9ac997" = .ok inverted :=
    dif_neg inverted.radii_in_order
  have hsquares : inverted.squaredRadii = ⟨1, 9⟩ := by
    norm_num [squaredRadii, inverted]
  have hreach : inverted.reach = .ok ⟨1, 9⟩ := congrArg Except.ok hsquares
  have hdistance : (⟨2, 0, 0⟩ : Vec3 ℝ).distanceSq Vec3.origin = 4 := by
    rw [distanceSq_axis_origin]
    norm_num
  refine ⟨haccepted, hreach, assign_sown_of_lt ?_, hdistance, not_consumesInReach_of_lt ?_⟩
  · rw [hdistance]
    norm_num
  · rw [hsquares]
    norm_num

end ColonizationPreset

end PlantGrowth
