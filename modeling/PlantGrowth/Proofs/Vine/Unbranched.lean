import PlantGrowth.Proofs.Vine.Dressing
import PlantGrowth.Proofs.Vine.Stem
import PlantGrowth.Scalar.Double

/-!
# A vine never branches

The segments of a vine are one path from the origin (`IsPathFrom`): each starts where the one before
it ends, and its radius depends on its place in the path alone. The dressing adds at most a leaf for
each segment and one bloom at the end of the path.
-/

set_option autoImplicit false

namespace PlantGrowth.ColonizationPreset

variable {α : Type} [Scalar α]

/-! ## The path of a stem -/

/-- The radius of the node that many steps from the root. -/
def radiusAt (preset : ColonizationPreset α) : Nat → α
  | 0 => preset.baseRadius
  | depth + 1 => Scalar.maxOf (preset.radiusAt depth * 0.92) 0.02

/-- Segments that follow each other from a point that is some steps from the root. -/
def IsPathFrom (preset : ColonizationPreset α) : Vec3 α → Nat → List (Segment α) → Prop
  | _, _, [] => True
  | point, depth, s :: others =>
    s.start = point ∧ s.radius = preset.radiusAt (depth + 1) ∧
      preset.IsPathFrom s.finish (depth + 1) others

/-- Each segment of a path starts where the one before it ends. -/
theorem IsPathFrom.joined {preset : ColonizationPreset α} {point : Vec3 α} {depth : Nat}
    {segments : List (Segment α)} (h : preset.IsPathFrom point depth segments) {k : Nat}
    {s t : Segment α} (hs : segments[k]? = some s) (ht : segments[k + 1]? = some t) :
    t.start = s.finish := by
  induction segments generalizing point depth k with
  | nil => cases hs
  | cons first others ih =>
    obtain ⟨-, -, hrest⟩ := h
    cases k with
    | zero =>
      cases others with
      | nil => cases ht
      | cons second others =>
        cases hs
        cases ht
        exact hrest.1
    | succ k => exact ih hrest hs ht

/-- The place of a segment in a path decides its radius. -/
theorem IsPathFrom.radius_eq {preset : ColonizationPreset α} {point : Vec3 α} {depth : Nat}
    {segments : List (Segment α)} (h : preset.IsPathFrom point depth segments) {k : Nat}
    {s : Segment α} (hs : segments[k]? = some s) :
    s.radius = preset.radiusAt (depth + k + 1) := by
  induction segments generalizing point depth k with
  | nil => cases hs
  | cons first others ih =>
    obtain ⟨-, hradius, hrest⟩ := h
    cases k with
    | zero =>
      cases hs
      exact hradius
    | succ k =>
      rw [ih hrest hs]
      congr 1
      omega

/-- A node is one deeper than its tip, and thinner. -/
theorem sprout_ok {preset : ColonizationPreset α} {tip new : Node α} {pull : Vec3 α}
    (h : preset.sprout tip pull = .ok new) :
    new.depth = tip.depth + 1 ∧ new.radius = Scalar.maxOf (tip.radius * 0.92) 0.02 := by
  obtain ⟨direction, -, h⟩ := Fault.bind_eq_ok_iff.1 h
  cases h
  exact ⟨rfl, rfl⟩

/-- A stem is a path from its tip. The invariant is that the radius of the tip is the one of its
depth; the next node keeps it. -/
theorem isPathFrom_stem (preset : ColonizationPreset α) (reach : Reach α) (steps : Nat)
    {tip : Node α} (htip : tip.radius = preset.radiusAt tip.depth) (attractors : List (Vec3 α)) :
    preset.IsPathFrom tip.position tip.depth
      (preset.stem reach steps tip attractors).segments := by
  induction steps generalizing tip attractors with
  | zero => trivial
  | succ steps ih =>
    rw [stem]
    split
    · trivial
    · trivial
    · split
      · trivial
      · next new hnew =>
        obtain ⟨hdepth, hradius⟩ := sprout_ok hnew
        have hinv : new.radius = preset.radiusAt new.depth := by
          rw [hradius, hdepth, htip]
          rfl
        refine ⟨rfl, ?_, ?_⟩
        · rw [← hdepth]
          exact hinv
        · rw [← hdepth]
          exact ih hinv _

/-- A stem has at most one segment for each step. -/
theorem length_stem_le (preset : ColonizationPreset α) (reach : Reach α) (steps : Nat)
    (tip : Node α) (attractors : List (Vec3 α)) :
    (preset.stem reach steps tip attractors).segments.length ≤ steps := by
  induction steps generalizing tip attractors with
  | zero => exact Nat.le_refl 0
  | succ steps ih =>
    rw [stem]
    split
    · exact Nat.zero_le _
    · exact Nat.zero_le _
    · split
      · exact Nat.zero_le _
      · exact Nat.succ_le_succ (ih _ _)

/-! ## The vine as a whole -/

/-- A plant that is one path from the origin, with the radii of a vine, no more segments than the
stage has steps, no more leaves than segments, and one bloom at the end of the path, if it has one. -/
structure IsUnbranched (preset : ColonizationPreset α) (stage : Int) (plant : Plant α) : Prop where
  starts_at_origin : ∀ s, plant.segments[0]? = some s → s.start = Vec3.origin
  joined : ∀ k s t, plant.segments[k]? = some s → plant.segments[k + 1]? = some t →
    t.start = s.finish
  radius_eq : ∀ k s, plant.segments[k]? = some s → s.radius = preset.radiusAt (k + 1)
  length_segments_le : plant.segments.length ≤ max 8 (16 * max 1 stage)
  length_leaves_le : plant.leaves.length ≤ plant.segments.length
  bloom_at_end :
    plant.blooms.map Ornament.position = (plant.segments.getLast?.map Segment.finish).toList

/-- A vine among given attractors does not branch. -/
theorem isUnbranched_of_run_growAmong {preset : ColonizationPreset α} {stage : Int}
    {color : String} {attractors : List (Vec3 α)} {s : Source α} {i j : Nat} {plant : Plant α}
    (h : (preset.growAmong stage color attractors).run s i = (.ok plant, j)) :
    preset.IsUnbranched stage plant := by
  obtain ⟨reach, -, hdress⟩ := run_growAmong_ok h
  obtain ⟨-, hsegments, leaves, k, hrun, hleaves, hblooms⟩ := run_dress_ok hdress
  rw [trailAt_eq_stem] at hsegments hrun hblooms
  have hroot : preset.root.radius = preset.radiusAt preset.root.depth := rfl
  have hpath := preset.isPathFrom_stem reach (stepBudget (max 1 stage)).toNat hroot attractors
  have hbound := preset.length_stem_le reach (stepBudget (max 1 stage)).toNat preset.root
    attractors
  rw [← hsegments] at hpath hrun hblooms hbound
  refine ⟨?_, fun k s t => hpath.joined, ?_, ?_, ?_, position_of_run_bloomsOf hblooms⟩
  · intro first hfirst
    cases hall : plant.segments with
    | nil =>
      rw [hall] at hfirst
      cases hfirst
    | cons s others =>
      rw [hall] at hfirst hpath
      cases hfirst
      exact hpath.1
  · intro k s hs
    have hdepth : preset.root.depth = 0 := rfl
    rw [hpath.radius_eq hs, hdepth, Nat.zero_add]
  · have := stepBudget_of_pos (Int.le_max_left 1 stage)
    omega
  · rw [hleaves, ← Drawing.length_of_run_mapM hrun]
    exact List.length_filterMap_le id leaves

/-- A vine among scattered attractors does not branch. -/
theorem isUnbranched_of_run_grow {preset : ColonizationPreset α} {stage : Int} {color : String}
    {s : Source α} {i j : Nat} {plant : Plant α}
    (h : (preset.grow stage color).run s i = (.ok plant, j)) : preset.IsUnbranched stage plant := by
  obtain ⟨attractors, k, -, h⟩ := Drawing.run_bind_eq_ok_iff.1 h
  exact isUnbranched_of_run_growAmong h

/-- A vine never branches, whether its attractors are given or scattered by its first draws. -/
theorem vine_isUnbranched (preset : ColonizationPreset α) (stage : Int) (color : String)
    (s : Source α) (i j : Nat) (plant : Plant α) :
    (∀ attractors, (preset.growAmong stage color attractors).run s i = (.ok plant, j) →
      preset.IsUnbranched stage plant) ∧
    ((preset.grow stage color).run s i = (.ok plant, j) → preset.IsUnbranched stage plant) := by
  exact ⟨fun attractors h => isUnbranched_of_run_growAmong h, fun h => isUnbranched_of_run_grow h⟩

/-- A vine that reaches half a unit in its first step and sees two units far. -/
def shortVine (attractorCount : Int) : ColonizationPreset Float :=
  ⟨attractorCount, 2.0, 0.25, 0.5, 0.1, "#9ac997", by decide⟩

/-- Toward one attractor straight above the root a short vine grows two segments, each with a leaf;
without attractors it stays a root. -/
theorem shortVine_isUnbranched :
    (∃ plant j, ((shortVine 1).growAmong 1 "#d4f1cd" [⟨0, 1, 0⟩]).run (.cycle 0.9 []) 0 =
        (.ok plant, j) ∧ plant.segments.length = 2 ∧ plant.leaves.length = 2 ∧
        (shortVine 1).IsUnbranched 1 plant) ∧
    (∃ plant j, ((shortVine 0).grow 1 "#d4f1cd").run (.cycle 0.9 []) 0 = (.ok plant, j) ∧
        plant.segments.length = 0 ∧ (shortVine 0).IsUnbranched 1 plant) := by
  constructor
  · have hcounts : (((shortVine 1).growAmong 1 "#d4f1cd" [⟨0, 1, 0⟩]).run
        (.cycle 0.9 []) 0).1.toOption.map (fun p => (p.segments.length, p.leaves.length)) =
        some (2, 2) := by decide +kernel
    cases hrun : ((shortVine 1).growAmong 1 "#d4f1cd" [⟨0, 1, 0⟩]).run (.cycle 0.9 []) 0 with
    | mk outcome j =>
      rw [hrun] at hcounts
      cases outcome with
      | error e => cases hcounts
      | ok plant =>
        obtain ⟨hsegments, hleaves⟩ := Prod.mk.inj (Option.some.inj hcounts)
        exact ⟨plant, j, rfl, hsegments, hleaves,
          (vine_isUnbranched (shortVine 1) 1 "#d4f1cd" (.cycle 0.9 []) 0 j plant).1 _ hrun⟩
  · obtain ⟨plant, j, hrun, hlength⟩ := Drawing.exists_run_of_view
      (show (((shortVine 0).grow 1 "#d4f1cd").run (.cycle 0.9 []) 0).1.toOption.map
        (fun p => p.segments.length) = some 0 by decide +kernel)
    exact ⟨plant, j, hrun, hlength,
      (vine_isUnbranched (shortVine 0) 1 "#d4f1cd" (.cycle 0.9 []) 0 j plant).2 hrun⟩

end PlantGrowth.ColonizationPreset
