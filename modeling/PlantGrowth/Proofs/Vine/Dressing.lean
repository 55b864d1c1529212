import PlantGrowth.Proofs.Draw.Outcome
import PlantGrowth.Vine.Dressing

/-!
# What a dressed vine is made of

The first draws of a vine scatter its attractors (`Attractor.run_scatter_of_scatterOne`). A vine among
attractors is its trail, dressed. Where the dressing has a result, the segments are
those of the trail, and the leaves and the bloom come from two runs, one after the other.
-/

set_option autoImplicit false

namespace PlantGrowth

variable {α : Type} [Scalar α]

/-- Where three draws from anywhere make an attractor of some kind, a scattering has a result, and all
its attractors are of this kind. -/
theorem Attractor.run_scatter_of_scatterOne {P : Vec3 α → Prop} {s : Source α}
    (h : ∀ i, ∃ attractor, scatterOne.run s i = (.ok attractor, i + 3) ∧ P attractor)
    (count i : Nat) :
    ∃ attractors, (scatter count).run s i = (.ok attractors, i + 3 * count) ∧
      attractors.length = count ∧ ∀ attractor ∈ attractors, P attractor := by
  induction count generalizing i with
  | zero => exact ⟨[], rfl, rfl, by simp⟩
  | succ count ih =>
    obtain ⟨first, hfirst, hkind⟩ := h i
    obtain ⟨others, hothers, hlength, hall⟩ := ih (i + 3)
    refine ⟨first :: others, ?_, ?_, ?_⟩
    · rw [scatter, Drawing.run_bind_of_ok hfirst, Drawing.run_bind_of_ok hothers,
        Drawing.run_pure]
      congr 1
      omega
    · rw [List.length_cons, hlength]
    · intro attractor hmem
      rcases List.mem_cons.1 hmem with rfl | hmem
      · exact hkind
      · exact hall attractor hmem

namespace ColonizationPreset

/-- A dressed trail was not cut short. Its segments are those of the plant, and the leaves and the
blooms come from two runs, one after the other. -/
theorem run_dress_ok {preset : ColonizationPreset α} {color : String} {trail : Trail α}
    {s : Source α} {i j : Nat} {plant : Plant α}
    (h : (preset.dress color trail).run s i = (.ok plant, j)) :
    trail.fault = none ∧ plant.segments = trail.segments ∧
      ∃ leaves k, (trail.segments.mapM preset.leafOf).run s i = (.ok leaves, k) ∧
        plant.leaves = leaves.filterMap id ∧
        (bloomsOf trail.segments color).run s k = (.ok plant.blooms, j) := by
  unfold dress at h
  obtain ⟨leaves, k, hleaves, h⟩ := Drawing.run_bind_eq_ok_iff.1 h
  cases hfault : trail.fault with
  | some e =>
    rw [hfault] at h
    cases h
  | none =>
    rw [hfault] at h
    obtain ⟨blooms, l, hblooms, h⟩ := Drawing.run_bind_eq_ok_iff.1 h
    cases h
    exact ⟨rfl, rfl, leaves, k, hleaves, rfl, hblooms⟩

/-- A bloom stands at the end of the last segment. -/
theorem position_of_run_bloomsOf {segments : List (Segment α)} {color : String} {s : Source α}
    {i j : Nat} {blooms : List (Ornament α)}
    (h : (bloomsOf segments color).run s i = (.ok blooms, j)) :
    blooms.map Ornament.position = (segments.getLast?.map Segment.finish).toList := by
  unfold bloomsOf at h
  cases hlast : segments.getLast? with
  | none =>
    rw [hlast] at h
    cases h
    rfl
  | some last =>
    rw [hlast] at h
    obtain ⟨bloom, k, hbloom, h⟩ := Drawing.run_bind_eq_ok_iff.1 h
    cases h
    unfold bloomAt at hbloom
    obtain ⟨rotation, l, -, hbloom⟩ := Drawing.run_bind_eq_ok_iff.1 hbloom
    obtain ⟨u, m, -, hbloom⟩ := Drawing.run_bind_eq_ok_iff.1 hbloom
    cases hbloom
    rfl

/-- A vine among attractors has a result where the squares of its radii exist and its trail can be
dressed. -/
theorem run_growAmong_ok {preset : ColonizationPreset α} {stage : Int} {color : String}
    {attractors : List (Vec3 α)} {s : Source α} {i j : Nat} {plant : Plant α}
    (h : (preset.growAmong stage color attractors).run s i = (.ok plant, j)) :
    ∃ reach, preset.reach = .ok reach ∧
      (preset.dress color (preset.trailAt reach (max 1 stage) attractors)).run s i =
        (.ok plant, j) := by
  unfold growAmong at h
  obtain ⟨reach, k, hrun, h⟩ := Drawing.run_bind_eq_ok_iff.1 h
  obtain ⟨hreach, rfl⟩ := Drawing.run_ofExcept_eq_ok_iff.1 hrun
  exact ⟨reach, hreach, h⟩

/-- Where the squares of the radii exist, a vine among attractors is its trail, dressed. -/
theorem growAmong_of_reach {preset : ColonizationPreset α} {reach : Reach α}
    (h : preset.reach = .ok reach) (stage : Int) (color : String) (attractors : List (Vec3 α)) :
    preset.growAmong stage color attractors =
      preset.dress color (preset.trailAt reach (max 1 stage) attractors) := by
  rw [growAmong, h]
  rfl

/-- The plant of a trail without segments is empty, and takes no draw. -/
theorem run_dress_nil (preset : ColonizationPreset α) (color : String) (s : Source α) (i : Nat) :
    (preset.dress color ⟨[], none⟩).run s i = (.ok ⟨[], [], []⟩, i) := rfl

end ColonizationPreset

end PlantGrowth
