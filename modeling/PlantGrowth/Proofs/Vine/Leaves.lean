import Mathlib.Analysis.SpecialFunctions.Trigonometric.Basic
import PlantGrowth.Proofs.Vine.Exact

/-!
# The leaves of a vine and their draws

After the scattering every segment in turn takes one draw, which decides whether it has a leaf, and seven
more if it has one; the last four draws are those of the bloom. So the place of a leaf's draws in the
stream depends on how many segments before it have leaves (`leafDraw`).
-/

set_option autoImplicit false

namespace PlantGrowth

variable {α : Type} [Scalar α]

/-! ## The draws of a scattering -/

/-- An attractor takes three draws. -/
theorem Attractor.position_of_run_scatterOne {s : Source α} {i j : Nat} {attractor : Vec3 α}
    (h : scatterOne.run s i = (.ok attractor, j)) : j = i + 3 := by
  obtain ⟨u, _, hu, h⟩ := Drawing.run_bind_eq_ok_iff.1 h
  obtain ⟨-, rfl⟩ := Drawing.run_draw_eq_ok_iff.1 hu
  obtain ⟨v, _, hv, h⟩ := Drawing.run_bind_eq_ok_iff.1 h
  obtain ⟨-, rfl⟩ := Drawing.run_draw_eq_ok_iff.1 hv
  obtain ⟨w, _, hw, h⟩ := Drawing.run_bind_eq_ok_iff.1 h
  obtain ⟨-, rfl⟩ := Drawing.run_draw_eq_ok_iff.1 hw
  exact (Drawing.run_ofExcept_eq_ok_iff.1 h).2.symm

/-- Some attractors take three draws each. -/
theorem Attractor.position_of_run_scatter {s : Source α} {count i j : Nat}
    {attractors : List (Vec3 α)} (h : (scatter count).run s i = (.ok attractors, j)) :
    j = i + 3 * count := by
  induction count generalizing i j attractors with
  | zero =>
    cases h
    rfl
  | succ count ih =>
    obtain ⟨first, k, hfirst, h⟩ := Drawing.run_bind_eq_ok_iff.1 h
    obtain ⟨others, l, hothers, h⟩ := Drawing.run_bind_eq_ok_iff.1 h
    cases h
    have hk := position_of_run_scatterOne hfirst
    have hj := ih hothers
    omega

/-! ## The draws of the leaves -/

/-- The draw that decides about the leaf of segment `k`, when the draws of the first segment begin at
`start`. Behind a segment with a leaf it is eight draws later, behind one without it is the next draw. -/
def leafDraw (u : Nat → α) (start : Nat) : Nat → Nat
  | 0 => start
  | k + 1 => leafDraw u start k + if 0.4 < u (leafDraw u start k) then 8 else 1

namespace ColonizationPreset

/-- The leaf near a point that the seven draws from `n` on make. -/
def leafFrom (preset : ColonizationPreset α) (u : Nat → α) (n : Nat) (point : Vec3 α) :
    Ornament α :=
  ⟨point + ⟨(u n - 0.5) * 0.3, (u (n + 1) - 0.5) * 0.2, (u (n + 2) - 0.5) * 0.3⟩,
    anglesFrom u (n + 3) 0.8, 0.25 + u (n + 6) * 0.35, preset.leafColor⟩

/-- The leaf of a segment on the draws from `n` on: there is one where draw `n` is above `0.4`. -/
def leafAt (preset : ColonizationPreset α) (u : Nat → α) (n : Nat) (segment : Segment α) :
    Option (Ornament α) :=
  if 0.4 < u n then some (preset.leafFrom u (n + 1) segment.finish) else none

/-- The leaves of segments that follow each other, on the draws from `start` on. -/
def leavesFrom (preset : ColonizationPreset α) (u : Nat → α) (start : Nat)
    (segments : List (Segment α)) : List (Ornament α) :=
  segments.zipIdx.filterMap fun p => preset.leafAt u (leafDraw u start p.2) p.1

/-- The bloom at a point that the four draws from `n` on make. -/
def bloomFrom (u : Nat → α) (n : Nat) (point : Vec3 α) (color : String) : Ornament α :=
  ⟨point, anglesFrom u n 0.6, 0.2 + u (n + 3) * 0.4, color⟩

variable {s : Source α} {u : Nat → α}

/-- Seven draws make a leaf. -/
theorem run_leafNear (preset : ColonizationPreset α) (hs : ∀ n, s n = .ok (u n)) (point : Vec3 α)
    (n : Nat) : (preset.leafNear point).run s n = (.ok (preset.leafFrom u n point), n + 7) := by
  have hrotation := Drawing.run_rotation (s := s) (u := u) (i := n + 3) (n := n + 3)
    (fun k _ => hs _) 0.8
  simp only [leafNear, Drawing.aroundZero, bind_assoc, pure_bind, Drawing.run_bind,
    Drawing.run_draw, hs, hrotation, Drawing.run_pure]
  rfl

/-- A segment takes eight draws with a leaf, and one without. -/
theorem run_leafOf (preset : ColonizationPreset α) (hs : ∀ n, s n = .ok (u n))
    (segment : Segment α) (n : Nat) : (preset.leafOf segment).run s n =
      (.ok (preset.leafAt u n segment), n + if 0.4 < u n then 8 else 1) := by
  rw [leafOf, Drawing.run_bind, Drawing.run_draw, hs, leafAt]
  by_cases hleaf : 0.4 < u n
  · simp only [hleaf, if_true]
    rw [Drawing.run_bind_of_ok (preset.run_leafNear hs segment.finish (n + 1)), Drawing.run_pure]
  · simp only [hleaf, if_false, Drawing.run_pure]

/-- The segments take their draws one after the other. -/
theorem run_mapM_leafOf (preset : ColonizationPreset α) (hs : ∀ n, s n = .ok (u n)) (start : Nat)
    (segments : List (Segment α)) :
    (segments.mapM preset.leafOf).run s start =
      (.ok (segments.zipIdx.map fun p => preset.leafAt u (leafDraw u start p.2) p.1),
        leafDraw u start segments.length) := by
  -- The number of the draw is known from the segments in front, so the induction is on the last one.
  induction segments using List.reverseRecOn with
  | nil => rfl
  | append_singleton segments last ih =>
    have hlast : ([last].mapM preset.leafOf).run s (leafDraw u start segments.length) =
        (.ok [preset.leafAt u (leafDraw u start segments.length) last],
          leafDraw u start (segments.length + 1)) := by
      rw [List.mapM_cons, List.mapM_nil, Drawing.run_bind_of_ok (preset.run_leafOf hs last _)]
      rfl
    rw [List.mapM_append, Drawing.run_bind_of_ok ih, Drawing.run_bind_of_ok hlast,
      Drawing.run_pure, List.zipIdx_append, List.map_append, List.length_append]
    simp

/-- After its segments a vine has taken a draw for each of them, and seven more for each leaf. -/
theorem leafDraw_length (preset : ColonizationPreset α) (u : Nat → α) (start : Nat)
    (segments : List (Segment α)) : leafDraw u start segments.length =
      start + segments.length + 7 * (preset.leavesFrom u start segments).length := by
  induction segments using List.reverseRecOn with
  | nil => rfl
  | append_singleton segments last ih =>
    have hleaves : preset.leavesFrom u start (segments ++ [last]) =
        preset.leavesFrom u start segments ++
          (preset.leafAt u (leafDraw u start segments.length) last).toList := by
      simp [leavesFrom, List.zipIdx_append, List.filterMap_eq_flatMap_toList]
    rw [hleaves, List.length_append, List.length_append, List.length_singleton, leafDraw, leafAt]
    split
    · rw [Option.toList_some, List.length_singleton]
      omega
    · rw [Option.toList_none, List.length_nil]
      omega

/-- Four draws make a bloom. -/
theorem run_bloomAt (hs : ∀ n, s n = .ok (u n)) (point : Vec3 α) (color : String) (n : Nat) :
    (bloomAt point color).run s n = (.ok (bloomFrom u n point color), n + 4) := by
  rw [bloomAt, Drawing.run_bind_of_ok (Drawing.run_rotation (n := n) (fun k _ => hs _) 0.6),
    Drawing.run_bind, Drawing.run_draw, hs]
  rfl

/-- A vine takes four draws for its bloom, if it has a segment. -/
theorem run_bloomsOf (hs : ∀ n, s n = .ok (u n)) (segments : List (Segment α)) (color : String)
    (n : Nat) : (bloomsOf segments color).run s n =
      (.ok (segments.getLast?.map fun last => bloomFrom u n last.finish color).toList,
        n + if segments.length = 0 then 0 else 4) := by
  rw [bloomsOf]
  cases segments with
  | nil => rfl
  | cons first others =>
    rw [List.getLast?_cons]
    exact Drawing.run_bind_of_ok (run_bloomAt hs _ color n)

/-! ## The vine as a whole -/

/-- A plant whose leaves and blooms are read off the draws from `start` on. Each segment has a draw, by its
place and by the number of leaves in front of it, and the seven next ones if it has a leaf; after all of
them come the draws of the bloom. -/
structure IsDressedFrom (preset : ColonizationPreset α) (color : String) (u : Nat → α) (start : Nat)
    (plant : Plant α) : Prop where
  leaves_eq : plant.leaves = preset.leavesFrom u start plant.segments
  leafDraw_eq : ∀ k ≤ plant.segments.length, leafDraw u start k =
    start + k + 7 * (preset.leavesFrom u start (plant.segments.take k)).length
  blooms_eq : plant.blooms = (plant.segments.getLast?.map fun last =>
    bloomFrom u (start + plant.segments.length + 7 * plant.leaves.length) last.finish color).toList

/-- The draws after the scattering dress a vine, and are all that it takes. -/
theorem isDressedFrom_of_run_growAmong {preset : ColonizationPreset α} {stage : Int} {color : String}
    {attractors : List (Vec3 α)} (hs : ∀ n, s n = .ok (u n)) {start j : Nat} {plant : Plant α}
    (h : (preset.growAmong stage color attractors).run s start = (.ok plant, j)) :
    preset.IsDressedFrom color u start plant ∧
      j = start + plant.segments.length + 7 * plant.leaves.length +
        if plant.segments.length = 0 then 0 else 4 := by
  obtain ⟨reach, -, hdress⟩ := run_growAmong_ok h
  obtain ⟨-, hsegments, leaves, k, hrun, hleaves, hblooms⟩ := run_dress_ok hdress
  rw [← hsegments, preset.run_mapM_leafOf hs] at hrun
  cases hrun
  rw [List.filterMap_map] at hleaves
  have hplace := preset.leafDraw_length u start plant.segments
  rw [← hsegments, run_bloomsOf hs, hplace] at hblooms
  obtain ⟨hbloom, hnumber⟩ := Prod.mk.inj hblooms
  have hread : plant.leaves = preset.leavesFrom u start plant.segments := hleaves
  rw [← hread] at hbloom hnumber
  refine ⟨⟨hread, fun k hk => ?_, (Except.ok.inj hbloom).symm⟩, hnumber.symm⟩
  have hfront := preset.leafDraw_length u start (plant.segments.take k)
  rwa [List.length_take_of_le hk] at hfront

/-- Which draws make the leaves and the bloom of a vine whose attractors are scattered, and how many there
are in all. -/
theorem draws_dress_vine (preset : ColonizationPreset α) (stage : Int) (color : String)
    {s : Source α} {u : Nat → α} (hs : ∀ n, s n = .ok (u n)) {i j : Nat} {plant : Plant α}
    (h : (preset.grow stage color).run s i = (.ok plant, j)) :
    j = i + 3 * preset.attractorCount.toNat + plant.segments.length + 7 * plant.leaves.length +
        (if plant.segments.length = 0 then 0 else 4) ∧
      preset.IsDressedFrom color u (i + 3 * preset.attractorCount.toNat) plant := by
  obtain ⟨attractors, k, hscatter, hgrown⟩ := Drawing.run_bind_eq_ok_iff.1 h
  cases Attractor.position_of_run_scatter hscatter
  obtain ⟨hdressed, hnumber⟩ := isDressedFrom_of_run_growAmong hs hgrown
  exact ⟨hnumber, hdressed⟩

/-- A vine with one attractor, which a single step of two and a half units can reach. -/
noncomputable def oneStride : ColonizationPreset ℝ :=
  ⟨1, 3.0, 1.0, 2.5, 0.1, "#9ac997", by norm_num⟩

/-- The only attractor of the vine stands two and a half units away from the root. -/
theorem scatter_oneStride : (Attractor.scatter oneStride.attractorCount.toNat).run
    (.cycle 0 [0, 1 / 5, 9 / 10]) 0 = (.ok [(⟨3 / 2, 2, 0⟩ : Vec3 ℝ)], 3) := by
  have hplace : Attractor.place ((0 : ℝ) * Scalar.pi * 2.0) (1.5 + 0 * 2.5) (1.0 + 1 / 5 * 5.0) =
      .ok ⟨3 / 2, 2, 0⟩ := by
    rw [zero_mul, zero_mul, Attractor.place, Scalar.exact_cosine, Scalar.exact_sine, Real.cos_zero,
      Real.sin_zero]
    refine congrArg Except.ok (Vec3.ext ?_ ?_ ?_) <;> norm_num
  have hone : Attractor.scatterOne.run (.cycle 0 [0, 1 / 5, 9 / 10]) 0 =
      (.ok (⟨3 / 2, 2, 0⟩ : Vec3 ℝ), 3) := congrArg (·, 3) hplace
  exact Drawing.run_bind_of_ok hone

/-- The vine reaches its attractor in one step, and stops there. -/
theorem length_oneStride {plant : Plant ℝ}
    (h : oneStride.IsSteered oneStride.squaredRadii 1 [⟨3 / 2, 2, 0⟩] plant) :
    plant.segments.length = 1 := by
  have hroot : (⟨3 / 2, 2, 0⟩ : Vec3 ℝ) - plant.node 0 = ⟨3 / 2, 2, 0⟩ := Vec3.sub_origin _
  have hnear : (⟨3 / 2, 2, 0⟩ : Vec3 ℝ).normSq = (5 / 2) ^ 2 := by norm_num [Vec3.normSq]
  have hdistance : (⟨3 / 2, 2, 0⟩ : Vec3 ℝ).distanceSq (plant.node 0) = (5 / 2) ^ 2 :=
    (congrArg Vec3.normSq hroot).trans hnear
  have hsteering : oneStride.squaredRadii.steering [⟨3 / 2, 2, 0⟩] plant.node 0 =
      [⟨3 / 2, 2, 0⟩] := by
    refine Reach.steering_zero_of_forall fun attractor hmem => ?_
    rw [List.mem_singleton.1 hmem, hdistance]
    norm_num [squaredRadii, oneStride]
  have hgrows : 0 < plant.segments.length := by
    refine h.length_pos ?_
    rw [hsteering]
    exact List.cons_ne_nil _ _
  have hpull : oneStride.squaredRadii.pull [⟨3 / 2, 2, 0⟩] plant.node 0 = ⟨3 / 5, 4 / 5, 0⟩ := by
    rw [Reach.pull, hsteering, List.map_singleton, hroot,
      Vec3.unit_of_normSq_eq (by norm_num) hnear]
    ext <;> norm_num [Vec3.origin, Vec3.scale]
  have hunit : (⟨3 / 5, 4 / 5, 0⟩ : Vec3 ℝ).unit = ⟨3 / 5, 4 / 5, 0⟩ :=
    Vec3.unit_of_normSq_eq_one (by norm_num [Vec3.normSq])
  have hnode : plant.node 1 = ⟨3 / 2, 2, 0⟩ := by
    have hstart : plant.node 0 = Vec3.origin := rfl
    rw [h.node_succ_exact hgrows, hpull, hunit, hstart]
    ext <;> norm_num [Vec3.origin, Vec3.scale, oneStride]
  -- At the second node the only attractor is consumed.
  have hend : oneStride.squaredRadii.steering [⟨3 / 2, 2, 0⟩] plant.node 1 = [] := by
    refine List.filter_eq_nil_iff.2 fun attractor hmem => ?_
    rw [List.mem_singleton.1 hmem, decide_eq_true_eq]
    rintro ⟨-, -, hkept⟩
    refine hkept 1 (Nat.le_refl 1) ?_
    rw [hnode]
    norm_num [Vec3.distanceSq, squaredRadii, oneStride]
  have hstop : ¬ 1 < plant.segments.length := fun hlt => ((h.grows_iff 1).1 hlt).2.2 hend
  omega

/-- A vine that reaches its only attractor in one step and has a leaf there takes fifteen draws. -/
theorem draws_dress_oneStride :
    ∃ plant, (oneStride.grow 1 "#d4f1cd").run (.cycle 0 [0, 1 / 5, 9 / 10]) 0 = (.ok plant, 15) ∧
      plant.segments.length = 1 ∧ plant.leaves.length = 1 ∧
        oneStride.IsDressedFrom "#d4f1cd" (fun n => [0, 0, 1 / 5, 9 / 10].getD (n % 4) 0) 3
          plant := by
  obtain ⟨plant, j, hrun⟩ := (oneStride.onlyRefuses_grow_exact 1 "#d4f1cd").exists_result
    (s := .cycle 0 [0, 1 / 5, 9 / 10]) (fun n => ⟨_, rfl⟩) 0
  obtain ⟨hnumber, hdressed⟩ := draws_dress_vine oneStride 1 "#d4f1cd"
    (u := fun n => [0, 0, 1 / 5, 9 / 10].getD (n % 4) 0) (fun n => rfl) hrun
  obtain ⟨attractors, k, hscatter, hgrown⟩ := Drawing.run_bind_eq_ok_iff.1 hrun
  cases scatter_oneStride.symm.trans hscatter
  have hsegments := length_oneStride (isSteered_exact hgrown)
  have hleaves : plant.leaves.length = 1 := by
    have hplace := hdressed.leafDraw_eq 1 hsegments.ge
    have hleaf : (0.4 : ℝ) < 9 / 10 := by norm_num
    have hnext : leafDraw (fun n => [0, 0, 1 / 5, (9 / 10 : ℝ)].getD (n % 4) 0) 3 1 = 11 :=
      congrArg (3 + ·) (if_pos hleaf)
    rw [List.take_of_length_le hsegments.le, ← hdressed.leaves_eq] at hplace
    have hboth := hnext.symm.trans hplace
    omega
  rw [hsegments, hleaves] at hnumber
  have hfifteen : j = 15 := hnumber
  rw [hfifteen] at hrun
  exact ⟨plant, hrun, hsegments, hleaves, hdressed⟩

end ColonizationPreset

end PlantGrowth
