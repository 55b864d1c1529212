import PlantGrowth.Proofs.Space.Unit
import PlantGrowth.Proofs.Vine.Faultless
import PlantGrowth.Proofs.Vine.Steering

/-!
# Vines in exact arithmetic

Over the real numbers every vector has a direction and every square exists, so a vine has a plant for
every preset, all attractors and every stage, unless a draw is refused (`onlyRefuses_growAmong_exact`).
The direction of a step is that of the sum of the pulls, `Reach.pull`.
-/

set_option autoImplicit false

namespace PlantGrowth

/-- The greater of two numbers is their maximum. -/
theorem Scalar.exact_maxOf (a b : ℝ) : Scalar.maxOf a b = max a b := by
  rw [max_def_lt, Scalar.maxOf]

namespace Reach

/-- The pull on node `k`: the sum of the directions of the attractors that steer the step from it. -/
noncomputable def pull (reach : Reach ℝ) (attractors : List (Vec3 ℝ)) (node : Nat → Vec3 ℝ)
    (k : Nat) : Vec3 ℝ :=
  ((reach.steering attractors node k).map fun attractor => (attractor - node k).unit).foldl
    (· + ·) Vec3.origin

/-- Attractors that the first node sees and does not consume all steer the first step. -/
theorem steering_zero_of_forall {reach : Reach ℝ} {attractors : List (Vec3 ℝ)}
    {node : Nat → Vec3 ℝ}
    (h : ∀ attractor ∈ attractors, reach.killSq ≤ attractor.distanceSq (node 0) ∧
      attractor.distanceSq (node 0) ≤ reach.influenceSq) :
    reach.steering attractors node 0 = attractors := by
  refine List.filter_eq_self.2 fun attractor hmem => decide_eq_true ?_
  obtain ⟨hkill, hinfluence⟩ := h attractor hmem
  refine ⟨Scalar.exact_isFinite _, hinfluence, fun j hj => ?_⟩
  rw [Nat.le_zero.1 hj]
  exact not_lt_of_ge hkill

/-- All directions to the attractors exist. -/
theorem mapM_normalize_exact (point : Vec3 ℝ) (attractors : List (Vec3 ℝ)) :
    (attractors.mapM fun attractor => (attractor - point).normalize) =
      .ok (attractors.map fun attractor => (attractor - point).unit) := by
  simp only [Vec3.normalize_exact]
  exact List.mapM_pure

/-- The heading of a node is the direction of its pull. -/
theorem heading_exact (reach : Reach ℝ) (attractors : List (Vec3 ℝ)) (node : Nat → Vec3 ℝ)
    (k : Nat) : reach.heading attractors node k = .ok (reach.pull attractors node k).unit := by
  rw [heading, mapM_normalize_exact]
  exact Vec3.normalize_exact _

end Reach

/-! ## The attractors of a scattering -/

namespace Attractor

/-- An attractor is scattered unless a draw is refused. -/
theorem onlyRefuses_scatterOne_exact : (scatterOne : Drawing ℝ (Vec3 ℝ)).OnlyRefuses :=
  Drawing.OnlyRefuses.draw.bind fun _ => Drawing.OnlyRefuses.draw.bind fun _ =>
    Drawing.OnlyRefuses.draw.bind fun _ => .pure _

/-- Attractors are scattered unless a draw is refused. -/
theorem onlyRefuses_scatter_exact (count : Nat) :
    (scatter count : Drawing ℝ (List (Vec3 ℝ))).OnlyRefuses := by
  induction count with
  | zero => exact .pure []
  | succ count ih =>
    exact onlyRefuses_scatterOne_exact.bind fun attractor => ih.bind fun others =>
      .pure (attractor :: others)

end Attractor

namespace ColonizationPreset

/-- The squares of the radii in exact arithmetic, where they always exist. -/
def squaredRadii (preset : ColonizationPreset ℝ) : Reach ℝ :=
  ⟨preset.influenceRadius * preset.influenceRadius, preset.killRadius * preset.killRadius⟩

/-- The squares of the radii exist. -/
theorem eq_squaredRadii_of_reach {preset : ColonizationPreset ℝ} {reach : Reach ℝ}
    (h : preset.reach = .ok reach) : reach = preset.squaredRadii :=
  (Except.ok.inj h).symm

/-- Every pull grows a node. -/
theorem sprout_exact (preset : ColonizationPreset ℝ) (tip : Node ℝ) (pull : Vec3 ℝ) :
    ∃ new, preset.sprout tip pull = .ok new := by
  rw [sprout, Vec3.normalize_exact]
  exact ⟨_, rfl⟩

/-- No step has a fault. -/
theorem fault_stem_exact (preset : ColonizationPreset ℝ) (reach : Reach ℝ) (steps : Nat)
    (tip : Node ℝ) (attractors : List (Vec3 ℝ)) :
    (preset.stem reach steps tip attractors).fault = none := by
  induction steps generalizing tip attractors with
  | zero => rfl
  | succ steps ih =>
    rw [stem, Reach.unitPulls, Reach.mapM_normalize_exact]
    split
    · next h => cases h
    · rfl
    · next pull others _ =>
      obtain ⟨new, hnew⟩ := preset.sprout_exact tip ((pull :: others).foldl (· + ·) Vec3.origin)
      rw [hnew]
      exact ih new _

/-- A vine in exact arithmetic meets no fault but a refused draw. -/
theorem onlyRefuses_growAmong_exact (preset : ColonizationPreset ℝ) (stage : Int) (color : String)
    (attractors : List (Vec3 ℝ)) : (preset.growAmong stage color attractors).OnlyRefuses := by
  have hreach : preset.reach = .ok preset.squaredRadii := rfl
  rw [growAmong_of_reach hreach]
  refine preset.onlyRefuses_dress color ?_
  rw [trailAt_eq_stem]
  exact preset.fault_stem_exact _ _ _ _

/-- A vine grows unless a draw is refused. -/
theorem onlyRefuses_grow_exact (preset : ColonizationPreset ℝ) (stage : Int) (color : String) :
    (preset.grow stage color).OnlyRefuses :=
  (Attractor.onlyRefuses_scatter_exact _).bind fun attractors =>
    preset.onlyRefuses_growAmong_exact stage color attractors

/-- A vine that has grown is steered within the squares of its radii. -/
theorem isSteered_exact {preset : ColonizationPreset ℝ} {stage : Int} {color : String}
    {attractors : List (Vec3 ℝ)} {s : Source ℝ} {i j : Nat} {plant : Plant ℝ}
    (h : (preset.growAmong stage color attractors).run s i = (.ok plant, j)) :
    preset.IsSteered preset.squaredRadii stage attractors plant := by
  obtain ⟨reach, hsteered⟩ := isSteered_of_run_growAmong h
  rw [← eq_squaredRadii_of_reach hsteered.reach_eq]
  exact hsteered

/-- A step of a vine leads along the pull on its node. -/
theorem IsSteered.node_succ_exact {preset : ColonizationPreset ℝ} {stage : Int}
    {attractors : List (Vec3 ℝ)} {plant : Plant ℝ}
    (h : preset.IsSteered preset.squaredRadii stage attractors plant) {k : Nat}
    (hk : k < plant.segments.length) :
    plant.node (k + 1) = plant.node k +
      (preset.squaredRadii.pull attractors plant.node k).unit.scale
        (preset.stepSize * max 0.4 (1 - 0.05 * (k : ℝ))) := by
  obtain ⟨direction, hdirection, hnode⟩ := h.node_succ k hk
  rw [Reach.heading_exact] at hdirection
  cases hdirection
  rw [hnode, Scalar.exact_maxOf, Scalar.exact_ofNat, mul_comm (k : ℝ)]

end ColonizationPreset

end PlantGrowth
