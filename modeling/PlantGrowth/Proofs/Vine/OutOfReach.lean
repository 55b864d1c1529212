import Mathlib.Analysis.SpecialFunctions.Trigonometric.Basic
import PlantGrowth.Planting.Basic
import PlantGrowth.Proofs.Draw.UnitInterval
import PlantGrowth.Proofs.Vine.Dressing
import PlantGrowth.Proofs.Vine.Stem
import PlantGrowth.Species.BuiltIn

/-!
# Vines that never grow

Every scattered attractor is at least `1.5` from the trunk's axis and at least `1` high, so the
square of its distance from the root is at least `3.25`. A vine whose influence radius has a smaller
square is not pulled in its first round, whatever its kill radius: it stays a root. The built-in vine
is of this kind, with `1.8 ^ 2 = 3.24`.
-/

set_option autoImplicit false

namespace PlantGrowth

/-! ## The shell of attractors -/

namespace Attractor

/-- The angle does not matter for the distance from the root. -/
theorem distanceSq_place_origin (angle distance height : ℝ) :
    (Vec3.mk (Real.cos angle * distance) height (Real.sin angle * distance)).distanceSq
      Vec3.origin = distance ^ 2 + height ^ 2 := by
  have hcircle := Real.sin_sq_add_cos_sq angle
  have hexpand : (Vec3.mk (Real.cos angle * distance) height
      (Real.sin angle * distance)).distanceSq Vec3.origin =
      (Real.cos angle * distance - 0) * (Real.cos angle * distance - 0) +
        (height - 0) * (height - 0) +
        (Real.sin angle * distance - 0) * (Real.sin angle * distance - 0) := rfl
  rw [hexpand]
  linear_combination distance ^ 2 * hcircle

/-- An attractor is scattered no nearer to the root than the shell begins. -/
theorem run_scatterOne {s : Source ℝ} (hs : s.InUnit) (i : Nat) :
    ∃ attractor, scatterOne.run s i = (.ok attractor, i + 3) ∧
      3.25 ≤ attractor.distanceSq Vec3.origin := by
  obtain ⟨u, hu, -, -⟩ := hs i
  obtain ⟨v, hv, hv0, -⟩ := hs (i + 1)
  obtain ⟨w, hw, hw0, -⟩ := hs (i + 2)
  refine ⟨⟨Real.cos (u * Real.pi * 2.0) * (1.5 + v * 2.5), 1.0 + w * 5.0,
    Real.sin (u * Real.pi * 2.0) * (1.5 + v * 2.5)⟩, ?_, ?_⟩
  · simp only [scatterOne, Drawing.run_bind, Drawing.run_draw, hu, hv, hw]
    rfl
  · -- The least values are `1.5 ^ 2 + 1 ^ 2 = 3.25`.
    rw [distanceSq_place_origin]
    nlinarith

/-- The attractors of a scattering take three draws each and lie in the shell. -/
theorem run_scatter {s : Source ℝ} (hs : s.InUnit) (count i : Nat) :
    ∃ attractors, (scatter count).run s i = (.ok attractors, i + 3 * count) ∧
      ∀ attractor ∈ attractors, 3.25 ≤ attractor.distanceSq Vec3.origin := by
  obtain ⟨attractors, hrun, -, hshell⟩ := run_scatter_of_scatterOne (run_scatterOne hs) count i
  exact ⟨attractors, hrun, hshell⟩

end Attractor

/-! ## A root that nothing pulls -/

namespace ColonizationPreset

/-- In exact arithmetic the squares of the radii exist. -/
theorem exists_reach_exact (preset : ColonizationPreset ℝ) :
    ∃ reach, preset.reach = .ok reach ∧ reach.influenceSq = preset.influenceRadius ^ 2 :=
  ⟨_, rfl, (sq preset.influenceRadius).symm⟩

/-- A vine whose influence radius ends before the shell of attractors stays a root. -/
theorem run_grow_of_short_influence {preset : ColonizationPreset ℝ}
    (hshort : preset.influenceRadius ^ 2 < 3.25) (stage : Int) (color : String) {s : Source ℝ}
    (hs : s.InUnit) (i : Nat) :
    (preset.grow stage color).run s i =
      (.ok ⟨[], [], []⟩, i + 3 * preset.attractorCount.toNat) := by
  obtain ⟨reach, hreach, hinfluence⟩ := preset.exists_reach_exact
  obtain ⟨attractors, hscatter, hshell⟩ := Attractor.run_scatter hs preset.attractorCount.toNat i
  have hfar : ∀ attractor ∈ attractors, ¬ reach.steers preset.root.position attractor := by
    intro attractor hmem hsteers
    have hnear := Reach.distanceSq_le_of_steers hsteers
    rw [hinfluence] at hnear
    exact absurd ((hshell attractor hmem).trans hnear) (not_le.2 hshort)
  rw [grow, Drawing.run_bind_of_ok hscatter, growAmong_of_reach hreach, trailAt_eq_stem,
    preset.stem_of_forall_not_steers _ hfar, run_dress_nil]

end ColonizationPreset

/-! ## The built-in vine -/

namespace Catalogue

/-- The built-in catalogue in exact arithmetic. -/
noncomputable def builtInExact : Catalogue ℝ := builtInOver (by norm_num)

/-- Forty-five attractors make eight stages. -/
theorem vineStages_fortyFive : vineStages 45 = .ok 8 := by
  have hquotient : Quotient.nearestDouble ((45 : Int) / 6) = some (15 / 2) := by decide +kernel
  have hceil : (15 / 2 : Rat).ceil = 8 := by decide +kernel
  unfold vineStages
  rw [hquotient]
  show Except.ok (max 4 (15 / 2 : Rat).ceil) = .ok 8
  rw [hceil]
  rfl

/-- The built-in vine stays a root at every stage. -/
theorem plant_vine_builtInExact (stage : Int) (key : String) (color : Option String) :
    builtInExact.plant .vine stage key color = .ok ⟨[], [], []⟩ := by
  have hstages : builtInExact.greatestStage .vine = .ok 8 := vineStages_fortyFive
  have hshort : (Species.vinePreset (α := ℝ) (by norm_num)).influenceRadius ^ 2 < 3.25 := by
    show (1.8 : ℝ) ^ 2 < 3.25
    norm_num
  rw [plant, boundedStage, hstages]
  exact congrArg Prod.fst
    (ColonizationPreset.run_grow_of_short_influence hshort _ _ (Source.inUnit_keyed key) 0)

end Catalogue

/-- A vine whose influence radius has a square below `3.25` never grows, and takes three draws for
each of its attractors; the built-in vine is one. -/
theorem vine_never_grows :
    (∀ (preset : ColonizationPreset ℝ) (stage : Int) (color : String) (s : Source ℝ) (i : Nat),
      preset.influenceRadius ^ 2 < 3.25 → s.InUnit →
      (preset.grow stage color).run s i =
        (.ok ⟨[], [], []⟩, i + 3 * preset.attractorCount.toNat)) ∧
    (∀ (stage : Stage ℝ) (key : String) (color : Option String), stage ≠ .absent →
      Catalogue.builtInExact.plantNamed "vine" stage key color = .ok ⟨[], [], []⟩) := by
  refine ⟨fun preset stage color s i hshort hs =>
    ColonizationPreset.run_grow_of_short_influence hshort stage color hs i, ?_⟩
  intro stage key color hstage
  have hvine : Species.named "vine" = .ok .vine := Species.named_name .vine
  rw [Catalogue.plantNamed, hvine]
  cases stage with
  | absent => exact absurd rfl hstage
  | whole n => exact Catalogue.plant_vine_builtInExact n key color
  | real x => exact Catalogue.plant_vine_builtInExact _ key color

/-- The margin of the built-in vine is `3.24` against `3.25`: its forty-five attractors take their
draws in vain. -/
theorem vine_never_grows_builtIn :
    ((Species.vinePreset (α := ℝ) (by norm_num)).grow 3 "#d4f1cd").run (.keyed "vine-3") 0 =
      (.ok ⟨[], [], []⟩, 135) ∧
    Catalogue.builtInExact.plantNamed "vine" (.whole 3) "vine-3" none = .ok ⟨[], [], []⟩ := by
  refine ⟨?_, vine_never_grows.2 (.whole 3) "vine-3" none (by simp)⟩
  refine vine_never_grows.1 (Species.vinePreset (by norm_num)) 3 "#d4f1cd" (.keyed "vine-3") 0 ?_
    (Source.inUnit_keyed "vine-3")
  show (1.8 : ℝ) ^ 2 < 3.25
  norm_num

end PlantGrowth
