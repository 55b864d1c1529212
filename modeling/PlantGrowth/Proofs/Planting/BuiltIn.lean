import PlantGrowth.Proofs.Planting.SeedIndependence
import PlantGrowth.Proofs.Planting.Stage
import PlantGrowth.Proofs.Vine.Faultless
import PlantGrowth.Proofs.Vine.OutOfReach

/-!
# Plants of the built-in species

In doubles every built-in species has a greatest stage, and a plant at every stage, from every key and
with every colour.
-/

set_option autoImplicit false

namespace PlantGrowth

/-- The draws of every key are at most one. -/
theorem Source.withinOne_keyed (key : String) : (Source.keyed key).WithinOne :=
  fun n => Double.within_seeded (seedHash key).toNat n

/-- The squares of the radii of the built-in vine exist. -/
theorem Species.reach_vinePreset :
    (vinePreset (α := Float) (by decide)).reach =
      .ok ⟨Scalar.squared 1.8, Scalar.squared 0.4⟩ := by
  have hinfluence := Double.square_of_not_isInfinite (y := 1.8) (by decide +kernel)
  have hkill := Double.square_of_not_isInfinite (y := 0.4) (by decide +kernel)
  show (do
    let influenceSq ← Scalar.square (1.8 : Float)
    let killSq ← Scalar.square (0.4 : Float)
    return Reach.mk influenceSq killSq) = _
  rw [hinfluence, hkill]
  rfl

namespace Catalogue

/-- Every built-in species has a greatest stage. -/
theorem exists_greatestStage_builtIn (species : Species) :
    ∃ greatest, builtIn.greatestStage species = .ok greatest := by
  cases species with
  | fern => exact ⟨_, rfl⟩
  | flower => exact ⟨_, rfl⟩
  | vine => exact ⟨8, vineStages_fortyFive⟩

/-- Every built-in species has a plant at every stage, for every key and colour. -/
theorem exists_plant_builtIn (species : Species) (stage : Int) (key : String)
    (bloomColor : Option String) :
    ∃ plant, builtIn.plant species stage key bloomColor = .ok plant := by
  have hstage : (Stage.whole stage : Stage Float).toInteger = .ok stage := rfl
  cases species with
  | fern =>
    obtain ⟨plant, hplant⟩ := exists_builtIn_fern hstage bloomColor
    exact ⟨plant, hplant key⟩
  | flower =>
    obtain ⟨plant, -, hplant, -⟩ := exists_builtIn_flowers hstage bloomColor key key
    exact ⟨plant, hplant⟩
  | vine =>
    have hfew : (Species.vinePreset (α := Float) (by decide)).attractorCount ≤ 500 := by
      show (45 : Int) ≤ 500
      decide
    have hbounded : builtIn.boundedStage .vine stage = .ok (min (max stage 1) 8) :=
      boundedStage_eq_ok_iff.2 ⟨8, vineStages_fortyFive, rfl⟩
    have hgrow (t : Int) : (builtIn .vine).grow t bloomColor =
      (Species.vinePreset (α := Float) (by decide)).grow t
        ((Ornament.namedColor? bloomColor).getD ColonizationPreset.defaultBloomColor) := rfl
    obtain ⟨plant, j, hrun⟩ := ColonizationPreset.exists_run_grow Species.reach_vinePreset hfew
      (min (max stage 1) 8)
      ((Ornament.namedColor? bloomColor).getD ColonizationPreset.defaultBloomColor)
      (Source.withinOne_keyed key) 0
    refine ⟨plant, ?_⟩
    rw [plant_of_boundedStage hbounded, hgrow, hrun]

end Catalogue

end PlantGrowth
