import PlantGrowth.Proofs.Draw.SeedHash
import PlantGrowth.Proofs.Planting.BuiltIn

/-!
# The seeds of the stages of a plant

The key of a plant ends in its stage. Stages of one digit make keys that differ at their last unit only,
and such keys never hash alike. The stages of the built-in species all have one digit, so no plant of
the garden has the seed of another stage of it (`one_unit_changes_seed`).
-/

set_option autoImplicit false

namespace PlantGrowth

/-- A digit is written as one unit, which is its character. -/
theorem Text.units_repr_digit : ∀ digit : Fin 10,
    Text.units (Int.repr digit.val).toList = [UInt16.ofNat (48 + digit.val)] := by decide

/-- The keys of one identifier at two stages of one digit differ at their last unit. -/
theorem differOnce_growthKey (id : String) {stage stage' : Int} (h : 0 ≤ stage ∧ stage ≤ 9)
    (h' : 0 ≤ stage' ∧ stage' ≤ 9) (hne : stage ≠ stage') :
    SeedHash.DifferOnce (Text.units (growthKey id stage).toList)
      (Text.units (growthKey id stage').toList) := by
  have hdigit {n : Int} (hn : 0 ≤ n ∧ n ≤ 9) : ∃ digit : Fin 10, n = digit.val :=
    ⟨⟨n.toNat, by omega⟩, by simp only; omega⟩
  have hunits (digit : Fin 10) : Text.units (growthKey id digit.val).toList =
      Text.units (id ++ "-").toList ++ [UInt16.ofNat (48 + digit.val)] := by
    rw [growthKey, String.toList_append, Text.units_append, Text.units_repr_digit]
  obtain ⟨digit, rfl⟩ := hdigit h
  obtain ⟨digit', rfl⟩ := hdigit h'
  rw [hunits, hunits]
  refine SeedHash.differOnce_append_cons _ ?_ []
  revert digit digit'
  decide

/-- The plant of a memory at a stage is grown from the draws of this seed. -/
def Catalogue.GrownFromSeed (catalogue : Catalogue Float) (memory : Memory) (seed : UInt32)
    (stage : Int) (plant : Plant Float) : Prop :=
  ∃ species : Species, memory.species = species.name ∧
    (((catalogue species).grow stage none).run (.seeded seed.toNat) 0).1 = .ok plant

/-- The built-in species have at most eight stages. -/
theorem Catalogue.stage_of_boundedStage_builtIn {species : Species} {n t : Int}
    (h : builtIn.boundedStage species n = .ok t) : 1 ≤ t ∧ t ≤ 8 := by
  obtain ⟨greatest, hgreatest, rfl⟩ := boundedStage_eq_ok_iff.1 h
  have hfew : 1 ≤ greatest ∧ greatest ≤ 8 := by
    cases species with
    | fern =>
      cases hgreatest
      decide
    | flower =>
      cases hgreatest
      decide
    | vine =>
      have hvine : builtIn.greatestStage .vine = .ok 8 := vineStages_fortyFive
      cases hvine.symm.trans hgreatest
      decide
  omega

/-- Changing one unit of a key changes its hash. So one identifier has different seeds at any two stages
of one digit, and memories with this identifier that the built-in garden grows to different stages, as
the same species or not, are grown from different seeds. -/
theorem one_unit_changes_seed :
    (∀ units units' : List UInt16, SeedHash.DifferOnce units units' →
      SeedHash.ofUnits units ≠ SeedHash.ofUnits units') ∧
    (∀ key key' : String,
      SeedHash.DifferOnce (Text.units key.toList) (Text.units key'.toList) →
        seedHash key ≠ seedHash key') ∧
    (∀ (id : String) (stage stage' : Int), 0 ≤ stage ∧ stage ≤ 9 → 0 ≤ stage' ∧ stage' ≤ 9 →
      stage ≠ stage' → seedHash (growthKey id stage) ≠ seedHash (growthKey id stage')) ∧
    (∀ (memory memory' : Memory) (stage stage' : Stage Float) (t t' : Int)
      (plant plant' : Plant Float), memory.id = memory'.id →
      Catalogue.builtIn.growMemory memory stage = .ok (t, plant) →
      Catalogue.builtIn.growMemory memory' stage' = .ok (t', plant') → t ≠ t' →
        Catalogue.builtIn.GrownFromSeed memory (seedHash (growthKey memory.id t)) t plant ∧
        Catalogue.builtIn.GrownFromSeed memory' (seedHash (growthKey memory'.id t')) t' plant' ∧
        seedHash (growthKey memory.id t) ≠ seedHash (growthKey memory'.id t')) := by
  have hkeys (key key' : String)
      (h : SeedHash.DifferOnce (Text.units key.toList) (Text.units key'.toList)) :
      seedHash key ≠ seedHash key' := SeedHash.ofUnits_ne_of_differOnce h
  refine ⟨fun units units' => SeedHash.ofUnits_ne_of_differOnce, hkeys, ?_, ?_⟩
  · intro id stage stage' h h' hne
    exact hkeys _ _ (differOnce_growthKey id h h' hne)
  · intro memory memory' stage stage' t t' plant plant' hid h h' hne
    obtain ⟨species, hspecies, hbounded, hgrown⟩ := Catalogue.exists_species_of_growMemory h
    obtain ⟨species', hspecies', hbounded', hgrown'⟩ := Catalogue.exists_species_of_growMemory h'
    have ht := Catalogue.stage_of_boundedStage_builtIn hbounded
    have ht' := Catalogue.stage_of_boundedStage_builtIn hbounded'
    refine ⟨⟨species, hspecies, hgrown⟩, ⟨species', hspecies', hgrown'⟩, ?_⟩
    rw [hid]
    exact hkeys _ _ (differOnce_growthKey memory'.id (by omega) (by omega) hne)

/-- A rose planted as a vine of stage eight and as a flower of stage four. -/
theorem one_unit_changes_seed_rose :
    SeedHash.ofUnits [0xD83C, 0xDF39] ≠ SeedHash.ofUnits [0xD83C, 0xDF38] ∧
    seedHash "rose" ≠ seedHash "robe" ∧
    seedHash (growthKey "rose" 0) ≠ seedHash (growthKey "rose" 9) ∧
    ∃ plant plant',
      Catalogue.builtIn.growMemory ⟨"rose", "vine", "high", none⟩ .absent = .ok (8, plant) ∧
      Catalogue.builtIn.growMemory ⟨"rose", "flower", "low", none⟩ (.whole 99) = .ok (4, plant') ∧
      seedHash (growthKey "rose" 8) ≠ seedHash (growthKey "rose" 4) := by
  obtain ⟨hunits, hkeys, hstages, hplants⟩ := one_unit_changes_seed
  have hvine : Catalogue.builtIn.greatestStage .vine = .ok 8 := Catalogue.vineStages_fortyFive
  have hflower : Catalogue.builtIn.greatestStage .flower = .ok 4 := rfl
  obtain ⟨plant, hplant⟩ := Catalogue.exists_plant_builtIn .vine 8 (growthKey "rose" 8) none
  obtain ⟨plant', hplant'⟩ := Catalogue.exists_plant_builtIn .flower 4 (growthKey "rose" 4) none
  have hgrown : Catalogue.builtIn.growMemory ⟨"rose", "vine", "high", none⟩ .absent =
      .ok (8, plant) := by
    have haimed := Catalogue.aimedStage_name hvine .high
    have hname : (Memory.mk "rose" "vine" "high" none).species = Species.vine.name := rfl
    rw [Catalogue.growMemory_eq_map hname (Catalogue.wantedStage_absent haimed) rfl
      (Catalogue.boundedStage_of_greatestStage hvine _)]
    exact congrArg (Except.map fun plant => (8, plant)) hplant
  have hgrown' : Catalogue.builtIn.growMemory ⟨"rose", "flower", "low", none⟩ (.whole 99) =
      .ok (4, plant') := by
    have hname : (Memory.mk "rose" "flower" "low" none).species = Species.flower.name := rfl
    rw [Catalogue.growMemory_eq_map hname rfl rfl
      (Catalogue.boundedStage_of_greatestStage hflower _)]
    exact congrArg (Except.map fun plant => (4, plant)) hplant'
  refine ⟨hunits _ _ (SeedHash.differOnce_append_cons [0xD83C] (by decide) []),
    hkeys _ _ (SeedHash.differOnce_append_cons (Text.units ['r', 'o']) (by decide)
      (Text.units ['e'])), hstages "rose" 0 9 (by decide) (by decide) (by decide), plant, plant',
    hgrown, hgrown', ?_⟩
  exact (hplants ⟨"rose", "vine", "high", none⟩ ⟨"rose", "flower", "low", none⟩ _ _ 8 4 plant plant'
    rfl hgrown hgrown' (by decide)).2.2

end PlantGrowth
