import PlantGrowth.Planting.Memory
import PlantGrowth.Proofs.Draw.SeedHash
import PlantGrowth.Species.BuiltIn

/-!
# Plants that share a seed

A plant sees its key only through the hash of it, and the keys of two identifiers at one stage end
alike. So identifiers that hash alike share the seed of every stage and grow the same plants, and
identifiers that do not share it at none (`seed_shared_at_every_stage`).
-/

set_option autoImplicit false

namespace PlantGrowth

/-- At every stage the growth keys of two identifiers have one hash exactly if the identifiers
do. -/
theorem seedHash_growthKey_eq_iff (id id' : String) (stage : Int) :
    seedHash (growthKey id stage) = seedHash (growthKey id' stage) ↔ seedHash id = seedHash id' := by
  unfold growthKey
  rw [seedHash_append_eq_iff, seedHash_append_eq_iff]

namespace Catalogue

variable {α : Type} [Scalar α]

/-- Keys that hash alike grow the same plants. -/
theorem plantNamed_eq_of_seedHash_eq (catalogue : Catalogue α) {key key' : String}
    (h : seedHash key = seedHash key') (species : String) (stage : Stage α)
    (bloomColor : Option String) :
    catalogue.plantNamed species stage key bloomColor =
      catalogue.plantNamed species stage key' bloomColor := by
  simp only [plantNamed, plant, Source.keyed, h]

/-- The importance of a memory matters only where no stage is asked for. -/
theorem wantedStage_eq (catalogue : Catalogue α) {memory memory' : Memory} {stage : Stage α}
    (hspecies : memory.species = memory'.species)
    (himportance : stage = .absent → memory.importance = memory'.importance) :
    catalogue.wantedStage memory stage = catalogue.wantedStage memory' stage := by
  cases stage with
  | absent => rw [wantedStage, wantedStage, hspecies, himportance rfl]
  | whole n => rfl
  | real x => rfl

/-- Memories of one species whose identifiers hash alike grow alike, whatever their notes are. -/
theorem growMemory_eq_of_seedHash_eq (catalogue : Catalogue α) {memory memory' : Memory}
    {stage : Stage α} (hid : seedHash memory.id = seedHash memory'.id)
    (hspecies : memory.species = memory'.species)
    (himportance : stage = .absent → memory.importance = memory'.importance) :
    catalogue.growMemory memory stage = catalogue.growMemory memory' stage := by
  have hwanted := catalogue.wantedStage_eq hspecies himportance
  have hplant (reached : Int) := catalogue.plantNamed_eq_of_seedHash_eq
    ((seedHash_growthKey_eq_iff memory.id memory'.id reached).2 hid)
    memory'.species (.whole reached) none
  simp only [growMemory, hwanted, hspecies, hplant]

end Catalogue

/-- Two identifiers share the seed of one stage exactly when they share it at every stage, which is
when they hash alike. Memories of one species whose identifiers hash alike then have the same stage
and the same plant; the importance matters only where it decides the stage. -/
theorem seed_shared_at_every_stage (id id' : String) :
    (∀ more : String,
      seedHash (id ++ more) = seedHash (id' ++ more) ↔ seedHash id = seedHash id') ∧
    (∀ stage : Int, seedHash (growthKey id stage) = seedHash (growthKey id' stage) ↔
      seedHash id = seedHash id') ∧
    (∀ (catalogue : Catalogue Float) (species importance importance' : String)
      (note note' : Option String) (stage : Stage Float), seedHash id = seedHash id' →
      (stage = .absent → importance = importance') →
      catalogue.growMemory ⟨id, species, importance, note⟩ stage =
        catalogue.growMemory ⟨id', species, importance', note'⟩ stage) := by
  refine ⟨seedHash_append_eq_iff id id', seedHash_growthKey_eq_iff id id', ?_⟩
  intro catalogue species importance importance' note note' stage hid himportance
  exact catalogue.growMemory_eq_of_seedHash_eq hid rfl himportance

/-- Two identifiers that hash alike: their flowers are turned alike at every stage, whatever the
importances of the two memories are. -/
theorem seed_shared_rose_fern :
    seedHash "rose95418" = seedHash "fern151266" ∧
    (Stage.whole 3 : Stage Float) ≠ .absent ∧
    Catalogue.builtIn.growMemory ⟨"rose95418", "flower", "low", none⟩ (.whole 3) =
      Catalogue.builtIn.growMemory ⟨"fern151266", "flower", "high", some "moss"⟩ (.whole 3) := by
  have hid : seedHash "rose95418" = seedHash "fern151266" := by decide +kernel
  have hstage : (Stage.whole 3 : Stage Float) ≠ .absent := by simp
  have hgrown := (seed_shared_at_every_stage "rose95418" "fern151266").2.2
  exact ⟨hid, hstage, hgrown Catalogue.builtIn "flower" "low" "high" none (some "moss") (.whole 3) hid
    fun habsent => absurd habsent hstage⟩

end PlantGrowth
