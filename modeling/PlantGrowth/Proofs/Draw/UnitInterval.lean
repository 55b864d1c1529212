import PlantGrowth.Draw.SeedHash
import PlantGrowth.Proofs.Scalar.Exact

/-!
# Sources with draws from zero to one

The draws of a seed are fractions of `2 ^ 32`, so in exact arithmetic they are at least zero and
below one.
-/

set_option autoImplicit false

namespace PlantGrowth.Source

/-- A source that refuses no draw, and whose draws are at least zero and below one. -/
def InUnit {α : Type} [Scalar α] (s : Source α) : Prop := ∀ n, ∃ u, s n = .ok u ∧ 0 ≤ u ∧ u < 1

/-- The draws of a seed are at least zero and below one. -/
theorem inUnit_seeded (seed : Int) : (Source.seeded seed : Source ℝ).InUnit := by
  intro n
  have hword : ((Mulberry.output (UInt32.ofInt seed) n).toNat : ℝ) < 4294967296.0 := by
    have := UInt32.toNat_lt (Mulberry.output (UInt32.ofInt seed) n)
    norm_num
    exact_mod_cast this
  refine ⟨_, rfl, ?_, ?_⟩
  · exact div_nonneg (Nat.cast_nonneg _) (by norm_num)
  · exact (div_lt_one (by norm_num)).2 hword

/-- The draws of every key lie between zero and one. -/
theorem inUnit_keyed (key : String) : (Source.keyed key : Source ℝ).InUnit := inUnit_seeded _

end PlantGrowth.Source
