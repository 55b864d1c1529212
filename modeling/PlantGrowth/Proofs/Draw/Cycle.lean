import Mathlib.Algebra.Ring.Parity
import Mathlib.Data.Int.ModEq
import Mathlib.Data.UInt
import Mathlib.Tactic.LinearCombination
import PlantGrowth.Proofs.Draw.Generator

/-!
# The cycle of the states

The increment is odd, so it has an inverse modulo `2 ^ 32`, and the states of a seed are all words, each
once in a round of `2 ^ 32` draws (`existsUnique_state`). So every seed goes through the same cycle and
only the place where it enters is its own. The outputs have no shorter period than the states: a shift
of the states that they did not show would have the flip of the highest bit among its multiples
(`eq_zero_of_scramble_add`).
-/

set_option autoImplicit false

namespace PlantGrowth.Mulberry

open scoped UInt32.CommRing

/-! ## States -/

/-- The inverse of the increment. -/
def incrementInverse : UInt32 := 0xDC58AA5D

/-- The increment has an inverse among the words. -/
theorem increment_mul_incrementInverse : increment * incrementInverse = 1 := by decide

/-- A seed leads to a word after the number of steps that the inverse of the increment gives. -/
theorem state_eq_iff (seed w : UInt32) (n : Nat) :
    state seed n = w ↔ UInt32.ofNat n = (w - seed) * incrementInverse := by
  have hunit := increment_mul_incrementInverse
  unfold state
  constructor
  · intro h
    linear_combination incrementInverse * h - UInt32.ofNat n * hunit
  · intro h
    linear_combination increment * h + (w - seed) * hunit

/-- More steps add as many increments. -/
theorem state_add (seed : UInt32) (m n : Nat) :
    state seed (m + n) = state seed m + UInt32.ofNat n * increment := by
  simp only [state, UInt32.ofNat_add]
  ring

/-- A seed may be replaced by a state that it reaches. -/
theorem state_state (seed : UInt32) (m n : Nat) : state (state seed m) n = state seed (m + n) :=
  (state_add seed m n).symm

/-- As many numbers in a row as there are words, stand for each word once. -/
theorem existsUnique_ofNat (first : Nat) (w : UInt32) :
    ∃! n, (first ≤ n ∧ n < first + 2 ^ 32) ∧ UInt32.ofNat n = w := by
  have hw := w.toNat_lt
  refine ⟨first + (w.toNat + (2 ^ 32 - first % 2 ^ 32)) % 2 ^ 32, ?_, ?_⟩
  · simp only [UInt32.ofNat_eq_iff_mod_eq_toNat]
    omega
  · intro n h
    rw [UInt32.ofNat_eq_iff_mod_eq_toNat] at h
    omega

/-- In a round of `2 ^ 32` draws the state is each word once. -/
theorem existsUnique_state (seed : UInt32) (first : Nat) (w : UInt32) :
    ∃! n, (first ≤ n ∧ n < first + 2 ^ 32) ∧ state seed n = w := by
  simp only [state_eq_iff]
  exact existsUnique_ofNat first _

/-! ## Periods -/

/-- A shift that is not zero has the flip of the highest bit among its multiples. -/
theorem exists_mul_eq_flip {shift : UInt32} (hshift : shift ≠ 0) :
    ∃ m : Nat, UInt32.ofNat m * shift = 0x80000000 := by
  have hne : shift.toNat ≠ 0 := fun h => hshift (UInt32.toNat_inj.1 h)
  obtain ⟨k, q, ⟨r, rfl⟩, hq⟩ := Nat.exists_eq_two_pow_mul_odd hne
  have hk : k < 32 := by
    by_contra hlarge
    have hlt := shift.toNat_lt
    have hle : 2 ^ 32 ≤ 2 ^ k := Nat.pow_le_pow_right two_pos (not_lt.1 hlarge)
    rw [hq] at hlt
    have := Nat.le_mul_of_pos_right (2 ^ k) (show 0 < 2 * r + 1 by omega)
    omega
  refine ⟨2 ^ (31 - k), UInt32.toNat_inj.1 ?_⟩
  have hproduct : 2 ^ (31 - k) * shift.toNat = 2 ^ 31 + 2 ^ 32 * r := by
    calc 2 ^ (31 - k) * shift.toNat = 2 ^ (31 - k + k) * (2 * r + 1) := by
          rw [hq, pow_add, mul_assoc]
      _ = 2 ^ 31 + 2 ^ 32 * r := by
          rw [Nat.sub_add_cancel (by omega)]
          ring
  rw [UInt32.toNat_mul, UInt32.toNat_ofNat', Nat.mod_mul_mod, hproduct, Nat.add_mul_mod_self_left]
  rfl

/-- The scrambler tells zero from the word that has only the first bit. -/
theorem scramble_flip : scramble (0 + 0x80000000) ≠ scramble 0 := by decide

/-- No shift of the states but zero is lost in the scrambling. -/
theorem eq_zero_of_scramble_add {shift : UInt32} (h : ∀ w, scramble (w + shift) = scramble w) :
    shift = 0 := by
  by_contra hne
  obtain ⟨m, hm⟩ := exists_mul_eq_flip hne
  have hmultiple (n : Nat) (w : UInt32) : scramble (w + UInt32.ofNat n * shift) = scramble w := by
    induction n with
    | zero => simp
    | succ n ih =>
      have hstep : w + UInt32.ofNat (n + 1) * shift = w + UInt32.ofNat n * shift + shift := by
        rw [UInt32.ofNat_add, UInt32.add_mul, UInt32.add_assoc]
        simp
      rw [hstep, h, ih]
  have hflip := hmultiple m 0
  rw [hm] at hflip
  exact scramble_flip hflip

/-- The outputs of a seed repeat after `p` draws exactly when `p` is a number of whole rounds. -/
theorem output_periodic_iff (seed : UInt32) (p : Nat) :
    (∀ n, output seed (n + p) = output seed n) ↔ 2 ^ 32 ∣ p := by
  have hround : UInt32.ofNat p = 0 ↔ 2 ^ 32 ∣ p := by
    rw [UInt32.ofNat_eq_iff_mod_eq_toNat, Nat.dvd_iff_mod_eq_zero]
    rfl
  have hshift : UInt32.ofNat p * increment = 0 ↔ UInt32.ofNat p = 0 := by
    constructor
    · intro h
      linear_combination incrementInverse * h - UInt32.ofNat p * increment_mul_incrementInverse
    · intro h
      rw [h, UInt32.zero_mul]
  have houtput (n : Nat) :
      output seed (n + p) = scramble (state seed (n + 1) + UInt32.ofNat p * increment) := by
    rw [output, ← state_add, Nat.add_right_comm]
  rw [← hround, ← hshift]
  constructor
  · intro h
    apply eq_zero_of_scramble_add
    intro w
    -- Every word is a state behind an output.
    obtain ⟨n, ⟨hfirst, hn⟩, -⟩ := existsUnique_state seed 1 w
    obtain ⟨m, rfl⟩ := Nat.exists_eq_add_of_le' hfirst.1
    rw [← hn, ← houtput]
    exact h m
  · intro h n
    rw [houtput, h, UInt32.add_zero, output]

/-! ## Seeds -/

/-- Seeds make the same word exactly if they agree in their last thirty-two bits. -/
theorem ofInt_eq_ofInt_iff (a b : Int) : UInt32.ofInt a = UInt32.ofInt b ↔ a ≡ b [ZMOD 2 ^ 32] := by
  rw [← UInt32.toNat_inj, UInt32.ofInt, UInt32.ofInt, UInt32.toNat_ofNat', UInt32.toNat_ofNat',
    Int.ModEq]
  omega

/-- A seed and a number of increments make the seed of the state that they lead to. -/
theorem ofInt_add_mul (seed : Int) (d : Nat) :
    UInt32.ofInt (seed + d * 0x6D2B79F5) = state (UInt32.ofInt seed) d := by
  have hnumber : UInt32.ofInt d = UInt32.ofNat d := by
    rw [← UInt32.toNat_inj, UInt32.ofInt, UInt32.toNat_ofNat', UInt32.toNat_ofNat']
    omega
  have hincrement : UInt32.ofInt 0x6D2B79F5 = increment := by decide
  rw [UInt32.ofInt_add, UInt32.ofInt_mul, hnumber, hincrement, state]

/-- Draws are equal where the outputs behind them are. -/
theorem seeded_eq_iff (s t : Int) (m n : Nat) :
    (Source.seeded s : Source Float) m = Source.seeded t n ↔
      output (UInt32.ofInt s) m = output (UInt32.ofInt t) n := by
  constructor
  · intro h
    obtain ⟨u, hu, hvalue⟩ := value_seeded s m
    obtain ⟨v, hv, hvalue'⟩ := value_seeded t n
    rw [h, hv] at hu
    cases hu
    have hquotient := Option.some.inj (hvalue.symm.trans hvalue')
    rw [div_left_inj' (by positivity), Nat.cast_inj] at hquotient
    exact UInt32.toNat_inj.1 hquotient
  · intro h
    simp only [Source.seeded, h]

/-- The state of a seed, the same on words as on integers of any size, is each word just once in every
`2 ^ 32` draws that follow each other, and the draws repeat after `2 ^ 32` draws and not earlier. Of two
seeds the second one is reached from the first by just one number of increments below `2 ^ 32`, and its
draws are those of the first after so many. -/
theorem seeds_share_one_cycle (s : Int) :
    (∀ n, Wide.step^[n] (Wide.start s) = (state (UInt32.ofInt s) n).toNat) ∧
    (∀ (first : Nat) (w : UInt32),
      ∃! n, (first ≤ n ∧ n < first + 2 ^ 32) ∧ state (UInt32.ofInt s) n = w) ∧
    (∀ p, (∀ n, (Source.seeded s : Source Float) (n + p) = Source.seeded s n) ↔ 2 ^ 32 ∣ p) ∧
    ∀ t : Int,
      (∃! d : Nat, d < 2 ^ 32 ∧ s + d * 0x6D2B79F5 ≡ t [ZMOD 2 ^ 32]) ∧
      ∀ d : Nat, s + d * 0x6D2B79F5 ≡ t [ZMOD 2 ^ 32] →
        ∀ n, (Source.seeded t : Source Float) n = Source.seeded s (n + d) := by
  refine ⟨Wide.iterate_step s, existsUnique_state _, ?_, ?_⟩
  · intro p
    simp only [seeded_eq_iff]
    exact output_periodic_iff _ p
  · intro t
    simp only [← ofInt_eq_ofInt_iff, ofInt_add_mul, seeded_eq_iff]
    constructor
    · simpa using existsUnique_state (UInt32.ofInt s) 0 (UInt32.ofInt t)
    · intro d hd n
      rw [← hd, output, state_state, output, Nat.add_comm d, Nat.add_right_comm]

/-- The seed one is reached from the seed zero. -/
theorem seeds_share_one_cycle_zero_one :
    (0 + (0xDC58AA5D : Nat) * 0x6D2B79F5 ≡ 1 [ZMOD 2 ^ 32]) ∧
    ∀ n, (Source.seeded 1 : Source Float) n = Source.seeded 0 (n + 0xDC58AA5D) := by
  have hoffset : (0 + (0xDC58AA5D : Nat) * 0x6D2B79F5 ≡ 1 [ZMOD 2 ^ 32]) := by decide
  obtain ⟨-, -, -, hseeds⟩ := seeds_share_one_cycle 0
  exact ⟨hoffset, (hseeds 1).2 0xDC58AA5D hoffset⟩

end PlantGrowth.Mulberry
