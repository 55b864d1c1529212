import Mathlib
import PlantGrowth.Proofs.Draw.UnitInterval
import PlantGrowth.Proofs.Scalar.Order

/-!
# The generator on integers of any size

The generator can be run on integers without a bound (`Wide`). Sums and products are cut down to their
lowest 32 bits there, but exclusive ors, ors and shifts to the right are left as they are: they do not
lead out of 32 bits. So every integer on the way is the number of the word that the generator has at
this place (`Wide.scramble_toNat`, `Wide.iterate_step`), and a draw is an output of the generator in
words over `2 ^ 32`, without rounding (`seeded_draws_are_mulberry`).
-/

set_option autoImplicit false

namespace PlantGrowth

namespace Mulberry

namespace Wide

/-- The lowest 32 bits of an integer. -/
def low (n : Nat) : Nat := n &&& 0xFFFFFFFF

/-- A product, of which the lowest 32 bits are kept. -/
def product (m n : Nat) : Nat := low (m * n)

/-- The state before the first draw. A seed below zero is read in two's complement. -/
def start (seed : Int) : Nat := (seed % 0x100000000).toNat

/-- What a draw makes of the state. -/
def step (state : Nat) : Nat := low (state + 0x6D2B79F5)

/-- An integer times itself, with some bits of both factors changed. -/
def mix (shift bits n : Nat) : Nat := product (n ^^^ (n >>> shift)) (n ||| bits)

/-- The integer that a draw reads off the state. -/
def scramble (state : Nat) : Nat :=
  let mixed := mix 15 1 state
  let mixed := mixed ^^^ low (mixed + mix 7 61 mixed)
  low (mixed ^^^ (mixed >>> 14))

/-- The integer behind the draw at position `n`. -/
def output (seed : Int) (n : Nat) : Nat := scramble (step^[n + 1] (start seed))

/-! ## Integers and words -/

/-- To mask a number with thirty-two ones is to take its remainder. -/
theorem low_eq_mod (n : Nat) : low n = n % 2 ^ 32 := Nat.and_two_pow_sub_one_eq_mod n 32

/-- The mask keeps the number of a word. -/
theorem low_toNat (w : UInt32) : low w.toNat = w.toNat := by
  rw [low_eq_mod, Nat.mod_eq_of_lt w.toNat_lt]

/-- A masked sum of two words is the number of their sum. -/
theorem low_add_toNat (v w : UInt32) : low (v.toNat + w.toNat) = (v + w).toNat := by
  rw [low_eq_mod, UInt32.toNat_add]

/-- A masked product of two words is the number of their product. -/
theorem product_toNat (v w : UInt32) : product v.toNat w.toNat = (v * w).toNat := by
  rw [product, low_eq_mod, UInt32.toNat_mul]

/-- A word combined with its own shift is the same on numbers and on words. -/
theorem xor_shiftRight_toNat (w : UInt32) {n : Nat} (hn : n < 32) :
    w.toNat ^^^ (w.toNat >>> n) = (w ^^^ (w >>> UInt32.ofNat n)).toNat := by
  have hamount : (UInt32.ofNat n).toNat % 32 = n := by
    rw [UInt32.toNat_ofNat']
    omega
  rw [UInt32.toNat_xor, UInt32.toNat_shiftRight, hamount]

/-- The masked seed is the number of its word. -/
theorem start_eq (seed : Int) : start seed = (UInt32.ofInt seed).toNat := by
  rw [UInt32.ofInt, UInt32.toNat_ofNat', start]
  omega

/-- A step on numbers is a step on words. -/
theorem step_toNat (w : UInt32) : step w.toNat = (w + increment).toNat :=
  low_add_toNat w increment

/-- A round of mixing on numbers is one on words. -/
theorem mix_toNat {shift : Nat} (hshift : shift < 32) (bits w : UInt32) :
    mix shift bits.toNat w.toNat =
      ((w ^^^ (w >>> UInt32.ofNat shift)) * (w ||| bits)).toNat := by
  rw [mix, xor_shiftRight_toNat w hshift, ← UInt32.toNat_or, product_toNat]

/-- No bit is lost in the scrambling, and none comes in from above. -/
theorem scramble_toNat (w : UInt32) : scramble w.toNat = (Mulberry.scramble w).toNat := by
  have hfirst : mix 15 1 w.toNat = ((w ^^^ (w >>> 15)) * (w ||| 1)).toNat :=
    mix_toNat (by decide) 1 w
  have hsecond (v : UInt32) : mix 7 61 v.toNat = ((v ^^^ (v >>> 7)) * (v ||| 61)).toNat :=
    mix_toNat (by decide) 61 v
  have hlast (v : UInt32) : low (v.toNat ^^^ (v.toNat >>> 14)) = (v ^^^ (v >>> 14)).toNat := by
    rw [xor_shiftRight_toNat v (by decide), low_toNat]
    rfl
  unfold scramble
  dsimp only
  rw [hfirst, hsecond, low_add_toNat, ← UInt32.toNat_xor, hlast]
  rfl

/-- The states on numbers are those on words. -/
theorem iterate_step (seed : Int) (n : Nat) :
    step^[n] (start seed) = (state (UInt32.ofInt seed) n).toNat := by
  induction n with
  | zero =>
    rw [Function.iterate_zero_apply, start_eq]
    simp [state]
  | succ n ih => rw [Function.iterate_succ_apply', ih, step_toNat, state_succ]

/-- The outputs on numbers are those on words. -/
theorem output_eq (seed : Int) (n : Nat) :
    output seed n = (Mulberry.output (UInt32.ofInt seed) n).toNat := by
  rw [output, iterate_step, scramble_toNat]
  rfl

end Wide

/-- The state after some draws is reached by adding the increment as often. -/
theorem iterate_add_increment (seed : UInt32) (n : Nat) :
    (· + increment)^[n] seed = state seed n := by
  induction n with
  | zero => simp [state]
  | succ n ih => rw [Function.iterate_succ_apply', ih, state_succ]

/-! ## The draws of a seed -/

/-- A draw of a seed is its output as a part of two to the power of thirty-two, with nothing
rounded. -/
theorem value_seeded (seed : Int) (n : Nat) :
    ∃ u : Float, Source.seeded seed n = .ok u ∧
      Double.value? u = some ((output (UInt32.ofInt seed) n).toNat / 2 ^ 32 : ℝ) :=
  ⟨_, rfl, Double.value_fraction (UInt32.toNat_lt _)⟩

/-- The draws of a seed are doubles from zero to one, below one. -/
theorem inUnit_seeded_double (seed : Int) : (Source.seeded seed : Source Float).InUnit := by
  intro n
  obtain ⟨u, hu, hvalue⟩ := value_seeded seed n
  have hzero : Double.value? 0 = some 0 := rfl
  have hone : Double.value? 1 = some 1 := Double.value_one
  refine ⟨u, hu, ?_, ?_⟩
  · apply (Double.le_iff_of_values hzero hvalue).2
    positivity
  · apply (Double.lt_iff_of_values hvalue hone).2
    rw [div_lt_one (by positivity)]
    exact_mod_cast (output (UInt32.ofInt seed) n).toNat_lt

/-- A draw of a seed is the output of the generator in words that starts from the remainder of the seed
modulo `2 ^ 32`, over `2 ^ 32` and without rounding. On integers of any size the generator has the same
output, so it has 32 bits. The draw is at least zero and below one. -/
theorem seeded_draws_are_mulberry (seed : Int) (n : Nat) :
    ∃ k, k = scramble ((· + increment)^[n + 1] (UInt32.ofInt seed)) ∧
      Wide.output seed n = k.toNat ∧ Wide.output seed n < 2 ^ 32 ∧
      ∃ u : Float, Source.seeded seed n = .ok u ∧
        u = Scalar.ofNat (Wide.output seed n) / 4294967296.0 ∧
        Double.value? u = some (k.toNat / 2 ^ 32 : ℝ) ∧ 0 ≤ u ∧ u < 1 := by
  have hk : output (UInt32.ofInt seed) n =
      scramble ((· + increment)^[n + 1] (UInt32.ofInt seed)) := by
    rw [iterate_add_increment, output]
  obtain ⟨u, hu, hvalue⟩ := value_seeded seed n
  obtain ⟨v, hv, hunit⟩ := inUnit_seeded_double seed n
  cases hu.symm.trans hv
  refine ⟨_, hk, Wide.output_eq seed n, ?_, u, hu, ?_, hvalue, hunit⟩
  · rw [Wide.output_eq]
    exact UInt32.toNat_lt _
  · rw [Wide.output_eq]
    exact (Except.ok.inj hu).symm

/-- The first output of seed zero. -/
example : Wide.output 0 0 = 1144304738 := by decide

end Mulberry

end PlantGrowth
