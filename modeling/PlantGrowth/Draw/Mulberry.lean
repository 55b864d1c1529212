import PlantGrowth.Draw.Basic

/-!
# Seeded draws

The mulberry32 generator in 32-bit words: the state grows by a fixed odd step at every draw, and a
draw is the scrambled state, read as a fraction of `2 ^ 32`. Because the state is a counter, the
state after `n` draws is a closed expression (`Mulberry.state`) and a seeded stream is a source.
-/

set_option autoImplicit false

namespace PlantGrowth

namespace Mulberry

/-- What one draw adds to the state. -/
def increment : UInt32 := 0x6D2B79F5

/-- The state after `n` draws from a seed. -/
def state (seed : UInt32) (n : Nat) : UInt32 := seed + UInt32.ofNat n * increment

/-- The word that a state is scrambled into. -/
def scramble (word : UInt32) : UInt32 :=
  let mixed := (word ^^^ (word >>> 15)) * (word ||| 1)
  let mixed := mixed ^^^ (mixed + (mixed ^^^ (mixed >>> 7)) * (mixed ||| 61))
  mixed ^^^ (mixed >>> 14)

/-- The word behind the draw at position `n`. -/
def output (seed : UInt32) (n : Nat) : UInt32 := scramble (state seed (n + 1))

/-- One draw adds the increment to the state. -/
theorem state_succ (seed : UInt32) (n : Nat) :
    state seed (n + 1) = state seed n + increment := by
  simp only [state, UInt32.ofNat_add, UInt32.add_mul, UInt32.add_assoc]
  congr 2

end Mulberry

/-- The draws of a seed of any size: only its remainder modulo `2 ^ 32` counts. -/
def Source.seeded {α : Type} [Scalar α] (seed : Int) : Source α := fun n =>
  .ok (Scalar.ofNat (Mulberry.output (UInt32.ofInt seed) n).toNat / 4294967296.0)

end PlantGrowth
