import PlantGrowth.Grammar.Rules

/-!
# Expansion

Parallel derivation: in one generation every symbol of a word is replaced at once, from left to
right. A symbol without a rule is kept. Where the randomness is positive, a replacement with
alternatives takes one draw and contributes the alternative it stands for; otherwise it contributes
all its text.
-/

set_option autoImplicit false

namespace PlantGrowth.Rules

variable {α : Type} [Scalar α]

/-- What one symbol is replaced by. -/
def successor (rules : Rules) (randomness : α) (symbol : Char) : Drawing α (List Char) :=
  match rules.replacement? symbol with
  | none => return [symbol]
  | some text =>
    if 0 < randomness ∧ bar ∈ text then do
      let u ← Drawing.draw
      Drawing.ofExcept (chosen (alternatives text) u)
    else return text

/-- The next generation of a word. -/
def nextGeneration (rules : Rules) (randomness : α) (word : List Char) : Drawing α (List Char) := do
  let parts ← word.mapM (rules.successor randomness)
  return parts.flatten

/-- Nothing is written for the empty word. -/
@[simp] theorem nextGeneration_nil (rules : Rules) (randomness : α) :
    rules.nextGeneration randomness [] = pure [] := rfl

/-- The symbols of a word are replaced one after the other, the first one first. -/
theorem nextGeneration_cons (rules : Rules) (randomness : α) (symbol : Char) (word : List Char) :
    rules.nextGeneration randomness (symbol :: word) = do
      let part ← rules.successor randomness symbol
      let rest ← rules.nextGeneration randomness word
      return part ++ rest := by
  simp [nextGeneration, List.mapM_cons]

/-- The word that many generations after a word. -/
def expand (rules : Rules) (randomness : α) : Nat → List Char → Drawing α (List Char)
  | 0, word => return word
  | generations + 1, word => do
    let next ← rules.nextGeneration randomness word
    rules.expand randomness generations next

/-- Before the first generation a word is itself. -/
@[simp] theorem expand_zero (rules : Rules) (randomness : α) (word : List Char) :
    rules.expand randomness 0 word = pure word := rfl

/-- The first of some generations is written before the others. -/
theorem expand_succ (rules : Rules) (randomness : α) (generations : Nat) (word : List Char) :
    rules.expand randomness (generations + 1) word =
      rules.nextGeneration randomness word >>= rules.expand randomness generations := rfl

end PlantGrowth.Rules
