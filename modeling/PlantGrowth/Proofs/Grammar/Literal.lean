import PlantGrowth.Proofs.Grammar.Derivation

/-!
# Expansion without a choice

Where the randomness is not positive, or no rule has a bar, every symbol with a rule is replaced by
all its text. Expansion is then an iterated substitution, `Rules.substitute`, which takes no draw
and has no fault (`expand_eq_pure`).
-/

set_option autoImplicit false

namespace PlantGrowth.Rules

/-- Nothing is left to a draw: alternatives are not drawn, or no rule has a bar. -/
def NoChoice {α : Type} [Scalar α] (rules : Rules) (randomness : α) : Prop :=
  ¬ 0 < randomness ∨ ∀ symbol text, rules.HasRule symbol text → '|' ∉ text.toList

/-- All the text of the rule of a symbol, or the symbol itself if it has none. -/
def literal (rules : Rules) (symbol : Char) : List Char :=
  (rules.replacement? symbol).getD [symbol]

/-- The word that many generations after a word, where every rule is taken literally. -/
def substitute (rules : Rules) : Nat → List Char → List Char
  | 0, word => word
  | generations + 1, word => rules.substitute generations (word.flatMap rules.literal)

/-- The first generation is rewritten before the others. -/
theorem substitute_succ (rules : Rules) (generations : Nat) (word : List Char) :
    rules.substitute (generations + 1) word =
      rules.substitute generations (word.flatMap rules.literal) := rfl

/-- What every generation keeps, the last one has. -/
theorem substitute_induction {rules : Rules} {P : List Char → Prop}
    (hstep : ∀ word, P word → P (word.flatMap rules.literal)) (generations : Nat)
    {word : List Char} (h : P word) : P (rules.substitute generations word) := by
  induction generations generalizing word with
  | zero => exact h
  | succ generations ih => exact ih (hstep word h)

variable {α : Type} [Scalar α] {rules : Rules} {randomness : α}

/-- A symbol with a rule stands for the text of the rule. -/
theorem literal_of_hasRule {symbol : Char} {text : String} (hrule : rules.HasRule symbol text) :
    rules.literal symbol = text.toList := by
  rw [literal, replacement?_eq_some_iff.2 ⟨text, hrule, rfl⟩, Option.getD_some]

/-- Without a choice a symbol is rewritten to what it stands for, without a draw. -/
theorem successor_eq_pure (h : rules.NoChoice randomness) (symbol : Char) :
    rules.successor randomness symbol = pure (rules.literal symbol) := by
  rcases rules.replacement?_eq_none_or_hasRule symbol with hnone | ⟨text, hrule⟩
  · rw [successor_of_no_rule hnone, literal, hnone, Option.getD_none]
  · have hliteral : ¬ (0 < randomness ∧ '|' ∈ text.toList) := by
      rintro ⟨hrandom, hbar⟩
      rcases h with hnot | hnone
      · exact hnot hrandom
      · exact hnone symbol text hrule hbar
    rw [successor_of_literal hrule hliteral, literal_of_hasRule hrule]

/-- Without a choice a word is rewritten symbol by symbol, without a draw. -/
theorem nextGeneration_eq_pure (h : rules.NoChoice randomness) (word : List Char) :
    rules.nextGeneration randomness word = pure (word.flatMap rules.literal) := by
  induction word with
  | nil => rfl
  | cons symbol word ih =>
    rw [nextGeneration_cons, successor_eq_pure h, ih, pure_bind, pure_bind, List.flatMap_cons]

/-- Without a choice an expansion is an iterated substitution. -/
theorem expand_eq_pure (h : rules.NoChoice randomness) (generations : Nat) (word : List Char) :
    rules.expand randomness generations word = pure (rules.substitute generations word) := by
  induction generations generalizing word with
  | zero => rfl
  | succ generations ih =>
    rw [expand_succ, nextGeneration_eq_pure h, pure_bind, ih, substitute_succ]

end PlantGrowth.Rules
