import PlantGrowth.Draw.Basic

/-!
# Rules of a grammar

A rule names a symbol and the text that replaces it. A text may hold several alternatives, separated
by bars; `chosen` says which of them a draw stands for.
-/

set_option autoImplicit false

namespace PlantGrowth

/-- A table of rules: replacement texts by the symbol they replace. -/
structure Rules where
  /-- The symbols and their texts. Only a key of exactly one character is the name of a symbol. -/
  entries : List (String × String)
  deriving Repr, DecidableEq

namespace Rules

/-- The character between the alternatives of a text. -/
def bar : Char := '|'

/-- The text that replaces a symbol. A symbol whose text is empty is kept, as if it had no rule. -/
def replacement? (rules : Rules) (symbol : Char) : Option (List Char) :=
  match rules.entries.lookup (String.singleton symbol) with
  | none => none
  | some text => if text.isEmpty then none else some text.toList

/-- The parts of a text between its bars. -/
def alternatives (text : List Char) : List (List Char) := text.splitOn bar

/-- The element at a position that counts from the front, or from the end where it is negative. -/
def fromEitherEnd? {β : Type} (elements : List β) (position : Int) : Option β :=
  if 0 ≤ position then elements[position.toNat]?
  else if -(elements.length : Int) ≤ position then
    elements[(position + elements.length).toNat]?
  else none

/-- The element that a draw stands for: `n` elements share the draws from zero to one evenly. A draw
beyond one stands for the last element, a draw below zero counts from the end. -/
def chosen {α β : Type} [Scalar α] (elements : List β) (u : α) : Except Fault β := do
  let position ← Scalar.toInteger Scalar.floor (u * Scalar.ofNat elements.length)
  let index := min position ((elements.length : Int) - 1)
  match fromEitherEnd? elements index with
  | some element => .ok element
  | none => .error (.outside index)

end Rules

end PlantGrowth
