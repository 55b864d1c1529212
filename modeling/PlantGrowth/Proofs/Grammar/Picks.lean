import Mathlib.Logic.Function.Iterate
import PlantGrowth.Proofs.Grammar.Parts

/-!
# Expansions that pick alternatives by their index

If it is known of each draw of a source which one of `count` alternatives it stands for, an expansion
has no fault, and its word can be told without the draws: every symbol in turn becomes the alternative
of that index (`Rules.pickStep`). This is shown for a symbol, for a generation and for the whole
expansion (`run_expand_of_fallsAt`).
-/

set_option autoImplicit false

namespace PlantGrowth.Rules

/-- What a symbol becomes where the draw at position `i` stands for the alternative `index count i` of
`count`. -/
def pick (rules : Rules) (index : Nat → Nat → Nat) (symbol : Char) (i : Nat) : List Char :=
  match rules.replacement? symbol with
  | none => [symbol]
  | some text => (alternatives text).getD (index (alternatives text).length i) []

/-- The next generation of a word, from the draws that start at position `i`. -/
def pickGeneration (rules : Rules) (index : Nat → Nat → Nat) : List Char → Nat → List Char
  | [], _ => []
  | symbol :: word, i =>
    rules.pick index symbol i ++ rules.pickGeneration index word (i + rules.choices [symbol])

/-- A generation of a word and of the position of its first draw. -/
def pickStep (rules : Rules) (index : Nat → Nat → Nat) (grown : List Char × Nat) : List Char × Nat :=
  (rules.pickGeneration index grown.1 grown.2, grown.2 + rules.choices grown.1)

variable {α : Type} [Scalar α] {rules : Rules} {randomness : α} {index : Nat → Nat → Nat}
  {s : Source α}

/-- The draw at position `i` stands for the alternative `index count i` of a symbol that has `count`. -/
def FallsAt (rules : Rules) (index : Nat → Nat → Nat) (s : Source α) (symbol : Char) (i : Nat) : Prop :=
  ∀ text, rules.HasRule symbol text → ∃ u, s i = .ok u ∧
    StandsFor u (text.toList.splitOn '|').length (index (text.toList.splitOn '|').length i)

/-- A rule replaces its symbol by the alternative of the index, if there is one. -/
theorem getElem?_pick {symbol : Char} {text : String} (hrule : rules.HasRule symbol text) {i : Nat}
    (hindex : index (text.toList.splitOn '|').length i < (text.toList.splitOn '|').length) :
    (text.toList.splitOn '|')[index (text.toList.splitOn '|').length i]? =
      some (rules.pick index symbol i) := by
  rw [pick, replacement?_eq_some_iff.2 ⟨text, hrule, rfl⟩]
  dsimp only
  rw [alternatives, bar, List.getD_eq_getElem?_getD, List.getElem?_eq_getElem hindex,
    Option.getD_some]

/-- Where the choice of a symbol falls, that alternative is written from the draws of the choice. -/
theorem run_successor_of_fallsAt (hrandom : 0 < randomness) {symbol : Char} {i : Nat}
    (hfalls : rules.FallsAt index s symbol i) :
    (rules.successor randomness symbol).run s i =
      (.ok (rules.pick index symbol i), i + rules.choices [symbol]) := by
  rcases rules.replacement?_eq_none_or_hasRule symbol with hnone | ⟨text, hrule⟩
  · rw [successor_of_no_rule hnone, choices_of_replacement?_eq_none hnone, pick, hnone]
    rfl
  · obtain ⟨u, hu, hstands⟩ := hfalls text hrule
    have hpart := getElem?_pick hrule hstands.lt
    rw [choices_of_hasRule hrule]
    by_cases hbar : '|' ∈ text.toList
    · have hdraw : Drawing.draw.run s i = (.ok u, i + 1) := by rw [Drawing.run_draw, hu]
      rw [successor_of_bar hrule ⟨hrandom, hbar⟩, Drawing.run_bind_of_ok hdraw,
        hstands.chosen_eq_ok hpart, Drawing.run_ofExcept, if_pos hbar]
    · -- A text without a bar is its own only alternative.
      have hmem := List.mem_of_getElem? hpart
      rw [List.splitOn_eq_singleton hbar, List.mem_singleton] at hmem
      rw [successor_of_literal hrule fun h => hbar h.2, hmem, Drawing.run_pure, if_neg hbar]
      rfl

/-- Where all choices fall, the next generation is the one that is picked. -/
theorem run_nextGeneration_of_fallsAt (hrandom : 0 < randomness)
    (hfalls : ∀ symbol i, rules.FallsAt index s symbol i) (word : List Char) (i : Nat) :
    (rules.nextGeneration randomness word).run s i =
      (.ok (rules.pickGeneration index word i), i + rules.choices word) := by
  induction word generalizing i with
  | nil => rfl
  | cons symbol word ih =>
    have hfirst := run_successor_of_fallsAt hrandom (hfalls symbol i)
    rw [nextGeneration_cons, Drawing.run_bind_of_ok hfirst, Drawing.run_bind_of_ok (ih _),
      Drawing.run_pure, pickGeneration, Nat.add_assoc, ← choices_append, List.singleton_append]

/-- The word of an expansion and the number of its draws, by steps that take no draw. -/
theorem run_expand_of_fallsAt (hrandom : 0 < randomness)
    (hfalls : ∀ symbol i, rules.FallsAt index s symbol i)
    (generations : Nat) (word : List Char) (i : Nat) :
    (rules.expand randomness generations word).run s i =
      (.ok ((rules.pickStep index)^[generations] (word, i)).1,
        ((rules.pickStep index)^[generations] (word, i)).2) := by
  induction generations generalizing word i with
  | zero => rfl
  | succ generations ih =>
    rw [expand_succ, Drawing.run_bind_of_ok (run_nextGeneration_of_fallsAt hrandom hfalls word i), ih]
    rfl

end PlantGrowth.Rules
