import Mathlib.Algebra.BigOperators.Group.Finset.Basic
import PlantGrowth.Proofs.Grammar.Literal
import PlantGrowth.Scalar.Double

/-!
# Expansions in parts

An expansion may be broken off after any generation and taken up again from the word that it has
reached, on the draws that are left (`expand_add`). What it draws are the choices that its words offer:
one for each occurrence of a symbol whose rule has a bar, in every word but the last
(`exists_words_of_run_expand`).
-/

set_option autoImplicit false

namespace PlantGrowth.Rules

open Finset (range)

/-- Whether the rule of a symbol has a bar, and with it several alternatives. -/
def offersChoice (rules : Rules) (symbol : Char) : Bool :=
  (rules.entries.lookup (String.singleton symbol)).any fun text => '|' ∈ text.toList

/-- How many occurrences of symbols in a word have a rule with a bar. -/
def choices (rules : Rules) (word : List Char) : Nat := word.countP rules.offersChoice

/-- The choices of two words are those of the first and those of the second. -/
theorem choices_append (rules : Rules) (front back : List Char) :
    rules.choices (front ++ back) = rules.choices front + rules.choices back :=
  List.countP_append

/-- A symbol with a rule makes one choice, if its text has a bar. -/
theorem choices_of_hasRule {rules : Rules} {symbol : Char} {text : String}
    (hrule : rules.HasRule symbol text) :
    rules.choices [symbol] = if '|' ∈ text.toList then 1 else 0 := by
  rw [choices, List.countP_singleton, offersChoice, hrule.1, Option.any_some]
  simp only [decide_eq_true_eq]

/-- An empty text has no bar, so it does not matter here that it counts as no rule. -/
theorem choices_of_replacement?_eq_none {rules : Rules} {symbol : Char}
    (hnone : rules.replacement? symbol = none) : rules.choices [symbol] = 0 := by
  have hrules := replacement?_eq_none_iff.1 hnone
  have hoffers : rules.offersChoice symbol = false := by
    unfold offersChoice
    cases hentry : rules.entries.lookup (String.singleton symbol) with
    | none => rfl
    | some text =>
      by_cases hempty : text = ""
      · rw [hempty]
        rfl
      · exact absurd ⟨hentry, hempty⟩ (hrules text)
  rw [choices, List.countP_singleton, hoffers]
  rfl

variable {α : Type} [Scalar α] {rules : Rules} {randomness : α}

/-- An expansion may be broken off and taken up again. -/
theorem expand_add (rules : Rules) (randomness : α) (m n : Nat) (word : List Char) :
    rules.expand randomness (m + n) word =
      rules.expand randomness m word >>= rules.expand randomness n := by
  induction m generalizing word with
  | zero => rw [Nat.zero_add, expand_zero, pure_bind]
  | succ m ih =>
    rw [Nat.add_right_comm, expand_succ, expand_succ, bind_assoc]
    exact congrArg _ (funext ih)

/-! ## The draws of a generation -/

/-- A symbol takes a draw for its choice, if it makes one. -/
theorem position_of_run_successor (hrandom : 0 < randomness) {symbol : Char} {part : List Char}
    {s : Source α} {i j : Nat}
    (h : (rules.successor randomness symbol).run s i = (.ok part, j)) :
    j = i + rules.choices [symbol] := by
  rcases run_successor_cases h with
    ⟨hnone, -, rfl⟩ | ⟨text, hrule, ⟨hliteral, -, rfl⟩ | ⟨-, hbar, rfl, -⟩⟩
  · rw [choices_of_replacement?_eq_none hnone]
    rfl
  · rw [choices_of_hasRule hrule, if_neg fun hbar => hliteral ⟨hrandom, hbar⟩]
    rfl
  · rw [choices_of_hasRule hrule, if_pos hbar]

/-- A generation takes a draw for each choice that its word offers. -/
theorem position_of_run_nextGeneration (hrandom : 0 < randomness) {word next : List Char}
    {s : Source α} {i j : Nat}
    (h : (rules.nextGeneration randomness word).run s i = (.ok next, j)) :
    j = i + rules.choices word := by
  induction word generalizing next i with
  | nil =>
    cases h
    rfl
  | cons symbol word ih =>
    rw [nextGeneration_cons] at h
    obtain ⟨part, k, hpart, h⟩ := Drawing.run_bind_eq_ok_iff.1 h
    obtain ⟨rest, l, hrest, h⟩ := Drawing.run_bind_eq_ok_iff.1 h
    cases h
    rw [ih hrest, position_of_run_successor hrandom hpart, Nat.add_assoc, ← choices_append,
      List.singleton_append]

/-! ## The draws of an expansion -/

/-- The words that an expansion goes through, and the draws that it has taken at each of them. -/
theorem exists_words_of_run_expand (hrandom : 0 < randomness) {depth : Nat}
    {word result : List Char} {s : Source α} {i j : Nat}
    (h : (rules.expand randomness depth word).run s i = (.ok result, j)) :
    ∃ words : Nat → List Char, words depth = result ∧
      ∀ g ≤ depth, (rules.expand randomness g word).run s i =
        (.ok (words g), i + ∑ k ∈ range g, rules.choices (words k)) := by
  -- The first generation is taken off, and its word is put before those of the other generations.
  induction depth generalizing word i with
  | zero =>
    cases h
    refine ⟨fun _ => result, rfl, fun g hg => ?_⟩
    rw [Nat.le_zero.1 hg]
    rfl
  | succ depth ih =>
    rw [expand_succ] at h
    obtain ⟨next, l, hnext, h⟩ := Drawing.run_bind_eq_ok_iff.1 h
    obtain ⟨words, hresult, hwords⟩ := ih h
    have hfirst := position_of_run_nextGeneration hrandom hnext
    refine ⟨fun g => g.casesOn word words, hresult, fun g hg => ?_⟩
    cases g with
    | zero => rfl
    | succ g =>
      have hdraws := Finset.sum_range_succ' (fun k => rules.choices (k.casesOn word words)) g
      rw [expand_succ, Drawing.run_bind_of_ok hnext, hwords g (Nat.le_of_succ_le_succ hg), hfirst,
        hdraws, Nat.add_assoc, Nat.add_comm (rules.choices word)]
      rfl

/-- An expansion can be made in parts, which take the draws of the whole one after the other and meet
the same fault. Where alternatives are drawn, it takes a draw for each choice that its words before the
last one offer, and elsewhere none. -/
theorem expand_in_parts (rules : Rules) (randomness : α) (word : List Char) :
    (∀ m n, rules.expand randomness (m + n) word =
      rules.expand randomness m word >>= rules.expand randomness n) ∧
    (0 < randomness → ∀ (depth : Nat) (s : Source α) (i : Nat) (result : List Char) (j : Nat),
      (rules.expand randomness depth word).run s i = (.ok result, j) →
        ∃ words : Nat → List Char, words depth = result ∧
          j = i + ∑ g ∈ range depth, rules.choices (words g) ∧
          ∀ g ≤ depth, (rules.expand randomness g word).run s i =
            (.ok (words g), i + ∑ k ∈ range g, rules.choices (words k))) ∧
    (¬ 0 < randomness → ∀ (depth : Nat) (s : Source α) (i : Nat), ∃ result,
      (rules.expand randomness depth word).run s i = (.ok result, i)) := by
  refine ⟨fun m n => rules.expand_add randomness m n word, ?_, ?_⟩
  · intro hrandom depth s i result j h
    obtain ⟨words, hresult, hwords⟩ := exists_words_of_run_expand hrandom h
    have hlast := hwords depth (Nat.le_refl depth)
    rw [h] at hlast
    exact ⟨words, hresult, congrArg Prod.snd hlast, hwords⟩
  · intro hrandom depth s i
    refine ⟨rules.substitute depth word, ?_⟩
    rw [expand_eq_pure (.inl hrandom)]
    rfl

/-- A bud that grows on or splits, and a stem that doubles. -/
def splitting : Rules := ⟨[("A", "BA|AA"), ("B", "BB")]⟩

/-- In its first generation the bud grows on, and in its second one it splits. -/
theorem expand_in_parts_splitting :
    (0 : Float) < 0.5 ∧ ¬ (0 : Float) < 0 ∧
    (splitting.expand (0.5 : Float) 2 ['A', 'B']).run (.cycle 0.25 [0.75]) 0 =
      (.ok "BBAABBBB".toList, 2) ∧
    (∃ words : Nat → List Char, words 2 = "BBAABBBB".toList ∧
      2 = 0 + ∑ g ∈ range 2, splitting.choices (words g)) ∧
    (splitting.expand (0.5 : Float) 1 ['A', 'B'] >>= splitting.expand 0.5 1).run
      (.cycle 0.25 [0.75]) 0 = (.ok "BBAABBBB".toList, 2) ∧
    ∃ result, (splitting.expand (0 : Float) 2 ['A', 'B']).run .refusing 0 = (.ok result, 0) := by
  have hrandom : (0 : Float) < 0.5 := by decide
  have hnot : ¬ (0 : Float) < 0 := by decide
  have hrun : (splitting.expand (0.5 : Float) 2 ['A', 'B']).run (.cycle 0.25 [0.75]) 0 =
      (.ok "BBAABBBB".toList, 2) := by decide +kernel
  obtain ⟨hparts, hdraws, -⟩ := expand_in_parts splitting (0.5 : Float) ['A', 'B']
  obtain ⟨words, hresult, hposition, -⟩ := hdraws hrandom 2 _ 0 _ 2 hrun
  refine ⟨hrandom, hnot, hrun, ⟨words, hresult, hposition⟩, ?_, ?_⟩
  · rw [← hparts 1 1]
    exact hrun
  · exact (expand_in_parts splitting (0 : Float) ['A', 'B']).2.2 hnot 2 .refusing 0

end PlantGrowth.Rules
