import PlantGrowth.Proofs.Grammar.Derivation
import PlantGrowth.Scalar.Double

/-!
# Symbols that no rule writes

A symbol that no text of the table holds is in a word only where it was in the word before. So once a
generation has passed, the symbols of this kind that are left are those of the first word that were kept
(`filter_unwritten_of_run_expand`): the ones without a rule, and also the ones whose rule has an empty
text, which a generation keeps although an empty alternative removes its symbol.
-/

set_option autoImplicit false

namespace PlantGrowth.Rules

/-- No text of the table holds the symbol. -/
def Unwritten (rules : Rules) (symbol : Char) : Prop :=
  ∀ entry ∈ rules.entries, symbol ∉ entry.2.toList

instance (rules : Rules) (symbol : Char) : Decidable (rules.Unwritten symbol) :=
  inferInstanceAs (Decidable (∀ entry ∈ rules.entries, _))

/-! ## What a symbol is replaced by -/

/-- The parts of a text hold nothing that the text does not hold. -/
theorem mem_of_mem_splitOn {text part : List Char} {separator symbol : Char}
    (hpart : part ∈ text.splitOn separator) (hsymbol : symbol ∈ part) : symbol ∈ text := by
  induction text generalizing part with
  | nil =>
    rw [List.splitOn_nil, List.mem_singleton] at hpart
    rw [hpart] at hsymbol
    exact hsymbol
  | cons first others ih =>
    rw [List.splitOn_cons_eq_if_modifyHead] at hpart
    split at hpart
    · rcases List.mem_cons.1 hpart with rfl | hpart
      · cases hsymbol
      · exact List.mem_cons_of_mem first (ih hpart hsymbol)
    · -- The first symbol goes in front of the first part, and the other parts stay as they are.
      obtain ⟨front, parts, hparts⟩ :=
        List.exists_cons_of_ne_nil (List.splitOn_ne_nil separator others)
      rw [hparts] at hpart ih
      rcases List.mem_cons.1 hpart with rfl | hpart
      · rcases List.mem_cons.1 hsymbol with rfl | hsymbol
        · exact List.mem_cons_self
        · exact List.mem_cons_of_mem first (ih List.mem_cons_self hsymbol)
      · exact List.mem_cons_of_mem first (ih (List.mem_cons_of_mem front hpart) hsymbol)

variable {α : Type} [Scalar α] {rules : Rules} {randomness : α}

/-- A symbol without a rule is kept, and one with a rule becomes symbols of its text. -/
theorem mem_of_run_successor {symbol : Char} {part : List Char} {s : Source α} {i j : Nat}
    (h : (rules.successor randomness symbol).run s i = (.ok part, j)) :
    (rules.replacement? symbol = none ∧ part = [symbol]) ∨
      ∃ text, rules.HasRule symbol text ∧ ∀ c ∈ part, c ∈ text.toList := by
  rcases run_successor_cases h with
    ⟨hnone, rfl, -⟩ | ⟨text, hrule, ⟨-, rfl, -⟩ | ⟨-, -, -, u, -, hchosen⟩⟩
  · exact .inl ⟨hnone, rfl⟩
  · exact .inr ⟨text, hrule, fun c hc => hc⟩
  · exact .inr ⟨text, hrule, fun c hc => mem_of_mem_splitOn (mem_of_chosen_eq_ok hchosen) hc⟩

/-- Of the symbols that no rule writes, a symbol leaves itself, if it has no replacement. -/
theorem filter_unwritten_of_run_successor {symbol : Char} {part : List Char} {s : Source α}
    {i j : Nat} (h : (rules.successor randomness symbol).run s i = (.ok part, j)) :
    (part.filter fun c => rules.Unwritten c) =
      ([symbol].filter fun c => rules.Unwritten c).filter fun c => rules.replacement? c = none := by
  rcases mem_of_run_successor h with ⟨hnone, rfl⟩ | ⟨text, hrule, hpart⟩
  · refine (List.filter_eq_self.2 fun c hc => ?_).symm
    rw [List.mem_singleton.1 (List.mem_filter.1 hc).1]
    exact decide_eq_true hnone
  · have hreplaced : rules.replacement? symbol ≠ none := by
      rw [replacement?_eq_some_iff.2 ⟨text, hrule, rfl⟩]
      exact Option.some_ne_none _
    refine (List.filter_eq_nil_iff.2 fun c hc hunwritten => ?_).trans
      (List.filter_eq_nil_iff.2 fun c hc hnone => ?_).symm
    · exact of_decide_eq_true hunwritten _ hrule.mem_entries (hpart c hc)
    · rw [List.mem_singleton.1 (List.mem_filter.1 hc).1] at hnone
      exact hreplaced (of_decide_eq_true hnone)

/-! ## What is left of a word -/

/-- Of the symbols that no rule writes, a generation keeps those without a replacement. -/
theorem filter_unwritten_of_run_nextGeneration {word next : List Char} {s : Source α} {i j : Nat}
    (h : (rules.nextGeneration randomness word).run s i = (.ok next, j)) :
    (next.filter fun c => rules.Unwritten c) =
      (word.filter fun c => rules.Unwritten c).filter fun c => rules.replacement? c = none := by
  induction word generalizing next i with
  | nil =>
    cases h
    rfl
  | cons symbol word ih =>
    rw [nextGeneration_cons] at h
    obtain ⟨part, k, hpart, h⟩ := Drawing.run_bind_eq_ok_iff.1 h
    obtain ⟨rest, l, hrest, h⟩ := Drawing.run_bind_eq_ok_iff.1 h
    cases h
    rw [List.filter_append, filter_unwritten_of_run_successor hpart, ih hrest,
      ← List.filter_append, ← List.filter_append, List.singleton_append]

/-- No generation removes what the first one keeps. -/
theorem filter_unwritten_of_run_expand {generations : Nat} {word result : List Char}
    {s : Source α} {i j : Nat}
    (h : (rules.expand randomness (generations + 1) word).run s i = (.ok result, j)) :
    (result.filter fun c => rules.Unwritten c) =
      (word.filter fun c => rules.Unwritten c).filter fun c => rules.replacement? c = none := by
  induction generations generalizing word i with
  | zero =>
    rw [expand_succ] at h
    obtain ⟨next, k, hnext, h⟩ := Drawing.run_bind_eq_ok_iff.1 h
    cases h
    exact filter_unwritten_of_run_nextGeneration hnext
  | succ generations ih =>
    rw [expand_succ] at h
    obtain ⟨next, k, hnext, h⟩ := Drawing.run_bind_eq_ok_iff.1 h
    rw [ih h, filter_unwritten_of_run_nextGeneration hnext]
    exact List.filter_eq_self.2 fun c hc => (List.mem_filter.1 hc).2

/-- A symbol with an empty text is kept, and one with another text is not. -/
theorem replacement?_eq_none_iff_of_lookup {symbol : Char} {text : String}
    (h : rules.entries.lookup (String.singleton symbol) = some text) :
    rules.replacement? symbol = none ↔ text = "" := by
  rw [replacement?_eq_none_iff]
  constructor
  · intro hnone
    exact Decidable.byContradiction fun hne => hnone text ⟨h, hne⟩
  · rintro rfl other ⟨hother, hne⟩
    exact hne (Option.some.inj (hother.symm.trans h))

/-- After one generation or more, the symbols of a word that no text holds are those of the first word
that have no rule or an empty one, in their order. So a symbol with a rule that no text holds is gone,
unless the text of its rule is empty: then it is kept. -/
theorem unwritten_symbols_of_run_expand (rules : Rules) (randomness : α) {generations : Nat}
    (hgenerations : 1 ≤ generations) (word result : List Char) (s : Source α) (i j : Nat)
    (h : (rules.expand randomness generations word).run s i = (.ok result, j)) :
    ((result.filter fun c => rules.Unwritten c) =
      (word.filter fun c => rules.Unwritten c).filter fun c => rules.replacement? c = none) ∧
    ∀ symbol text, rules.entries.lookup (String.singleton symbol) = some text →
      rules.Unwritten symbol → (symbol ∈ result ↔ symbol ∈ word ∧ text = "") := by
  obtain ⟨more, rfl⟩ := Nat.exists_eq_add_of_le' hgenerations
  have hleft := filter_unwritten_of_run_expand h
  refine ⟨hleft, fun symbol text hentry hunwritten => ?_⟩
  have hmem (letters : List Char) :
      symbol ∈ letters ↔ symbol ∈ letters.filter fun c => rules.Unwritten c := by
    rw [List.mem_filter, decide_eq_true hunwritten, and_iff_left rfl]
  rw [hmem result, hleft, List.mem_filter, ← hmem word, decide_eq_true_iff,
    replacement?_eq_none_iff_of_lookup hentry]

/-- Two symbols that no text holds, one with a text and one with an empty text. -/
def halfErasing : Rules := ⟨[("A", "BC|B"), ("B", ""), ("E", "")]⟩

/-- The symbol with a text is gone after two generations, and the one with an empty text is not. -/
theorem unwritten_symbols_of_run_expand_halfErasing :
    1 ≤ 2 ∧ (halfErasing.expand (0.5 : Float) 2 ['A', 'D', 'E']).run (.cycle 0.25 []) 0 =
      (.ok ['B', 'C', 'D', 'E'], 1) ∧
    (halfErasing.entries.lookup (String.singleton 'A') = some "BC|B" ∧ halfErasing.Unwritten 'A' ∧
      'A' ∉ ['B', 'C', 'D', 'E']) ∧
    halfErasing.entries.lookup (String.singleton 'E') = some "" ∧ halfErasing.Unwritten 'E' ∧
      'E' ∈ ['B', 'C', 'D', 'E'] := by
  have hgenerations : 1 ≤ 2 := by decide
  have hrun : (halfErasing.expand (0.5 : Float) 2 ['A', 'D', 'E']).run (.cycle 0.25 []) 0 =
      (.ok ['B', 'C', 'D', 'E'], 1) := by rfl
  obtain ⟨-, hsymbols⟩ := unwritten_symbols_of_run_expand halfErasing (0.5 : Float) hgenerations
    ['A', 'D', 'E'] ['B', 'C', 'D', 'E'] (.cycle 0.25 []) 0 1 hrun
  have hgone := hsymbols 'A' "BC|B" (by decide) (by decide)
  have hkept := hsymbols 'E' "" (by decide) (by decide)
  refine ⟨hgenerations, hrun, ⟨by decide, by decide, fun hmem => ?_⟩, by decide, by decide,
    hkept.2 ⟨by decide, rfl⟩⟩
  exact absurd (hgone.1 hmem).2 (by decide)

/-- A rule with an empty text does not remove its symbol, whether alternatives are drawn or not. A rule
with empty alternatives does, where they are drawn. -/
theorem empty_text_keeps_symbol :
    (⟨[("A", "")]⟩ : Rules).entries.lookup (String.singleton 'A') = some "" ∧
    (⟨[("A", "")]⟩ : Rules).Unwritten 'A' ∧
    ((⟨[("A", "")]⟩ : Rules).expand (0 : Float) 1 ['A']).run (.cycle 0 []) 0 = (.ok ['A'], 0) ∧
    ((⟨[("A", "")]⟩ : Rules).expand (1 : Float) 1 ['A']).run (.cycle 0 []) 0 = (.ok ['A'], 0) ∧
    ((⟨[("A", "|")]⟩ : Rules).expand (1 : Float) 1 ['A']).run (.cycle 0 []) 0 = (.ok [], 1) :=
  ⟨by decide, by decide, rfl, rfl, rfl⟩

end PlantGrowth.Rules
