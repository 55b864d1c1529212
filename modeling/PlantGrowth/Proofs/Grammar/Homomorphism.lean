import Mathlib.Logic.Function.Iterate
import PlantGrowth.Proofs.Grammar.Literal
import PlantGrowth.Scalar.Double

/-!
# Expansion as a homomorphism

Where nothing is left to a draw, a generation replaces each symbol of a word on its own, so words can be
expanded in pieces (`substitute_append`), and an expansion is the iterate of one map of words
(`expand_is_homomorphism`). Whatever is drawn, only the entries that name a symbol are ever looked up;
two tables with the same entries of this kind make the same words (`expand_of_namingEntries_eq`).
-/

set_option autoImplicit false

namespace PlantGrowth.Rules

/-! ## Substitution in pieces -/

/-- Two words are rewritten apart from each other. -/
theorem substitute_append (rules : Rules) (generations : Nat) (word more : List Char) :
    rules.substitute generations (word ++ more) =
      rules.substitute generations word ++ rules.substitute generations more := by
  induction generations generalizing word more with
  | zero => rfl
  | succ generations ih =>
    rw [substitute_succ, List.flatMap_append, ih, ← substitute_succ, ← substitute_succ]

/-- A generation is a step of one map of symbols, extended to words. -/
theorem substitute_eq_iterate (rules : Rules) (generations : Nat) (word : List Char) :
    rules.substitute generations word = (List.flatMap rules.literal)^[generations] word := by
  induction generations generalizing word with
  | zero => rfl
  | succ generations ih => rw [substitute_succ, ih, Function.iterate_succ_apply]

/-- A symbol without a rule stands for itself. -/
theorem literal_of_no_rule {rules : Rules} {symbol : Char}
    (hnone : ∀ text, ¬ rules.HasRule symbol text) : rules.literal symbol = [symbol] := by
  rw [literal, replacement?_eq_none_iff.2 hnone, Option.getD_none]

/-! ## Entries that name a symbol -/

/-- The entries of a table that name a symbol: their keys are of one character. -/
def namingEntries (rules : Rules) : List (String × String) :=
  rules.entries.filter fun entry => entry.1.length = 1

/-- Other entries stand in the way of no symbol. -/
theorem lookup_namingEntries (rules : Rules) (symbol : Char) :
    rules.namingEntries.lookup (String.singleton symbol) =
      rules.entries.lookup (String.singleton symbol) := by
  unfold namingEntries
  induction rules.entries with
  | nil => rfl
  | cons entry entries ih =>
    obtain ⟨key, text⟩ := entry
    by_cases hnames : key.length = 1
    · rw [List.filter_cons_of_pos (by simpa using hnames), List.lookup_cons, List.lookup_cons, ih]
    · have hother : (String.singleton symbol == key) = false := by
        rw [beq_eq_false_iff_ne]
        rintro rfl
        exact hnames String.length_singleton
      rw [List.filter_cons_of_neg (by simpa using hnames), ih, List.lookup_cons, hother]

/-- The entries whose names are symbols decide the replacements. -/
theorem replacement?_of_namingEntries_eq {rules rules' : Rules}
    (h : rules.namingEntries = rules'.namingEntries) (symbol : Char) :
    rules.replacement? symbol = rules'.replacement? symbol := by
  unfold replacement?
  rw [← lookup_namingEntries rules, h, lookup_namingEntries rules']

variable {α : Type} [Scalar α] {rules : Rules} {randomness : α}

/-- An expansion, with its draws and faults, depends on what the symbols are replaced by. -/
theorem expand_congr {rules' : Rules}
    (h : ∀ symbol, rules.replacement? symbol = rules'.replacement? symbol) (randomness : α)
    (generations : Nat) (word : List Char) :
    rules.expand randomness generations word = rules'.expand randomness generations word := by
  have hsuccessor : rules.successor randomness = rules'.successor randomness := by
    funext symbol
    rw [successor, successor, h symbol]
  have hnext : rules.nextGeneration randomness = rules'.nextGeneration randomness := by
    funext word
    rw [nextGeneration, nextGeneration, hsuccessor]
  induction generations generalizing word with
  | zero => rfl
  | succ generations ih =>
    rw [expand_succ, expand_succ, hnext, funext ih]

/-- Entries that name no symbol have no effect. -/
theorem expand_of_namingEntries_eq {rules' : Rules} (h : rules.namingEntries = rules'.namingEntries)
    (randomness : α) (generations : Nat) (word : List Char) :
    rules.expand randomness generations word = rules'.expand randomness generations word :=
  expand_congr (replacement?_of_namingEntries_eq h) randomness generations word

/-! ## The homomorphism -/

/-- Where nothing is left to a draw, an expansion of any depth takes no draw, whatever the source, and
makes of two words in a row the words that it makes of each. It is the iterate of one map, which replaces
each symbol by the text of its rule and keeps a symbol without one. A negative depth is depth zero.
Entries of the table that name no symbol have no effect, here and where alternatives are drawn. -/
theorem expand_is_homomorphism (h : rules.NoChoice randomness) :
    (∀ (depth : Int) (a b : List Char) (s : Source α) (i : Nat), ∃ first second,
      (rules.expand randomness depth.toNat a).run s i = (.ok first, i) ∧
      (rules.expand randomness depth.toNat b).run s i = (.ok second, i) ∧
      (rules.expand randomness depth.toNat (a ++ b)).run s i = (.ok (first ++ second), i)) ∧
    (∃ image : Char → List Char,
      (∀ symbol text, rules.HasRule symbol text → image symbol = text.toList) ∧
      (∀ symbol, (∀ text, ¬ rules.HasRule symbol text) → image symbol = [symbol]) ∧
      ∀ (depth : Int) (word : List Char) (s : Source α) (i : Nat),
        (rules.expand randomness depth.toNat word).run s i =
          (.ok ((List.flatMap image)^[depth.toNat] word), i)) ∧
    ∀ rules' : Rules, rules'.namingEntries = rules.namingEntries →
      ∀ (drawn : α) (depth : Int) (word : List Char),
        rules'.expand drawn depth.toNat word = rules.expand drawn depth.toNat word := by
  refine ⟨?_, ⟨rules.literal, ?_, ?_, ?_⟩, ?_⟩
  · intro depth a b s i
    refine ⟨rules.substitute depth.toNat a, rules.substitute depth.toNat b, ?_, ?_, ?_⟩
    · rw [expand_eq_pure h, Drawing.run_pure]
    · rw [expand_eq_pure h, Drawing.run_pure]
    · rw [expand_eq_pure h, Drawing.run_pure, substitute_append]
  · exact fun symbol text hrule => literal_of_hasRule hrule
  · exact fun symbol hnone => literal_of_no_rule hnone
  · intro depth word s i
    rw [expand_eq_pure h, Drawing.run_pure, substitute_eq_iterate]
  · intro rules' hentries drawn depth word
    exact expand_of_namingEntries_eq hentries drawn depth.toNat word

/-- A bar with a rule of its own, a bar in a text that is taken literally, a symbol with an empty text,
and two entries that name no symbol. -/
def barred : Rules := ⟨[("A", "B|A"), ("AB", "C"), ("|", "[|]"), ("B", ""), ("", "D")]⟩

/-- The word of three symbols is rewritten from those of its parts, and without an entry that is
named by more than one symbol; no draw is taken, as the source would refuse it. -/
theorem expand_is_homomorphism_barred :
    barred.NoChoice (0 : Float) ∧
    (barred.expand (0 : Float) 2 "AB|".toList).run .refusing 0 = (.ok "B[|]B|AB[[|]]".toList, 0) ∧
    (∃ first second, (barred.expand (0 : Float) 2 ['A']).run .refusing 0 = (.ok first, 0) ∧
      (barred.expand (0 : Float) 2 ['B', '|']).run .refusing 0 = (.ok second, 0) ∧
      (barred.expand (0 : Float) 2 "AB|".toList).run .refusing 0 = (.ok (first ++ second), 0)) ∧
    Rules.namingEntries ⟨[("A", "B|A"), ("|", "[|]"), ("B", "")]⟩ = barred.namingEntries ∧
    Rules.expand ⟨[("A", "B|A"), ("|", "[|]"), ("B", "")]⟩ (0.5 : Float) 2 "AB|".toList =
      barred.expand 0.5 2 "AB|".toList := by
  have hchoice : barred.NoChoice (0 : Float) := .inl (by decide)
  have hentries : Rules.namingEntries ⟨[("A", "B|A"), ("|", "[|]"), ("B", "")]⟩ =
      barred.namingEntries := by decide
  obtain ⟨hpieces, -, hnaming⟩ := expand_is_homomorphism hchoice
  exact ⟨hchoice, rfl, hpieces 2 ['A'] ['B', '|'] .refusing 0, hentries,
    hnaming _ hentries 0.5 2 "AB|".toList⟩

end PlantGrowth.Rules
