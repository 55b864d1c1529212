import PlantGrowth.Grammar.Expansion
import PlantGrowth.Proofs.Draw.Outcome
import PlantGrowth.Proofs.Draw.Yield

/-!
# Derivations of a grammar

In a parallel step every occurrence of a symbol in a word is rewritten at once, each by a choice of
its own (`Rules.Step`), and a derivation is a number of such steps (`Rules.Derives`); draws do not
occur in this. Where alternatives are drawn, whatever an expansion makes is derived
(`derives_of_run_expand`), and whatever is derived is the yield of some draws, if each alternative
is reached by one (`exists_yields_expand`).
-/

set_option autoImplicit false

namespace PlantGrowth.Rules

/-! ## The relation -/

/-- A symbol has this text as its rule, and the text is not empty. -/
def HasRule (rules : Rules) (symbol : Char) (text : String) : Prop :=
  rules.entries.lookup (String.singleton symbol) = some text ∧ text ≠ ""

/-- What an occurrence of a symbol may become: one of the parts of its rule between bars, which may
be empty, or the symbol itself if it has no rule. -/
inductive Rewrites (rules : Rules) (symbol : Char) : List Char → Prop where
  | part (text : String) (hrule : rules.HasRule symbol text) (chars : List Char)
      (hchars : chars ∈ text.toList.splitOn '|') : Rewrites rules symbol chars
  | kept (hnone : ∀ text, ¬ rules.HasRule symbol text) : Rewrites rules symbol [symbol]

/-- One parallel step: every occurrence in a word is rewritten by a choice of its own. -/
inductive Step (rules : Rules) : List Char → List Char → Prop where
  | nil : Step rules [] []
  | cons {symbol : Char} {part word next : List Char} (first : rules.Rewrites symbol part)
      (others : Step rules word next) : Step rules (symbol :: word) (part ++ next)

/-- What that many parallel steps make of a word. -/
inductive Derives (rules : Rules) : Nat → List Char → List Char → Prop where
  | refl (word : List Char) : Derives rules 0 word word
  | step {generations : Nat} {word next result : List Char} (first : rules.Step word next)
      (others : Derives rules generations next result) :
      Derives rules (generations + 1) word result

/-- A rule stands among the entries. -/
theorem HasRule.mem_entries {rules : Rules} {symbol : Char} {text : String}
    (h : rules.HasRule symbol text) : (String.singleton symbol, text) ∈ rules.entries := by
  obtain ⟨front, back, hentries, -⟩ := List.lookup_eq_some_iff.1 h.1
  rw [hentries]
  exact List.mem_append_right front List.mem_cons_self

/-- A symbol has at most one rule. -/
theorem HasRule.unique {rules : Rules} {symbol : Char} {text text' : String}
    (h : rules.HasRule symbol text) (h' : rules.HasRule symbol text') : text = text' :=
  Option.some.inj (h.1.symm.trans h'.1)

/-- The replacement of a symbol is the text of its rule. -/
theorem replacement?_eq_some_iff {rules : Rules} {symbol : Char} {chars : List Char} :
    rules.replacement? symbol = some chars ↔
      ∃ text, rules.HasRule symbol text ∧ text.toList = chars := by
  unfold replacement? HasRule
  cases rules.entries.lookup (String.singleton symbol) with
  | none => simp
  | some text =>
    by_cases hempty : text = ""
    · simp [hempty]
    · constructor
      · intro h
        exact ⟨text, ⟨rfl, hempty⟩, by simpa [hempty] using h⟩
      · rintro ⟨other, ⟨hother, -⟩, hchars⟩
        cases hother
        simpa [hempty] using hchars

/-- A symbol has no replacement exactly if it has no rule. -/
theorem replacement?_eq_none_iff {rules : Rules} {symbol : Char} :
    rules.replacement? symbol = none ↔ ∀ text, ¬ rules.HasRule symbol text := by
  rw [← Option.not_isSome_iff_eq_none, Option.isSome_iff_exists]
  simp [replacement?_eq_some_iff]

/-- A symbol without a rule has no replacement, and every other one has a rule. -/
theorem replacement?_eq_none_or_hasRule (rules : Rules) (symbol : Char) :
    rules.replacement? symbol = none ∨ ∃ text, rules.HasRule symbol text := by
  cases hreplacement : rules.replacement? symbol with
  | none => exact .inl rfl
  | some chars =>
    obtain ⟨text, hrule, -⟩ := replacement?_eq_some_iff.1 hreplacement
    exact .inr ⟨text, hrule⟩

variable {α : Type} [Scalar α] {rules : Rules} {randomness : α}

/-! ## What a symbol is replaced by -/

/-- A symbol without a rule is kept. -/
theorem successor_of_no_rule {symbol : Char} (hnone : rules.replacement? symbol = none) :
    rules.successor randomness symbol = pure [symbol] := by
  rw [successor, hnone]

/-- A rule without a choice writes its text. -/
theorem successor_of_literal {symbol : Char} {text : String} (hrule : rules.HasRule symbol text)
    (hliteral : ¬ (0 < randomness ∧ '|' ∈ text.toList)) :
    rules.successor randomness symbol = pure text.toList := by
  rw [successor, replacement?_eq_some_iff.2 ⟨text, hrule, rfl⟩]
  exact if_neg hliteral

/-- A rule with a choice takes one draw, which chooses the alternative that is written. -/
theorem successor_of_bar {symbol : Char} {text : String} (hrule : rules.HasRule symbol text)
    (hdrawn : 0 < randomness ∧ '|' ∈ text.toList) :
    rules.successor randomness symbol =
      Drawing.draw >>= fun u => Drawing.ofExcept (chosen (text.toList.splitOn '|') u) := by
  rw [successor, replacement?_eq_some_iff.2 ⟨text, hrule, rfl⟩]
  exact if_pos hdrawn

/-! ## What a draw stands for -/

/-- Of `count` elements the draw stands for the one at this index. -/
def StandsFor (u : α) (count index : Nat) : Prop :=
  ∃ position, Scalar.toInteger Scalar.floor (u * Scalar.ofNat count) = .ok position ∧
    min position ((count : Int) - 1) = index

/-- A draw stands for one of the indices that there are. -/
theorem StandsFor.lt {u : α} {count index : Nat} (h : StandsFor u count index) : index < count := by
  obtain ⟨position, -, hindex⟩ := h
  omega

/-- The element that a draw stands for is chosen. -/
theorem StandsFor.chosen_eq_ok {β : Type} {elements : List β} {u : α} {index : Nat}
    (h : StandsFor u elements.length index) {element : β} (helement : elements[index]? = some element) :
    chosen elements u = .ok element := by
  obtain ⟨position, hposition, hindex⟩ := h
  have hfound : fromEitherEnd? elements (index : Int) = some element := by
    simp [fromEitherEnd?, helement]
  simp only [chosen, hposition, bind, Except.bind, hindex, hfound]

/-! ## What an expansion makes is derived -/

/-- The element that a draw stands for is one of the elements, whatever the draw is. -/
theorem mem_of_chosen_eq_ok {β : Type} {elements : List β} {u : α} {element : β}
    (h : chosen elements u = .ok element) : element ∈ elements := by
  obtain ⟨position, -, h⟩ := Fault.bind_eq_ok_iff.1 h
  dsimp only at h
  split at h
  · next found hfound =>
    cases h
    unfold fromEitherEnd? at hfound
    split at hfound
    · exact List.mem_of_getElem? hfound
    · split at hfound
      · exact List.mem_of_getElem? hfound
      · cases hfound
  · cases h

/-- A symbol becomes itself if it has no rule. Otherwise it becomes the text of its rule, without a
draw, or the part that the next draw stands for. -/
theorem run_successor_cases {symbol : Char} {part : List Char} {s : Source α} {i j : Nat}
    (h : (rules.successor randomness symbol).run s i = (.ok part, j)) :
    (rules.replacement? symbol = none ∧ part = [symbol] ∧ j = i) ∨
      ∃ text, rules.HasRule symbol text ∧
        ((¬ (0 < randomness ∧ '|' ∈ text.toList) ∧ part = text.toList ∧ j = i) ∨
          (0 < randomness ∧ '|' ∈ text.toList ∧ j = i + 1 ∧
            ∃ u, s i = .ok u ∧ chosen (text.toList.splitOn '|') u = .ok part)) := by
  rcases rules.replacement?_eq_none_or_hasRule symbol with hnone | ⟨text, hrule⟩
  · rw [successor_of_no_rule hnone] at h
    cases h
    exact .inl ⟨hnone, rfl, rfl⟩
  · refine .inr ⟨text, hrule, ?_⟩
    by_cases hdrawn : 0 < randomness ∧ '|' ∈ text.toList
    · rw [successor_of_bar hrule hdrawn] at h
      obtain ⟨u, k, hdraw, h⟩ := Drawing.run_bind_eq_ok_iff.1 h
      obtain ⟨hu, rfl⟩ := Drawing.run_draw_eq_ok_iff.1 hdraw
      obtain ⟨hchosen, rfl⟩ := Drawing.run_ofExcept_eq_ok_iff.1 h
      exact .inr ⟨hdrawn.1, hdrawn.2, rfl, u, hu, hchosen⟩
    · rw [successor_of_literal hrule hdrawn] at h
      cases h
      exact .inl ⟨hdrawn, rfl, rfl⟩

/-- What is written for a symbol is what some rule rewrites it to. -/
theorem rewrites_of_run_successor (hrandom : 0 < randomness) {symbol : Char} {part : List Char}
    {s : Source α} {i j : Nat}
    (h : (rules.successor randomness symbol).run s i = (.ok part, j)) :
    rules.Rewrites symbol part := by
  rcases run_successor_cases h with
    ⟨hnone, rfl, -⟩ | ⟨text, hrule, ⟨hliteral, rfl, -⟩ | ⟨-, -, -, u, -, hchosen⟩⟩
  · exact .kept (replacement?_eq_none_iff.1 hnone)
  · have hbar : '|' ∉ text.toList := fun hbar => hliteral ⟨hrandom, hbar⟩
    refine .part text hrule _ ?_
    rw [List.splitOn_eq_singleton hbar]
    exact List.mem_singleton_self _
  · exact .part text hrule part (mem_of_chosen_eq_ok hchosen)

/-- The next generation of a word is one step of rewriting. -/
theorem step_of_run_nextGeneration (hrandom : 0 < randomness) {word next : List Char}
    {s : Source α} {i j : Nat}
    (h : (rules.nextGeneration randomness word).run s i = (.ok next, j)) :
    rules.Step word next := by
  induction word generalizing next i with
  | nil =>
    cases h
    exact .nil
  | cons symbol word ih =>
    rw [nextGeneration_cons] at h
    obtain ⟨part, k, hpart, h⟩ := Drawing.run_bind_eq_ok_iff.1 h
    obtain ⟨rest, l, hrest, h⟩ := Drawing.run_bind_eq_ok_iff.1 h
    cases h
    exact .cons (rewrites_of_run_successor hrandom hpart) (ih hrest)

/-- Whatever an expansion makes is derived in as many steps as it has generations. -/
theorem derives_of_run_expand (hrandom : 0 < randomness) {generations : Nat}
    {word result : List Char} {s : Source α} {i j : Nat}
    (h : (rules.expand randomness generations word).run s i = (.ok result, j)) :
    rules.Derives generations word result := by
  induction generations generalizing word i with
  | zero =>
    cases h
    exact .refl _
  | succ generations ih =>
    rw [expand_succ] at h
    obtain ⟨next, k, hnext, h⟩ := Drawing.run_bind_eq_ok_iff.1 h
    exact .step (step_of_run_nextGeneration hrandom hnext) (ih h)

/-! ## What is derived is the yield of some draws -/

/-- Every part of every rule is chosen by a draw of this kind. -/
def Reaches (rules : Rules) (D : α → Prop) : Prop :=
  ∀ symbol text, rules.HasRule symbol text → ∀ part ∈ text.toList.splitOn '|',
    ∃ u, D u ∧ chosen (text.toList.splitOn '|') u = .ok part

variable {D : α → Prop}

/-- Every rewriting of a symbol is written from some draws. -/
theorem exists_yields_successor (hrandom : 0 < randomness) (hreach : rules.Reaches D)
    {symbol : Char} {part : List Char} (h : rules.Rewrites symbol part) :
    ∃ us, (∀ u ∈ us, D u) ∧ (rules.successor randomness symbol).Yields us part := by
  cases h with
  | kept hnone =>
    rw [successor_of_no_rule (replacement?_eq_none_iff.2 hnone)]
    exact ⟨[], by simp, .pure _⟩
  | part text hrule chars hpart =>
    by_cases hbar : '|' ∈ text.toList
    · obtain ⟨u, hu, hchosen⟩ := hreach symbol text hrule part hpart
      rw [successor_of_bar hrule ⟨hrandom, hbar⟩]
      exact ⟨[u], by simpa using hu, (Drawing.Yields.draw u).bind (.ofExcept hchosen)⟩
    · -- A text without a bar is its own only part.
      rw [List.splitOn_eq_singleton hbar, List.mem_singleton] at hpart
      subst hpart
      rw [successor_of_literal hrule fun h => hbar h.2]
      exact ⟨[], by simp, .pure _⟩

/-- Every step of rewriting is written from some draws. -/
theorem exists_yields_nextGeneration (hrandom : 0 < randomness) (hreach : rules.Reaches D)
    {word next : List Char} (h : rules.Step word next) :
    ∃ us, (∀ u ∈ us, D u) ∧ (rules.nextGeneration randomness word).Yields us next := by
  induction h with
  | nil => exact ⟨[], by simp, .pure _⟩
  | cons first others ih =>
    obtain ⟨us, hus, hfirst⟩ := exists_yields_successor hrandom hreach first
    obtain ⟨vs, hvs, hothers⟩ := ih
    refine ⟨us ++ (vs ++ []), ?_, ?_⟩
    · simpa [or_imp, forall_and] using ⟨hus, hvs⟩
    · rw [nextGeneration_cons]
      exact hfirst.bind (hothers.bind (.pure _))

/-- Whatever is derived is the yield of draws that choose its parts. -/
theorem exists_yields_expand (hrandom : 0 < randomness) (hreach : rules.Reaches D)
    {generations : Nat} {word result : List Char} (h : rules.Derives generations word result) :
    ∃ us, (∀ u ∈ us, D u) ∧ (rules.expand randomness generations word).Yields us result := by
  induction h with
  | refl word => exact ⟨[], by simp, .pure _⟩
  | step first others ih =>
    obtain ⟨us, hus, hfirst⟩ := exists_yields_nextGeneration hrandom hreach first
    obtain ⟨vs, hvs, hothers⟩ := ih
    refine ⟨us ++ vs, ?_, ?_⟩
    · simpa [or_imp, forall_and] using ⟨hus, hvs⟩
    · rw [expand_succ]
      exact hfirst.bind hothers

/-- Where draws of some kind reach every alternative, the words that an expansion makes of such
draws are those that are derived. -/
theorem exists_run_expand_iff_derives (hrandom : 0 < randomness) (hreach : rules.Reaches D)
    {rest : α} (hrest : D rest) {generations : Nat} {word result : List Char} :
    (∃ s : Source α, (∀ n, ∃ u, s n = .ok u ∧ D u) ∧
      ∃ j, (rules.expand randomness generations word).run s 0 = (.ok result, j)) ↔
    rules.Derives generations word result := by
  constructor
  · rintro ⟨s, -, j, h⟩
    exact derives_of_run_expand hrandom h
  · intro h
    obtain ⟨us, hus, hyields⟩ := exists_yields_expand hrandom hreach h
    exact ⟨.listed us rest, Source.exists_listed_eq_ok hus hrest, _,
      hyields _ 0 (Source.shows_listed us rest)⟩

end PlantGrowth.Rules
