import Mathlib.Data.List.Chain
import PlantGrowth.Proofs.Grammar.Literal
import PlantGrowth.Proofs.Turtle.Count

/-!
# Grammars of a bud

In a grammar of a bud every segment doubles in a generation and every bud becomes the same text. The
numbers of symbols in the next generation are linear in those of a word
(`count_flatMap_doubling`). A word without leaves stays one if the text of the bud bears none
between a step ahead and a close (`isChain_goesOn_substitute`).
-/

set_option autoImplicit false

namespace PlantGrowth.Rules

/-- The grammar in which the bud `X` becomes a text, and the segment `F` two segments. -/
def doubling (bud : String) : Rules := ⟨[("X", bud), ("F", "FF")]⟩

variable {bud : String}

/-- A bud opens, a step ahead doubles, and every other symbol is kept. -/
theorem literal_doubling (hbud : bud ≠ "") (c : Char) :
    (doubling bud).literal c =
      if c = 'X' then bud.toList else if c = 'F' then ['F', 'F'] else [c] := by
  have hbudKey : (String.singleton c == "X") = decide (c = 'X') := by
    rw [Bool.eq_iff_iff]
    simp [String.ext_iff]
  have hsegmentKey : (String.singleton c == "F") = decide (c = 'F') := by
    rw [Bool.eq_iff_iff]
    simp [String.ext_iff]
  by_cases hX : c = 'X'
  · simp [literal, replacement?, doubling, hX, hbud]
  · by_cases hF : c = 'F'
    · simp [literal, replacement?, doubling, List.lookup_cons, hF]
    · simp [literal, replacement?, doubling, List.lookup_cons, hbudKey, hsegmentKey, hX, hF]

/-- The rules are those of the bud and of the step ahead. -/
theorem text_of_hasRule_doubling {symbol : Char} {text : String}
    (h : (doubling bud).HasRule symbol text) : text = bud ∨ text = "FF" := by
  have hentry := h.mem_entries
  simp only [doubling, List.mem_cons, Prod.mk.injEq, List.not_mem_nil, or_false] at hentry
  exact hentry.imp And.right And.right

/-- What a grammar of a bud without a bar makes is left to no draw. -/
theorem noChoice_doubling {α : Type} [Scalar α] (hbar : '|' ∉ bud.toList) (randomness : α) :
    (doubling bud).NoChoice randomness := by
  refine .inr ?_
  intro symbol text hrule
  rcases text_of_hasRule_doubling hrule with rfl | rfl
  · exact hbar
  · decide

/-! ## The numbers of symbols -/

/-- How many of a symbol come from one occurrence of it that is no bud. -/
def copies (d : Char) : Nat := if d = 'X' then 0 else if d = 'F' then 2 else 1

/-- The number of a symbol in what is written for a symbol. -/
theorem count_literal_doubling (hbud : bud ≠ "") (c d : Char) :
    ((doubling bud).literal c).count d =
      [c].count 'X' * bud.toList.count d + copies d * [c].count d := by
  rw [literal_doubling hbud, copies]
  by_cases hX : c = 'X'
  · subst hX
    by_cases hd : d = 'X'
    · simp [hd]
    · simp [Ne.symm hd]
  · by_cases hF : c = 'F'
    · subst hF
      by_cases hd : d = 'F'
      · simp [hd]
      · simp [Ne.symm hd]
    · by_cases hd : d = c
      · subst hd
        simp [hX, hF]
      · simp [hX, hF, Ne.symm hd]

/-- The number of a symbol in the next generation of a word. -/
theorem count_flatMap_doubling (hbud : bud ≠ "") (d : Char) (word : List Char) :
    (word.flatMap (doubling bud).literal).count d =
      word.count 'X' * bud.toList.count d + copies d * word.count d := by
  induction word with
  | nil => simp
  | cons c word ih =>
    have hcons (e : Char) : (c :: word).count e = [c].count e + word.count e := by
      rw [← List.count_append, List.singleton_append]
    rw [List.flatMap_cons, List.count_append, ih, count_literal_doubling hbud, hcons, hcons]
    simp only [Nat.add_mul, Nat.mul_add]
    omega

/-! ## Words without leaves -/

/-- A bud bears no leaf: between a step ahead and a close, all steps ahead go on. -/
def Leafless (bud : String) : Prop := bud ≠ "" ∧ ('F' :: (bud.toList ++ [']'])).IsChain GoesOn

instance (bud : String) : Decidable (Leafless bud) := inferInstanceAs (Decidable (_ ∧ _))

/-- Where the bud bears no leaf, nothing that is written bears one inside. -/
theorem isChain_literal_doubling (h : Leafless bud) (c : Char) :
    ((doubling bud).literal c).IsChain GoesOn := by
  rw [literal_doubling h.1]
  split
  · exact (List.isChain_append.1 h.2.tail).1
  · split
    · decide
    · exact .singleton c

/-- No symbol is erased. -/
theorem literal_doubling_ne_nil (h : Leafless bud) (c : Char) : (doubling bud).literal c ≠ [] := by
  rw [literal_doubling h.1]
  split
  · simpa using h.1
  · split <;> exact List.cons_ne_nil _ _

/-- A step ahead comes last in what a symbol becomes only if the symbol is one. -/
theorem eq_of_mem_getLast?_literal (h : Leafless bud) {c : Char}
    (hlast : 'F' ∈ ((doubling bud).literal c).getLast?) : c = 'F' := by
  rw [literal_doubling h.1] at hlast
  split at hlast
  · have hclose := (List.isChain_append.1 h.2.tail).2.2 _ hlast ']' rfl rfl
    exact absurd rfl hclose.1
  · split at hlast
    · assumption
    · exact Option.some.inj hlast

/-- What goes on after a step ahead still does when it has become something. -/
theorem goesOn_head?_literal (h : Leafless bud) {d : Char} (hgoes : GoesOn 'F' d) {e : Char}
    (he : e ∈ ((doubling bud).literal d).head?) : GoesOn 'F' e := by
  rw [literal_doubling h.1] at he
  split at he
  · refine h.2.rel_head? ?_
    rw [List.head?_append_of_ne_nil _ (by simpa using h.1)]
    exact he
  · split at he
    · cases he
      decide
    · cases he
      exact hgoes

/-- A generation keeps every step ahead going on, inside what a symbol becomes and at its borders.
-/
theorem isChain_goesOn_flatMap (h : Leafless bud) {word : List Char} (hword : word.IsChain GoesOn) :
    (word.flatMap (doubling bud).literal).IsChain GoesOn := by
  have hne : [] ∉ word.map (doubling bud).literal := by
    intro hmem
    obtain ⟨c, -, hc⟩ := List.mem_map.1 hmem
    exact literal_doubling_ne_nil h c hc
  rw [List.flatMap_def, List.isChain_flatten hne, List.isChain_map]
  constructor
  · intro part hpart
    obtain ⟨c, -, rfl⟩ := List.mem_map.1 hpart
    exact isChain_literal_doubling h c
  · -- A step ahead at the end of what a symbol becomes comes from a step ahead, which goes on.
    refine hword.imp fun c d hcd x hx y hy hforward => ?_
    subst hforward
    have hc := eq_of_mem_getLast?_literal h hx
    subst hc
    exact goesOn_head?_literal h hcd hy rfl

/-- The word that many generations after a word without leaves has none. -/
theorem isChain_goesOn_substitute (h : Leafless bud) (generations : Nat) {word : List Char}
    (hword : (word ++ [']']).IsChain GoesOn) :
    ((doubling bud).substitute generations word ++ [']']).IsChain GoesOn := by
  refine substitute_induction (P := fun word => (word ++ [']']).IsChain GoesOn) ?_ generations hword
  intro word hword
  have hclose : (doubling bud).literal ']' = [']'] := literal_doubling h.1 ']'
  have hnext := isChain_goesOn_flatMap h hword
  rw [List.flatMap_append, List.flatMap_singleton, hclose] at hnext
  exact hnext

end PlantGrowth.Rules
