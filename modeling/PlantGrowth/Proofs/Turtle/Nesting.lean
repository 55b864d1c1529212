import PlantGrowth.Turtle.Trace

/-!
# Words as nesting trees

A word in which every bracket has its partner is spelled by exactly one nesting tree
(`exists_unique_nesting`). Being well bracketed is said by counting, without the tree: no beginning
of the word closes more brackets than it opens, and the word closes as many as it opens.
-/

set_option autoImplicit false

namespace PlantGrowth

/-- The items of a branch in order. An item is a symbol that is no bracket, or a branch of its
own. -/
inductive Nesting where
  | done
  | symbol (c : Char) (no_bracket : c ≠ '[' ∧ c ≠ ']') (rest : Nesting)
  | branch (inner rest : Nesting)
  deriving DecidableEq, Repr

/-- A word in which every bracket has its partner. -/
def WellBracketed (word : List Char) : Prop :=
  (∀ n, (word.take n).count ']' ≤ (word.take n).count '[') ∧ word.count ']' = word.count '['

instance (word : List Char) : Decidable (WellBracketed word) :=
  decidable_of_iff
    ((∀ n ≤ word.length, (word.take n).count ']' ≤ (word.take n).count '[') ∧
      word.count ']' = word.count '[') <| by
    refine and_congr_left fun hall => ⟨fun h n => ?_, fun h n _ => h n⟩
    by_cases hn : n ≤ word.length
    · exact h n hn
    · rw [List.take_of_length_le (by omega)]
      exact Nat.le_of_eq hall

section BranchEnd

variable {β : Type} {close : β}

/-- Where a branch ends: where nothing follows, or what follows closes the branch. -/
def IsBranchEnd (close : β) (following : List β) : Prop := ∀ c ∈ following.head?, c = close

/-- Where nothing follows, a branch ends. -/
theorem isBranchEnd_nil : IsBranchEnd close [] := by
  intro c hc
  cases hc

/-- Where a close follows, a branch ends. -/
theorem isBranchEnd_close (following : List β) : IsBranchEnd close (close :: following) := by
  intro c hc
  exact (Option.some.inj hc).symm

end BranchEnd

namespace Nesting

/-- The word that a tree spells. -/
def word : Nesting → List Char
  | done => []
  | symbol c _ rest => c :: rest.word
  | branch inner rest => '[' :: (inner.word ++ ']' :: rest.word)

/-! ## Every well bracketed word is spelled by a tree -/

/-- The word that is left inside some open branches: the items of the innermost one, and for each
open branch its closing bracket and the items after it. -/
def wordInside (inner : Nesting) (outer : List Nesting) : List Char :=
  inner.word ++ outer.flatMap fun items => ']' :: items.word

/-- A word that closes that many more brackets than it opens, and before its end at most that many
more, is spelled by trees inside that many open branches. -/
theorem exists_wordInside (word : List Char) (depth : Nat)
    (hfront : ∀ n, (word.take n).count ']' ≤ (word.take n).count '[' + depth)
    (hall : word.count ']' = word.count '[' + depth) :
    ∃ inner outer, outer.length = depth ∧ wordInside inner outer = word := by
  induction word generalizing depth with
  | nil =>
    have hdepth : depth = 0 := by simpa using hall.symm
    exact ⟨done, [], hdepth.symm, rfl⟩
  | cons c word ih =>
    have htail (n : Nat) := hfront (n + 1)
    simp only [List.take_succ_cons] at htail
    by_cases hopen : c = '['
    · subst hopen
      -- The innermost of the branches is the one that opens here; the next one goes on after it.
      obtain ⟨inner, outer, hlength, hword⟩ := ih (depth + 1)
        (fun n => by simpa [Nat.add_right_comm, Nat.add_assoc] using htail n)
        (by simpa [Nat.add_right_comm, Nat.add_assoc] using hall)
      obtain ⟨next, outer, rfl⟩ := List.exists_cons_of_length_eq_add_one hlength
      refine ⟨branch inner next, outer, by simpa using hlength, ?_⟩
      rw [← hword]
      simp [wordInside, Nesting.word]
    · by_cases hclose : c = ']'
      · subst hclose
        cases depth with
        | zero => simpa using htail 0
        | succ depth =>
          obtain ⟨inner, outer, hlength, hword⟩ := ih depth
            (fun n => by simpa [← Nat.add_assoc] using htail n)
            (by simpa [← Nat.add_assoc] using hall)
          refine ⟨done, inner :: outer, by simpa using hlength, ?_⟩
          rw [← hword]
          simp [wordInside, Nesting.word]
      · obtain ⟨inner, outer, hlength, hword⟩ := ih depth
          (fun n => by simpa [hopen, hclose] using htail n)
          (by simpa [hopen, hclose] using hall)
        refine ⟨symbol c ⟨hopen, hclose⟩ inner, outer, hlength, ?_⟩
        rw [← hword]
        rfl

/-! ## Only one tree spells it -/

/-- What a tree spells up to the end of its branch decides the tree. -/
theorem eq_of_word_append_eq {a b : Nesting} {following others : List Char}
    (hfollowing : IsBranchEnd ']' following) (hothers : IsBranchEnd ']' others)
    (h : a.word ++ following = b.word ++ others) : a = b ∧ following = others := by
  induction a generalizing b following others with
  | done =>
    cases b with
    | done => exact ⟨rfl, h⟩
    | symbol c hc rest =>
      rw [show following = c :: (rest.word ++ others) from h] at hfollowing
      exact absurd (hfollowing c rfl) hc.2
    | branch inner rest =>
      rw [show following = '[' :: _ from h] at hfollowing
      exact absurd (hfollowing '[' rfl) (by decide)
  | symbol c hc rest ih =>
    cases b with
    | done =>
      rw [show others = c :: (rest.word ++ following) from h.symm] at hothers
      exact absurd (hothers c rfl) hc.2
    | symbol d hd rest' =>
      obtain ⟨rfl, hrest⟩ := List.cons.inj h
      obtain ⟨rfl, hend⟩ := ih hfollowing hothers hrest
      exact ⟨rfl, hend⟩
    | branch inner rest' => exact absurd (List.cons.inj h).1 hc.1
  | branch inner rest ihinner ihrest =>
    cases b with
    | done =>
      rw [show others = '[' :: _ from h.symm] at hothers
      exact absurd (hothers '[' rfl) (by decide)
    | symbol d hd rest' => exact absurd (List.cons.inj h).1.symm hd.1
    | branch inner' rest' =>
      simp only [word, List.cons_append, List.append_assoc] at h
      have htail := (List.cons.inj h).2
      obtain ⟨rfl, hrest⟩ := ihinner (isBranchEnd_close _) (isBranchEnd_close _) htail
      obtain ⟨rfl, hend⟩ := ihrest hfollowing hothers (List.cons.inj hrest).2
      exact ⟨rfl, hend⟩

/-- A well bracketed word is spelled by exactly one tree. -/
theorem exists_unique_nesting {word : List Char} (h : WellBracketed word) :
    ∃ nesting : Nesting, ∀ other : Nesting, other.word = word ↔ other = nesting := by
  obtain ⟨nesting, outer, houter, hword⟩ := exists_wordInside word 0 h.1 h.2
  have hnone : outer = [] := List.length_eq_zero_iff.1 houter
  subst hnone
  have hword : nesting.word = word := by simpa [wordInside] using hword
  refine ⟨nesting, fun other => ⟨fun hother => ?_, fun hother => ?_⟩⟩
  · have hsame : other.word ++ [] = nesting.word ++ [] := by rw [hother, hword]
    exact (eq_of_word_append_eq isBranchEnd_nil isBranchEnd_nil hsame).1
  · rw [hother, hword]

end Nesting

end PlantGrowth
