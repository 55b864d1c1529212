import Mathlib.Data.Finset.Insert
import PlantGrowth.Proofs.Turtle.Placement
import PlantGrowth.Proofs.Turtle.Rotation
import PlantGrowth.Species.BuiltIn

/-!
# Symbols that move nothing

A symbol without a command and a close without an open branch leave the walk as it is and leave no mark
(`Walk.step_of_isInert`). Without them a word is walked as before, so its segments and blooms are the
same (`inert_symbols_move_nothing`). A leaf depends also on the symbol behind its step: without symbols
that have no command every tip stays one (`Omits.isTip`) and others may become tips, but without a close
that closes nothing a tip may be lost.
-/

set_option autoImplicit false

namespace PlantGrowth

/-! ## Inert symbols -/

/-- The symbols that tell the turtle something. -/
def commandSymbols : List Char := ['F', '+', '-', '&', '^', '\\', '/', '[', ']', '*']

/-- A symbol that is no command is idle. -/
theorem Command.ofChar_eq_idle {c : Char} (h : c ∉ commandSymbols) : ofChar c = .idle := by
  unfold ofChar
  split <;> first | rfl | exact absurd (by decide) h

namespace Occurrence

/-- The symbol tells the turtle nothing. -/
def IsIdle (o : Occurrence) : Prop := o.symbol ∉ commandSymbols

/-- The symbol is idle, or it is a close and no branch is open. -/
def IsInert (o : Occurrence) : Prop := o.IsIdle ∨ (o.symbol = ']' ∧ o.depth = 0)

instance (o : Occurrence) : Decidable o.IsIdle := inferInstanceAs (Decidable (_ ∉ _))

instance (o : Occurrence) : Decidable o.IsInert := inferInstanceAs (Decidable (_ ∨ _))

/-- An inert symbol opens no branch and closes none. -/
theorem IsInert.depthAfter_eq {o : Occurrence} (h : o.IsInert) :
    depthAfter o.depth o.symbol = o.depth := by
  rcases h with hidle | ⟨hclose, hground⟩
  · have hne {c : Char} (hc : c ∈ commandSymbols) : o.symbol ≠ c := by
      rintro rfl
      exact hidle hc
    rw [depthAfter, if_neg (hne (by decide)), if_neg (hne (by decide))]
  · rw [depthAfter, hclose, hground]
    rfl

end Occurrence

/-! ## Words with omitted symbols -/

/-- A word without the symbols at some positions. -/
def omitting (positions : Finset Nat) (word : List Char) : List Char :=
  (word.zipIdx.filter fun p => p.2 ∉ positions).map Prod.fst

/-- The second word is the first one without some of its symbols, which are all of a kind where they
occur. The depth is that before the first word. -/
inductive Omits (kind : Occurrence → Prop) : Nat → List Char → List Char → Prop
  | nil (depth : Nat) : Omits kind depth [] []
  | kept (depth : Nat) (c : Char) (word left : List Char)
      (rest : Omits kind (depthAfter depth c) word left) : Omits kind depth (c :: word) (c :: left)
  | omitted (depth : Nat) (c : Char) (word left : List Char) (hkind : kind ⟨c, depth, word⟩)
      (rest : Omits kind (depthAfter depth c) word left) : Omits kind depth (c :: word) left

/-- The symbols of a word that is part of another one, counted from its first position there. -/
theorem omits_filter_zipIdx {kind : Occurrence → Prop} {positions : Finset Nat} {word : List Char}
    {depth first : Nat}
    (h : ∀ p ∈ (Occurrence.ofWord depth word).zipIdx first, p.2 ∈ positions → kind p.1) :
    Omits kind depth word (((word.zipIdx first).filter fun p => p.2 ∉ positions).map Prod.fst) := by
  induction word generalizing depth first with
  | nil => exact .nil depth
  | cons c rest ih =>
    rw [Occurrence.ofWord, List.zipIdx_cons, List.forall_mem_cons] at h
    obtain ⟨hfirst, hrest⟩ := h
    rw [List.zipIdx_cons]
    by_cases homitted : first ∈ positions
    · rw [List.filter_cons_of_neg (by simpa using homitted)]
      exact .omitted depth c rest _ (hfirst homitted) (ih hrest)
    · rw [List.filter_cons_of_pos (by simpa using homitted), List.map_cons]
      exact .kept depth c rest _ (ih hrest)

/-- A symbol of a word that is no command can be omitted without a loss of tips. -/
theorem Omits.isTip {depth : Nat} {word left : List Char}
    (h : Omits Occurrence.IsIdle depth word left)
    (htip : Command.isTip (word.map Command.ofChar) = true) :
    Command.isTip (left.map Command.ofChar) = true := by
  cases h with
  | nil depth => rfl
  | kept depth c word left rest =>
    rw [List.map_cons, Command.isTip_ofChar_cons] at htip ⊢
    exact htip
  | omitted depth c word left hidle rest =>
    rw [List.map_cons, Command.ofChar_eq_idle hidle] at htip
    cases htip

/-- With a close that closes nothing a tip is lost: a step before another step is none. -/
example : Command.isTip ([']', 'F'].map Command.ofChar) = true ∧
    Command.isTip (['F'].map Command.ofChar) = false := ⟨rfl, rfl⟩

/-! ## Walks with and without inert symbols -/

namespace Walk

variable {α : Type} [Scalar α] (rotations : Rotations α) {w : Walk α}

/-- An inert symbol does not move the turtle. -/
theorem step_of_isInert {o : Occurrence} (h : o.IsInert) (hdepth : w.opened.length = o.depth) :
    w.step rotations (Command.ofChar o.symbol) = w := by
  rcases h with hidle | ⟨hclose, hground⟩
  · rw [Command.ofChar_eq_idle hidle]
    rfl
  · obtain ⟨turtle, opened⟩ := w
    have hopened : opened = [] := List.eq_nil_of_length_eq_zero (hdepth.trans hground)
    rw [hclose, hopened]
    rfl

/-- An inert symbol leaves no mark. -/
theorem marks_of_isInert {o : Occurrence} (h : o.IsInert) (w : Walk α) (following : List Command) :
    w.marks following (Command.ofChar o.symbol) = [] := by
  rcases h with hidle | ⟨hclose, -⟩
  · rw [Command.ofChar_eq_idle hidle]
    rfl
  · rw [hclose]
    rfl

/-- A walk goes on behind an inert symbol as if there had been none. -/
theorem trace_of_isInert {o : Occurrence} (h : o.IsInert) (hdepth : w.opened.length = o.depth) :
    trace rotations w ((o.symbol :: o.following).map Command.ofChar) =
      trace rotations w (o.following.map Command.ofChar) := by
  rw [List.map_cons, trace, marks_of_isInert h, List.nil_append, step_of_isInert rotations h hdepth]

/-- Seen by a view that does not look ahead, inert symbols can be omitted. -/
theorem filterMap_trace_of_omits {β : Type} {view : Mark α → Option β}
    (hview : IgnoresFollowing view) {depth : Nat} {word left : List Char}
    (h : Omits Occurrence.IsInert depth word left) (hdepth : w.opened.length = depth) :
    (trace rotations w (left.map Command.ofChar)).filterMap view =
      (trace rotations w (word.map Command.ofChar)).filterMap view := by
  induction h generalizing w with
  | nil depth => rfl
  | kept depth c word left rest ih =>
    have hfirst := hview w (left.map Command.ofChar) (word.map Command.ofChar) (Command.ofChar c)
    have hnext := length_opened_step rotations w c
    rw [hdepth] at hnext
    simp only [List.map_cons, trace, List.filterMap_append]
    rw [hfirst, ih hnext]
  | omitted depth c word left hinert rest ih =>
    rw [trace_of_isInert rotations hinert hdepth]
    exact ih (hdepth.trans hinert.depthAfter_eq.symm)

/-- A step that is a tip also with other symbols behind it keeps its leaf. -/
theorem leaves_sublist_of_marks {following others : List Command}
    (htip : Command.isTip following = true → Command.isTip others = true) (w : Walk α) (c : Command) :
    ((w.marks following c).filterMap Mark.leaf?).Sublist
      ((w.marks others c).filterMap Mark.leaf?) := by
  cases c with
  | forward =>
    rw [marks, marks]
    by_cases h : Command.isTip following = true
    · rw [if_pos h, if_pos (htip h)]
    · rw [if_neg h]
      exact List.nil_sublist _
  | turn | push | pop | bloom | idle => exact List.Sublist.refl _

/-- Without idle symbols no leaf is lost. -/
theorem leaves_sublist_of_omits {depth : Nat} {word left : List Char}
    (h : Omits Occurrence.IsIdle depth word left) (hdepth : w.opened.length = depth) :
    ((trace rotations w (word.map Command.ofChar)).filterMap Mark.leaf?).Sublist
      ((trace rotations w (left.map Command.ofChar)).filterMap Mark.leaf?) := by
  induction h generalizing w with
  | nil depth => exact List.Sublist.refl _
  | kept depth c word left rest ih =>
    have hnext := length_opened_step rotations w c
    rw [hdepth] at hnext
    simp only [List.map_cons, trace, List.filterMap_append]
    exact (leaves_sublist_of_marks rest.isTip w (Command.ofChar c)).append (ih hnext)
  | omitted depth c word left hidle rest ih =>
    have hinert : Occurrence.IsInert ⟨c, depth, word⟩ := .inl hidle
    rw [trace_of_isInert rotations hinert hdepth]
    exact ih (hdepth.trans hinert.depthAfter_eq.symm)

end Walk

/-! ## Plants with and without inert symbols -/

namespace GrammarPreset

variable {α : Type} [Scalar α] {preset : GrammarPreset α} {rotations : Rotations α}

/-- Symbols without a command, and closes where no branch is open, move nothing: without any of them the
segments of the plant and its blooms are the same, but for the rotations of the blooms, which other draws
decide. If only symbols without a command are omitted, no leaf is lost. Which draws the two plants are
made of does not matter, and every source that refuses nothing makes them. -/
theorem inert_symbols_move_nothing (hrotations : Rotations.ofAngle preset.angle = .ok rotations)
    {word : List Char} {positions : Finset Nat}
    (hinert : ∀ p ∈ (Occurrence.ofWord 0 word).zipIdx, p.2 ∈ positions → p.1.IsInert) :
    (∀ (s : Source α) (i : Nat), s.Grants →
      (∃ plant j, (preset.interpret word).run s i = (.ok plant, j)) ∧
      ∃ left j, (preset.interpret (omitting positions word)).run s i = (.ok left, j)) ∧
    ∀ (s s' : Source α) (i i' j j' : Nat) (plant left : Plant α),
      (preset.interpret word).run s i = (.ok plant, j) →
      (preset.interpret (omitting positions word)).run s' i' = (.ok left, j') →
      left.segments = plant.segments ∧
      left.blooms.map Ornament.unturned = plant.blooms.map Ornament.unturned ∧
      ((∀ p ∈ (Occurrence.ofWord 0 word).zipIdx, p.2 ∈ positions → p.1.IsIdle) →
        (plant.leaves.map Ornament.site).Sublist (left.leaves.map Ornament.site)) := by
  have homits : Omits Occurrence.IsInert 0 word (omitting positions word) :=
    omits_filter_zipIdx hinert
  constructor
  · intro s i hs
    exact ⟨(onlyRefuses_interpret hrotations _).exists_result hs i,
      (onlyRefuses_interpret hrotations _).exists_result hs i⟩
  · intro s s' i i' j j' plant left hplant hleft
    obtain ⟨hsegments, hleaves, -⟩ := run_interpret_ok hrotations hplant
    obtain ⟨hsegments', hleaves', -⟩ := run_interpret_ok hrotations hleft
    refine ⟨?_, ?_, ?_⟩
    · rw [hsegments, hsegments']
      exact Walk.filterMap_trace_of_omits rotations Walk.ignoresFollowing_segment? homits rfl
    · rw [unturned_of_run_interpret hrotations hplant, unturned_of_run_interpret hrotations hleft]
      congr 1
      exact Walk.filterMap_trace_of_omits rotations Walk.ignoresFollowing_bloom? homits rfl
    · intro hidle
      rw [hleaves, hleaves']
      exact Walk.leaves_sublist_of_omits rotations (omits_filter_zipIdx hidle) rfl

/-- A word with two symbols that are no commands and two closes that close nothing, one of them behind a
branch that is closed. -/
def strayWord : List Char := ['F', 'X', ']', '[', 'F', 'Y', ']', '*', ']', 'F']

/-- A word with stray symbols and closes makes the segments and blooms of the word without them. -/
theorem inert_symbols_move_nothing_strayWord :
    (∀ p ∈ (Occurrence.ofWord 0 strayWord).zipIdx,
      p.2 ∈ ({1, 2, 5, 8} : Finset Nat) → p.1.IsInert) ∧
    (∀ p ∈ (Occurrence.ofWord 0 strayWord).zipIdx, p.2 ∈ ({1, 5} : Finset Nat) → p.1.IsIdle) ∧
    (∃ rotations, Rotations.ofAngle (Species.flowerPreset (α := Float)).angle = .ok rotations) ∧
    omitting {1, 2, 5, 8} strayWord = ['F', '[', 'F', ']', '*', 'F'] ∧
    (∃ plant left : Plant Float, ∃ j j',
      (Species.flowerPreset.interpret strayWord).run (fun _ => .ok 0.5) 0 = (.ok plant, j) ∧
      (Species.flowerPreset.interpret (omitting {1, 2, 5, 8} strayWord)).run
        (fun _ => .ok 0.25) 0 = (.ok left, j') ∧
      left.segments = plant.segments ∧
      left.blooms.map Ornament.unturned = plant.blooms.map Ornament.unturned) ∧
    ∃ plant left : Plant Float, ∃ j j',
      (Species.flowerPreset.interpret strayWord).run (fun _ => .ok 0.5) 0 = (.ok plant, j) ∧
      (Species.flowerPreset.interpret (omitting {1, 5} strayWord)).run
        (fun _ => .ok 0.25) 0 = (.ok left, j') ∧
      (plant.leaves.map Ornament.site).Sublist (left.leaves.map Ornament.site) := by
  have hinert : ∀ p ∈ (Occurrence.ofWord 0 strayWord).zipIdx,
      p.2 ∈ ({1, 2, 5, 8} : Finset Nat) → p.1.IsInert := by decide
  have hidle : ∀ p ∈ (Occurrence.ofWord 0 strayWord).zipIdx,
      p.2 ∈ ({1, 5} : Finset Nat) → p.1.IsIdle := by decide
  have hrotations :
      ∃ rotations, Rotations.ofAngle (Species.flowerPreset (α := Float)).angle = .ok rotations :=
    ⟨_, rfl⟩
  refine ⟨hinert, hidle, hrotations, by decide, ?_, ?_⟩
  · obtain ⟨rotations, hok⟩ := hrotations
    obtain ⟨hplants, hsame⟩ := inert_symbols_move_nothing hok hinert
    obtain ⟨⟨plant, j, hplant⟩, -⟩ := hplants (fun _ => .ok 0.5) 0 fun _ => ⟨_, rfl⟩
    obtain ⟨-, left, j', hleft⟩ := hplants (fun _ => .ok 0.25) 0 fun _ => ⟨_, rfl⟩
    obtain ⟨hsegments, hblooms, -⟩ := hsame _ _ _ _ _ _ _ _ hplant hleft
    exact ⟨plant, left, j, j', hplant, hleft, hsegments, hblooms⟩
  · obtain ⟨rotations, hok⟩ := hrotations
    obtain ⟨hplants, hsame⟩ :=
      inert_symbols_move_nothing hok fun p hp hmem => .inl (hidle p hp hmem)
    obtain ⟨⟨plant, j, hplant⟩, -⟩ := hplants (fun _ => .ok 0.5) 0 fun _ => ⟨_, rfl⟩
    obtain ⟨-, left, j', hleft⟩ := hplants (fun _ => .ok 0.25) 0 fun _ => ⟨_, rfl⟩
    obtain ⟨-, -, hleaves⟩ := hsame _ _ _ _ _ _ _ _ hplant hleft
    exact ⟨plant, left, j, j', hplant, hleft, hleaves hidle⟩

end GrammarPreset

end PlantGrowth
