import PlantGrowth.Proofs.Turtle.Count
import PlantGrowth.Proofs.Turtle.Nesting
import PlantGrowth.Proofs.Turtle.Parts
import PlantGrowth.Proofs.Turtle.Rotation
import PlantGrowth.Species.BuiltIn

/-!
# Branches in a word

A well bracketed word leaves the remembered turtles as it has found them (`Walk.opened_after_word`), so
a branch around it ends with the turtle that it began with, and with the same turtles remembered
(`Walk.after_branch`). What follows the branch is then walked as if there had been none: the segments
and blooms of the branch stand in one piece among those of the word without it
(`branch_leaves_no_trace`).
-/

set_option autoImplicit false

namespace PlantGrowth

variable {α : Type}

/-- A word as a branch: between its own brackets. -/
def branchOf (inner : List Char) : List Char := '[' :: (inner ++ [']'])

/-- The commands of a branch. -/
theorem map_branchOf (inner : List Char) :
    (branchOf inner).map Command.ofChar = .push :: (inner.map Command.ofChar ++ [.pop]) := by
  simp [branchOf, Command.ofChar]

/-- Two lists that begin alike and end alike, where the longer one has a piece of that size between the
common front and the common tail. -/
def HasPiece {β : Type} (size : Nat) (front without whole : List β) : Prop :=
  ∃ piece tail, piece.length = size ∧ whole = front ++ piece ++ tail ∧ without = front ++ tail

/-- A row with a piece in it has one in every view of it, too. -/
theorem HasPiece.map {β γ : Type} {size : Nat} {front without whole : List β}
    (h : HasPiece size front without whole) (f : β → γ) :
    HasPiece size (front.map f) (without.map f) (whole.map f) := by
  obtain ⟨piece, tail, hsize, rfl, rfl⟩ := h
  exact ⟨piece.map f, tail.map f, by rw [List.length_map, hsize], by simp, by simp⟩

/-- How a branch in a word shows in its plant, compared with the plant of the word in front of the branch
and that of the word without the branch: one segment for each step ahead in the branch and one bloom for
each bloom symbol, in one piece behind those of the word in front. All others are those of the word
without the branch, but for the rotations of the blooms. -/
structure Plant.IsGrafted [Scalar α] (inner : List Char) (first without whole : Plant α) :
    Prop where
  segments : HasPiece (inner.count 'F') first.segments without.segments whole.segments
  blooms : HasPiece (inner.count '*') (first.blooms.map Ornament.unturned)
    (without.blooms.map Ornament.unturned) (whole.blooms.map Ornament.unturned)

variable [Scalar α]

namespace Walk

variable (rotations : Rotations α)

/-! ## Coming back from a branch -/

/-- A branch brings back the whole walk, if what is inside it leaves the remembered turtles alone. -/
theorem after_push_pop {inner : List Command}
    (hinner : ∀ w : Walk α, (w.after rotations inner).opened = w.opened) (w : Walk α) :
    w.after rotations (.push :: (inner ++ [.pop])) = w := by
  rw [after_cons, after_append]
  have hopened : ((w.step rotations .push).after rotations inner).opened = w.turtle :: w.opened :=
    hinner _
  cases hlast : (w.step rotations .push).after rotations inner with
  | mk turtle opened =>
    rw [hlast] at hopened
    subst hopened
    rfl

/-- A symbol that is no bracket leaves the remembered turtles alone. -/
theorem opened_step {c : Char} (hc : c ≠ '[' ∧ c ≠ ']') (w : Walk α) :
    (w.step rotations (Command.ofChar c)).opened = w.opened := by
  cases hcommand : Command.ofChar c with
  | push => exact absurd (Command.symbol_eq hcommand rfl) hc.1
  | pop => exact absurd (Command.symbol_eq hcommand rfl) hc.2
  | forward | turn | bloom | idle => rfl

/-- The word of a tree leaves the remembered turtles as they are. -/
theorem opened_after_word (nesting : Nesting) (w : Walk α) :
    (w.after rotations (nesting.word.map Command.ofChar)).opened = w.opened := by
  induction nesting generalizing w with
  | done => rfl
  | symbol c hc rest ih =>
    rw [Nesting.word, List.map_cons, after_cons, ih, opened_step rotations hc]
  | branch inner rest ihinner ihrest =>
    have hword : (Nesting.branch inner rest).word.map Command.ofChar =
        .push :: (inner.word.map Command.ofChar ++ [.pop]) ++ rest.word.map Command.ofChar := by
      simp [Nesting.word, Command.ofChar]
    rw [hword, after_append, after_push_pop rotations ihinner, ihrest]

/-- A branch leaves the walk as it is. -/
theorem after_branch {inner : List Char} (h : WellBracketed inner) (w : Walk α) :
    w.after rotations ((branchOf inner).map Command.ofChar) = w := by
  obtain ⟨nesting, honly⟩ := Nesting.exists_unique_nesting h
  have hword : nesting.word = inner := (honly nesting).2 rfl
  rw [map_branchOf, ← hword]
  exact after_push_pop rotations (opened_after_word rotations nesting) w

/-! ## The marks with and without a branch -/

/-- Seen by a view that does not look ahead, a branch puts its marks behind those of the word in front
of it and changes no other. -/
theorem hasPiece_trace {β : Type} {view : Mark α → Option β} (hview : IgnoresFollowing view)
    {size : Nat} {front back inner : List Char} (hinner : WellBracketed inner)
    (hsize : ∀ w : Walk α, ((trace rotations w ((branchOf inner).map Command.ofChar)).filterMap
      view).length = size) (w : Walk α) :
    HasPiece size ((trace rotations w (front.map Command.ofChar)).filterMap view)
      ((trace rotations w ((front ++ back).map Command.ofChar)).filterMap view)
      ((trace rotations w ((front ++ branchOf inner ++ back).map Command.ofChar)).filterMap
        view) := by
  let base := w.after rotations (front.map Command.ofChar)
  refine ⟨(trace rotations base ((branchOf inner).map Command.ofChar)).filterMap view,
    (trace rotations base (back.map Command.ofChar)).filterMap view, hsize base, ?_, ?_⟩
  · rw [List.map_append, List.map_append, filterMap_trace_append hview,
      filterMap_trace_append hview, after_append, after_branch rotations hinner]
  · rw [List.map_append, filterMap_trace_append hview]

end Walk

/-! ## The plants with and without a branch -/

/-- A branch has the symbols of its inner word, and its brackets. -/
theorem count_branchOf {c : Char} (hc : c ≠ '[' ∧ c ≠ ']') (inner : List Char) :
    (branchOf inner).count c = inner.count c := by
  simp [branchOf, hc.1.symm, hc.2.symm]

namespace GrammarPreset

variable {preset : GrammarPreset α} {rotations : Rotations α}

/-- The plant of a word with a branch is the plant without it, with the branch grafted. -/
theorem isGrafted_of_run_interpret (hrotations : Rotations.ofAngle preset.angle = .ok rotations)
    {front back inner : List Char} (hinner : WellBracketed inner) {s s' s'' : Source α}
    {i i' i'' j j' j'' : Nat} {first without whole : Plant α}
    (hfirst : (preset.interpret front).run s i = (.ok first, j))
    (hwithout : (preset.interpret (front ++ back)).run s' i' = (.ok without, j'))
    (hwhole : (preset.interpret (front ++ branchOf inner ++ back)).run s'' i'' =
      (.ok whole, j'')) : Plant.IsGrafted inner first without whole := by
  constructor
  · rw [(run_interpret_ok hrotations hfirst).1, (run_interpret_ok hrotations hwithout).1,
      (run_interpret_ok hrotations hwhole).1]
    refine Walk.hasPiece_trace rotations Walk.ignoresFollowing_segment? hinner ?_ _
    intro w
    rw [Walk.length_segments_of_trace, count_branchOf (by decide)]
  · rw [unturned_of_run_interpret hrotations hfirst, unturned_of_run_interpret hrotations hwithout,
      unturned_of_run_interpret hrotations hwhole]
    refine HasPiece.map ?_ preset.unturnedBloom
    refine Walk.hasPiece_trace rotations Walk.ignoresFollowing_bloom? hinner ?_ _
    intro w
    rw [Walk.length_blooms_of_trace, count_branchOf (by decide)]

/-- A balanced branch leaves no trace on the rest of the plant, in front of it or behind it. Neither the
word in front nor the word behind needs to be balanced, and which draws the three plants are made of does
not matter; every source that refuses nothing makes them. -/
theorem branch_leaves_no_trace (hrotations : Rotations.ofAngle preset.angle = .ok rotations)
    (front back : List Char) {inner : List Char} (hinner : WellBracketed inner) :
    (∀ (s : Source α) (i : Nat), s.Grants →
      (∃ first j, (preset.interpret front).run s i = (.ok first, j)) ∧
      (∃ without j, (preset.interpret (front ++ back)).run s i = (.ok without, j)) ∧
      ∃ whole j, (preset.interpret (front ++ branchOf inner ++ back)).run s i = (.ok whole, j)) ∧
    ∀ (s s' s'' : Source α) (i i' i'' j j' j'' : Nat) (first without whole : Plant α),
      (preset.interpret front).run s i = (.ok first, j) →
      (preset.interpret (front ++ back)).run s' i' = (.ok without, j') →
      (preset.interpret (front ++ branchOf inner ++ back)).run s'' i'' = (.ok whole, j'') →
      Plant.IsGrafted inner first without whole := by
  constructor
  · intro s i hs
    exact ⟨(onlyRefuses_interpret hrotations _).exists_result hs i,
      (onlyRefuses_interpret hrotations _).exists_result hs i,
      (onlyRefuses_interpret hrotations _).exists_result hs i⟩
  · intro s s' s'' i i' i'' j j' j'' first without whole hfirst hwithout hwhole
    exact isGrafted_of_run_interpret hrotations hinner hfirst hwithout hwhole

/-- In front of the branch a close that closes nothing and a branch that stays open, behind it a close
for that branch; and in the branch another one. -/
theorem branch_leaves_no_trace_nested :
    WellBracketed ['F', '[', '/', 'F', '*', ']', 'F'] ∧
      (∃ rotations, Rotations.ofAngle (Species.flowerPreset (α := Float)).angle = .ok rotations) ∧
      ∃ first without whole : Plant Float, ∃ j j' j'',
        (Species.flowerPreset.interpret ['F', ']', '[', '&', 'F']).run (fun _ => .ok 0.5) 0 =
          (.ok first, j) ∧
        (Species.flowerPreset.interpret (['F', ']', '[', '&', 'F'] ++ ['F', ']', 'F', '*'])).run
          (fun _ => .ok 0.25) 0 = (.ok without, j') ∧
        (Species.flowerPreset.interpret (['F', ']', '[', '&', 'F'] ++
          branchOf ['F', '[', '/', 'F', '*', ']', 'F'] ++ ['F', ']', 'F', '*'])).run
          (fun _ => .ok 0.75) 0 = (.ok whole, j'') ∧
        Plant.IsGrafted ['F', '[', '/', 'F', '*', ']', 'F'] first without whole := by
  have hinner : WellBracketed ['F', '[', '/', 'F', '*', ']', 'F'] := by decide
  have hrotations :
      ∃ rotations, Rotations.ofAngle (Species.flowerPreset (α := Float)).angle = .ok rotations :=
    ⟨_, rfl⟩
  refine ⟨hinner, hrotations, ?_⟩
  obtain ⟨rotations, hok⟩ := hrotations
  obtain ⟨hplants, hgrafted⟩ :=
    branch_leaves_no_trace hok ['F', ']', '[', '&', 'F'] ['F', ']', 'F', '*'] hinner
  obtain ⟨⟨first, j, hfirst⟩, -, -⟩ := hplants (fun _ => .ok 0.5) 0 fun _ => ⟨_, rfl⟩
  obtain ⟨-, ⟨without, j', hwithout⟩, -⟩ := hplants (fun _ => .ok 0.25) 0 fun _ => ⟨_, rfl⟩
  obtain ⟨-, -, whole, j'', hwhole⟩ := hplants (fun _ => .ok 0.75) 0 fun _ => ⟨_, rfl⟩
  exact ⟨first, without, whole, j, j', j'', hfirst, hwithout, hwhole,
    hgrafted _ _ _ _ _ _ _ _ _ _ _ _ hfirst hwithout hwhole⟩

end GrammarPreset

end PlantGrowth
