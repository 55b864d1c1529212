import PlantGrowth.Proofs.Turtle.Marks

/-!
# Invariants of turtles

A command that is no close changes the turtle in one of three ways: it goes ahead, it turns, or it begins
a branch. What these keep of a turtle, every walk keeps of its turtle and of all the turtles that it
remembers (`Turtle.Invariant.step`), since a close only brings back one of them. So each mark shows it
(`Turtle.Invariant.of_mem_trace`), and with the marks the plant (`GrammarPreset.forall_of_run_interpret`).
-/

set_option autoImplicit false

namespace PlantGrowth

variable {α : Type} {P : Turtle α → Prop}

/-- The turtle of a walk and every turtle that it remembers have a property. -/
def Walk.Throughout (P : Turtle α → Prop) (w : Walk α) : Prop := ∀ t ∈ w.turtle :: w.opened, P t

/-- A property of the first turtle holds throughout a walk at its start. -/
theorem Walk.throughout_start {t : Turtle α} (h : P t) : Throughout P ⟨t, []⟩ :=
  List.forall_mem_singleton.2 h

/-- Another turtle may take the place of the one that walks. -/
theorem Walk.Throughout.of_turtle {w : Walk α} (h : w.Throughout P) {t : Turtle α} (ht : P t) :
    Throughout P ⟨t, w.opened⟩ :=
  List.forall_mem_cons.2 ⟨ht, (List.forall_mem_cons.1 h).2⟩

/-- What holds of marks holds of what a view shows of them, if the view hides no part of a mark. -/
theorem Mark.forall_mem_filterMap {β : Type} {view : Mark α → Option β} {shown : β → Mark α}
    (hview : ∀ mark b, view mark = some b → mark = shown b) {Q : Mark α → Prop}
    {marks : List (Mark α)} (h : ∀ mark ∈ marks, Q mark) :
    ∀ b ∈ marks.filterMap view, Q (shown b) := by
  intro b hb
  obtain ⟨mark, hmark, hseen⟩ := List.mem_filterMap.1 hb
  rw [← hview mark b hseen]
  exact h mark hmark

variable [Scalar α] {rotations : Rotations α} {kind : Turn → Prop}

/-- A property that a turtle keeps when it goes ahead, when it begins a branch, and when it makes a turn
of some kind. -/
structure Turtle.Invariant (rotations : Rotations α) (kind : Turn → Prop) (P : Turtle α → Prop) :
    Prop where
  ahead : ∀ t, P t → P { t with position := t.ahead }
  turn : ∀ t turn, kind turn → P t → P { t with orientation := t.orientation * rotations.quat turn }
  branched : ∀ t, P t → P t.branched

/-- What holds of every mark that a turtle may leave holds of the marks of a command. -/
theorem Walk.forall_mem_marks {Q : Mark α → Prop} {w : Walk α}
    (hsegment : Q (.segment w.turtle.segmentAhead)) (hleaf : Q (.leaf w.turtle.leafAhead))
    (hbloom : Q (.bloom w.turtle.bloomHere)) (following : List Command) (c : Command) :
    ∀ mark ∈ w.marks following c, Q mark := by
  cases c with
  | forward =>
    rw [marks]
    split
    · exact List.forall_mem_cons.2 ⟨hsegment, List.forall_mem_singleton.2 hleaf⟩
    · exact List.forall_mem_singleton.2 hsegment
  | bloom => exact List.forall_mem_singleton.2 hbloom
  | turn | push | pop | idle => exact List.forall_mem_nil _

namespace Turtle.Invariant

/-- Every command keeps the property. -/
theorem step (hP : Invariant rotations kind P) {w : Walk α} (h : w.Throughout P) {c : Command}
    (hc : ∀ turn, c = .turn turn → kind turn) : (w.step rotations c).Throughout P := by
  have hturtle : P w.turtle := h w.turtle List.mem_cons_self
  cases c with
  | forward => exact h.of_turtle (hP.ahead w.turtle hturtle)
  | turn t => exact h.of_turtle (hP.turn w.turtle t (hc t rfl) hturtle)
  | push => exact List.forall_mem_cons.2 ⟨hP.branched w.turtle hturtle, h⟩
  | pop =>
    obtain ⟨turtle, opened⟩ := w
    cases opened with
    | nil => exact h
    | cons base outer => exact (List.forall_mem_cons.1 h).2
  | bloom => exact h
  | idle => exact h

/-- What the property says of the marks of a turtle holds of all marks of a walk. -/
theorem of_mem_trace (hP : Invariant rotations kind P) {Q : Mark α → Prop}
    (hmarks : ∀ (w : Walk α) (following : List Command) (c : Command), P w.turtle →
      ∀ mark ∈ w.marks following c, Q mark)
    {commands : List Command} (hcommands : ∀ turn, .turn turn ∈ commands → kind turn) {w : Walk α}
    (h : w.Throughout P) : ∀ mark ∈ Walk.trace rotations w commands, Q mark := by
  induction commands generalizing w with
  | nil => exact List.forall_mem_nil _
  | cons c rest ih =>
    have hnext := hP.step h (c := c) fun turn hturn => hcommands turn (hturn ▸ List.mem_cons_self)
    have hrest := ih (fun turn hturn => hcommands turn (List.mem_cons_of_mem c hturn)) hnext
    rw [Walk.trace]
    exact List.forall_mem_append.2 ⟨hmarks w rest c (h w.turtle List.mem_cons_self), hrest⟩

end Turtle.Invariant

/-- What holds of the marks of a word holds of the segments of its plant, and of the sites of its leaves
and blooms. -/
theorem GrammarPreset.forall_of_run_interpret {Q : Mark α → Prop} {preset : GrammarPreset α}
    (hrotations : Rotations.ofAngle preset.angle = .ok rotations) {word : List Char}
    (hmarks : ∀ mark ∈ preset.marksOf rotations word, Q mark) {s : Source α} {i j : Nat}
    {plant : Plant α} (h : (preset.interpret word).run s i = (.ok plant, j)) :
    (∀ segment ∈ plant.segments, Q (.segment segment)) ∧
      (∀ leaf ∈ plant.leaves, Q (.leaf leaf.site)) ∧ ∀ bloom ∈ plant.blooms, Q (.bloom bloom.site) := by
  obtain ⟨hsegments, hleaves, hblooms⟩ := run_interpret_ok hrotations h
  refine ⟨?_, ?_, ?_⟩
  · rw [hsegments]
    refine Mark.forall_mem_filterMap ?_ hmarks
    intro mark segment hseen
    cases mark <;> cases hseen
    rfl
  · have hsites : ∀ site ∈ plant.leaves.map Ornament.site, Q (.leaf site) := by
      rw [hleaves]
      refine Mark.forall_mem_filterMap ?_ hmarks
      intro mark site hseen
      cases mark <;> cases hseen
      rfl
    exact fun leaf hleaf => hsites leaf.site (List.mem_map_of_mem hleaf)
  · have hsites : ∀ site ∈ plant.blooms.map Ornament.site, Q (.bloom site) := by
      rw [hblooms]
      refine Mark.forall_mem_filterMap ?_ hmarks
      intro mark site hseen
      cases mark <;> cases hseen
      rfl
    exact fun bloom hbloom => hsites bloom.site (List.mem_map_of_mem hbloom)

end PlantGrowth
