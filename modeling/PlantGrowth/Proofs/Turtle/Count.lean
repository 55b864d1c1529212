import Mathlib.Data.List.Chain
import PlantGrowth.Proofs.Draw.Tally
import PlantGrowth.Proofs.Turtle.Marks

/-!
# How much a word bears

A word has a segment for each step ahead and a bloom for each bloom symbol. It has no leaf where
every step ahead goes on (`GoesOn`): another symbol than a close or the positive yaw follows. Its
draws are then three for each bloom (`takes_interpret_of_isChain`).
-/

set_option autoImplicit false

namespace PlantGrowth

/-- A symbol and the one after it: a step ahead is followed neither by a close nor by the positive
yaw. -/
def GoesOn (c d : Char) : Prop := c = 'F' → d ≠ ']' ∧ d ≠ '+'

instance (c d : Char) : Decidable (GoesOn c d) := inferInstanceAs (Decidable (_ → _))

/-! ## The marks of a word -/

namespace Walk

variable {α : Type} [Scalar α]

/-- A walk leaves a segment for each step ahead. -/
theorem length_segments_of_trace (rotations : Rotations α) (w : Walk α) (word : List Char) :
    ((trace rotations w (word.map Command.ofChar)).filterMap Mark.segment?).length =
      word.count 'F' := by
  induction word generalizing w with
  | nil => rfl
  | cons c rest ih =>
    have hfirst := w.segments_of_marks ⟨c, 0, rest⟩
    rw [List.map_cons, trace, List.filterMap_append, hfirst, List.length_append, ih]
    by_cases hforward : c = 'F'
    · simp [hforward, Nat.add_comm]
    · simp [hforward]

/-- A walk leaves a bloom for each of their symbols. -/
theorem length_blooms_of_trace (rotations : Rotations α) (w : Walk α) (word : List Char) :
    ((trace rotations w (word.map Command.ofChar)).filterMap Mark.bloom?).length =
      word.count '*' := by
  induction word generalizing w with
  | nil => rfl
  | cons c rest ih =>
    have hfirst := w.blooms_of_marks ⟨c, 0, rest⟩
    rw [List.map_cons, trace, List.filterMap_append, hfirst, List.length_append, ih]
    by_cases hbloom : c = '*'
    · simp [hbloom, Nat.add_comm]
    · simp [hbloom]

/-- A word bears no leaf if every step ahead goes on. The end of the word counts as a close. -/
theorem leaves_of_trace_eq_nil (rotations : Rotations α) (w : Walk α) {word : List Char}
    (h : (word ++ [']']).IsChain GoesOn) :
    (trace rotations w (word.map Command.ofChar)).filterMap Mark.leaf? = [] := by
  induction word generalizing w with
  | nil => rfl
  | cons c rest ih =>
    have hfirst := w.leaves_of_marks ⟨c, 0, rest⟩
    have htip : c = 'F' → Occurrence.isTip ⟨c, 0, rest⟩ = false := by
      intro hforward
      cases rest with
      | nil => exact absurd rfl (h.rel hforward).1
      | cons d more =>
        obtain ⟨hclose, hyaw⟩ := h.rel hforward
        simp [Occurrence.isTip, hclose, hyaw]
    rw [List.map_cons, trace, List.filterMap_append, hfirst, ih _ h.tail, List.append_nil]
    split
    · next hforward => rw [htip hforward]; rfl
    · rfl

end Walk

/-! ## The draws of a word -/

/-- How many draws orient a mark. -/
def Mark.draws {α : Type} : Mark α → Nat
  | .segment _ => 0
  | .leaf _ => 3
  | .bloom _ => 3

/-- Leaves and blooms are the marks that take draws, three each. -/
theorem Mark.sum_draws {α : Type} (marks : List (Mark α)) :
    (marks.map Mark.draws).sum =
      3 * ((marks.filterMap Mark.leaf?).length + (marks.filterMap Mark.bloom?).length) := by
  induction marks with
  | nil => rfl
  | cons mark marks ih =>
    rw [List.map_cons, List.sum_cons, ih]
    cases mark with
    | segment segment => exact Nat.zero_add _
    | leaf site =>
      simp only [Mark.draws, List.filterMap_cons, Mark.leaf?, Mark.bloom?, List.length_cons]
      omega
    | bloom site =>
      simp only [Mark.draws, List.filterMap_cons, Mark.leaf?, Mark.bloom?, List.length_cons]
      omega

namespace GrammarPreset

variable {α : Type} [Scalar α] {preset : GrammarPreset α}

/-- To orient a mark takes the draws of the mark. -/
theorem takes_orient (preset : GrammarPreset α) (mark : Mark α) :
    (preset.orient mark).Takes mark.draws := by
  cases mark with
  | segment segment => exact .pure _
  | leaf site => exact (Drawing.Takes.rotation _).bind fun _ => .pure _
  | bloom site => exact (Drawing.Takes.rotation _).bind fun _ => .pure _

/-- A word takes the draws of its marks. -/
theorem takes_interpret {rotations : Rotations α}
    (hrotations : Rotations.ofAngle preset.angle = .ok rotations) (word : List Char) :
    (preset.interpret word).Takes ((preset.marksOf rotations word).map Mark.draws).sum := by
  rw [interpret_eq hrotations]
  exact (Drawing.Takes.mapM preset.takes_orient _).bind fun organs => .pure (Plant.ofOrgans organs)

/-- A word without leaves takes three draws for each of its blooms. -/
theorem takes_interpret_of_isChain {rotations : Rotations α}
    (hrotations : Rotations.ofAngle preset.angle = .ok rotations) {word : List Char}
    (hword : (word ++ [']']).IsChain GoesOn) :
    (preset.interpret word).Takes (3 * word.count '*') := by
  have hleaves : (preset.marksOf rotations word).filterMap Mark.leaf? = [] :=
    Walk.leaves_of_trace_eq_nil rotations _ hword
  have hblooms : ((preset.marksOf rotations word).filterMap Mark.bloom?).length = word.count '*' :=
    Walk.length_blooms_of_trace rotations _ word
  have hdraws : ((preset.marksOf rotations word).map Mark.draws).sum = 3 * word.count '*' := by
    rw [Mark.sum_draws, hleaves, hblooms, List.length_nil, Nat.zero_add]
  rw [← hdraws]
  exact takes_interpret hrotations word

variable {rotations : Rotations α} {word : List Char} {plant : Plant α} {s : Source α} {i j : Nat}

/-- The numbers of segments and blooms of the plant of a word. -/
theorem lengths_of_run_interpret (hrotations : Rotations.ofAngle preset.angle = .ok rotations)
    (h : (preset.interpret word).run s i = (.ok plant, j)) :
    plant.segments.length = word.count 'F' ∧ plant.blooms.length = word.count '*' := by
  obtain ⟨hsegments, -, hblooms⟩ := run_interpret_ok hrotations h
  constructor
  · rw [hsegments]
    exact Walk.length_segments_of_trace rotations _ word
  · rw [← List.length_map Ornament.site, hblooms]
    exact Walk.length_blooms_of_trace rotations _ word

/-- A word in which every step ahead goes on bears no leaf. -/
theorem leaves_of_run_interpret_eq_nil
    (hrotations : Rotations.ofAngle preset.angle = .ok rotations)
    (h : (preset.interpret word).run s i = (.ok plant, j))
    (hword : (word ++ [']']).IsChain GoesOn) : plant.leaves = [] := by
  obtain ⟨-, hleaves, -⟩ := run_interpret_ok hrotations h
  have hnone := Walk.leaves_of_trace_eq_nil rotations
    ⟨.start preset.segmentLength preset.radius, []⟩ hword
  exact List.map_eq_nil_iff.1 (hleaves.trans hnone)

/-- Marks that are all segments are oriented without a draw. -/
theorem mapM_orient_eq_pure (preset : GrammarPreset α) {marks : List (Mark α)}
    (hleaves : marks.filterMap Mark.leaf? = []) (hblooms : marks.filterMap Mark.bloom? = []) :
    marks.mapM preset.orient = pure ((marks.filterMap Mark.segment?).map Organ.segment) := by
  induction marks with
  | nil => rfl
  | cons mark marks ih =>
    cases mark with
    | segment segment =>
      rw [List.mapM_cons, ih hleaves hblooms, orient, pure_bind, pure_bind]
      rfl
    | leaf site => cases hleaves
    | bloom site => cases hblooms

/-- A word without leaves and blooms stands for its segments, and takes no draw. -/
theorem interpret_eq_pure (hrotations : Rotations.ofAngle preset.angle = .ok rotations)
    (hgoes : (word ++ [']']).IsChain GoesOn) (hblooms : word.count '*' = 0) :
    preset.interpret word =
      pure ⟨(preset.marksOf rotations word).filterMap Mark.segment?, [], []⟩ := by
  have hleaf : (preset.marksOf rotations word).filterMap Mark.leaf? = [] :=
    Walk.leaves_of_trace_eq_nil rotations _ hgoes
  have hbloom : (preset.marksOf rotations word).filterMap Mark.bloom? = [] := by
    rw [← List.length_eq_zero_iff, marksOf, Walk.length_blooms_of_trace, hblooms]
  rw [interpret_eq hrotations, preset.mapM_orient_eq_pure hleaf hbloom, pure_bind]
  congr 1
  simp [Plant.ofOrgans, List.filterMap_map, Function.comp_def, Organ.segment?, Organ.leaf?,
    Organ.bloom?]

end GrammarPreset

end PlantGrowth
