import PlantGrowth.Proofs.Turtle.Marks
import PlantGrowth.Species.BuiltIn

/-!
# Sizes by bracket depth

The measures of the turtle are those of its depth, and so are the measures of every turtle that it
remembers (`Walk.IsAt`); each symbol preserves this (`Walk.IsAt.step`). Therefore depth alone decides
how thick a segment is and how large a leaf or a bloom (`SizedByDepth`), in every word, balanced or
not.
-/

set_option autoImplicit false

namespace PlantGrowth

/-! ## Sizes at a depth -/

namespace GrammarPreset

variable {α : Type} [Scalar α]

/-- The radius of a turtle at a depth. -/
def radiusAt (preset : GrammarPreset α) : Nat → α
  | 0 => preset.radius
  | depth + 1 => preset.radiusAt depth * 0.8

/-- The length of the steps of a turtle at a depth. -/
def lengthAt (preset : GrammarPreset α) : Nat → α
  | 0 => preset.segmentLength
  | depth + 1 => preset.lengthAt depth * 0.88

/-- The radius of a segment at a depth, which is never below its least value. -/
def segmentRadiusAt (preset : GrammarPreset α) (depth : Nat) : α :=
  Scalar.maxOf (preset.radiusAt depth) 0.01

/-- The size of a leaf at a depth, which is never below its least value. -/
def leafScaleAt (preset : GrammarPreset α) (depth : Nat) : α :=
  Scalar.maxOf (0.6 * preset.lengthAt depth) 0.2

/-- The size of a bloom at a depth, which is never below its least value. -/
def bloomScaleAt (preset : GrammarPreset α) (depth : Nat) : α :=
  Scalar.maxOf (preset.radiusAt depth * 3.0) 0.3

/-- The plant of a word is sized by depth: one segment for each step ahead, one leaf at the end of
each segment that is a tip, one bloom for each bloom symbol, with the sizes of the depths of these
symbols, and no segment thinner than `0.01`. -/
structure SizedByDepth (preset : GrammarPreset α) (word : List Char) (plant : Plant α) : Prop where
  segments : plant.segments.map Segment.radius =
    (Occurrence.forwards word).map fun o => preset.segmentRadiusAt o.depth
  leaves : plant.leaves.map Ornament.site =
    (((Occurrence.forwards word).zip plant.segments).filter fun p => p.1.isTip).map
      fun p => ⟨p.2.finish, preset.leafScaleAt p.1.depth⟩
  blooms : plant.blooms.map Ornament.scale =
    (Occurrence.blooms word).map fun o => preset.bloomScaleAt o.depth
  floor : ∀ segment ∈ plant.segments, ¬ segment.radius < 0.01

end GrammarPreset

/-! ## The invariant of the walk -/

namespace Walk

variable {α : Type} [Scalar α] {preset : GrammarPreset α}

/-- A walk at a depth: the turtle has the measures of this depth, and the turtles that it remembers
have those of the depths below it, down to zero. -/
inductive IsAt (preset : GrammarPreset α) : Nat → Walk α → Prop where
  | ground (t : Turtle α) (length : t.length = preset.lengthAt 0)
      (radius : t.radius = preset.radiusAt 0) : IsAt preset 0 ⟨t, []⟩
  | inside (depth : Nat) (t base : Turtle α) (outer : List (Turtle α))
      (outside : IsAt preset depth ⟨base, outer⟩)
      (length : t.length = preset.lengthAt (depth + 1))
      (radius : t.radius = preset.radiusAt (depth + 1)) :
      IsAt preset (depth + 1) ⟨t, base :: outer⟩

namespace IsAt

variable {depth : Nat} {w : Walk α}

/-- The length of the next segment is the one of the depth. -/
theorem length_eq (h : IsAt preset depth w) : w.turtle.length = preset.lengthAt depth := by
  cases h with
  | ground t length radius => exact length
  | inside depth t base outer outside length radius => exact length

/-- The radius of the next segment is the one of the depth. -/
theorem radius_eq (h : IsAt preset depth w) : w.turtle.radius = preset.radiusAt depth := by
  cases h with
  | ground t length radius => exact radius
  | inside depth t base outer outside length radius => exact radius

/-- Only the measures of the turtle matter, not where it is or where it looks. -/
theorem of_measures_eq (h : IsAt preset depth w) {t : Turtle α}
    (hlength : t.length = w.turtle.length) (hradius : t.radius = w.turtle.radius) :
    IsAt preset depth ⟨t, w.opened⟩ := by
  cases h with
  | ground base length radius => exact .ground t (hlength.trans length) (hradius.trans radius)
  | inside depth base next outer outside length radius =>
    exact .inside depth t next outer outside (hlength.trans length) (hradius.trans radius)

/-- A branch opens one level deeper. -/
theorem push (h : IsAt preset depth w) :
    IsAt preset (depth + 1) ⟨w.turtle.branched, w.turtle :: w.opened⟩ := by
  refine .inside depth _ _ _ h ?_ ?_
  · show w.turtle.length * 0.88 = preset.lengthAt depth * 0.88
    rw [h.length_eq]
  · show w.turtle.radius * 0.8 = preset.radiusAt depth * 0.8
    rw [h.radius_eq]

/-- A close restores the turtle at the base of the branch, whatever happened inside it. -/
theorem pop (rotations : Rotations α) (h : IsAt preset depth w) :
    IsAt preset (depth - 1) (w.step rotations .pop) := by
  cases h with
  | ground t length radius => exact .ground t length radius
  | inside depth t base outer outside length radius => exact outside

/-- Every symbol keeps the walk at the depth that the brackets say. -/
theorem step (rotations : Rotations α) (h : IsAt preset depth w) (c : Char) :
    IsAt preset (depthAfter depth c) (w.step rotations (Command.ofChar c)) := by
  by_cases hopen : c = '['
  · subst hopen
    exact h.push
  · by_cases hclose : c = ']'
    · subst hclose
      exact h.pop rotations
    · -- Any other symbol changes at most where the turtle is and where it looks.
      rw [depthAfter, if_neg hopen, if_neg hclose]
      cases hcommand : Command.ofChar c with
      | push => exact absurd (Command.symbol_eq hcommand rfl) hopen
      | pop => exact absurd (Command.symbol_eq hcommand rfl) hclose
      | forward => exact h.of_measures_eq rfl rfl
      | turn turn => exact h.of_measures_eq rfl rfl
      | bloom => exact h
      | idle => exact h

end IsAt

/-- At first the turtle is at depth zero. -/
theorem isAt_start (preset : GrammarPreset α) :
    IsAt preset 0 ⟨.start preset.segmentLength preset.radius, []⟩ :=
  .ground _ rfl rfl

/-! ## The sizes of the marks -/

/-- The radii of the segments are those of the depths of their symbols. -/
theorem radius_of_trace (rotations : Rotations α) (word : List Char) {depth : Nat} {w : Walk α}
    (h : IsAt preset depth w) :
    ((trace rotations w (word.map Command.ofChar)).filterMap Mark.segment?).map Segment.radius =
      ((Occurrence.ofWord depth word).filter fun o => o.symbol = 'F').map
        fun o => preset.segmentRadiusAt o.depth := by
  have hkept (depth : Nat) (w : Walk α) (c : Char) (h : IsAt preset depth w) :
      IsAt preset (depthAfter depth c) (w.step rotations (Command.ofChar c)) := h.step rotations c
  refine map_segments_of_trace Segment.radius preset.segmentRadiusAt hkept ?_ word h
  intro depth w h
  rw [Turtle.segmentAhead, h.radius_eq]
  rfl

/-- The steps ahead that are tips leave leaves at the ends of their segments, with the scales of
their depths. -/
theorem leaf_of_trace (rotations : Rotations α) (word : List Char) {depth : Nat} {w : Walk α}
    (h : IsAt preset depth w) :
    (trace rotations w (word.map Command.ofChar)).filterMap Mark.leaf? =
      ((((Occurrence.ofWord depth word).filter fun o => o.symbol = 'F').zip
        ((trace rotations w (word.map Command.ofChar)).filterMap Mark.segment?)).filter
          fun p => p.1.isTip).map fun p => ⟨p.2.finish, preset.leafScaleAt p.1.depth⟩ := by
  induction word generalizing depth w with
  | nil => rfl
  | cons c rest ih =>
    have hleaf : w.turtle.leafAhead =
        ⟨w.turtle.segmentAhead.finish, preset.leafScaleAt depth⟩ := by
      rw [Turtle.leafAhead, h.length_eq]
      rfl
    have hsegment := w.segments_of_marks ⟨c, depth, rest⟩
    have hfirst := w.leaves_of_marks ⟨c, depth, rest⟩
    have hrest := ih (h.step rotations c)
    rw [List.map_cons, trace, List.filterMap_append, List.filterMap_append, hsegment, hfirst,
      hrest, Occurrence.ofWord]
    by_cases hforward : c = 'F'
    · subst hforward
      cases htip : Occurrence.isTip ⟨'F', depth, rest⟩ with
      | false => simp [htip]
      | true => simp [htip, hleaf]
    · simp [hforward]

/-- The sizes of the blooms are those of the depths of their symbols. -/
theorem bloomScale_of_trace (rotations : Rotations α) (word : List Char) {depth : Nat}
    {w : Walk α} (h : IsAt preset depth w) :
    ((trace rotations w (word.map Command.ofChar)).filterMap Mark.bloom?).map Site.scale =
      ((Occurrence.ofWord depth word).filter fun o => o.symbol = '*').map
        fun o => preset.bloomScaleAt o.depth := by
  induction word generalizing depth w with
  | nil => rfl
  | cons c rest ih =>
    have hscale : w.turtle.bloomHere.scale = preset.bloomScaleAt depth := by
      rw [Turtle.bloomHere, h.radius_eq]
      rfl
    have hfirst := w.blooms_of_marks ⟨c, depth, rest⟩
    have hrest := ih (h.step rotations c)
    rw [List.map_cons, trace, List.filterMap_append, List.map_append, hfirst, hrest,
      Occurrence.ofWord]
    by_cases hbloom : c = '*'
    · simp [hbloom, hscale]
    · simp [hbloom]

end Walk

namespace GrammarPreset

/-- A plant that is made of a word is sized by depth. Scalars in which `0.01` is below itself would
have no floor for radii. -/
theorem sizedByDepth_of_run_interpret {α : Type} [Scalar α] {preset : GrammarPreset α}
    {rotations : Rotations α} (hrotations : Rotations.ofAngle preset.angle = .ok rotations)
    (hfloor : ¬ (0.01 : α) < 0.01) {word : List Char} {s : Source α} {i j : Nat} {plant : Plant α}
    (h : (preset.interpret word).run s i = (.ok plant, j)) : preset.SizedByDepth word plant := by
  obtain ⟨hsegments, hleaves, hblooms⟩ := run_interpret_ok hrotations h
  have hstart := Walk.isAt_start preset
  have hradius : plant.segments.map Segment.radius =
      (Occurrence.forwards word).map fun o => preset.segmentRadiusAt o.depth := by
    rw [hsegments]
    exact Walk.radius_of_trace rotations word hstart
  refine ⟨hradius, ?_, ?_, ?_⟩
  · rw [hleaves, hsegments]
    exact Walk.leaf_of_trace rotations word hstart
  · have hscales : plant.blooms.map Ornament.scale =
        (plant.blooms.map Ornament.site).map Site.scale := by
      rw [List.map_map]
      rfl
    rw [hscales, hblooms]
    exact Walk.bloomScale_of_trace rotations word hstart
  · intro segment hsegment
    have hmem : segment.radius ∈ plant.segments.map Segment.radius :=
      List.mem_map_of_mem hsegment
    rw [hradius] at hmem
    obtain ⟨o, -, ho⟩ := List.mem_map.1 hmem
    rw [← ho, segmentRadiusAt, Scalar.maxOf]
    split
    · exact hfloor
    · assumption

/-- Thickness and size depend on bracket depth alone. In doubles and on every source, the plant of
a word is sized by depth, or the source refuses a draw and its reason is the outcome. -/
theorem sizes_depend_on_depth {preset : GrammarPreset Float} {rotations : Rotations Float}
    (hrotations : Rotations.ofAngle preset.angle = .ok rotations) (word : List Char)
    (s : Source Float) (i : Nat) :
    (∃ plant j, (preset.interpret word).run s i = (.ok plant, j) ∧
        preset.SizedByDepth word plant) ∨
      ∃ n e j, s n = .error e ∧ (preset.interpret word).run s i = (.error e, j) := by
  cases hrun : (preset.interpret word).run s i with
  | mk outcome j =>
    cases outcome with
    | ok plant =>
      have hfloor : ¬ (0.01 : Float) < 0.01 := by decide
      exact .inl ⟨plant, j, rfl, sizedByDepth_of_run_interpret hrotations hfloor hrun⟩
    | error e =>
      obtain ⟨n, hn⟩ := onlyRefuses_interpret hrotations word s i e j hrun
      exact .inr ⟨n, e, j, hn, rfl⟩

/-- A word with a close that closes nothing and an open that nothing closes. -/
def unbalancedWord : List Char := ['F', ']', 'F', '[', '+', 'F', '*', 'F']

/-- A word that is not well bracketed has its sizes from the depths, too. -/
theorem sizes_depend_on_depth_unbalancedWord :
    (∃ rotations, Rotations.ofAngle (Species.flowerPreset (α := Float)).angle = .ok rotations) ∧
      ∃ plant j, (Species.flowerPreset.interpret unbalancedWord).run (fun _ => .ok 0.5) 0 =
          (.ok plant, j) ∧
        (Species.flowerPreset (α := Float)).SizedByDepth unbalancedWord plant := by
  have hrotations :
      ∃ rotations, Rotations.ofAngle (Species.flowerPreset (α := Float)).angle = .ok rotations :=
    ⟨_, rfl⟩
  refine ⟨hrotations, ?_⟩
  obtain ⟨rotations, hok⟩ := hrotations
  rcases sizes_depend_on_depth hok unbalancedWord (fun _ => .ok 0.5) 0 with
    hplant | ⟨n, e, j, hrefused, -⟩
  · exact hplant
  · cases hrefused

end GrammarPreset

end PlantGrowth
