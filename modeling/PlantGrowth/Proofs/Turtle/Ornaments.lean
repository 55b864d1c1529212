import PlantGrowth.Proofs.Turtle.Count
import PlantGrowth.Proofs.Turtle.Parts
import PlantGrowth.Species.BuiltIn

/-!
# Leaves, blooms and their draws

The symbols of a word say one by one what the plant bears: a segment for each step ahead, a leaf for each
step ahead that is a tip, a bloom for each bloom symbol. The source is asked three times for each leaf or
bloom and never else, in the order of the symbols; so the rotation of the one that comes after `j` others
is read off the draws from `3 * j` on (`symbols_bear_plant`).
-/

set_option autoImplicit false

namespace PlantGrowth

/-! ## The symbols that bear something -/

/-- The symbol at a position is a step ahead and a tip: no symbol follows it, or a close or the positive
yaw does. -/
def IsTipAt (word : List Char) (n : Nat) : Prop :=
  word[n]? = some 'F' ∧
    (word[n + 1]? = none ∨ word[n + 1]? = some ']' ∨ word[n + 1]? = some '+')

instance (word : List Char) (n : Nat) : Decidable (IsTipAt word n) :=
  inferInstanceAs (Decidable (_ ∧ _))

/-- The positions of the steps ahead in a word. -/
def steps (word : List Char) : List Nat :=
  (List.range word.length).filter fun n => word[n]? = some 'F'

/-- The positions of the symbols of a word that bear a leaf or a bloom. -/
def bearers (word : List Char) : List Nat :=
  (List.range word.length).filter fun n => IsTipAt word n ∨ word[n]? = some '*'

/-- Among the symbols that bear something, those that are no blooms are tips. -/
theorem isTipAt_iff_of_mem_bearers {word : List Char} {n : Nat} (h : n ∈ bearers word) :
    IsTipAt word n ↔ word[n]? ≠ some '*' := by
  have hbears : IsTipAt word n ∨ word[n]? = some '*' := by
    simpa using (List.mem_filter.1 h).2
  constructor
  · rintro ⟨hforward, -⟩ hbloom
    cases hforward.symm.trans hbloom
  · intro hbloom
    exact hbears.resolve_right hbloom

variable {α : Type} [Scalar α]

/-- The plant that the symbols of a word bear on the draws `u`. Each list is in the order of the symbols:
the segments of the steps ahead, the leaves of the steps ahead that are tips, and the blooms of the bloom
symbols, each where the turtle is after the symbols in front of it. A leaf or bloom after `j` others of
both kinds has its angles from the draws `3 * j`, `3 * j + 1` and `3 * j + 2`. -/
structure GrammarPreset.Bears (preset : GrammarPreset α) (rotations : Rotations α)
    (word : List Char) (u : Nat → α) (plant : Plant α) : Prop where
  segments : plant.segments = (steps word).map fun n =>
    (preset.turtleAfter rotations (word.take n)).segmentAhead
  leaves : plant.leaves = ((bearers word).zipIdx.filter fun p => IsTipAt word p.1).map fun p =>
    let site := (preset.turtleAfter rotations (word.take p.1)).leafAhead
    ⟨site.position, anglesFrom u (3 * p.2) 0.6, site.scale, preset.leafColor⟩
  blooms : plant.blooms = ((bearers word).zipIdx.filter fun p => word[p.1]? = some '*').map fun p =>
    let site := (preset.turtleAfter rotations (word.take p.1)).bloomHere
    ⟨site.position, anglesFrom u (3 * p.2) Scalar.pi, site.scale, preset.colorOfBlooms⟩

/-! ## The marks of a symbol -/

/-- Whether a mark is the site of a leaf or of a bloom. -/
def Mark.isOrnament : Mark α → Bool
  | .segment _ => false
  | .leaf _ => true
  | .bloom _ => true

omit [Scalar α] in
/-- The marks that are leaves or blooms take three draws each. -/
theorem Mark.sum_draws_eq (marks : List (Mark α)) :
    (marks.map draws).sum = 3 * (marks.filter isOrnament).length := by
  induction marks with
  | nil => rfl
  | cons mark marks ih =>
    rw [List.map_cons, List.sum_cons, ih]
    cases mark with
    | segment segment => exact Nat.zero_add _
    | leaf | bloom =>
      simp only [draws, List.filter_cons, isOrnament, if_true, List.length_cons]
      omega

/-- A view that shows exactly the elements of a kind. -/
theorem filterMap_eq_map_filter {β γ : Type} {P : β → Prop} [DecidablePred P] {f : β → γ}
    {view : β → Option γ} {xs : List β}
    (hview : ∀ x ∈ xs, view x = if P x then some (f x) else none) :
    xs.filterMap view = (xs.filter P).map f := by
  induction xs with
  | nil => rfl
  | cons x xs ih =>
    have hrest := ih fun y hy => hview y (List.mem_cons_of_mem x hy)
    rw [List.filterMap_cons, hview x List.mem_cons_self, hrest]
    by_cases h : P x
    · simp [h]
    · simp [h]

/-- Lists of one or no element, joined, are the elements that pass the test. -/
theorem flatMap_ite_singleton {β γ : Type} (P : β → Prop) [DecidablePred P] (f : β → γ)
    (xs : List β) : (xs.flatMap fun x => if P x then [f x] else []) = (xs.filter P).map f := by
  have hlist (x : β) : (if P x then [f x] else []) = (if P x then some (f x) else none).toList := by
    split <;> rfl
  simp only [hlist, ← List.filterMap_eq_flatMap_toList]
  exact filterMap_eq_map_filter fun _ _ => rfl

namespace Walk

variable (rotations : Rotations α) (w : Walk α) (word : List Char)

/-- The turtle in front of the symbol at a position. -/
def turtleAt (n : Nat) : Turtle α :=
  (w.after rotations ((word.take n).map Command.ofChar)).turtle

/-- The mark of a symbol that bears something. -/
def ornamentAt (n : Nat) : Mark α :=
  if word[n]? = some '*' then .bloom (w.turtleAt rotations word n).bloomHere
  else .leaf (w.turtleAt rotations word n).leafAhead

/-- The marks at a place of a word, by the symbol there. -/
theorem marksAt_eq (n : Nat) :
    w.marksAt rotations word n =
      if word[n]? = some 'F' then
        if IsTipAt word n then
          [.segment (w.turtleAt rotations word n).segmentAhead, w.ornamentAt rotations word n]
        else [.segment (w.turtleAt rotations word n).segmentAhead]
      else if word[n]? = some '*' then [w.ornamentAt rotations word n]
      else [] := by
  have hsymbol : word[n]? = (word.drop n).head? := List.head?_drop.symm
  have hnext : word[n + 1]? = (word.drop n).tail.head? := by
    rw [List.tail_drop, List.head?_drop]
  simp only [IsTipAt, ornamentAt, hsymbol, hnext, marksAt]
  cases word.drop n with
  | nil => rfl
  | cons c rest =>
    have hmarks := (w.after rotations ((word.take n).map Command.ofChar)).marks_ofChar ⟨c, 0, rest⟩
    have htip : Occurrence.isTip ⟨c, 0, rest⟩ = true ↔
        rest.head? = none ∨ rest.head? = some ']' ∨ rest.head? = some '+' := by
      cases rest with
      | nil => simp [Occurrence.isTip]
      | cons d more => simp [Occurrence.isTip]
    refine hmarks.trans ?_
    simp only [List.head?_cons, List.tail_cons, Option.some.injEq, htip]
    by_cases hforward : c = 'F'
    · subst hforward
      simp [turtleAt]
    · by_cases hbloom : c = '*'
      · subst hbloom
        simp [turtleAt]
      · simp [hforward, hbloom]

/-- The segment at a place of a word. -/
theorem segments_marksAt (n : Nat) :
    (w.marksAt rotations word n).filterMap Mark.segment? =
      if word[n]? = some 'F' then [(w.turtleAt rotations word n).segmentAhead] else [] := by
  rw [marksAt_eq, ornamentAt]
  by_cases hforward : word[n]? = some 'F'
  · simp only [hforward, if_true]
    split <;> rfl
  · simp only [hforward, if_false]
    split <;> rfl

/-- The leaf or bloom at a place of a word. -/
theorem ornaments_marksAt (n : Nat) :
    (w.marksAt rotations word n).filter Mark.isOrnament =
      if IsTipAt word n ∨ word[n]? = some '*' then [w.ornamentAt rotations word n] else [] := by
  have hornament : (w.ornamentAt rotations word n).isOrnament = true := by
    rw [ornamentAt]
    split <;> rfl
  have hsegment (segment : Segment α) : (Mark.segment segment).isOrnament = false := rfl
  rw [marksAt_eq]
  by_cases hforward : word[n]? = some 'F'
  · by_cases htip : IsTipAt word n
    · simp [hforward, htip, hsegment, hornament]
    · simp [hforward, htip, hsegment]
  · have htip : ¬ IsTipAt word n := fun h => hforward h.1
    by_cases hbloom : word[n]? = some '*'
    · simp [hbloom, hornament]
    · simp [hforward, htip, hbloom]

/-- The segments of a walk are those at the places of its steps ahead. -/
theorem segments_of_trace :
    (trace rotations w (word.map Command.ofChar)).filterMap Mark.segment? =
      (steps word).map fun n => (w.turtleAt rotations word n).segmentAhead := by
  rw [trace_eq_flatMap, List.filterMap_flatMap, steps, ← flatMap_ite_singleton]
  simp only [segments_marksAt]

/-- The leaves and blooms of a walk are those at the places that bear one. -/
theorem ornaments_of_trace :
    (trace rotations w (word.map Command.ofChar)).filter Mark.isOrnament =
      (bearers word).map (w.ornamentAt rotations word) := by
  rw [trace_eq_flatMap, List.filter_flatMap, bearers, ← flatMap_ite_singleton]
  simp only [ornaments_marksAt]

end Walk

/-! ## The draws of the marks -/

namespace GrammarPreset

variable (preset : GrammarPreset α) {u : Nat → α}

/-- The organ that a mark becomes on the draws from `n` on. -/
def organ (u : Nat → α) (n : Nat) : Mark α → Organ α
  | .segment s => .segment s
  | .leaf site => .leaf ⟨site.position, anglesFrom u n 0.6, site.scale, preset.leafColor⟩
  | .bloom site =>
    .bloom ⟨site.position, anglesFrom u n Scalar.pi, site.scale, preset.colorOfBlooms⟩

/-- The organs that marks become on the draws from `n` on. -/
def organs (u : Nat → α) : Nat → List (Mark α) → List (Organ α)
  | _, [] => []
  | n, mark :: marks => preset.organ u n mark :: organs u (n + mark.draws) marks

/-- The draws of a mark orient it. -/
theorem run_orient {s : Source α} {i n : Nat} (mark : Mark α)
    (hs : ∀ k < mark.draws, s (i + k) = .ok (u (n + k))) :
    (preset.orient mark).run s i = (.ok (preset.organ u n mark), i + mark.draws) := by
  cases mark with
  | segment segment => rfl
  | leaf site => exact Drawing.run_bind_of_ok (Drawing.run_rotation hs 0.6)
  | bloom site => exact Drawing.run_bind_of_ok (Drawing.run_rotation hs Scalar.pi)

/-- The draws of some marks orient them one after the other. -/
theorem run_mapM_orient {s : Source α} {i n : Nat} (marks : List (Mark α))
    (hs : ∀ k < (marks.map Mark.draws).sum, s (i + k) = .ok (u (n + k))) :
    (marks.mapM preset.orient).run s i =
      (.ok (preset.organs u n marks), i + (marks.map Mark.draws).sum) := by
  induction marks generalizing i n with
  | nil => rfl
  | cons mark marks ih =>
    rw [List.map_cons, List.sum_cons] at hs ⊢
    have hfirst := preset.run_orient (u := u) (n := n) mark fun k hk => hs k (by omega)
    have hrest := ih (i := i + mark.draws) (n := n + mark.draws) fun k hk => by
      rw [Nat.add_assoc, Nat.add_assoc]
      exact hs (mark.draws + k) (by omega)
    rw [List.mapM_cons, Drawing.run_bind_of_ok hfirst, Drawing.run_bind_of_ok hrest,
      Nat.add_assoc]
    rfl

/-- What a view shows of the organs, when it does not show segments: the sites are numbered, and the
organ with the number `j` has its draws from `3 * j` on. -/
theorem filterMap_organs {β : Type} {view : Organ α → Option β}
    (hview : ∀ segment, view (.segment segment) = none) (j : Nat) (marks : List (Mark α)) :
    (preset.organs u (3 * j) marks).filterMap view =
      ((marks.filter Mark.isOrnament).zipIdx j).filterMap fun p =>
        view (preset.organ u (3 * p.2) p.1) := by
  induction marks generalizing j with
  | nil => rfl
  | cons mark marks ih =>
    cases mark with
    | segment segment =>
      rw [organs, organ, List.filterMap_cons_none (hview segment)]
      exact ih j
    | leaf | bloom =>
      simp only [organs, Mark.draws, List.filter_cons, Mark.isOrnament, if_true, List.zipIdx_cons,
        List.filterMap_cons]
      rw [← ih (j + 1), Nat.mul_succ]

/-- The organs of a kind among those of a word, told by the symbols that bear something. -/
theorem filterMap_organs_marksOf {β : Type} {view : Organ α → Option β}
    (hview : ∀ segment, view (.segment segment) = none) (u : Nat → α) (rotations : Rotations α)
    (word : List Char) {P : Nat × Nat → Prop} [DecidablePred P] {f : Nat × Nat → β}
    (hbears : ∀ p ∈ (bearers word).zipIdx,
      view (preset.organ u (3 * p.2) (Walk.ornamentAt rotations
        ⟨.start preset.segmentLength preset.radius, []⟩ word p.1)) =
          if P p then some (f p) else none) :
    (preset.organs u 0 (preset.marksOf rotations word)).filterMap view =
      ((bearers word).zipIdx.filter P).map f := by
  have hnumbered := preset.filterMap_organs (u := u) hview 0 (preset.marksOf rotations word)
  rw [Nat.mul_zero, marksOf, Walk.ornaments_of_trace, List.zipIdx_map, List.filterMap_map]
    at hnumbered
  rw [marksOf, hnumbered]
  exact filterMap_eq_map_filter hbears

/-- The leaves stand at the tips of the word, and are turned by the draws of their places among all
that is borne. -/
theorem leaves_of_organs (u : Nat → α) (rotations : Rotations α) (word : List Char) :
    (preset.organs u 0 (preset.marksOf rotations word)).filterMap Organ.leaf? =
      ((bearers word).zipIdx.filter fun p => IsTipAt word p.1).map fun p =>
        let site := (preset.turtleAfter rotations (word.take p.1)).leafAhead
        ⟨site.position, anglesFrom u (3 * p.2) 0.6, site.scale, preset.leafColor⟩ := by
  refine preset.filterMap_organs_marksOf (fun _ => rfl) u rotations word ?_
  intro p hp
  have htip := isTipAt_iff_of_mem_bearers (List.fst_mem_of_mem_zipIdx hp)
  rw [Walk.ornamentAt]
  by_cases hbloom : word[p.1]? = some '*'
  · rw [if_pos hbloom, if_neg fun h => htip.1 h hbloom]
    rfl
  · rw [if_neg hbloom, if_pos (htip.2 hbloom)]
    rfl

/-- The blooms stand at their symbols, and are turned by the draws of their places among all that is
borne. -/
theorem blooms_of_organs (u : Nat → α) (rotations : Rotations α) (word : List Char) :
    (preset.organs u 0 (preset.marksOf rotations word)).filterMap Organ.bloom? =
      ((bearers word).zipIdx.filter fun p => word[p.1]? = some '*').map fun p =>
        let site := (preset.turtleAfter rotations (word.take p.1)).bloomHere
        ⟨site.position, anglesFrom u (3 * p.2) Scalar.pi, site.scale, preset.colorOfBlooms⟩ := by
  refine preset.filterMap_organs_marksOf (fun _ => rfl) u rotations word ?_
  intro p _
  rw [Walk.ornamentAt]
  by_cases hbloom : word[p.1]? = some '*'
  · rw [if_pos hbloom, if_pos hbloom]
    rfl
  · rw [if_neg hbloom, if_neg hbloom]
    rfl

/-- The symbols of a word bear its plant, from three draws for each leaf and each bloom: on a source that
grants these draws the plant is made, and no other draw is taken. -/
theorem symbols_bear_plant {preset : GrammarPreset α} {rotations : Rotations α}
    (hrotations : Rotations.ofAngle preset.angle = .ok rotations) (word : List Char)
    {s : Source α} {i : Nat} {u : Nat → α}
    (hs : ∀ k < 3 * (bearers word).length, s (i + k) = .ok (u k)) :
    ∃ plant, (preset.interpret word).run s i =
        (.ok plant, i + 3 * (plant.leaves.length + plant.blooms.length)) ∧
      preset.Bears rotations word u plant := by
  let marks := preset.marksOf rotations word
  let plant := Plant.ofOrgans (preset.organs u 0 marks)
  have hnumber : (marks.map Mark.draws).sum = 3 * (bearers word).length := by
    show ((preset.marksOf rotations word).map Mark.draws).sum = _
    rw [Mark.sum_draws_eq, marksOf, Walk.ornaments_of_trace, List.length_map]
  have horgans : (marks.mapM preset.orient).run s i =
      (.ok (preset.organs u 0 marks), i + (marks.map Mark.draws).sum) := by
    refine preset.run_mapM_orient marks fun k hk => ?_
    rw [Nat.zero_add]
    exact hs k (hnumber ▸ hk)
  have hrun : (preset.interpret word).run s i =
      (.ok plant, i + (marks.map Mark.draws).sum) := by
    rw [interpret_eq hrotations, Drawing.run_bind_of_ok horgans]
    rfl
  obtain ⟨hsegments, hleaves, hblooms⟩ := run_interpret_ok hrotations hrun
  have hdraws : (marks.map Mark.draws).sum =
      3 * (plant.leaves.length + plant.blooms.length) := by
    rw [Mark.sum_draws, ← hleaves, ← hblooms, List.length_map, List.length_map]
  rw [hdraws] at hrun
  refine ⟨plant, hrun, ?_, ?_, ?_⟩
  · rw [hsegments, marksOf, Walk.segments_of_trace]
    rfl
  · exact preset.leaves_of_organs u rotations word
  · exact preset.blooms_of_organs u rotations word

/-- Two tips and two blooms, a step ahead that goes on, a close that closes nothing and a symbol without
a meaning. -/
def mixedWord : List Char := ['F', '+', ']', '*', '[', 'F', 'X', '*', 'F']

/-- Of the four symbols of this word that bear something, two bear leaves and two bear blooms, so twelve
draws are taken. -/
theorem symbols_bear_plant_mixedWord :
    bearers mixedWord = [0, 3, 7, 8] ∧
      ∃ rotations, Rotations.ofAngle (Species.flowerPreset (α := Float)).angle = .ok rotations ∧
        ∃ plant, (Species.flowerPreset.interpret mixedWord).run
            (fun n => .ok (1 / Scalar.ofNat (n + 2))) 0 = (.ok plant, 12) ∧
          plant.leaves.length = 2 ∧ plant.blooms.length = 2 ∧
          (Species.flowerPreset (α := Float)).Bears rotations mixedWord
            (fun n => 1 / Scalar.ofNat (n + 2)) plant := by
  have hbearers : bearers mixedWord = [0, 3, 7, 8] := by decide
  have hrotations :
      ∃ rotations, Rotations.ofAngle (Species.flowerPreset (α := Float)).angle = .ok rotations :=
    ⟨_, rfl⟩
  obtain ⟨rotations, hok⟩ := hrotations
  obtain ⟨plant, hrun, hbears⟩ := symbols_bear_plant hok mixedWord
    (s := fun n => .ok (1 / Scalar.ofNat (n + 2))) (i := 0)
    (u := fun n => 1 / Scalar.ofNat (n + 2)) fun k _ => by rw [Nat.zero_add]
  have hleaves : plant.leaves.length = 2 := by
    rw [hbears.leaves, List.length_map, hbearers]
    decide
  have hblooms : plant.blooms.length = 2 := by
    rw [hbears.blooms, List.length_map, hbearers]
    decide
  rw [hleaves, hblooms] at hrun
  exact ⟨hbearers, rotations, hok, plant, hrun, hleaves, hblooms, hbears⟩

end GrammarPreset

end PlantGrowth
