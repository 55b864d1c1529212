import PlantGrowth.Proofs.Space.Frame
import PlantGrowth.Proofs.Turtle.Parts
import PlantGrowth.Proofs.Turtle.StepLength

/-!
# Plants in the frame of a turtle

The turtle turns in its own frame. So a word that closes only branches of its own is walked the same
way from everywhere: in exact arithmetic each command keeps the walk that starts at some turtle the
placement, by that turtle, of the walk that starts at the origin (`Walk.step_placedBy`), and what the
word adds to a plant is a rigid copy of the plant that it makes alone (`sub_plant_is_placed`).
-/

set_option autoImplicit false

namespace PlantGrowth

/-! ## Placement by a turtle -/

section Placement

variable {α : Type} [Scalar α]

/-- A point that is measured in the frame of a turtle, as it lies in space. -/
def Vec3.placedBy (point : Vec3 α) (base : Turtle α) : Vec3 α :=
  base.position + base.orientation.rotate point

/-- A segment that is measured in the frame of a turtle, as it lies in space. -/
def Segment.placedBy (s : Segment α) (base : Turtle α) : Segment α :=
  ⟨s.start.placedBy base, s.finish.placedBy base, s.radius⟩

/-- A site that is measured in the frame of a turtle, as it lies in space. -/
def Site.placedBy (site : Site α) (base : Turtle α) : Site α :=
  ⟨site.position.placedBy base, site.scale⟩

/-- A mark that is measured in the frame of a turtle, as it lies in space. -/
def Mark.placedBy : Mark α → Turtle α → Mark α
  | .segment s, base => .segment (s.placedBy base)
  | .leaf site, base => .leaf (site.placedBy base)
  | .bloom site, base => .bloom (site.placedBy base)

/-- A turtle in the frame of another one. It keeps its own measures. -/
def Turtle.placedBy (t base : Turtle α) : Turtle α :=
  ⟨t.position.placedBy base, base.orientation * t.orientation, t.length, t.radius⟩

/-- A walk in the frame of a turtle, inside branches that were opened before it. -/
def Walk.placedBy (w : Walk α) (base : Turtle α) (before : List (Turtle α)) : Walk α :=
  ⟨w.turtle.placedBy base, (w.opened.map fun t => t.placedBy base) ++ before⟩

/-- The segment of a mark is placed with it. -/
theorem Mark.segment?_placedBy (mark : Mark α) (base : Turtle α) :
    (mark.placedBy base).segment? = mark.segment?.map fun s => s.placedBy base := by
  cases mark <;> simp [placedBy, segment?]

end Placement

namespace Turtle

variable (base t : Turtle ℝ)

/-- The turtle at the start is placed at the base. -/
theorem start_placedBy : (start base.length base.radius).placedBy base = base := by
  have hposition : Vec3.origin.placedBy base = base.position := by
    unfold Vec3.placedBy
    rw [Quat.rotate_origin, Vec3.add_origin]
  have horientation : base.orientation * Quat.identity = base.orientation :=
    Quat.mul_identity base.orientation
  simp only [start, placedBy, hposition, horientation]

/-- A placed turtle walks to the placed point. -/
theorem ahead_placedBy : (t.placedBy base).ahead = t.ahead.placedBy base := by
  have hheading : (base.orientation * t.orientation).rotate Vec3.up =
      base.orientation.rotate (t.orientation.rotate Vec3.up) :=
    Quat.rotate_mul base.orientation t.orientation Vec3.up
  simp only [ahead, placedBy, Vec3.placedBy, hheading]
  rw [Vec3.add_assoc, Quat.rotate_add, Quat.rotate_scale]

/-- The segment ahead is placed with the turtle. -/
theorem segmentAhead_placedBy : (t.placedBy base).segmentAhead = t.segmentAhead.placedBy base := by
  unfold segmentAhead Segment.placedBy
  rw [ahead_placedBy]
  rfl

/-- The leaf ahead is placed with the turtle. -/
theorem leafAhead_placedBy : (t.placedBy base).leafAhead = t.leafAhead.placedBy base := by
  unfold leafAhead Site.placedBy
  rw [ahead_placedBy]
  rfl

end Turtle

/-! ## Words that close only their own branches -/

/-- Every close of a word that starts at a depth finds a branch to close. -/
def ClosesOpened (depth : Nat) (word : List Char) : Prop :=
  ∀ o ∈ Occurrence.ofWord depth word, o.symbol = ']' → 0 < o.depth

instance (depth : Nat) (word : List Char) : Decidable (ClosesOpened depth word) :=
  inferInstanceAs (Decidable (∀ o ∈ Occurrence.ofWord depth word, o.symbol = ']' → 0 < o.depth))

/-- A word closes only what it has opened if its first symbol and its rest do. -/
theorem closesOpened_cons {depth : Nat} {c : Char} {word : List Char} :
    ClosesOpened depth (c :: word) ↔
      (c = ']' → 0 < depth) ∧ ClosesOpened (depthAfter depth c) word := by
  simp [ClosesOpened, Occurrence.ofWord]

namespace Walk

section Depth

variable {α : Type} [Scalar α]

/-- The branches that are open are as many as the depth says. -/
theorem length_opened_step (rotations : Rotations α) (w : Walk α) (c : Char) :
    (w.step rotations (Command.ofChar c)).opened.length = depthAfter w.opened.length c := by
  by_cases hopen : c = '['
  · subst hopen
    rfl
  · by_cases hclose : c = ']'
    · subst hclose
      obtain ⟨turtle, opened⟩ := w
      cases opened with
      | nil => rfl
      | cons base outer => rfl
    · rw [depthAfter, if_neg hopen, if_neg hclose]
      cases hcommand : Command.ofChar c with
      | push => exact absurd (Command.symbol_eq hcommand rfl) hopen
      | pop => exact absurd (Command.symbol_eq hcommand rfl) hclose
      | forward => rfl
      | turn turn => rfl
      | bloom => rfl
      | idle => rfl

end Depth

/-! ## Walks side by side -/

variable (base : Turtle ℝ) (before : List (Turtle ℝ))

/-- Each command keeps a walk the placement of another one, if it does not close a branch that was
opened before. A turn multiplies on the right, and the frame is on the left. -/
theorem step_placedBy {rotations : Rotations ℝ} {w : Walk ℝ} {c : Command}
    (hclose : c = .pop → w.opened ≠ []) :
    (w.placedBy base before).step rotations c = (w.step rotations c).placedBy base before := by
  cases c with
  | forward =>
    simp only [step, placedBy, Turtle.ahead_placedBy]
    rfl
  | turn t =>
    have hturned : base.orientation * w.turtle.orientation * rotations.quat t =
        base.orientation * (w.turtle.orientation * rotations.quat t) :=
      Quat.mul_assoc base.orientation w.turtle.orientation (rotations.quat t)
    simp only [step, placedBy, Turtle.placedBy, hturned]
  | push => rfl
  | pop =>
    obtain ⟨turtle, opened⟩ := w
    cases opened with
    | nil => exact absurd rfl (hclose rfl)
    | cons last outer => rfl
  | bloom => rfl
  | idle => rfl

/-- The marks of a step are placed with the walk. -/
theorem marks_placedBy (w : Walk ℝ) (following : List Command) (c : Command) :
    (w.placedBy base before).marks following c =
      (w.marks following c).map fun mark => mark.placedBy base := by
  cases c with
  | forward =>
    simp only [marks, placedBy, Turtle.segmentAhead_placedBy, Turtle.leafAhead_placedBy]
    split <;> rfl
  | turn | push | pop | bloom | idle => rfl

/-- The marks of a walk are placed with it. -/
theorem trace_placedBy (rotations : Rotations ℝ) (word : List Char) {w : Walk ℝ}
    (h : ClosesOpened w.opened.length word) :
    trace rotations (w.placedBy base before) (word.map Command.ofChar) =
      (trace rotations w (word.map Command.ofChar)).map fun mark => mark.placedBy base := by
  induction word generalizing w with
  | nil => rfl
  | cons c rest ih =>
    obtain ⟨hclose, hrest⟩ := closesOpened_cons.1 h
    have hopened : Command.ofChar c = .pop → w.opened ≠ [] := by
      intro hpop hnil
      have hdepth := hclose (Command.symbol_eq hpop rfl)
      rw [hnil] at hdepth
      exact absurd hdepth (Nat.lt_irrefl 0)
    rw [← length_opened_step rotations w c] at hrest
    rw [List.map_cons, trace, trace, List.map_append, marks_placedBy,
      step_placedBy base before hopened, ih hrest]

end Walk

/-! ## The plant of a part of a word -/

namespace GrammarPreset

section Alone

variable {α : Type} [Scalar α]

/-- The preset with the measures of a turtle. -/
def measuredBy (preset : GrammarPreset α) (t : Turtle α) : GrammarPreset α :=
  { preset with segmentLength := t.length, radius := t.radius }

end Alone

variable (preset : GrammarPreset ℝ) (rotations : Rotations ℝ) (front word : List Char)

/-- The marks of a word in two parts: those of the first part, and those that the second part leaves
alone, placed by the turtle between them. Only the leaf of the last step of the first part may differ. -/
theorem filterMap_marksOf_append {β : Type} {view : Mark ℝ → Option β}
    (hview : Walk.IgnoresFollowing view) (hword : ClosesOpened 0 word) :
    (preset.marksOf rotations (front ++ word)).filterMap view =
      (preset.marksOf rotations front).filterMap view ++
        (((preset.measuredBy (preset.turtleAfter rotations front)).marksOf rotations word).map
          fun mark => mark.placedBy (preset.turtleAfter rotations front)).filterMap view := by
  let walk := Walk.after rotations ⟨.start preset.segmentLength preset.radius, []⟩
    (front.map Command.ofChar)
  have hwalk : Walk.placedBy ⟨.start walk.turtle.length walk.turtle.radius, []⟩ walk.turtle
      walk.opened = walk := by
    simp only [Walk.placedBy, Turtle.start_placedBy, List.map_nil, List.nil_append]
  have htrace := Walk.trace_placedBy walk.turtle walk.opened rotations word
    (w := ⟨.start walk.turtle.length walk.turtle.radius, []⟩) hword
  rw [hwalk] at htrace
  unfold marksOf
  rw [List.map_append, Walk.filterMap_trace_append hview]
  exact congrArg (_ ++ List.filterMap view ·) htrace

/-- In exact arithmetic every source that refuses nothing makes a plant of every word. -/
theorem exists_plant_exact (preset : GrammarPreset ℝ) (word : List Char) {s : Source ℝ}
    (hs : s.Grants) (i : Nat) : ∃ plant j, (preset.interpret word).run s i = (.ok plant, j) := by
  obtain ⟨rotations, hrotations, -⟩ := Rotations.exists_ofAngle_exact preset.angle
  exact (onlyRefuses_interpret hrotations word).exists_result hs i

/-- The blooms of a plant stand where the walk left them. -/
theorem positions_of_run_interpret {α : Type} [Scalar α] {preset : GrammarPreset α}
    {rotations : Rotations α} (hrotations : Rotations.ofAngle preset.angle = .ok rotations)
    {word : List Char} {s : Source α} {i j : Nat} {plant : Plant α}
    (h : (preset.interpret word).run s i = (.ok plant, j)) :
    plant.blooms.map Ornament.position =
      ((preset.marksOf rotations word).filterMap Mark.bloom?).map Site.position := by
  rw [← (run_interpret_ok hrotations h).2.2, List.map_map]
  rfl

section Parts

variable {preset rotations front word} {base : Turtle ℝ}
  (hrotations : Rotations.ofAngle preset.angle = .ok rotations)
  (hbase : base = preset.turtleAfter rotations front) (hword : ClosesOpened 0 word)
  {s s' s'' : Source ℝ} {i i' i'' j j' j'' : Nat} {first whole alone : Plant ℝ}
  (hfirst : (preset.interpret front).run s i = (.ok first, j))
  (hwhole : (preset.interpret (front ++ word)).run s' i' = (.ok whole, j'))
  (halone : ((preset.measuredBy base).interpret word).run s'' i'' = (.ok alone, j''))

include hrotations hbase hword hfirst hwhole halone

/-- The segments of a sub-plant are those of the plant by itself, placed. -/
theorem segments_of_run_interpret_append :
    whole.segments =
      first.segments ++ alone.segments.map fun segment => segment.placedBy base := by
  have hangle : Rotations.ofAngle (preset.measuredBy base).angle = .ok rotations := hrotations
  have hmarks := filterMap_marksOf_append preset rotations front word
    Walk.ignoresFollowing_segment? hword
  rw [← hbase, List.filterMap_map] at hmarks
  rw [(run_interpret_ok hrotations hwhole).1, hmarks, (run_interpret_ok hrotations hfirst).1,
    (run_interpret_ok hangle halone).1, List.map_filterMap]
  congr 2
  funext mark
  exact mark.segment?_placedBy base

/-- The blooms of a sub-plant are those of the plant by itself, placed. -/
theorem positions_of_run_interpret_append :
    whole.blooms.map Ornament.position =
      first.blooms.map Ornament.position ++
        alone.blooms.map fun bloom => bloom.position.placedBy base := by
  have hangle : Rotations.ofAngle (preset.measuredBy base).angle = .ok rotations := hrotations
  have hmarks := filterMap_marksOf_append preset rotations front word
    Walk.ignoresFollowing_bloom? hword
  rw [← hbase, List.filterMap_map] at hmarks
  have hplaced : (alone.blooms.map fun bloom => bloom.position.placedBy base) =
      (alone.blooms.map Ornament.position).map fun point => point.placedBy base := by
    rw [List.map_map]
    rfl
  rw [hplaced, positions_of_run_interpret hrotations hwhole, hmarks,
    positions_of_run_interpret hrotations hfirst, positions_of_run_interpret hangle halone,
    List.map_append, List.map_filterMap, List.map_filterMap, List.map_filterMap, List.map_filterMap]
  congr 2
  funext mark
  cases mark <;> rfl

end Parts

/-- A part of a word that closes only branches of its own adds a rigid copy of the plant that it makes
alone. In exact arithmetic let `base` be the turtle after the word in front. The part alone, walked from
the origin with the measures of `base`, makes segments and blooms; each of their points is turned by the
orientation of `base` and moved to its position, and the radii stay. Which draws the three plants are
made of does not matter, and every source that refuses nothing makes them. -/
theorem sub_plant_is_placed (preset : GrammarPreset ℝ) (front : List Char) {word : List Char}
    (hword : ClosesOpened 0 word) :
    ∃ rotations base, Rotations.ofAngle preset.angle = .ok rotations ∧
      base = preset.turtleAfter rotations front ∧
      (∀ (s : Source ℝ) (i : Nat), s.Grants →
        (∃ first j, (preset.interpret front).run s i = (.ok first, j)) ∧
        (∃ whole j, (preset.interpret (front ++ word)).run s i = (.ok whole, j)) ∧
        ∃ alone j, ((preset.measuredBy base).interpret word).run s i = (.ok alone, j)) ∧
      ∀ (s s' s'' : Source ℝ) (i i' i'' j j' j'' : Nat) (first whole alone : Plant ℝ),
        (preset.interpret front).run s i = (.ok first, j) →
        (preset.interpret (front ++ word)).run s' i' = (.ok whole, j') →
        ((preset.measuredBy base).interpret word).run s'' i'' = (.ok alone, j'') →
        whole.segments = first.segments ++ (alone.segments.map fun segment =>
          ⟨base.position + base.orientation.rotate segment.start,
            base.position + base.orientation.rotate segment.finish, segment.radius⟩) ∧
        whole.blooms.map Ornament.position =
          first.blooms.map Ornament.position ++ (alone.blooms.map fun bloom =>
            base.position + base.orientation.rotate bloom.position) := by
  obtain ⟨rotations, hrotations, -⟩ := Rotations.exists_ofAngle_exact preset.angle
  refine ⟨rotations, preset.turtleAfter rotations front, hrotations, rfl, ?_, ?_⟩
  · intro s i hs
    exact ⟨exists_plant_exact preset front hs i, exists_plant_exact preset (front ++ word) hs i,
      exists_plant_exact (preset.measuredBy _) word hs i⟩
  · intro s s' s'' i i' i'' j j' j'' first whole alone hfirst hwhole halone
    constructor
    · exact segments_of_run_interpret_append hrotations rfl hword hfirst hwhole halone
    · exact positions_of_run_interpret_append hrotations rfl hword hfirst hwhole halone

/-- A word with a close that closes nothing and a branch that stays open. -/
def openFront : List Char := ['F', ']', '[', '/', '+', 'F']

/-- A word with a branch of its own and another one that stays open. -/
def openPart : List Char := ['F', '[', '&', 'F', '*', ']', '[', '-', 'F']

/-- A part that leaves a branch open is placed where the front has led. -/
theorem sub_plant_is_placed_openPart :
    ClosesOpened 0 openPart ∧
      ∃ rotations base, Rotations.ofAngle (Species.flowerPreset (α := ℝ)).angle = .ok rotations ∧
        base = Species.flowerPreset.turtleAfter rotations openFront ∧
        ∃ first whole alone : Plant ℝ, ∃ j j' j'',
          (Species.flowerPreset.interpret openFront).run (fun _ => .ok 0) 0 = (.ok first, j) ∧
          (Species.flowerPreset.interpret (openFront ++ openPart)).run (fun _ => .ok 0) 0 =
            (.ok whole, j') ∧
          ((Species.flowerPreset.measuredBy base).interpret openPart).run (fun _ => .ok 0) 0 =
            (.ok alone, j'') ∧
          whole.segments = first.segments ++ (alone.segments.map fun segment =>
            ⟨base.position + base.orientation.rotate segment.start,
              base.position + base.orientation.rotate segment.finish, segment.radius⟩) := by
  have hword : ClosesOpened 0 openPart := by decide
  have hgrants : Source.Grants (fun _ => .ok (0 : ℝ)) := by
    intro n
    exact ⟨0, rfl⟩
  obtain ⟨rotations, base, hrotations, hbase, hplants, hplaced⟩ :=
    sub_plant_is_placed Species.flowerPreset openFront hword
  obtain ⟨⟨first, j, hfirst⟩, ⟨whole, j', hwhole⟩, alone, j'', halone⟩ := hplants _ 0 hgrants
  obtain ⟨hsegments, -⟩ := hplaced _ _ _ _ _ _ _ _ _ first whole alone hfirst hwhole halone
  exact ⟨hword, rotations, base, hrotations, hbase, first, whole, alone, j, j', j'', hfirst, hwhole,
    halone, hsegments⟩

end GrammarPreset

end PlantGrowth
