import PlantGrowth.Proofs.Turtle.Count
import PlantGrowth.Proofs.Turtle.Parts
import PlantGrowth.Species.BuiltIn

/-!
# Connected plants

The turtle and every turtle that it remembers stand at the origin or at the end of a segment that was
left before (`Walk.StandsOn`): a step ahead goes to the end of its own segment, and a close comes back
to a place that was known when its branch was opened. So every segment starts where the plant has
already come to, and every leaf and bloom grows there (`interpret_isConnected`).
-/

set_option autoImplicit false

namespace PlantGrowth

variable {α : Type}

/-- Each segment of a list starts at one of the points or at the end of an earlier segment. -/
def StartFrom (points : List (Vec3 α)) (segments : List (Segment α)) : Prop :=
  ∀ front segment back, segments = front ++ segment :: back →
    segment.start ∈ points ∨ ∃ earlier ∈ front, earlier.finish = segment.start

namespace StartFrom

variable {points : List (Vec3 α)}

/-- No segments start from any points. -/
protected theorem nil : StartFrom points [] := by
  intro front segment back h
  cases front <;> cases h

/-- Segments start from some points if the first one does and the others start from these points or
its end. -/
protected theorem cons {first : Segment α} {others : List (Segment α)}
    (hfirst : first.start ∈ points) (hothers : StartFrom (first.finish :: points) others) :
    StartFrom points (first :: others) := by
  intro front segment back h
  cases front with
  | nil =>
    cases h
    exact .inl hfirst
  | cons earliest front =>
    obtain ⟨rfl, hrest⟩ := List.cons.inj h
    rcases hothers front segment back hrest with hstart | ⟨earlier, hearlier, hfinish⟩
    · rcases List.mem_cons.1 hstart with hlast | hpoints
      · exact .inr ⟨first, List.mem_cons_self, hlast.symm⟩
      · exact .inl hpoints
    · exact .inr ⟨earlier, List.mem_cons_of_mem _ hearlier, hfinish⟩

end StartFrom

/-- A plant in one piece: each segment starts at the origin or at the end of an earlier segment, each
leaf is at the end of a segment, and each bloom is at the origin or at the end of a segment. -/
structure Plant.IsConnected [Scalar α] (plant : Plant α) : Prop where
  segments : ∀ front segment back, plant.segments = front ++ segment :: back →
    segment.start = Vec3.origin ∨ ∃ earlier ∈ front, earlier.finish = segment.start
  leaves : ∀ leaf ∈ plant.leaves, ∃ segment ∈ plant.segments, segment.finish = leaf.position
  blooms : ∀ bloom ∈ plant.blooms,
    bloom.position = Vec3.origin ∨ ∃ segment ∈ plant.segments, segment.finish = bloom.position

namespace Walk

variable [Scalar α] {points : List (Vec3 α)} {w : Walk α}

/-! ## Where the turtles stand -/

/-- The turtle and every turtle that it remembers stand on these points. -/
def StandsOn (points : List (Vec3 α)) (w : Walk α) : Prop :=
  ∀ t ∈ w.turtle :: w.opened, t.position ∈ points

/-- At first the turtle stands on the origin. -/
theorem standsOn_start (length radius : α) :
    StandsOn [Vec3.origin] ⟨.start length radius, []⟩ := by
  intro t ht
  rw [List.mem_singleton.1 ht]
  exact List.mem_singleton_self Vec3.origin

/-- The points that a command reaches. -/
def reached (w : Walk α) : Command → List (Vec3 α)
  | .forward => [w.turtle.ahead]
  | _ => []

/-- A command moves turtles only to points that it reaches. -/
theorem StandsOn.step (rotations : Rotations α) (h : w.StandsOn points) (c : Command) :
    (w.step rotations c).StandsOn (w.reached c ++ points) := by
  have hturtle : w.turtle.position ∈ points := h w.turtle List.mem_cons_self
  cases c with
  | forward =>
    intro t ht
    rcases List.mem_cons.1 ht with rfl | hopened
    · exact List.mem_cons_self
    · exact List.mem_cons_of_mem _ (h t (List.mem_cons_of_mem _ hopened))
  | turn turn =>
    intro t ht
    rcases List.mem_cons.1 ht with rfl | hopened
    · exact hturtle
    · exact h t (List.mem_cons_of_mem _ hopened)
  | push =>
    intro t ht
    rcases List.mem_cons.1 ht with rfl | hopened
    · exact hturtle
    · exact h t hopened
  | pop =>
    obtain ⟨turtle, opened⟩ := w
    cases opened with
    | nil => exact h
    | cons base outer =>
      intro t ht
      exact h t (List.mem_cons_of_mem turtle ht)
  | bloom => exact h
  | idle => exact h

/-! ## Where the marks are -/

variable (rotations : Rotations α)

/-- The segments of a walk start from where its turtles stand, or from each other's ends. -/
theorem startFrom_of_trace (commands : List Command) (h : w.StandsOn points) :
    StartFrom points ((trace rotations w commands).filterMap Mark.segment?) := by
  induction commands generalizing points w with
  | nil => exact .nil
  | cons c rest ih =>
    have hrest := ih (h.step rotations c)
    rw [trace, List.filterMap_append]
    cases c with
    | forward =>
      have hfirst : w.turtle.segmentAhead.start ∈ points := h w.turtle List.mem_cons_self
      rw [segments_of_forward]
      exact .cons hfirst hrest
    | turn | push | pop | bloom | idle => exact hrest

/-- A leaf is left together with the segment that ends there. -/
theorem exists_segment_of_leaf (commands : List Command) {site : Site α}
    (hsite : site ∈ (trace rotations w commands).filterMap Mark.leaf?) :
    ∃ segment ∈ (trace rotations w commands).filterMap Mark.segment?,
      segment.finish = site.position := by
  induction commands generalizing w with
  | nil => cases hsite
  | cons c rest ih =>
    simp only [trace, List.filterMap_append, List.mem_append] at hsite ⊢
    rcases hsite with hfirst | hrest
    · cases c with
      | forward =>
        rw [marks] at hfirst
        rw [segments_of_forward]
        split at hfirst
        · cases List.mem_singleton.1 hfirst
          exact ⟨w.turtle.segmentAhead, .inl List.mem_cons_self, rfl⟩
        · cases hfirst
      | turn | push | pop | bloom | idle => cases hfirst
    · obtain ⟨segment, hsegment, hfinish⟩ := ih hrest
      exact ⟨segment, .inr hsegment, hfinish⟩

/-- A bloom of a walk is where its turtles stand, or at the end of a segment. -/
theorem exists_segment_of_bloom (commands : List Command) (h : w.StandsOn points) {site : Site α}
    (hsite : site ∈ (trace rotations w commands).filterMap Mark.bloom?) :
    site.position ∈ points ∨ ∃ segment ∈ (trace rotations w commands).filterMap Mark.segment?,
      segment.finish = site.position := by
  induction commands generalizing points w with
  | nil => cases hsite
  | cons c rest ih =>
    have hrest := ih (h.step rotations c)
    simp only [trace, List.filterMap_append, List.mem_append] at hsite ⊢
    rcases hsite with hfirst | hlater
    · cases c with
      | forward =>
        rw [marks] at hfirst
        split at hfirst <;> cases hfirst
      | bloom =>
        cases List.mem_singleton.1 hfirst
        exact .inl (h w.turtle List.mem_cons_self)
      | turn | push | pop | idle => cases hfirst
    · rcases hrest hlater with hpoint | ⟨segment, hsegment, hfinish⟩
      · rcases List.mem_append.1 hpoint with hreached | hpoint
        · -- The bloom grows where this step has come to.
          cases c with
          | forward =>
            have hahead := List.mem_singleton.1 hreached
            rw [segments_of_forward]
            exact .inr ⟨w.turtle.segmentAhead, .inl List.mem_cons_self, hahead.symm⟩
          | turn | push | pop | bloom | idle => cases hreached
        · exact .inl hpoint
      · exact .inr ⟨segment, .inr hsegment, hfinish⟩

end Walk

/-! ## The plant of a word -/

namespace GrammarPreset

variable [Scalar α] {preset : GrammarPreset α} {rotations : Rotations α}

/-- A plant that is made of a word is connected. -/
theorem isConnected_of_run_interpret
    (hrotations : Rotations.ofAngle preset.angle = .ok rotations) {word : List Char}
    {s : Source α} {i j : Nat} {plant : Plant α}
    (h : (preset.interpret word).run s i = (.ok plant, j)) : plant.IsConnected := by
  obtain ⟨hsegments, hleaves, hblooms⟩ := run_interpret_ok hrotations h
  have hstart := Walk.standsOn_start preset.segmentLength preset.radius
  refine ⟨?_, ?_, ?_⟩
  · intro front segment back hsplit
    rw [hsegments] at hsplit
    have hfrom := Walk.startFrom_of_trace rotations _ hstart front segment back hsplit
    rwa [List.mem_singleton] at hfrom
  · intro leaf hleaf
    have hsite : leaf.site ∈ (preset.marksOf rotations word).filterMap Mark.leaf? := by
      rw [← hleaves]
      exact List.mem_map_of_mem hleaf
    rw [hsegments]
    exact Walk.exists_segment_of_leaf rotations _ hsite
  · intro bloom hbloom
    have hsite : bloom.site ∈ (preset.marksOf rotations word).filterMap Mark.bloom? := by
      rw [← hblooms]
      exact List.mem_map_of_mem hbloom
    have hplace := Walk.exists_segment_of_bloom rotations _ hstart hsite
    rw [List.mem_singleton] at hplace
    rw [hsegments]
    exact hplace

/-- The plant of every word, balanced or not, is in one piece. Only a draw that the source refuses
keeps it from being made. -/
theorem interpret_isConnected (hrotations : Rotations.ofAngle preset.angle = .ok rotations)
    (word : List Char) (s : Source α) (i : Nat) :
    (∃ plant j, (preset.interpret word).run s i = (.ok plant, j) ∧ plant.IsConnected) ∨
      ∃ k e, s (i + k) = .error e ∧
        (preset.interpret word).run s i = (.error e, i + k + 1) := by
  rcases takes_interpret hrotations word s i with ⟨plant, hrun⟩ | ⟨k, -, e, hdraw, hrun⟩
  · exact .inl ⟨plant, _, hrun, isConnected_of_run_interpret hrotations hrun⟩
  · exact .inr ⟨k, e, hdraw, hrun⟩

/-- A close that closes nothing, a branch that is left and another one that stays open. -/
def leftAndOpenWord : List Char :=
  ['F', ']', '[', '+', 'F', '*', 'F', ']', '*', 'F', '[', '-', 'F']

/-- A word that closes and opens too many branches stands for a connected plant of five segments. -/
theorem interpret_isConnected_leftAndOpenWord :
    (∃ rotations, Rotations.ofAngle (Species.flowerPreset (α := Float)).angle = .ok rotations) ∧
      ∃ plant j, ((Species.flowerPreset (α := Float)).interpret leftAndOpenWord).run
          (fun _ => .ok 0.5) 0 = (.ok plant, j) ∧ plant.segments.length = 5 ∧
        plant.IsConnected := by
  have hrotations :
      ∃ rotations, Rotations.ofAngle (Species.flowerPreset (α := Float)).angle = .ok rotations :=
    ⟨_, rfl⟩
  refine ⟨hrotations, ?_⟩
  obtain ⟨rotations, hok⟩ := hrotations
  rcases interpret_isConnected hok leftAndOpenWord (fun _ => .ok 0.5) 0 with
    ⟨plant, j, hrun, hconnected⟩ | ⟨k, e, hdraw, -⟩
  · exact ⟨plant, j, hrun, (lengths_of_run_interpret hok hrun).1, hconnected⟩
  · cases hdraw

end GrammarPreset

end PlantGrowth
