import Mathlib.Analysis.SpecialFunctions.Trigonometric.Basic
import PlantGrowth.Proofs.Space.Frame
import PlantGrowth.Proofs.Turtle.Placement
import PlantGrowth.Proofs.Turtle.Rotation

/-!
# Turns and their opposites

Each of the six turns is a rotation about its axis by the angle of the preset, or by the opposite angle
(`Rotations.aboutAxis_of_ofAngle`). In exact arithmetic a turn and its opposite therefore multiply to the
orientation of an unturned plant (`Rotations.quat_mul_quat_opposite`), whatever the turtle has turned
before, and a word can hold such a pair anywhere (`opposite_turns_cancel`).
-/

set_option autoImplicit false

namespace PlantGrowth

/-- The sense the other way round. -/
def Sense.opposite : Sense → Sense
  | .positive => .negative
  | .negative => .positive

/-- The angle of a turn in a sense. -/
def Sense.angle {α : Type} [Neg α] : Sense → α → α
  | .positive, degrees => degrees
  | .negative, degrees => -degrees

/-- The turn about the same axis that goes back. -/
def Turn.opposite (t : Turn) : Turn := ⟨t.axis, t.sense.opposite⟩

namespace Quat

/-- The turn about an axis, in exact arithmetic. -/
theorem aboutAxis_exact (axis : Vec3 ℝ) (degrees : ℝ) :
    aboutAxis axis degrees =
      .ok ⟨Real.cos (Scalar.radians degrees / 2.0), axis.x * Real.sin (Scalar.radians degrees / 2.0),
        axis.y * Real.sin (Scalar.radians degrees / 2.0),
        axis.z * Real.sin (Scalar.radians degrees / 2.0)⟩ := rfl

/-- A rotation by an angle and then by its opposite is none: the sine of the half angle changes its sign
and the cosine does not. -/
theorem mul_aboutAxis_neg {axis : Vec3 ℝ} (haxis : axis.normSq = 1) {degrees : ℝ} {q back : Quat ℝ}
    (hq : aboutAxis axis degrees = .ok q) (hback : aboutAxis axis (-degrees) = .ok back) :
    q * back = identity := by
  have hhalf : Scalar.radians (-degrees) / 2.0 = -(Scalar.radians degrees / 2.0) := by
    rw [Scalar.radians, Scalar.radians, neg_mul, neg_div]
  have hcircle := Real.sin_sq_add_cos_sq (Scalar.radians degrees / 2.0)
  rw [Vec3.normSq] at haxis
  rw [aboutAxis_exact] at hq hback
  rw [hhalf, Real.cos_neg, Real.sin_neg] at hback
  cases hq
  cases hback
  apply Quat.ext
  · show _ = (1 : ℝ)
    rw [w_mul]
    linear_combination hcircle + Real.sin (Scalar.radians degrees / 2.0) ^ 2 * haxis
  · show _ = (0 : ℝ)
    rw [x_mul]
    ring
  · show _ = (0 : ℝ)
    rw [y_mul]
    ring
  · show _ = (0 : ℝ)
    rw [z_mul]
    ring

end Quat

namespace Rotations

section Entries

variable {α : Type} [Scalar α] {degrees : α}

/-- The turns of a pair are by an angle and by its opposite. -/
theorem aboutAxis_of_pairAbout {axis : Axis} {pair : TurnPair α}
    (h : pairAbout axis degrees = .ok pair) :
    Quat.aboutAxis axis.direction degrees = .ok pair.positive ∧
      Quat.aboutAxis axis.direction (-degrees) = .ok pair.negative := by
  obtain ⟨positive, hpositive, h⟩ := Fault.bind_eq_ok_iff.1 h
  obtain ⟨negative, hnegative, h⟩ := Fault.bind_eq_ok_iff.1 h
  cases h
  exact ⟨hpositive, hnegative⟩

/-- Each of the six turns is about its axis, by the angle in its sense. -/
theorem aboutAxis_of_ofAngle {rotations : Rotations α} (h : ofAngle degrees = .ok rotations)
    (t : Turn) : Quat.aboutAxis t.axis.direction (t.sense.angle degrees) = .ok (rotations.quat t) := by
  obtain ⟨yaw, hyaw, h⟩ := Fault.bind_eq_ok_iff.1 h
  obtain ⟨pitch, hpitch, h⟩ := Fault.bind_eq_ok_iff.1 h
  obtain ⟨roll, hroll, h⟩ := Fault.bind_eq_ok_iff.1 h
  cases h
  obtain ⟨axis, sense⟩ := t
  cases axis with
  | yaw =>
    cases sense with
    | positive => exact (aboutAxis_of_pairAbout hyaw).1
    | negative => exact (aboutAxis_of_pairAbout hyaw).2
  | pitch =>
    cases sense with
    | positive => exact (aboutAxis_of_pairAbout hpitch).1
    | negative => exact (aboutAxis_of_pairAbout hpitch).2
  | roll =>
    cases sense with
    | positive => exact (aboutAxis_of_pairAbout hroll).1
    | negative => exact (aboutAxis_of_pairAbout hroll).2

end Entries

variable {degrees : ℝ} {rotations : Rotations ℝ}

/-- A turn and its opposite are none together. -/
theorem quat_mul_quat_opposite (h : ofAngle degrees = .ok rotations) (t : Turn) :
    rotations.quat t * rotations.quat t.opposite = Quat.identity := by
  have hback : Quat.aboutAxis t.axis.direction (-(t.sense.angle degrees)) =
      .ok (rotations.quat t.opposite) := by
    have hangle : t.opposite.sense.angle degrees = -(t.sense.angle degrees) := by
      obtain ⟨axis, sense⟩ := t
      cases sense with
      | positive => rfl
      | negative => exact (neg_neg degrees).symm
    rw [← hangle]
    exact aboutAxis_of_ofAngle h t.opposite
  exact Quat.mul_aboutAxis_neg t.axis.normSq_direction (aboutAxis_of_ofAngle h t) hback

end Rotations

/-! ## Pieces of a word that bring the walk back -/

namespace Walk

/-- A piece that leaves no mark for a view, and after which the walk is as before, can stand anywhere. -/
theorem filterMap_trace_insert {α β : Type} [Scalar α] {view : Mark α → Option β}
    (hview : IgnoresFollowing view) (rotations : Rotations α) {piece : List Command}
    (hback : ∀ w : Walk α, w.after rotations piece = w)
    (hnone : ∀ w : Walk α, (trace rotations w piece).filterMap view = []) (w : Walk α)
    (front back : List Command) :
    (trace rotations w (front ++ piece ++ back)).filterMap view =
      (trace rotations w (front ++ back)).filterMap view := by
  rw [filterMap_trace_append hview, filterMap_trace_append hview, after_append, hback, hnone,
    List.append_nil, ← filterMap_trace_append hview]

/-- A turn and its opposite bring the turtle back to the orientation that it had. -/
theorem after_opposite {degrees : ℝ} {rotations : Rotations ℝ}
    (h : Rotations.ofAngle degrees = .ok rotations) (t : Turn) (w : Walk ℝ) :
    w.after rotations [.turn t, .turn t.opposite] = w := by
  have hback : w.turtle.orientation * rotations.quat t * rotations.quat t.opposite =
      w.turtle.orientation := by
    rw [Quat.mul_assoc, Rotations.quat_mul_quat_opposite h, Quat.mul_identity]
  simp only [after_cons, after_nil, step, hback]

end Walk

/-! ## Plants with and without a pair of opposite turns -/

/-- The pairs of symbols that spell a turn and its opposite. -/
def oppositeTurns : List (List Char) :=
  [['+', '-'], ['-', '+'], ['&', '^'], ['^', '&'], ['\\', '/'], ['/', '\\']]

/-- The pairs of symbols are those of a turn and its opposite. -/
theorem exists_turn_of_mem_oppositeTurns {pair : List Char} (h : pair ∈ oppositeTurns) :
    ∃ t : Turn, pair.map Command.ofChar = [.turn t, .turn t.opposite] := by
  simp only [oppositeTurns, List.mem_cons, List.not_mem_nil, or_false] at h
  rcases h with rfl | rfl | rfl | rfl | rfl | rfl
  · exact ⟨⟨.yaw, .positive⟩, rfl⟩
  · exact ⟨⟨.yaw, .negative⟩, rfl⟩
  · exact ⟨⟨.pitch, .positive⟩, rfl⟩
  · exact ⟨⟨.pitch, .negative⟩, rfl⟩
  · exact ⟨⟨.roll, .positive⟩, rfl⟩
  · exact ⟨⟨.roll, .negative⟩, rfl⟩

namespace GrammarPreset

/-- A turn with its opposite behind it leaves no mark and moves no other one. -/
theorem filterMap_marksOf_opposite {β : Type} {view : Mark ℝ → Option β}
    (hview : Walk.IgnoresFollowing view) {preset : GrammarPreset ℝ} {rotations : Rotations ℝ}
    (hrotations : Rotations.ofAngle preset.angle = .ok rotations) (front back : List Char)
    {pair : List Char} (hpair : pair ∈ oppositeTurns) :
    (preset.marksOf rotations (front ++ pair ++ back)).filterMap view =
      (preset.marksOf rotations (front ++ back)).filterMap view := by
  obtain ⟨t, ht⟩ := exists_turn_of_mem_oppositeTurns hpair
  rw [marksOf, marksOf, List.map_append, List.map_append, List.map_append, ht]
  exact Walk.filterMap_trace_insert hview rotations (Walk.after_opposite hrotations t)
    (fun w => rfl) _ _ _

/-- In exact arithmetic a turn and its opposite behind each other cancel, at every place of every word:
the segments of the plant and its blooms are those of the word without the pair, but for the rotations of
the blooms. Which draws the two plants are made of does not matter, and every source that refuses nothing
makes them. -/
theorem opposite_turns_cancel (preset : GrammarPreset ℝ) (front back : List Char) {pair : List Char}
    (hpair : pair ∈ oppositeTurns) :
    (∀ (s : Source ℝ) (i : Nat), s.Grants →
      (∃ plant j, (preset.interpret (front ++ back)).run s i = (.ok plant, j)) ∧
      ∃ turned j, (preset.interpret (front ++ pair ++ back)).run s i = (.ok turned, j)) ∧
    ∀ (s s' : Source ℝ) (i i' j j' : Nat) (plant turned : Plant ℝ),
      (preset.interpret (front ++ back)).run s i = (.ok plant, j) →
      (preset.interpret (front ++ pair ++ back)).run s' i' = (.ok turned, j') →
      turned.segments = plant.segments ∧
      turned.blooms.map Ornament.unturned = plant.blooms.map Ornament.unturned := by
  obtain ⟨rotations, hrotations, -⟩ := Rotations.exists_ofAngle_exact preset.angle
  constructor
  · intro s i hs
    exact ⟨exists_plant_exact preset _ hs i, exists_plant_exact preset _ hs i⟩
  · intro s s' i i' j j' plant turned hplant hturned
    constructor
    · rw [(run_interpret_ok hrotations hplant).1, (run_interpret_ok hrotations hturned).1]
      exact filterMap_marksOf_opposite Walk.ignoresFollowing_segment? hrotations front back hpair
    · rw [unturned_of_run_interpret hrotations hplant, unturned_of_run_interpret hrotations hturned,
        filterMap_marksOf_opposite Walk.ignoresFollowing_bloom? hrotations front back hpair]

/-- A roll and its opposite in a branch that has been pitched and turned. -/
theorem opposite_turns_cancel_roll :
    ['/', '\\'] ∈ oppositeTurns ∧
      ∃ plant turned : Plant ℝ, ∃ j j',
        (Species.flowerPreset.interpret (['F', '[', '&', '+', 'F'] ++ ['F', '*', ']', 'F'])).run
          (fun _ => .ok 0) 0 = (.ok plant, j) ∧
        (Species.flowerPreset.interpret
          (['F', '[', '&', '+', 'F'] ++ ['/', '\\'] ++ ['F', '*', ']', 'F'])).run
          (fun _ => .ok 1) 0 = (.ok turned, j') ∧
        turned.segments = plant.segments ∧
        turned.blooms.map Ornament.unturned = plant.blooms.map Ornament.unturned := by
  have hpair : ['/', '\\'] ∈ oppositeTurns := by decide
  refine ⟨hpair, ?_⟩
  obtain ⟨hplants, hsame⟩ := opposite_turns_cancel (Species.flowerPreset (α := ℝ))
    ['F', '[', '&', '+', 'F'] ['F', '*', ']', 'F'] hpair
  obtain ⟨⟨plant, j, hplant⟩, -⟩ := hplants (fun _ => .ok 0) 0 fun _ => ⟨_, rfl⟩
  obtain ⟨-, turned, j', hturned⟩ := hplants (fun _ => .ok 1) 0 fun _ => ⟨_, rfl⟩
  exact ⟨plant, turned, j, j', hplant, hturned, hsame _ _ _ _ _ _ _ _ hplant hturned⟩

end GrammarPreset

end PlantGrowth
