import Mathlib.Analysis.SpecialFunctions.Trigonometric.Basic
import PlantGrowth.Proofs.Scalar.Exact
import PlantGrowth.Proofs.Space.Norm
import PlantGrowth.Proofs.Turtle.Depth
import PlantGrowth.Proofs.Turtle.Invariant

/-!
# The length of a step

In exact arithmetic every turn is an orientation of length one, so the orientations of the turtle and
of every turtle that it remembers keep length one (`Walk.IsUpright.step`). A step ahead then is as long
as the depth says, however the turtle has been turned before (`steps_have_length`).
-/

set_option autoImplicit false

namespace PlantGrowth

/-! ## Turns of length one -/

namespace Axis

/-- The axes of turns have length one. -/
theorem normSq_direction (axis : Axis) : (axis.direction : Vec3 ℝ).normSq = 1 := by
  cases axis <;> simp [direction, Vec3.normSq]

end Axis

namespace Quat

/-- A turn about an axis of length one exists and has norm one. -/
theorem exists_aboutAxis_exact {axis : Vec3 ℝ} (haxis : axis.normSq = 1) (degrees : ℝ) :
    ∃ q, aboutAxis axis degrees = .ok q ∧ q.normSq = 1 := by
  refine ⟨_, rfl, ?_⟩
  have hcircle := Real.sin_sq_add_cos_sq (Scalar.radians degrees / 2.0)
  simp only [normSq, Vec3.normSq, Scalar.exact_sin, Scalar.exact_cos] at haxis ⊢
  linear_combination hcircle + Real.sin (Scalar.radians degrees / 2.0) ^ 2 * haxis

end Quat

namespace Rotations

/-- In exact arithmetic the turns of every angle exist, and each is an orientation of length one. -/
theorem exists_ofAngle_exact (degrees : ℝ) :
    ∃ rotations, ofAngle degrees = .ok rotations ∧ ∀ t, (rotations.quat t).normSq = 1 := by
  have hpair (axis : Axis) : ∃ pair, pairAbout axis degrees = .ok pair ∧
      pair.positive.normSq = 1 ∧ pair.negative.normSq = 1 := by
    obtain ⟨p, hp, hunit⟩ := Quat.exists_aboutAxis_exact axis.normSq_direction degrees
    obtain ⟨n, hn, hunit'⟩ := Quat.exists_aboutAxis_exact axis.normSq_direction (-degrees)
    refine ⟨⟨p, n⟩, ?_, hunit, hunit'⟩
    rw [pairAbout, hp, hn]
    rfl
  obtain ⟨yaw, hyaw, hyaw', hyaw''⟩ := hpair .yaw
  obtain ⟨pitch, hpitch, hpitch', hpitch''⟩ := hpair .pitch
  obtain ⟨roll, hroll, hroll', hroll''⟩ := hpair .roll
  refine ⟨⟨yaw, pitch, roll⟩, ?_, ?_⟩
  · rw [ofAngle, hyaw, hpitch, hroll]
    rfl
  · rintro ⟨axis, sense⟩
    cases axis <;> cases sense <;> assumption

end Rotations

/-! ## The invariant of the walk -/

namespace Turtle

/-- A step ahead is as long as the turtle says, if its orientation has length one. -/
theorem distanceSq_segmentAhead {t : Turtle ℝ} (h : t.orientation.normSq = 1) :
    t.segmentAhead.finish.distanceSq t.segmentAhead.start = t.length ^ 2 := by
  have hstep : t.segmentAhead.finish.distanceSq t.segmentAhead.start =
      ((t.orientation.rotate Vec3.up).scale t.length).normSq :=
    Vec3.distanceSq_add_self t.position _
  rw [hstep, Vec3.normSq_scale, Quat.normSq_rotate_of_normSq_eq_one h, Vec3.normSq_up, one_mul]

/-- Turns of norm one keep the norm of the orientation at one. -/
theorem invariant_normSq {rotations : Rotations ℝ}
    (hrotations : ∀ t, (rotations.quat t).normSq = 1) :
    Invariant rotations (fun _ => True) (fun t => t.orientation.normSq = 1) where
  ahead _ ht := ht
  turn t turn _ ht := by rw [Quat.normSq_mul, ht, hrotations turn, one_mul]
  branched _ ht := ht

end Turtle

namespace Walk

/-- The orientations of the turtle and of every turtle that it remembers have length one. -/
def IsUpright (w : Walk ℝ) : Prop := ∀ t ∈ w.turtle :: w.opened, t.orientation.normSq = 1

/-- The turtle at the start has an orientation of norm one. -/
theorem isUpright_start (length radius : ℝ) : IsUpright ⟨.start length radius, []⟩ :=
  throughout_start Quat.normSq_identity

/-- Every command keeps the orientations at length one: a turn multiplies by one of this length, and a
close comes back to one that was kept. -/
theorem IsUpright.step {w : Walk ℝ} {rotations : Rotations ℝ}
    (hrotations : ∀ t, (rotations.quat t).normSq = 1) (h : w.IsUpright) (c : Command) :
    (w.step rotations c).IsUpright :=
  (Turtle.invariant_normSq hrotations).step h fun _ _ => trivial

/-- The squared lengths of the segments are those of their depths. -/
theorem distanceSq_of_trace {preset : GrammarPreset ℝ} {rotations : Rotations ℝ}
    (hrotations : ∀ t, (rotations.quat t).normSq = 1) (word : List Char) {depth : Nat} {w : Walk ℝ}
    (hat : IsAt preset depth w) (hupright : w.IsUpright) :
    ((trace rotations w (word.map Command.ofChar)).filterMap Mark.segment?).map
        (fun segment => segment.finish.distanceSq segment.start) =
      ((Occurrence.ofWord depth word).filter fun o => o.symbol = 'F').map
        fun o => preset.lengthAt o.depth ^ 2 := by
  have hkept (depth : Nat) (w : Walk ℝ) (c : Char) (h : IsAt preset depth w ∧ w.IsUpright) :
      IsAt preset (depthAfter depth c) (w.step rotations (Command.ofChar c)) ∧
        (w.step rotations (Command.ofChar c)).IsUpright :=
    ⟨h.1.step rotations c, h.2.step hrotations (Command.ofChar c)⟩
  refine map_segments_of_trace (fun segment => segment.finish.distanceSq segment.start)
    (fun depth => preset.lengthAt depth ^ 2) hkept ?_ word ⟨hat, hupright⟩
  rintro depth w ⟨hat, hupright⟩
  rw [Turtle.distanceSq_segmentAhead (hupright w.turtle List.mem_cons_self), hat.length_eq]

end Walk

/-! ## The plant of a word -/

namespace GrammarPreset

/-- The length at a depth, in exact arithmetic. -/
theorem lengthAt_exact (preset : GrammarPreset ℝ) (depth : Nat) :
    preset.lengthAt depth = preset.segmentLength * 0.88 ^ depth := by
  induction depth with
  | zero => rw [pow_zero, mul_one]; rfl
  | succ depth ih =>
    have hnext : preset.lengthAt (depth + 1) = preset.lengthAt depth * 0.88 := rfl
    rw [hnext, ih, pow_succ, mul_assoc]

/-- In exact arithmetic the segment of a step ahead is as long as the depth of the step says, whatever
turns and branches come before it. This is so for every angle, every word and every source, unless the
source refuses a draw, which is then the outcome. -/
theorem steps_have_length (preset : GrammarPreset ℝ) (word : List Char) (s : Source ℝ) (i : Nat) :
    (∃ plant j, (preset.interpret word).run s i = (.ok plant, j) ∧
      plant.segments.map (fun segment => segment.finish.distanceSq segment.start) =
        (Occurrence.forwards word).map
          fun o => (preset.segmentLength * 0.88 ^ o.depth) ^ 2) ∨
    ∃ n e j, s n = .error e ∧ (preset.interpret word).run s i = (.error e, j) := by
  obtain ⟨rotations, hrotations, hunit⟩ := Rotations.exists_ofAngle_exact preset.angle
  cases hrun : (preset.interpret word).run s i with
  | mk outcome j =>
    cases outcome with
    | ok plant =>
      left
      refine ⟨plant, j, rfl, ?_⟩
      have hsegments := (run_interpret_ok hrotations hrun).1
      have hlengths := Walk.distanceSq_of_trace hunit word (Walk.isAt_start preset)
        (Walk.isUpright_start preset.segmentLength preset.radius)
      simp only [lengthAt_exact] at hlengths
      rw [hsegments]
      exact hlengths
    | error e =>
      right
      obtain ⟨n, hn⟩ := onlyRefuses_interpret hrotations word s i e j hrun
      exact ⟨n, e, j, hn, rfl⟩

end GrammarPreset

end PlantGrowth
