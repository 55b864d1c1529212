import Mathlib.Analysis.SpecialFunctions.Trigonometric.Basic
import PlantGrowth.Proofs.Turtle.Invariant
import PlantGrowth.Proofs.Turtle.Turns

/-!
# Plants in a plane

The first direction of growth lies in the plane of the first two coordinates, and a yaw turns about the
axis across that plane. In exact arithmetic a turtle that only yaws therefore stays in the plane and looks
along it (`Turtle.invariant_isFlat`), and so does every turtle that it remembers. What it leaves is flat
(`GrammarPreset.isFlat_of_run_interpret`).
-/

set_option autoImplicit false

namespace PlantGrowth

/-! ## Flat plants -/

/-- Every point of a plant has the third coordinate zero. -/
structure Plant.IsFlat (plant : Plant ℝ) : Prop where
  segments : ∀ segment ∈ plant.segments, segment.start.z = 0 ∧ segment.finish.z = 0
  leaves : ∀ leaf ∈ plant.leaves, leaf.position.z = 0
  blooms : ∀ bloom ∈ plant.blooms, bloom.position.z = 0

/-- Every point of a mark has the third coordinate zero. -/
def Mark.IsFlat : Mark ℝ → Prop
  | .segment s => s.start.z = 0 ∧ s.finish.z = 0
  | .leaf site => site.position.z = 0
  | .bloom site => site.position.z = 0

/-- The symbols of the turns about the other two axes. -/
def tiltSymbols : List Char := ['&', '^', '\\', '/']

/-- A word without these symbols spells no turn but yaws. -/
theorem axis_of_mem_commands {word : List Char} (hword : ∀ c ∈ word, c ∉ tiltSymbols) {t : Turn}
    (ht : .turn t ∈ word.map Command.ofChar) : t.axis = .yaw := by
  obtain ⟨c, hc, hcommand⟩ := List.mem_map.1 ht
  have hne {tilt : Char} (htilt : tilt ∈ tiltSymbols) (hsymbol : (Command.turn t).symbol? = some tilt) :
      False := by
    rw [Command.symbol_eq hcommand hsymbol] at hc
    exact hword tilt hc htilt
  obtain ⟨axis, sense⟩ := t
  cases axis with
  | yaw => rfl
  | pitch => cases sense <;> exact (hne (by decide) rfl).elim
  | roll => cases sense <;> exact (hne (by decide) rfl).elim

/-! ## Flat turtles -/

/-- The turtle is in the plane, and its orientation is a turn about the axis across the plane. -/
structure Turtle.IsFlat (t : Turtle ℝ) : Prop where
  position : t.position.z = 0
  pitch : t.orientation.x = 0
  roll : t.orientation.y = 0

namespace Rotations

/-- The orientation of a yaw has no part along the other two axes. -/
theorem quat_yaw {degrees : ℝ} {rotations : Rotations ℝ} (h : ofAngle degrees = .ok rotations)
    {t : Turn} (ht : t.axis = .yaw) : (rotations.quat t).x = 0 ∧ (rotations.quat t).y = 0 := by
  have hentry := aboutAxis_of_ofAngle h t
  rw [ht, Quat.aboutAxis_exact] at hentry
  have hquat := (Except.ok.inj hentry).symm
  rw [hquat]
  exact ⟨zero_mul _, zero_mul _⟩

end Rotations

namespace Turtle

/-- A turtle in the plane steps ahead in the plane. -/
theorem IsFlat.ahead {t : Turtle ℝ} (h : t.IsFlat) : t.ahead.z = 0 := by
  have hheading : (t.orientation.rotate Vec3.up).z = 0 := by
    simp [Quat.rotate, Vec3.up, h.pitch, h.roll]
  rw [Turtle.ahead, Vec3.z_add, Vec3.scale, h.position, hheading, zero_mul, add_zero]

/-- A turtle that only yaws stays in the plane. -/
theorem invariant_isFlat {degrees : ℝ} {rotations : Rotations ℝ}
    (h : Rotations.ofAngle degrees = .ok rotations) :
    Invariant rotations (fun turn => turn.axis = .yaw) IsFlat where
  ahead t ht := ⟨ht.ahead, ht.pitch, ht.roll⟩
  turn t turn hturn ht := by
    obtain ⟨hx, hy⟩ := Rotations.quat_yaw h hturn
    -- Two turns about the axis across the plane make one about it.
    refine ⟨ht.position, ?_, ?_⟩
    · rw [Quat.x_mul, ht.pitch, ht.roll, hx, hy]
      ring
    · rw [Quat.y_mul, ht.pitch, ht.roll, hx, hy]
      ring
  branched t ht := ⟨ht.position, ht.pitch, ht.roll⟩

/-- The turtle at the start is in the plane. -/
theorem isFlat_start (length radius : ℝ) : (start length radius).IsFlat := ⟨rfl, rfl, rfl⟩

/-- A turtle in the plane leaves its marks in the plane. -/
theorem IsFlat.marks {w : Walk ℝ} (h : w.turtle.IsFlat) (following : List Command) (c : Command) :
    ∀ mark ∈ w.marks following c, mark.IsFlat :=
  Walk.forall_mem_marks ⟨h.position, h.ahead⟩ h.ahead h.position following c

end Turtle

/-! ## The plant of a word -/

namespace GrammarPreset

variable {preset : GrammarPreset ℝ} {word : List Char}

/-- The marks of a word without pitch and roll are flat. -/
theorem isFlat_of_mem_marksOf {rotations : Rotations ℝ}
    (hrotations : Rotations.ofAngle preset.angle = .ok rotations)
    (hword : ∀ c ∈ word, c ∉ tiltSymbols) : ∀ mark ∈ preset.marksOf rotations word, mark.IsFlat :=
  (Turtle.invariant_isFlat hrotations).of_mem_trace (fun _ following c h => h.marks following c)
    (fun _ ht => axis_of_mem_commands hword ht)
    (Walk.throughout_start (Turtle.isFlat_start preset.segmentLength preset.radius))

/-- A plant that is made of a word without pitch and roll is flat. -/
theorem isFlat_of_run_interpret (hword : ∀ c ∈ word, c ∉ tiltSymbols) {s : Source ℝ} {i j : Nat}
    {plant : Plant ℝ} (h : (preset.interpret word).run s i = (.ok plant, j)) : plant.IsFlat := by
  obtain ⟨rotations, hrotations, -⟩ := Rotations.exists_ofAngle_exact preset.angle
  obtain ⟨hsegments, hleaves, hblooms⟩ :=
    forall_of_run_interpret hrotations (isFlat_of_mem_marksOf hrotations hword) h
  exact ⟨hsegments, hleaves, hblooms⟩

end GrammarPreset

end PlantGrowth
