import PlantGrowth.Space.Quat

/-!
# Turtle commands

The symbols of a word that move the turtle, and the turns that the six turning symbols stand for.
-/

set_option autoImplicit false

namespace PlantGrowth

/-- The three axes of the turtle's own frame. -/
inductive Axis where
  | yaw
  | pitch
  | roll
  deriving DecidableEq, Repr

/-- The two directions of a turn about an axis. -/
inductive Sense where
  | positive
  | negative
  deriving DecidableEq, Repr

/-- A turn by the preset's angle. -/
structure Turn where
  axis : Axis
  sense : Sense
  deriving DecidableEq, Repr

/-- What one symbol tells the turtle. -/
inductive Command where
  /-- Walk ahead and leave a segment. -/
  | forward
  | turn (t : Turn)
  /-- Open a branch: remember the turtle, and go on thinner and shorter. -/
  | push
  /-- Close a branch: go back to the turtle remembered last. -/
  | pop
  | bloom
  /-- A symbol that has a meaning for the grammar only. -/
  | idle
  deriving DecidableEq, Repr

/-- The command of a symbol. -/
def Command.ofChar : Char → Command
  | 'F' => .forward
  | '+' => .turn ⟨.yaw, .positive⟩
  | '-' => .turn ⟨.yaw, .negative⟩
  | '&' => .turn ⟨.pitch, .positive⟩
  | '^' => .turn ⟨.pitch, .negative⟩
  | '\\' => .turn ⟨.roll, .positive⟩
  | '/' => .turn ⟨.roll, .negative⟩
  | '[' => .push
  | ']' => .pop
  | '*' => .bloom
  | _ => .idle

namespace Axis

variable {α : Type} [Zero α] [One α]

/-- The direction of an axis in the turtle's own frame, where it heads upward. -/
def direction : Axis → Vec3 α
  | .yaw => ⟨0, 0, 1⟩
  | .pitch => ⟨1, 0, 0⟩
  | .roll => ⟨0, 1, 0⟩

end Axis

/-- The two turns about one axis. -/
structure TurnPair (α : Type) where
  positive : Quat α
  negative : Quat α
  deriving Repr, DecidableEq

/-- The turns of one angle about all three axes. -/
structure Rotations (α : Type) where
  yaw : TurnPair α
  pitch : TurnPair α
  roll : TurnPair α
  deriving Repr, DecidableEq

namespace Rotations

variable {α : Type}

/-- The orientation change of a turn. -/
def quat (rotations : Rotations α) (t : Turn) : Quat α :=
  let pair := match t.axis with
    | .yaw => rotations.yaw
    | .pitch => rotations.pitch
    | .roll => rotations.roll
  match t.sense with
  | .positive => pair.positive
  | .negative => pair.negative

/-- The turns about one axis by an angle and by its opposite. -/
def pairAbout [Scalar α] (axis : Axis) (degrees : α) : Except Fault (TurnPair α) := do
  let positive ← Quat.aboutAxis axis.direction degrees
  let negative ← Quat.aboutAxis axis.direction (-degrees)
  return ⟨positive, negative⟩

/-- The turns of an angle in degrees, which must not be infinite. -/
def ofAngle [Scalar α] (degrees : α) : Except Fault (Rotations α) := do
  let yaw ← pairAbout .yaw degrees
  let pitch ← pairAbout .pitch degrees
  let roll ← pairAbout .roll degrees
  return ⟨yaw, pitch, roll⟩

end Rotations

end PlantGrowth
