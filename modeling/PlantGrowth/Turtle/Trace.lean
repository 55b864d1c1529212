import PlantGrowth.Plant
import PlantGrowth.Turtle.Command

/-!
# The trace of a turtle

A turtle walks through a list of commands and leaves marks: segments, and sites for leaves and
blooms. Nothing of this depends on draws, so the trace is a function of the commands alone; how
leaves and blooms are oriented is decided afterwards.

A leaf grows at the end of a segment that nothing continues: where the walk ends, where the branch
is closed, or where the next symbol is the positive yaw.
-/

set_option autoImplicit false

namespace PlantGrowth

/-- Where the turtle is, where it looks, and the measures of the next segment. -/
structure Turtle (α : Type) where
  position : Vec3 α
  orientation : Quat α
  /-- The length of the next segment. -/
  length : α
  /-- The radius of the next segment. -/
  radius : α
  deriving Repr, DecidableEq

/-- The place and size of a leaf or a bloom that is not oriented yet. -/
structure Site (α : Type) where
  position : Vec3 α
  scale : α
  deriving Repr, DecidableEq

/-- What the turtle leaves behind. -/
inductive Mark (α : Type) where
  | segment (s : Segment α)
  | leaf (site : Site α)
  | bloom (site : Site α)
  deriving Repr, DecidableEq

namespace Turtle

variable {α : Type} [Scalar α]

/-- The turtle at the start of a walk, heading upward from the origin. -/
def start (length radius : α) : Turtle α := ⟨Vec3.origin, Quat.identity, length, radius⟩

/-- The point that the turtle reaches when it walks ahead. -/
def ahead (t : Turtle α) : Vec3 α := t.position + (t.orientation.rotate Vec3.up).scale t.length

/-- The turtle at the base of a branch: shorter and thinner. -/
def branched (t : Turtle α) : Turtle α :=
  { t with length := t.length * 0.88, radius := t.radius * 0.8 }

/-- The segment that the turtle leaves when it walks ahead. No segment is thinner than `0.01`. -/
def segmentAhead (t : Turtle α) : Segment α :=
  ⟨t.position, t.ahead, Scalar.maxOf t.radius 0.01⟩

/-- The site of a leaf at the end of the segment ahead. -/
def leafAhead (t : Turtle α) : Site α := ⟨t.ahead, Scalar.maxOf (0.6 * t.length) 0.2⟩

/-- The site of a bloom where the turtle is. -/
def bloomHere (t : Turtle α) : Site α := ⟨t.position, Scalar.maxOf (t.radius * 3.0) 0.3⟩

end Turtle

/-- A turtle and the turtles at the open branches around it, the innermost first. -/
structure Walk (α : Type) where
  turtle : Turtle α
  opened : List (Turtle α)
  deriving Repr, DecidableEq

/-- A segment is a tip when these commands follow it. -/
def Command.isTip : List Command → Bool
  | [] => true
  | .pop :: _ => true
  | .turn t :: _ => t = ⟨.yaw, .positive⟩
  | _ => false

namespace Walk

variable {α : Type} [Scalar α]

/-- The walk after one command. A close without an open branch changes nothing. -/
def step (rotations : Rotations α) (w : Walk α) : Command → Walk α
  | .forward => { w with turtle := { w.turtle with position := w.turtle.ahead } }
  | .turn t =>
    { w with turtle :=
        { w.turtle with orientation := w.turtle.orientation * rotations.quat t } }
  | .push => ⟨w.turtle.branched, w.turtle :: w.opened⟩
  | .pop =>
    match w.opened with
    | [] => w
    | t :: outer => ⟨t, outer⟩
  | .bloom => w
  | .idle => w

/-- The marks that one command leaves, given the commands after it. -/
def marks (w : Walk α) (following : List Command) : Command → List (Mark α)
  | .forward =>
    if Command.isTip following then
      [.segment w.turtle.segmentAhead, .leaf w.turtle.leafAhead]
    else [.segment w.turtle.segmentAhead]
  | .bloom => [.bloom w.turtle.bloomHere]
  | _ => []

/-- The marks of a list of commands, in order. -/
def trace (rotations : Rotations α) (w : Walk α) : List Command → List (Mark α)
  | [] => []
  | c :: following => w.marks following c ++ trace rotations (w.step rotations c) following

/-- The walk after a list of commands. -/
def after (rotations : Rotations α) (w : Walk α) (commands : List Command) : Walk α :=
  commands.foldl (step rotations) w

/-- Without commands the walk stays where it is. -/
@[simp] theorem after_nil (rotations : Rotations α) (w : Walk α) : w.after rotations [] = w := rfl

/-- A walk goes on from where its first command has led it. -/
@[simp] theorem after_cons (rotations : Rotations α) (w : Walk α) (c : Command)
    (commands : List Command) :
    w.after rotations (c :: commands) = (w.step rotations c).after rotations commands := rfl

/-- Of two lists of commands the second one is walked from where the first one has led. -/
theorem after_append (rotations : Rotations α) (w : Walk α) (commands more : List Command) :
    w.after rotations (commands ++ more) = (w.after rotations commands).after rotations more := by
  simp [after, List.foldl_append]

end Walk

end PlantGrowth
