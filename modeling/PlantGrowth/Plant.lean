import PlantGrowth.Space.Quat

/-!
# Plants

The finished geometry that a renderer draws: branch segments, leaves and blooms, each in the order
in which it grew.
-/

set_option autoImplicit false

namespace PlantGrowth

/-- A straight piece of a branch. -/
structure Segment (α : Type) where
  start : Vec3 α
  finish : Vec3 α
  radius : α
  deriving Repr, DecidableEq

/-- A leaf or a bloom. -/
structure Ornament (α : Type) where
  position : Vec3 α
  rotation : Vec3 α
  scale : α
  color : String
  deriving Repr, DecidableEq

/-- The colour that a text names: an empty text names none. -/
def Ornament.namedColor? (color : Option String) : Option String := color.filter (!·.isEmpty)

/-- All that is drawn of one plant. -/
structure Plant (α : Type) where
  segments : List (Segment α)
  leaves : List (Ornament α)
  blooms : List (Ornament α)
  deriving Repr, DecidableEq

/-- One element of a plant. -/
inductive Organ (α : Type) where
  | segment (s : Segment α)
  | leaf (o : Ornament α)
  | bloom (o : Ornament α)
  deriving Repr, DecidableEq

namespace Organ

variable {α : Type}

/-- The segment that an organ is, if it is one. -/
def segment? : Organ α → Option (Segment α)
  | .segment s => some s
  | _ => none

/-- The leaf that an organ is, if it is one. -/
def leaf? : Organ α → Option (Ornament α)
  | .leaf o => some o
  | _ => none

/-- The bloom that an organ is, if it is one. -/
def bloom? : Organ α → Option (Ornament α)
  | .bloom o => some o
  | _ => none

end Organ

/-- The plant made of the given organs: each kind keeps its order. -/
def Plant.ofOrgans {α : Type} (organs : List (Organ α)) : Plant α where
  segments := organs.filterMap Organ.segment?
  leaves := organs.filterMap Organ.leaf?
  blooms := organs.filterMap Organ.bloom?

end PlantGrowth
