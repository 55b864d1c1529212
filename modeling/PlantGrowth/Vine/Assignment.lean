import PlantGrowth.Space.Vec3

/-!
# Assignment of attractors to tips

One round of competition. An attractor is consumed when an active tip is within the kill radius, and
otherwise pulls the nearest active tip within the influence radius, if there is one. The pulls on a
tip add up in the order of the attractors.
-/

set_option autoImplicit false

namespace PlantGrowth

/-- A point of a vine, with its distance from the root in steps. -/
structure Node (α : Type) where
  position : Vec3 α
  depth : Nat
  radius : α
  deriving Repr, DecidableEq

/-- The squares of the radii within which a tip is pulled by an attractor and consumes it. -/
structure Reach (α : Type) where
  influenceSq : α
  killSq : α
  deriving Repr, DecidableEq

/-- What an attractor finds when it looks at all active tips. -/
inductive Sighting where
  /-- A tip within the kill radius. -/
  | reached
  /-- No tip within the kill radius; the nearest tip within the influence radius, if any. -/
  | nearest (tip : Option Nat)
  deriving Repr, DecidableEq

/-- What becomes of an attractor in one round. -/
inductive Fate (α : Type) where
  | consumed
  | idle
  | pulling (tip : Nat) (pull : Vec3 α)
  deriving Repr, DecidableEq

/-- The pulls on tips in the order in which the tips were first pulled, and the attractors left. -/
structure Assignment (α : Type) where
  pulls : List (Nat × Vec3 α)
  survivors : List (Vec3 α)
  deriving Repr, DecidableEq

namespace Assignment

variable {α : Type}

/-- The node with an index. -/
def nodeAt (nodes : Array (Node α)) (index : Nat) : Except Fault (Node α) :=
  match nodes[index]? with
  | some node => .ok node
  | none => .error (.outside index)

/-- An index stands for the node that the array has there. -/
theorem nodeAt_eq_ok_iff {nodes : Array (Node α)} {index : Nat} {node : Node α} :
    nodeAt nodes index = .ok node ↔ nodes[index]? = some node := by
  unfold nodeAt
  cases nodes[index]? with
  | none => exact iff_of_false nofun nofun
  | some other => rw [Except.ok.injEq, Option.some.injEq]

variable [Scalar α]

/-- Whether a squared distance beats the nearest one so far; the first one has to be finite. -/
def isNearer (distanceSq : α) : Option (Nat × α) → Bool
  | none => Scalar.isFinite distanceSq
  | some (_, leastSq) => distanceSq < leastSq

/-- Looks at tips in order, with the nearest one so far. The first tip within the kill radius ends
the search. -/
def seek (reach : Reach α) (nodes : Array (Node α)) (attractor : Vec3 α) :
    Option (Nat × α) → List Nat → Except Fault Sighting
  | nearest, [] => .ok (.nearest (nearest.map Prod.fst))
  | nearest, tip :: others => do
    let node ← nodeAt nodes tip
    let distanceSq := attractor.distanceSq node.position
    if distanceSq < reach.killSq then .ok .reached
    else if distanceSq ≤ reach.influenceSq ∧ isNearer distanceSq nearest then
      seek reach nodes attractor (some (tip, distanceSq)) others
    else seek reach nodes attractor nearest others

/-- What becomes of one attractor. -/
def fate (reach : Reach α) (nodes : Array (Node α)) (tips : List Nat) (attractor : Vec3 α) :
    Except Fault (Fate α) := do
  match ← seek reach nodes attractor none tips with
  | .reached => return .consumed
  | .nearest none => return .idle
  | .nearest (some tip) =>
    let node ← nodeAt nodes tip
    let pull ← (attractor - node.position).normalize
    return .pulling tip pull

/-- One more pull on a tip. The first pull on a tip is added to the zero vector. -/
def addPull (tip : Nat) (pull : Vec3 α) : List (Nat × Vec3 α) → List (Nat × Vec3 α)
  | [] => [(tip, Vec3.origin + pull)]
  | (t, sum) :: others =>
    if t = tip then (t, sum + pull) :: others else (t, sum) :: addPull tip pull others

/-- The pulls after the fate of one more attractor. -/
def collect (pulls : List (Nat × Vec3 α)) : Fate α → List (Nat × Vec3 α)
  | .pulling tip pull => addPull tip pull pulls
  | _ => pulls

/-- The round that the fates of the attractors make up. -/
def ofFates (fates : List (Vec3 α × Fate α)) : Assignment α where
  pulls := (fates.map Prod.snd).foldl collect []
  survivors := fates.filterMap fun
    | (_, .consumed) => none
    | (attractor, _) => some attractor

/-- The round of competition for the given tips. -/
def assign (reach : Reach α) (nodes : Array (Node α)) (tips : List Nat)
    (attractors : List (Vec3 α)) : Except Fault (Assignment α) := do
  let fates ← attractors.mapM fun attractor => do
    let f ← fate reach nodes tips attractor
    return (attractor, f)
  return ofFates fates

end Assignment

end PlantGrowth
