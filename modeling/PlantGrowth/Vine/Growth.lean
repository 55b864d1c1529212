import PlantGrowth.Plant
import PlantGrowth.Vine.Assignment
import PlantGrowth.Vine.Preset

/-!
# The growth of a vine

In every step the active tips compete for the attractors that are left, and each tip that is pulled
grows a segment along its pull; the new nodes are the active tips of the next step. Growth ends when
the steps of the stage are used up, no attractor or no active tip is left, or nothing is pulled.

No draw takes part in this, so the trail of a vine is a function of its preset, its stage and its
attractors. A trail can be cut short by a fault; what grew before the fault is part of it.
-/

set_option autoImplicit false

namespace PlantGrowth

/-- The segments of a vine in order, and the fault that cut the growth short, if any. -/
structure Trail (α : Type) where
  segments : List (Segment α)
  fault : Option Fault
  deriving Repr, DecidableEq

/-- A vine between two steps: its nodes, its active tips, and the attractors that are left. -/
structure Frontier (α : Type) where
  nodes : Array (Node α)
  tips : List Nat
  attractors : List (Vec3 α)
  deriving Repr, DecidableEq

namespace ColonizationPreset

variable {α : Type} [Scalar α]

/-- The most steps that a vine takes: sixteen for each stage, and never less than eight. -/
def stepBudget (stage : Int) : Int := max 8 (stage * 16)

/-- A stage of at least one has sixteen steps for each stage. -/
theorem stepBudget_of_pos {stage : Int} (h : 1 ≤ stage) : stepBudget stage = 16 * stage := by
  unfold stepBudget
  omega

/-- The vine before its first step. -/
def sown (preset : ColonizationPreset α) (attractors : List (Vec3 α)) : Frontier α where
  nodes := #[⟨Vec3.origin, 0, preset.baseRadius⟩]
  tips := [0]
  attractors := attractors

/-- The squares of the radii. -/
def reach (preset : ColonizationPreset α) : Except Fault (Reach α) := do
  let influenceSq ← Scalar.square preset.influenceRadius
  let killSq ← Scalar.square preset.killRadius
  return ⟨influenceSq, killSq⟩

/-- The length of a step from a node of this depth: steps get shorter, down to four tenths. -/
def stepLength (preset : ColonizationPreset α) (depth : Nat) : α :=
  preset.stepSize * Scalar.maxOf 0.4 (1 - Scalar.ofNat depth * 0.05)

/-- The node that a tip grows along a pull: thinner than the tip, down to a least radius. -/
def sprout (preset : ColonizationPreset α) (tip : Node α) (pull : Vec3 α) :
    Except Fault (Node α) := do
  let direction ← pull.normalize
  return {
    position := tip.position + direction.scale (preset.stepLength tip.depth)
    depth := tip.depth + 1
    radius := Scalar.maxOf (tip.radius * 0.92) 0.02 }

/-- The tip with an index, and the node that it grows along a pull. -/
def sproutAt (preset : ColonizationPreset α) (nodes : Array (Node α)) (tip : Nat) (pull : Vec3 α) :
    Except Fault (Node α × Node α) := do
  let old ← Assignment.nodeAt nodes tip
  let new ← preset.sprout old pull
  return (old, new)

/-- Grows one segment for each pull in turn. The new nodes come after the old ones. -/
def extend (preset : ColonizationPreset α) (nodes : Array (Node α)) :
    List (Nat × Vec3 α) → List (Segment α) × Except Fault (Array (Node α))
  | [] => ([], .ok nodes)
  | (tip, pull) :: others =>
    match preset.sproutAt nodes tip pull with
    | .error e => ([], .error e)
    | .ok (old, new) =>
      let rest := preset.extend (nodes.push new) others
      (⟨old.position, new.position, new.radius⟩ :: rest.1, rest.2)

/-- The trail of at most that many steps. -/
def trail (preset : ColonizationPreset α) (reach : Reach α) : Nat → Frontier α → Trail α
  | 0, _ => ⟨[], none⟩
  | steps + 1, f =>
    if f.attractors.isEmpty || f.tips.isEmpty then ⟨[], none⟩
    else
      match Assignment.assign reach f.nodes f.tips f.attractors with
      | .error e => ⟨[], some e⟩
      | .ok round =>
        if round.pulls.isEmpty then ⟨[], none⟩
        else
          match preset.extend f.nodes round.pulls with
          | (grown, .error e) => ⟨grown, some e⟩
          | (grown, .ok nodes) =>
            let rest := preset.trail reach steps
              ⟨nodes, List.range' f.nodes.size round.pulls.length, round.survivors⟩
            ⟨grown ++ rest.segments, rest.fault⟩

/-- The trail of a vine of a stage among the given attractors. -/
def trailAt (preset : ColonizationPreset α) (reach : Reach α) (stage : Int)
    (attractors : List (Vec3 α)) : Trail α :=
  preset.trail reach (stepBudget stage).toNat (preset.sown attractors)

end ColonizationPreset

end PlantGrowth
