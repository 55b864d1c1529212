import PlantGrowth.Draw.Range
import PlantGrowth.Vine.Attractor
import PlantGrowth.Vine.Growth

/-!
# The dressing of a vine

A trail becomes a plant: each segment in turn takes a draw that decides whether it bears a leaf, and
the end of the last segment bears the only bloom. A fault that cut the growth short is met after the
draws of the segments before it.
-/

set_option autoImplicit false

namespace PlantGrowth.ColonizationPreset

variable {α : Type} [Scalar α]

/-- The colour of blooms where none is named. -/
def defaultBloomColor : String := "#d4f1cd"

/-- A leaf near a point, placed, turned and sized by seven draws. -/
def leafNear (preset : ColonizationPreset α) (point : Vec3 α) : Drawing α (Ornament α) := do
  let x ← Drawing.aroundZero 0.3
  let y ← Drawing.aroundZero 0.2
  let z ← Drawing.aroundZero 0.3
  let rotation ← Drawing.rotation 0.8
  let u ← Drawing.draw
  return ⟨point + ⟨x, y, z⟩, rotation, 0.25 + u * 0.35, preset.leafColor⟩

/-- The leaf of a segment: there is one where the next draw is above `0.4`. -/
def leafOf (preset : ColonizationPreset α) (segment : Segment α) :
    Drawing α (Option (Ornament α)) := do
  let u ← Drawing.draw
  if 0.4 < u then
    let leaf ← preset.leafNear segment.finish
    return some leaf
  else return none

/-- The bloom at the end of the last segment. -/
def bloomAt (point : Vec3 α) (color : String) : Drawing α (Ornament α) := do
  let rotation ← Drawing.rotation 0.6
  let u ← Drawing.draw
  return ⟨point, rotation, 0.2 + u * 0.4, color⟩

/-- The blooms of a vine: one at its end, if it has grown at all. -/
def bloomsOf (segments : List (Segment α)) (color : String) : Drawing α (List (Ornament α)) :=
  match segments.getLast? with
  | none => return []
  | some last => do
    let bloom ← bloomAt last.finish color
    return [bloom]

/-- The plant of a trail. -/
def dress (preset : ColonizationPreset α) (bloomColor : String) (trail : Trail α) :
    Drawing α (Plant α) := do
  let leaves ← trail.segments.mapM preset.leafOf
  match trail.fault with
  | some e => Drawing.ofExcept (.error e)
  | none =>
    let blooms ← bloomsOf trail.segments bloomColor
    return ⟨trail.segments, leaves.filterMap id, blooms⟩

/-- The vine of a stage among the given attractors. Every stage below one counts as stage one. -/
def growAmong (preset : ColonizationPreset α) (stage : Int) (bloomColor : String)
    (attractors : List (Vec3 α)) : Drawing α (Plant α) := do
  let reach ← Drawing.ofExcept preset.reach
  preset.dress bloomColor (preset.trailAt reach (max 1 stage) attractors)

/-- The vine of a stage among attractors that the first draws scatter. -/
def grow (preset : ColonizationPreset α) (stage : Int) (bloomColor : String) :
    Drawing α (Plant α) := do
  let attractors ← Attractor.scatter preset.attractorCount.toNat
  preset.growAmong stage bloomColor attractors

end PlantGrowth.ColonizationPreset
