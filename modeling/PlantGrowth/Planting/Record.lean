import PlantGrowth.Planting.Basic
import PlantGrowth.Json.Basic
import PlantGrowth.Scalar.Double

/-!
# Records

The JSON form of plants and of the entries of a catalogue, as clients and renderers read them.
-/

set_option autoImplicit false

namespace PlantGrowth

/-- The record of a point: its coordinates in order. -/
def Vec3.record (v : Vec3 Float) : Json := .arr [.real v.x, .real v.y, .real v.z]

/-- The record of a segment. -/
def Segment.record (s : Segment Float) : Json :=
  .obj [("start", s.start.record), ("end", s.finish.record), ("radius", .real s.radius)]

/-- The record of a leaf or a bloom. -/
def Ornament.record (o : Ornament Float) : Json :=
  .obj [("position", o.position.record), ("rotation", o.rotation.record),
    ("scale", .real o.scale), ("color", .str o.color)]

/-- The record of a plant. -/
def Plant.record (p : Plant Float) : Json :=
  .obj [("segments", .arr (p.segments.map Segment.record)),
    ("leaves", .arr (p.leaves.map Ornament.record)),
    ("blooms", .arr (p.blooms.map Ornament.record))]

/-- The record of rules: a field for each symbol. -/
def Rules.record (rules : Rules) : Json := .obj (rules.entries.map fun r => (.text r.1, .str r.2))

/-- The record of a text that may be absent. -/
def Json.ofText? : Option String → Json
  | some text => .str text
  | none => .null

/-- The record of the measures of a species that grows from a grammar. -/
def GrammarPreset.record (p : GrammarPreset Float) : Json :=
  .obj [("axiom", .str p.initial), ("rules", p.rules.record), ("angle", .real p.angle),
    ("segment_length", .real p.segmentLength), ("radius", .real p.radius),
    ("iterations", .int p.iterations), ("leaf_color", .str p.leafColor),
    ("randomness", .real p.randomness), ("bloom_color", Json.ofText? p.bloomColor)]

/-- The record of the measures of a vine. -/
def ColonizationPreset.record (p : ColonizationPreset Float) : Json :=
  .obj [("attractor_count", .int p.attractorCount),
    ("influence_radius", .real p.influenceRadius), ("kill_radius", .real p.killRadius),
    ("step_size", .real p.stepSize), ("base_radius", .real p.baseRadius),
    ("leaf_color", .str p.leafColor)]

/-- The record of the measures of a preset. -/
def Preset.measures : Preset Float → Json
  | .grammar p => p.record
  | .colonization p => p.record

/-- The fields that say how a species grows. -/
def Preset.fields (preset : Preset Float) : List (JsonString × Json) :=
  [("method", .str preset.method.name), ("parameters", preset.measures)]

namespace Catalogue

/-- The record of the preset of a named species. -/
def presetRecord (catalogue : Catalogue Float) (species : String) : Except Fault Json := do
  let s ← Species.named species
  return .obj (catalogue s).fields

/-- The record of a species: its name, its greatest stage and its preset. -/
def record (catalogue : Catalogue Float) (species : Species) : Except Fault Json := do
  let greatest ← catalogue.greatestStage species
  return .obj (("species", .str species.name) :: ("max_stage", .int greatest)
    :: (catalogue species).fields)

/-- The record of a named species. -/
def recordNamed (catalogue : Catalogue Float) (species : String) : Except Fault Json := do
  let s ← Species.named species
  catalogue.record s

end Catalogue

end PlantGrowth
