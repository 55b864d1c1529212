import PlantGrowth.Main
import PlantGrowth.Planting.Record
import PlantGrowth.Planting.Survey
import PlantGrowth.Service.Framework
import PlantGrowth.Proofs.Draw.Outcome
import PlantGrowth.Proofs.Vine.Stem
import PlantGrowth.Proofs.Vine.Unbranched
import PlantGrowth.Proofs.Draw.UnitInterval
import PlantGrowth.Proofs.Vine.OutOfReach
import PlantGrowth.Proofs.Turtle.Nesting
import PlantGrowth.Proofs.Turtle.Recursive
import PlantGrowth.Proofs.Turtle.Marks
import PlantGrowth.Proofs.Turtle.Symbol
import PlantGrowth.Proofs.Turtle.Depth
import PlantGrowth.Proofs.Draw.SideBySide
import PlantGrowth.Proofs.Vine.Steering
import PlantGrowth.Proofs.Draw.Yield
import PlantGrowth.Proofs.Grammar.Language
import PlantGrowth.Proofs.Grammar.Literal
import PlantGrowth.Proofs.Grammar.Doubling
import PlantGrowth.Proofs.Species.Census
import PlantGrowth.Proofs.Planting.SeedIndependence
import PlantGrowth.Proofs.Draw.SeedHash
import PlantGrowth.Proofs.Planting.SharedSeed
import PlantGrowth.Proofs.Space.Norm
import PlantGrowth.Proofs.Turtle.StepLength
import PlantGrowth.Proofs.Vine.Stages
import PlantGrowth.Proofs.Planting.Stage
import PlantGrowth.Proofs.Service.Posts
import PlantGrowth.Proofs.Scalar.Packing
import PlantGrowth.Proofs.Scalar.Arithmetic
import PlantGrowth.Proofs.Scalar.Magnitude
import PlantGrowth.Proofs.Space.Direction
import PlantGrowth.Proofs.Vine.Faultless
import PlantGrowth.Proofs.Planting.BuiltIn
import PlantGrowth.Proofs.Space.Frame
import PlantGrowth.Proofs.Turtle.Parts
import PlantGrowth.Proofs.Turtle.Placement
import PlantGrowth.Proofs.Planting.Coloring
import PlantGrowth.Proofs.Scalar.Truncation
import PlantGrowth.Proofs.Planting.GrownStage
import PlantGrowth.Proofs.Service.Validation
import PlantGrowth.Proofs.Service.Acceptance
import PlantGrowth.Proofs.Turtle.Connected
import PlantGrowth.Proofs.Turtle.Branch
import PlantGrowth.Proofs.Turtle.Ornaments
import PlantGrowth.Proofs.Scalar.Order
import PlantGrowth.Proofs.Vine.Competition
import PlantGrowth.Proofs.Grammar.Parts
import PlantGrowth.Proofs.Space.Composition
import PlantGrowth.Proofs.Vine.Advance
import PlantGrowth.Proofs.Vine.Leaves
import PlantGrowth.Proofs.Planting.StageSeeds
import PlantGrowth.Proofs.Grammar.Unwritten
import PlantGrowth.Proofs.Vine.Consumption
import PlantGrowth.Proofs.Vine.Rounds
import PlantGrowth.Proofs.Draw.Cycle
import PlantGrowth.Proofs.Grammar.Fairness
import PlantGrowth.Proofs.Grammar.LaterStages
import PlantGrowth.Proofs.Grammar.Homomorphism
import PlantGrowth.Proofs.Turtle.Inert
import PlantGrowth.Proofs.Turtle.Turns
import PlantGrowth.Proofs.Turtle.Invariant
import PlantGrowth.Proofs.Grammar.Alphabet
import PlantGrowth.Proofs.Turtle.Plane
import PlantGrowth.Proofs.Planting.Flat
import PlantGrowth.Proofs.Planting.Obstacles
import PlantGrowth.Proofs.Planting.GrowthKeys
import PlantGrowth.Proofs.Scalar.HalfEven
import PlantGrowth.Proofs.Scalar.Nearest
import PlantGrowth.Proofs.Scalar.Quotient
import PlantGrowth.Proofs.Scalar.Extended
import PlantGrowth.Proofs.Species.VineStages
import PlantGrowth.Proofs.Draw.Interpolation
import PlantGrowth.Proofs.Text.Utf16
import PlantGrowth.Proofs.Draw.KeyHash
import PlantGrowth.Proofs.Planting.Generators
