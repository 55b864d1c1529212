import PlantGrowth.Text.Utf16
import PlantGrowth.Draw.Mulberry

/-!
# Seeds from text

The 32-bit FNV-1a hash of the UTF-16 code units of a key, and the source that the key seeds.
-/

set_option autoImplicit false

namespace PlantGrowth

namespace SeedHash

/-- The hash of the empty key. -/
def offsetBasis : UInt32 := 0x811C9DC5

/-- The factor of every round. -/
def prime : UInt32 := 0x01000193

/-- One round: a code unit is mixed in and the word multiplied. -/
def absorb (word : UInt32) (unit : UInt16) : UInt32 := (word ^^^ unit.toUInt32) * prime

/-- The hash of a sequence of code units. -/
def ofUnits (units : List UInt16) : UInt32 := units.foldl absorb offsetBasis

/-- A hash goes on from the hash of the units in front. -/
theorem ofUnits_append (units more : List UInt16) :
    ofUnits (units ++ more) = more.foldl absorb (ofUnits units) := by
  simp [ofUnits, List.foldl_append]

end SeedHash

/-- The hash of a key. -/
def seedHash (key : String) : UInt32 := SeedHash.ofUnits (Text.units key.toList)

/-- The hash of a key in two parts goes on from the hash of the first part. -/
theorem seedHash_append (key more : String) :
    seedHash (key ++ more) = (Text.units more.toList).foldl SeedHash.absorb (seedHash key) := by
  simp [seedHash, Text.units_append, SeedHash.ofUnits_append]

/-- The draws that a key seeds. -/
def Source.keyed {α : Type} [Scalar α] (key : String) : Source α :=
  .seeded (seedHash key).toNat

end PlantGrowth
