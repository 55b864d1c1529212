import PlantGrowth.Draw.SeedHash
import PlantGrowth.Proofs.Draw.Generator
import PlantGrowth.Proofs.Text.Utf16

/-!
# The hash of a key on integers of any size

The hash can be run on integers without a bound (`SeedHash.Wide`): a code unit is mixed in as it is, and
of every product the lowest 32 bits are kept. Units have 16 bits, so the integer after every round is
the number of the word that FNV-1a has there (`SeedHash.Wide.foldl_absorb_toNat`), and what is hashed is
the encoding of the key in UTF-16 (`keys_hash_as_utf16`).
-/

set_option autoImplicit false

namespace PlantGrowth

namespace SeedHash.Wide

/-- One round on integers without a bound. -/
def absorb (value unit : Nat) : Nat := Mulberry.Wide.product (value ^^^ unit) 0x01000193

/-- The hash of a row of units on integers without a bound. -/
def ofUnits (units : List Nat) : Nat := units.foldl absorb 0x811C9DC5

/-- To absorb a unit on numbers is to absorb it on words. -/
theorem absorb_toNat (word : UInt32) (unit : UInt16) :
    absorb word.toNat unit.toNat = (SeedHash.absorb word unit).toNat := by
  rw [absorb, ← UInt16.toNat_toUInt32, ← UInt32.toNat_xor]
  exact Mulberry.Wide.product_toNat (word ^^^ unit.toUInt32) prime

/-- No round leads out of 32 bits. -/
theorem foldl_absorb_toNat (units : List UInt16) (word : UInt32) :
    (units.map UInt16.toNat).foldl absorb word.toNat =
      (units.foldl SeedHash.absorb word).toNat := by
  induction units generalizing word with
  | nil => rfl
  | cons unit others ih => rw [List.map_cons, List.foldl_cons, List.foldl_cons, absorb_toNat, ih]

/-- The hash on numbers is the one on words. -/
theorem ofUnits_toNat (units : List UInt16) :
    ofUnits (units.map UInt16.toNat) = (SeedHash.ofUnits units).toNat :=
  foldl_absorb_toNat units offsetBasis

end SeedHash.Wide

/-- A key is hashed as UTF-16. Its units on integers of any size are the one row that encodes it, with a
high and a low surrogate for a character beyond U+FFFF; they are below `2 ^ 16` and so the same in words.
The key is read back from these words and from no others, and the words of a key in two parts are those
of the parts. The hash on integers of any size is FNV-1a in 32-bit words over them, so it is below
`2 ^ 32`. -/
theorem keys_hash_as_utf16 (key : String) :
    (∀ row, Text.IsUtf16 key.toList row ↔ row = Text.Wide.units key.toList) ∧
    (∀ unit ∈ Text.Wide.units key.toList, unit < 2 ^ 16) ∧
    Text.Wide.units key.toList = (Text.units key.toList).map UInt16.toNat ∧
    (∀ row, Text.ofUnits? row = some key.toList ↔ row = Text.units key.toList) ∧
    (∀ more : String, Text.units (key ++ more).toList =
      Text.units key.toList ++ Text.units more.toList) ∧
    seedHash key = (Text.units key.toList).foldl
      (fun word unit => (word ^^^ unit.toUInt32) * 0x01000193) 0x811C9DC5 ∧
    SeedHash.Wide.ofUnits (Text.Wide.units key.toList) = (seedHash key).toNat ∧
    SeedHash.Wide.ofUnits (Text.Wide.units key.toList) < 2 ^ 32 := by
  have hhash : SeedHash.Wide.ofUnits (Text.Wide.units key.toList) = (seedHash key).toNat := by
    rw [← Text.map_toNat_units, SeedHash.Wide.ofUnits_toNat]
    rfl
  refine ⟨fun row => Text.isUtf16_iff, (Text.isUtf16_units key.toList).lt,
    (Text.map_toNat_units key.toList).symm, fun row => Text.ofUnits?_eq_some_iff, ?_, rfl, hhash, ?_⟩
  · intro more
    rw [String.toList_append, Text.units_append]
  · rw [hhash]
    exact UInt32.toNat_lt _

/-- A seedling is a character beyond U+FFFF. -/
theorem keys_hash_as_utf16_seedling :
    0xDF31 ∈ Text.Wide.units "moss🌱".toList ∧ 0xDF31 < 2 ^ 16 ∧
    Text.IsUtf16 "moss🌱".toList [0x6D, 0x6F, 0x73, 0x73, 0xD83C, 0xDF31] ∧
    Text.ofUnits? [0x6D, 0x6F, 0x73, 0x73, 0xD83C, 0xDF31] = some "moss🌱".toList := by
  have hunit : 0xDF31 ∈ Text.Wide.units "moss🌱".toList := by decide
  obtain ⟨hencoding, hrange, -, hreading, -⟩ := keys_hash_as_utf16 "moss🌱"
  refine ⟨hunit, hrange 0xDF31 hunit, ?_, ?_⟩
  · rw [hencoding]
    decide
  · rw [hreading]
    decide

/-- A reference value of FNV-1a. -/
example : seedHash "foobar" = 0xBF9CF968 := by decide

end PlantGrowth
