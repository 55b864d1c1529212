import PlantGrowth.Json.Reader

/-!
# Encodings of JSON

JSON that arrives as bytes is text in one of the encodings of Unicode. A byte order mark says which one.
Without a mark the first character of JSON is below U+0080, so the encoding shows in the places of the
zero bytes among the first four. Halves of characters that stand alone are read in every encoding.
-/

set_option autoImplicit false

namespace PlantGrowth.Json

open Text (CodePoint)

/-- The encodings of Unicode, by the size of a unit and the order of its bytes. -/
inductive Encoding where
  | utf8
  | utf16 (bigEndian : Bool)
  | utf32 (bigEndian : Bool)
  deriving DecidableEq, Repr

namespace Encoding

/-- The byte order marks with their encodings. The mark of one of them starts with that of another, which
comes behind it. -/
def marks : List (List UInt8 × Encoding) :=
  [([0x00, 0x00, 0xFE, 0xFF], .utf32 true), ([0xFF, 0xFE, 0x00, 0x00], .utf32 false),
    ([0xFE, 0xFF], .utf16 true), ([0xFF, 0xFE], .utf16 false), ([0xEF, 0xBB, 0xBF], .utf8)]

/-- The encoding of JSON that starts with these bytes and has no mark. -/
def guess : List UInt8 → Encoding
  | [a, b] => if a = 0 then .utf16 true else if b = 0 then .utf16 false else .utf8
  | a :: b :: c :: d :: _ =>
    if a = 0 then if b = 0 then .utf32 true else .utf16 true
    else if b = 0 then if c = 0 ∧ d = 0 then .utf32 false else .utf16 false
    else .utf8
  | _ => .utf8

/-- The encoding of JSON, and its bytes behind the mark. -/
def detect (bytes : List UInt8) : Encoding × List UInt8 :=
  match marks.find? fun entry => entry.1.isPrefixOf bytes with
  | some (mark, encoding) => (encoding, bytes.drop mark.length)
  | none => (guess bytes, bytes)

/-- The number that the bytes of a unit stand for. -/
def unitValue (bigEndian : Bool) (bytes : List UInt8) : Nat :=
  (if bigEndian then bytes else bytes.reverse).foldl (fun n b => 256 * n + b.toNat) 0

/-- The 16-bit units of a row of bytes; no byte may be left over. -/
def units16? (bigEndian : Bool) : List UInt8 → Option (List UInt16)
  | [] => some []
  | a :: b :: rest =>
    (units16? bigEndian rest).map (UInt16.ofNat (unitValue bigEndian [a, b]) :: ·)
  | [_] => none

/-- The 32-bit units of a row of bytes; no byte may be left over. -/
def units32? (bigEndian : Bool) : List UInt8 → Option (List Nat)
  | [] => some []
  | a :: b :: c :: d :: rest =>
    (units32? bigEndian rest).map (unitValue bigEndian [a, b, c, d] :: ·)
  | _ => none

/-- The half of a character that three bytes stand for. -/
def half? (a b c : UInt8) : Option CodePoint :=
  if a = 0xED ∧ 0xA0 ≤ b ∧ b < 0xC0 ∧ 0x80 ≤ c ∧ c < 0xC0 then
    some (.half (UInt16.ofNat (0xD000 + (b.toNat - 0x80) * 0x40 + (c.toNat - 0x80))))
  else none

/-- The code points of some bytes of eight bits that hold no half of a character. -/
def points8? (bytes : List UInt8) : Option (List CodePoint) :=
  (String.fromUTF8? ⟨bytes.toArray⟩).map fun text => Text.points text.toList

/-- The code points of a row of bytes of eight bits, from where halves of characters stand; the bytes in
front come last one first. -/
def utf8Points? (front : List UInt8) : List UInt8 → Option (List CodePoint)
  | a :: b :: c :: rest =>
    match half? a b c with
    | some half => do
      let before ← points8? front.reverse
      let behind ← utf8Points? [] rest
      return before ++ half :: behind
    | none => utf8Points? (a :: front) (b :: c :: rest)
  | short => points8? (front.reverse ++ short)

/-- The code points that bytes stand for. -/
def decode : Encoding → List UInt8 → Option (List CodePoint)
  | .utf8, bytes => utf8Points? [] bytes
  | .utf16 bigEndian, bytes => CodePoint.ofUnits <$> units16? bigEndian bytes
  | .utf32 bigEndian, bytes => units32? bigEndian bytes >>= List.mapM CodePoint.ofNat?

end Encoding

/-- The value of JSON that arrives as bytes. -/
def ofBytes (limits : Limits) (bytes : List UInt8) : Except Flaw Json :=
  let (encoding, behind) := Encoding.detect bytes
  match encoding.decode behind with
  | some points => readPoints limits points
  | none => .error .undecodable

end PlantGrowth.Json
