import PlantGrowth.Text.Utf16

/-!
# Code points

What a text of code units holds if nothing is refused: characters, and halves of characters that stand
alone. Two halves are joined only where both come as units, one right behind the other.
-/

set_option autoImplicit false

namespace PlantGrowth.Text

/-- A character, or half of one that stands alone. -/
inductive CodePoint where
  | char (c : Char)
  | half (unit : UInt16)
  deriving DecidableEq, Repr

namespace CodePoint

/-- The code point that a unit is by itself. -/
def ofUnit (u : UInt16) : CodePoint :=
  if isHigh u || isLow u then .half u else .char (Char.ofNat u.toNat)

/-- The character that a code point is, unless it is a half. -/
def char? : CodePoint → Option Char
  | .char c => some c
  | .half _ => none

/-- The code points of a row of code points and units. -/
def join : List (CodePoint ⊕ UInt16) → List CodePoint
  | [] => []
  | [.inr u] => [ofUnit u]
  | .inl p :: rest => p :: join rest
  | .inr u :: .inl p :: rest => ofUnit u :: p :: join rest
  | .inr u :: .inr v :: rest =>
    if isHigh u && isLow v then .char (paired u v) :: join rest
    else ofUnit u :: join (.inr v :: rest)

/-- The code points of a row of units. -/
def ofUnits (units : List UInt16) : List CodePoint := join (units.map .inr)

/-- The code point with a number, which has to be one of Unicode. -/
def ofNat? (n : Nat) : Option CodePoint :=
  if n.isValidChar then some (.char (Char.ofNat n))
  else if n ≤ 0x10FFFF then some (.half (UInt16.ofNat n))
  else none

end CodePoint

/-- The characters of a row of code points in which no half stands alone. -/
def characters? (points : List CodePoint) : Option (List Char) := points.mapM CodePoint.char?

/-- A text as a row of code points. -/
def points (text : List Char) : List CodePoint := text.map .char

end PlantGrowth.Text
