/-!
# Text in 16-bit units

`units` writes a text as the sequence of its UTF-16 code units: a character up to U+FFFF is one
unit, any other a high and a low surrogate. `ofUnits?` reads such a sequence back.
-/

set_option autoImplicit false

namespace PlantGrowth.Text

/-- The code units of one character. -/
def unitsOf (c : Char) : List UInt16 :=
  if c.toNat < 0x10000 then [UInt16.ofNat c.toNat]
  else
    let offset := c.toNat - 0x10000
    [UInt16.ofNat (0xD800 + offset / 0x400), UInt16.ofNat (0xDC00 + offset % 0x400)]

/-- The code units of a text. -/
def units (text : List Char) : List UInt16 :=
  text.flatMap unitsOf

/-- The empty text has no units. -/
@[simp] theorem units_nil : units [] = [] := rfl

/-- The units of the first character come first. -/
@[simp] theorem units_cons (c : Char) (text : List Char) :
    units (c :: text) = unitsOf c ++ units text := rfl

/-- A text written in two parts. -/
theorem units_append (text more : List Char) : units (text ++ more) = units text ++ units more := by
  simp [units, List.flatMap_append]

/-- A high surrogate announces the upper half of a character beyond U+FFFF. -/
def isHigh (u : UInt16) : Bool := 0xD800 ≤ u && u < 0xDC00

/-- A low surrogate is the lower half of a character beyond U+FFFF. -/
def isLow (u : UInt16) : Bool := 0xDC00 ≤ u && u < 0xE000

/-- The character that a high and a low surrogate stand for. -/
def paired (high low : UInt16) : Char :=
  Char.ofNat (0x10000 + (high.toNat - 0xD800) * 0x400 + (low.toNat - 0xDC00))

/-- Reads a sequence of code units; a surrogate without its partner is refused. -/
def ofUnits? : List UInt16 → Option (List Char)
  | [] => some []
  | [u] => if isHigh u || isLow u then none else some [Char.ofNat u.toNat]
  | u :: v :: rest =>
    if isHigh u then
      if isLow v then (ofUnits? rest).map (paired u v :: ·) else none
    else if isLow u then none
    else (ofUnits? (v :: rest)).map (Char.ofNat u.toNat :: ·)

end PlantGrowth.Text
