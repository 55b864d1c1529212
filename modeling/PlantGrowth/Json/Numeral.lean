import PlantGrowth.Json.Basic
import PlantGrowth.Text.Digits

/-!
# Numerals

The numbers of JSON: an optional minus, digits without a superfluous zero in front, and optionally a
fraction and an exponent. A numeral with neither of the two is a whole number of any size, any other
one is read as the nearest double.
-/

set_option autoImplicit false

namespace PlantGrowth.Json

/-- A number as it is written. -/
structure Numeral where
  negative : Bool
  /-- The digits in front of the point. -/
  whole : List Char
  /-- The digits behind the point, none where there is no point. -/
  fraction : List Char
  /-- The power of ten, if one is written. -/
  exponent : Option Int

namespace Numeral

/-- The whole part in front of a text: a zero, or digits that do not start with one. -/
def wholeInFront? (text : List Char) : Option (List Char × List Char) :=
  match text with
  | '0' :: rest => some (['0'], rest)
  | _ => Text.digits? text

/-- The fraction in front of a text. A point without a digit behind it belongs to what follows. -/
def fractionInFront (text : List Char) : List Char × List Char :=
  match text with
  | '.' :: rest => (Text.digits? rest).getD ([], text)
  | _ => ([], text)

/-- The exponent in front of a text. A mark without a digit behind it belongs to what follows. -/
def exponentInFront (text : List Char) : Option Int × List Char :=
  match text with
  | [] => (none, text)
  | mark :: rest =>
    if mark = 'e' ∨ mark = 'E' then
      let (negative, unsigned) := match rest with
        | '-' :: r => (true, r)
        | '+' :: r => (false, r)
        | r => (false, r)
      match Text.digits? unsigned with
      | some (digits, tail) =>
        (some (if negative then -(Text.ofDigits digits : Int) else Text.ofDigits digits), tail)
      | none => (none, text)
    else (none, text)

/-- The longest numeral in front of a text, and what follows it. -/
def inFront? (text : List Char) : Option (Numeral × List Char) := do
  let (negative, unsigned) := match text with
    | '-' :: rest => (true, rest)
    | rest => (false, rest)
  let (whole, afterWhole) ← wholeInFront? unsigned
  let (fraction, afterFraction) := fractionInFront afterWhole
  let (exponent, rest) := exponentInFront afterFraction
  return (⟨negative, whole, fraction, exponent⟩, rest)

/-- Whether a whole number is written, with neither fraction nor exponent. -/
def isWhole (n : Numeral) : Bool := n.fraction.isEmpty && n.exponent.isNone

/-- The double nearest to `significand * 10 ^ exponent`. Beyond four hundred places before or after
the point the answer is plain and the power is not computed. -/
def nearestDouble (significand : Nat) (exponent : Int) : Float :=
  let places : Int := (Nat.toDigits 10 significand).length + exponent
  if significand = 0 ∨ places < -400 then 0.0
  else if 400 < places then 1.0 / 0.0
  else OfScientific.ofScientific significand (exponent < 0) exponent.natAbs

/-- The number that a numeral stands for. -/
def value (n : Numeral) : Json :=
  if n.isWhole then
    let magnitude : Int := Text.ofDigits n.whole
    .int (if n.negative then -magnitude else magnitude)
  else
    let magnitude := nearestDouble (Text.ofDigits (n.whole ++ n.fraction))
      (n.exponent.getD 0 - n.fraction.length)
    .real (if n.negative then -magnitude else magnitude)

end Numeral

end PlantGrowth.Json
