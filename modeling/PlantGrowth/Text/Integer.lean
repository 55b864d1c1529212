import PlantGrowth.Text.Digits

/-!
# Integers in texts

How an integer is read from a text that a person may have typed. Blanks may stand around it, and a
plus or a minus in front. A number without a minus may have superfluous zeros in front, with
underscores among them; further on, underscores may stand one at a time between two characters; and
at the end there may be a point with nothing but zeros behind it. What is left when all of these are
taken away is a plain numeral, which may not be longer than `longest`.

Each of the steps is a function from a text to a text, so that each can be looked at alone.
-/

set_option autoImplicit false

namespace PlantGrowth.Text.Integer

/-- Why no integer is read from a text. -/
inductive Flaw where
  | notNumeral
  /-- The numeral has more characters than are read. -/
  | tooLong
  deriving DecidableEq, Repr

/-- Blank characters around a numeral: the white space of Unicode. -/
def isBlank (c : Char) : Bool :=
  let n := c.toNat
  9 ≤ n && n ≤ 13 || n = 0x20 || n = 0x85 || n = 0xA0 || n = 0x1680
    || 0x2000 ≤ n && n ≤ 0x200A || n = 0x2028 || n = 0x2029 || n = 0x202F || n = 0x205F
    || n = 0x3000

/-- A text without the blanks at its ends. -/
def trimmed (text : List Char) : List Char :=
  ((text.dropWhile isBlank).reverse.dropWhile isBlank).reverse

/-- A text without a plus in front. No minus may follow the plus. -/
def withoutPlus : List Char → Option (List Char)
  | '+' :: '-' :: _ => none
  | '+' :: rest => some rest
  | text => some text

/-- What follows a zero in front, with the zeros and underscores at its start taken away. Where no
digit follows them, the last one of them is kept. -/
def afterZero (last : Char) : List Char → Option (List Char)
  | [] => some [last]
  | c :: rest =>
    if c = '0' ∨ c = '_' then afterZero c rest
    else if c.isDigit then some (c :: rest)
    else if c = '.' then some (last :: c :: rest)
    else none

/-- A text without superfluous zeros in front. It has to start with a digit or a minus. -/
def withoutLeadingZeros : List Char → Option (List Char)
  | [] => none
  | c :: rest =>
    if c = '0' then afterZero c rest
    else if c.isDigit ∨ c = '-' then some (c :: rest)
    else none

/-- A text without a point that has nothing but zeros behind it. -/
def withoutZeroFraction (text : List Char) : List Char :=
  match text.span (· ≠ '.') with
  | (whole, '.' :: fraction) => if fraction.all (· = '0') then whole else text
  | _ => text

/-- Whether two underscores stand side by side. -/
def hasUnderscorePair : List Char → Bool
  | '_' :: '_' :: _ => true
  | _ :: rest => hasUnderscorePair rest
  | [] => false

/-- A text without its underscores. They stay where one of them is at an end of the text or next to
another one. -/
def withoutUnderscores (text : List Char) : List Char :=
  if text.head? = some '_' ∨ text.getLast? = some '_' ∨ hasUnderscorePair text then text
  else text.filter (· ≠ '_')

/-- The numeral that is left of a text when all that is not essential is taken away. -/
def essence (text : List Char) : Option (List Char) := do
  let unsigned ← withoutPlus (trimmed text)
  let significant ← withoutLeadingZeros unsigned
  return withoutUnderscores (withoutZeroFraction significant)

/-- The most characters that a plain numeral may have, a minus included. -/
def longest : Nat := 4300

/-- The integer of a plain numeral: an optional minus, and a zero or digits that do not start with
one. A numeral that is too long is given up before its end is looked at. -/
def ofPlain (text : List Char) : Except Flaw Int :=
  let (negative, unsigned) := match text with
    | '-' :: rest => (true, rest)
    | rest => (false, rest)
  match unsigned with
  | ['0'] => .ok 0
  | '0' :: _ => .error .notNumeral
  | _ =>
    match digits? unsigned with
    | none => .error .notNumeral
    | some (digits, rest) =>
      if longest < digits.length + (if negative then 1 else 0) then .error .tooLong
      else if rest.isEmpty then
        .ok (if negative then -(ofDigits digits : Int) else ofDigits digits)
      else .error .notNumeral

/-- The integer that a text spells. -/
def read (text : List Char) : Except Flaw Int :=
  match essence text with
  | some plain => ofPlain plain
  | none => .error .notNumeral

end PlantGrowth.Text.Integer
