import PlantGrowth.Text.Printable

/-!
# Quoted text

The form in which a text is shown inside a message: between quotes, with a backslash before the
quote and the backslash, short escapes for tab and line ends, and code numbers for every other
character that has no visible form.
-/

set_option autoImplicit false

namespace PlantGrowth.Text

/-- The lower-case hexadecimal digits of `n`, filled with zeros on the left up to `width`. -/
def hexDigits (width n : Nat) : String :=
  let digits := Nat.toDigits 16 n
  String.ofList (List.replicate (width - digits.length) '0' ++ digits)

/-- The code number of a character, in the shortest of the three escapes that can hold it. -/
def codeEscape (c : Char) : String :=
  if c.toNat < 0x100 then "\\x" ++ hexDigits 2 c.toNat
  else if c.toNat < 0x10000 then "\\u" ++ hexDigits 4 c.toNat
  else "\\U" ++ hexDigits 8 c.toNat

/-- One character between quotes of the kind `quote`. -/
def escaped (quote c : Char) : String :=
  if c = quote ∨ c = '\\' then String.ofList ['\\', c]
  else if c = '\t' then "\\t"
  else if c = '\n' then "\\n"
  else if c = '\r' then "\\r"
  else if isPrintable c then String.singleton c
  else codeEscape c

/-- The quote that needs no escape where possible: double quotes around a text that holds a single
quote and no double quote, single quotes around every other text. -/
def quoteFor (text : String) : Char :=
  if text.toList.contains '\'' && !text.toList.contains '"' then '"' else '\''

/-- A text as it is shown inside a message. -/
def quoted (text : String) : String :=
  let quote := quoteFor text
  String.singleton quote ++ String.join (text.toList.map (escaped quote)) ++ String.singleton quote

end PlantGrowth.Text
