/-!
# Decimal digits

Rows of decimal digits and the numbers they stand for.
-/

set_option autoImplicit false

namespace PlantGrowth.Text

/-- The value of a decimal digit. -/
def digitValue (c : Char) : Nat := c.toNat - '0'.toNat

/-- The number that a row of decimal digits stands for. -/
def ofDigits (digits : List Char) : Nat :=
  digits.foldl (fun n c => 10 * n + digitValue c) 0

/-- The digits in front of a text, at least one, and what follows them. -/
def digits? (text : List Char) : Option (List Char × List Char) :=
  match text.span Char.isDigit with
  | ([], _) => none
  | split => some split

end PlantGrowth.Text
