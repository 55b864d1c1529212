import PlantGrowth.Json.Basic

/-!
# Complaints

What is wrong with the body of a request: a defect, the field that has it, and the value in which it
was found. A complaint quotes that value.
-/

set_option autoImplicit false

namespace PlantGrowth.Service

/-- What can be wrong with a body or with one of its fields. -/
inductive Defect where
  | missing
  /-- The body is not JSON. -/
  | notJson
  /-- The body is JSON, but no object. -/
  | notObject
  /-- The value is none of the names that are allowed. -/
  | notListed
  | notText
  /-- The string has half of a character alone in it. -/
  | notUnicode
  /-- The text is empty where it must not be. -/
  | tooShort
  /-- The value is of a kind that no integer is read from. -/
  | notInteger
  /-- The text does not spell an integer. -/
  | notNumeral
  /-- The number or its numeral is larger than is read. -/
  | oversized
  /-- The number has a fraction. -/
  | fractional
  /-- The number is infinite or undefined. -/
  | notFinite
  deriving DecidableEq, Repr

/-- The name of a defect in answers. -/
def Defect.name : Defect → String
  | .missing => "missing"
  | .notJson => "json_invalid"
  | .notObject => "model_attributes_type"
  | .notListed => "enum"
  | .notText => "string_type"
  | .notUnicode => "string_unicode"
  | .tooShort => "string_too_short"
  | .notInteger => "int_type"
  | .notNumeral => "int_parsing"
  | .oversized => "int_parsing_size"
  | .fractional => "int_from_float"
  | .notFinite => "finite_number"

/-- A defect and where it is: in a field of the body, or in the body as a whole. -/
structure Complaint where
  defect : Defect
  field : Option String
  /-- The value that has the defect: that of the field, or the body where the field is missing. -/
  value : Json

namespace Complaint

/-- The place of a complaint, from the outside in. -/
def path (c : Complaint) : List String := "body" :: c.field.toList

end Complaint

end PlantGrowth.Service
