import PlantGrowth.Planting.Memory
import PlantGrowth.Scalar.Double
import PlantGrowth.Service.Complaint
import PlantGrowth.Text.Integer

/-!
# Fields of a request

How the value of a single field is read, and what is wrong with a value that cannot be.
-/

set_option autoImplicit false

namespace PlantGrowth.Service

/-- How the value of a field is read. -/
abbrev FieldReader (β : Type) : Type := Json → Except Defect β

namespace FieldReader

/-- The integer that a number without a fraction is. It has to lie inside the range of signed words
of sixty-four bits, whose ends do not count. -/
def integerOfReal (x : Float) : Except Defect Int :=
  if !Scalar.isFinite x then .error .notFinite
  else
    let (numerator, denominator) := Double.ratio x
    let n := numerator / denominator
    if numerator % denominator ≠ 0 then .error .fractional
    else if -0x8000000000000000 < n ∧ n < 0x8000000000000000 then .ok n
    else .error .oversized

/-- The integer that a text spells. -/
def integerOfText (text : String) : Except Defect Int :=
  (Text.Integer.read text.toList).mapError fun
    | .notNumeral => .notNumeral
    | .tooLong => .oversized

/-- An integer: a whole number of any size, a number without a fraction, a truth value as one or
zero, or a text that spells an integer. -/
def integer : FieldReader Int
  | .int n => .ok n
  | .bool b => .ok (if b then 1 else 0)
  | .real x => integerOfReal x
  | .str (.text t) => integerOfText t
  | .str (.broken _) => .error .notUnicode
  | _ => .error .notInteger

/-- A text. -/
def text : FieldReader String
  | .str (.text t) => .ok t
  | .str (.broken _) => .error .notUnicode
  | _ => .error .notText

/-- A text that is not empty. -/
def nonemptyText : FieldReader String
  | .str (.text t) => if t.isEmpty then .error .tooShort else .ok t
  | .str (.broken _) => .error .notUnicode
  | _ => .error .notText

/-- One of the things that have a name. -/
def listed {β : Type} (ofName? : String → Option β) : FieldReader β
  | .str (.text t) =>
    match ofName? t with
    | some b => .ok b
    | none => .error .notListed
  | _ => .error .notListed

/-- A value that may be null. -/
def nullable {β : Type} (read : FieldReader β) : FieldReader (Option β)
  | .null => .ok none
  | value => some <$> read value

end FieldReader

/-- What the fields of a body say for a field that has to be there. -/
def required {β : Type} (name : String) (read : FieldReader β) (body : List (JsonString × Json)) :
    Except Complaint β :=
  match body.lookup (.text name) with
  | some value => (read value).mapError fun defect => ⟨defect, some name, value⟩
  | none => .error ⟨.missing, some name, .obj body⟩

/-- What the fields of a body say for a field that has a default. -/
def optional {β : Type} (name : String) (read : FieldReader β) (default : β)
    (body : List (JsonString × Json)) : Except Complaint β :=
  match body.lookup (.text name) with
  | some value => (read value).mapError fun defect => ⟨defect, some name, value⟩
  | none => .ok default

/-- The complaint about a field, if there is one. -/
def complaint? {β : Type} : Except Complaint β → Option Complaint
  | .error c => some c
  | .ok _ => none

end PlantGrowth.Service
