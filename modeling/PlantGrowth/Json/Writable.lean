import PlantGrowth.Json.Basic

/-!
# Values that can be written

JSON has numerals for finite numbers only, and bytes stand for texts only. `isFinite` and `isText` say
whether a value can be written as it is, and `toFinite` puts null in the place of the numbers that
cannot; the numbers of the result can always be written.
-/

set_option autoImplicit false

namespace PlantGrowth.Json

section

variable (real : Float → Bool) (string : JsonString → Bool)

mutual

/-- Whether the numbers and the strings in a value, the names of its fields included, pass two tests. -/
def passes : Json → Bool
  | .real x => real x
  | .str s => string s
  | .arr elements => passesAll elements
  | .obj fields => passesFields fields
  | _ => true

/-- Whether the numbers and the strings in some values pass the tests. -/
def passesAll : List Json → Bool
  | [] => true
  | value :: others => passes value && passesAll others

/-- Whether the numbers and the strings in some fields pass the tests. -/
def passesFields : List (JsonString × Json) → Bool
  | [] => true
  | (name, value) :: others => string name && passes value && passesFields others

end

end

/-- Whether every number in a value is finite. -/
def isFinite (value : Json) : Bool := value.passes Float.isFinite fun _ => true

/-- Whether every string in a value is a text. -/
def isText (value : Json) : Bool := value.passes (fun _ => true) JsonString.isText

mutual

/-- A value with null in the place of each number that is not finite. -/
def toFinite : Json → Json
  | .real x => if x.isFinite then .real x else .null
  | .arr elements => .arr (toFiniteAll elements)
  | .obj fields => .obj (toFiniteFields fields)
  | value => value

/-- Values with null in the place of each number that is not finite. -/
def toFiniteAll : List Json → List Json
  | [] => []
  | value :: others => toFinite value :: toFiniteAll others

/-- Fields with null in the place of each number that is not finite. -/
def toFiniteFields : List (JsonString × Json) → List (JsonString × Json)
  | [] => []
  | (name, value) :: others => (name, toFinite value) :: toFiniteFields others

end

section

variable (string : JsonString → Bool)

mutual

/-- With null in the place of the other numbers, a value passes where its strings do. -/
theorem passes_toFinite (value : Json) :
    (toFinite value).passes Float.isFinite string = value.passes (fun _ => true) string := by
  cases value with
  | real x => by_cases h : x.isFinite <;> simp [toFinite, passes, h]
  | arr elements => simpa [toFinite, passes] using passesAll_toFiniteAll elements
  | obj fields => simpa [toFinite, passes] using passesFields_toFiniteFields fields
  | _ => simp [toFinite, passes]

/-- The same for all values of a list. -/
theorem passesAll_toFiniteAll (values : List Json) :
    passesAll Float.isFinite string (toFiniteAll values) =
      passesAll (fun _ => true) string values := by
  cases values with
  | nil => simp [toFiniteAll, passesAll]
  | cons value others =>
    simp [toFiniteAll, passesAll, passes_toFinite value, passesAll_toFiniteAll others]

/-- The same for all fields of an object. -/
theorem passesFields_toFiniteFields (fields : List (JsonString × Json)) :
    passesFields Float.isFinite string (toFiniteFields fields) =
      passesFields (fun _ => true) string fields := by
  cases fields with
  | nil => simp [toFiniteFields, passesFields]
  | cons field others =>
    simp [toFiniteFields, passesFields, passes_toFinite field.2,
      passesFields_toFiniteFields others]

end

end

mutual

/-- Every value passes tests that nothing fails. -/
theorem passes_true (value : Json) : value.passes (fun _ => true) (fun _ => true) = true := by
  cases value with
  | arr elements => simpa [passes] using passesAll_true elements
  | obj fields => simpa [passes] using passesFields_true fields
  | _ => simp [passes]

/-- The same for all values of a list. -/
theorem passesAll_true (values : List Json) :
    passesAll (fun _ => true) (fun _ => true) values = true := by
  cases values with
  | nil => simp [passesAll]
  | cons value others => simp [passesAll, passes_true value, passesAll_true others]

/-- The same for all fields of an object. -/
theorem passesFields_true (fields : List (JsonString × Json)) :
    passesFields (fun _ => true) (fun _ => true) fields = true := by
  cases fields with
  | nil => simp [passesFields]
  | cons field others => simp [passesFields, passes_true field.2, passesFields_true others]

end

/-- With null in the place of the other numbers, all numbers are finite. -/
theorem isFinite_toFinite (value : Json) : (toFinite value).isFinite = true :=
  (passes_toFinite _ value).trans (passes_true value)

end PlantGrowth.Json
