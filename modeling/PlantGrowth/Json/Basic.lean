import PlantGrowth.Text.CodePoint

/-!
# JSON values

Values as they are exchanged with clients. Whole numbers and reals are told apart by how they are
written. An object keeps its fields in the order in which their names first came, each name once.

A string of JSON need not be a text: escapes can leave half of a character alone in it.
-/

set_option autoImplicit false

namespace PlantGrowth

/-- A string of JSON, which is a value or the name of a field. -/
inductive JsonString where
  | text (text : String)
  /-- A string in which half of a character stands alone. -/
  | broken (points : List Text.CodePoint)
  deriving DecidableEq, Repr

namespace JsonString

instance : Coe String JsonString := ⟨.text⟩

/-- The string of some code points. -/
def ofPoints (points : List Text.CodePoint) : JsonString :=
  match Text.characters? points with
  | some characters => .text (String.ofList characters)
  | none => .broken points

/-- Whether a string is a text. -/
def isText : JsonString → Bool
  | .text _ => true
  | .broken _ => false

end JsonString

/-- A JSON value. -/
inductive Json where
  | null
  | bool (b : Bool)
  | int (n : Int)
  | real (x : Float)
  | str (string : JsonString)
  | arr (elements : List Json)
  | obj (fields : List (JsonString × Json))

namespace Json

/-- The fields with one of them set: the last value of a name counts, at the place of the first. -/
def putField (name : JsonString) (value : Json) :
    List (JsonString × Json) → List (JsonString × Json)
  | [] => [(name, value)]
  | (n, v) :: others =>
    if n = name then (n, value) :: others else (n, v) :: putField name value others

/-- The value of a field of an object. -/
def field? (name : JsonString) : Json → Option Json
  | .obj fields => fields.lookup name
  | _ => none

/-- What a set of fields says after one of them is set. -/
theorem lookup_putField (name other : JsonString) (value : Json)
    (fields : List (JsonString × Json)) :
    (putField name value fields).lookup other =
      if other = name then some value else fields.lookup other := by
  induction fields with
  | nil =>
    by_cases h : other = name
    · simp [putField, h]
    · simp [putField, List.lookup_cons, beq_eq_false_iff_ne.2 h, h]
  | cons field fields ih =>
    obtain ⟨n, v⟩ := field
    by_cases hn : n = name
    · subst hn
      by_cases h : other = n
      · simp [putField, h]
      · simp [putField, List.lookup_cons, beq_eq_false_iff_ne.2 h, h]
    · by_cases h : other = n
      · subst h
        simp [putField, hn]
      · simp [putField, hn, List.lookup_cons, beq_eq_false_iff_ne.2 h, ih]

end Json

end PlantGrowth
