import PlantGrowth.Json.Token

/-!
# Reading JSON

The reader goes through the tokens of a text one at a time, with a stack of the arrays and objects
that are still open. It accepts a text of exactly one value, within limits that its caller sets, and
otherwise gives the first flaw that it meets.
-/

set_option autoImplicit false

namespace PlantGrowth.Json

/-- Why a text is not read. -/
inductive Flaw where
  /-- The text is not JSON. -/
  | malformed
  /-- The bytes are no text in their encoding. -/
  | undecodable
  /-- A whole number has more digits than are read. -/
  | numeralTooLong
  /-- More arrays and objects stand inside one another than are read. -/
  | nestedTooDeeply
  deriving DecidableEq, Repr

/-- How much is read. -/
structure Limits where
  /-- The most digits of a whole number. -/
  digits : Option Nat
  /-- The most arrays and objects that stand inside one another. -/
  nesting : Option Nat
  deriving DecidableEq, Repr

namespace Limits

/-- Everything is read. -/
def unlimited : Limits := ⟨none, none⟩

/-- Whether a bound, where there is one, lets a number pass. -/
def permits (bound : Option Nat) (n : Nat) : Bool := bound.all (n ≤ ·)

end Limits

/-- An array or object that is still open. -/
inductive Reader.Frame where
  /-- The elements so far, the last one first. -/
  | arr (elements : List Json)
  /-- The fields so far, and the name of the field that is being read. -/
  | obj (fields : List (JsonString × Json)) (name : JsonString)

/-- What may come next. -/
inductive Reader.Expected where
  | value
  /-- A value, or the end of an array that has no element. -/
  | firstElement
  /-- The name of a field of an object with these fields. -/
  | name (fields : List (JsonString × Json))
  /-- The name of a field, or the end of an object that has no field. -/
  | firstName
  /-- The colon after the name of a field. -/
  | colon
  /-- A comma or the end of the innermost array or object. -/
  | separator
  /-- Nothing: the value is complete. -/
  | nothing (value : Json)

/-- The state of the reader. -/
structure Reader where
  opened : List Reader.Frame
  expected : Reader.Expected

namespace Reader

/-- The state after a complete value. -/
def complete (opened : List Frame) (value : Json) : Reader :=
  match opened with
  | [] => ⟨[], .nothing value⟩
  | .arr elements :: outer => ⟨.arr (value :: elements) :: outer, .separator⟩
  | .obj fields name :: outer => ⟨.obj (putField name value fields) name :: outer, .separator⟩

/-- The state after the start of an array or object, unless it lies too deep. -/
def descend (limits : Limits) (opened : List Frame) (inside : Reader) : Except Flaw Reader :=
  if Limits.permits limits.nesting (opened.length + 1) then .ok inside
  else .error .nestedTooDeeply

/-- The state after the first token of a value. -/
def beginValue (limits : Limits) (opened : List Frame) : Token → Except Flaw Reader
  | .openArr => descend limits opened ⟨.arr [] :: opened, .firstElement⟩
  | .openObj => descend limits opened ⟨opened, .firstName⟩
  | .str string => .ok (complete opened (.str string))
  | .named value => .ok (complete opened value)
  | .numeral numeral =>
    if !numeral.isWhole || Limits.permits limits.digits numeral.whole.length then
      .ok (complete opened numeral.value)
    else .error .numeralTooLong
  | _ => .error .malformed

/-- One more token. -/
def feed (limits : Limits) (r : Reader) (token : Token) : Except Flaw Reader :=
  match r.expected, token with
  | .value, token => beginValue limits r.opened token
  | .firstElement, .closeArr =>
    match r.opened with
    | .arr _ :: outer => .ok (complete outer (.arr []))
    | _ => .error .malformed
  | .firstElement, token => beginValue limits r.opened token
  | .firstName, .closeObj => .ok (complete r.opened (.obj []))
  | .firstName, .str name => .ok ⟨.obj [] name :: r.opened, .colon⟩
  | .name fields, .str name => .ok ⟨.obj fields name :: r.opened, .colon⟩
  | .colon, .colon => .ok ⟨r.opened, .value⟩
  | .separator, .comma =>
    match r.opened with
    | .arr _ :: _ => .ok ⟨r.opened, .value⟩
    | .obj fields _ :: outer => .ok ⟨outer, .name fields⟩
    | [] => .error .malformed
  | .separator, .closeArr =>
    match r.opened with
    | .arr elements :: outer => .ok (complete outer (.arr elements.reverse))
    | _ => .error .malformed
  | .separator, .closeObj =>
    match r.opened with
    | .obj fields _ :: outer => .ok (complete outer (.obj fields))
    | _ => .error .malformed
  | _, _ => .error .malformed

end Reader

/-- The value of a list of tokens, which have to make up exactly one. -/
def ofTokens (limits : Limits) (tokens : List Token) : Except Flaw Json := do
  let last ← tokens.foldlM (Reader.feed limits) ⟨[], .value⟩
  match last.expected with
  | .nothing value => return value
  | _ => .error .malformed

/-- The value of a row of code points. -/
def readPoints (limits : Limits) (points : List Text.CodePoint) : Except Flaw Json :=
  ofTokens limits (tokens points)

/-- The value of a text. -/
def read (limits : Limits) (text : List Char) : Except Flaw Json :=
  readPoints limits (Text.points text)

end PlantGrowth.Json
