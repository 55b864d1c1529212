import PlantGrowth.Json.Numeral

/-!
# JSON tokens

The scanner goes through a text one code point at a time. What it knows in between is a `Scan`: the
tokens so far and the token that is being read. Escapes in a string are collected as 16-bit units, so
that two escaped halves of one character come together; a row of characters that is neither string nor
mark is read as a whole when it ends. What is no token of JSON becomes a token of its own, so that a
reader comes upon the flaws of a text in their order.
-/

set_option autoImplicit false

namespace PlantGrowth.Json

/-- A piece of a JSON text. -/
inductive Token where
  | openArr
  | closeArr
  | openObj
  | closeObj
  | colon
  | comma
  /-- A string, which is a value or the name of a field. -/
  | str (string : JsonString)
  /-- One of the values that have a name. -/
  | named (value : Json)
  | numeral (numeral : Numeral)
  /-- Characters that belong to no token. -/
  | junk

/-- What a string is collected from: code points, and units that were escaped. -/
abbrev Scan.Piece : Type := Text.CodePoint ⊕ UInt16

/-- What is being read. -/
inductive Scan.Mode where
  | between
  /-- A row of characters, the last one first. -/
  | bare (read : List Char)
  /-- A string, the last piece first. -/
  | text (pieces : List Piece)
  /-- A string, after a backslash. -/
  | escape (pieces : List Piece)
  /-- A string, in a code number of which so many digits are missing. -/
  | code (pieces : List Piece) (missing : Nat) (value : Nat)

/-- The state of the scanner; the last token comes first. -/
structure Scan where
  tokens : List Token
  mode : Scan.Mode

namespace Scan

/-- The value that has a name. -/
def named? (text : List Char) : Option Json :=
  match String.ofList text with
  | "null" => some .null
  | "true" => some (.bool true)
  | "false" => some (.bool false)
  | "NaN" => some (.real (0.0 / 0.0))
  | "Infinity" => some (.real (1.0 / 0.0))
  | "-Infinity" => some (.real (-1.0 / 0.0))
  | _ => none

/-- The tokens that a row of characters is, the last one first. -/
def bareTokens (text : List Char) : List Token :=
  match named? text, Numeral.inFront? text with
  | some value, _ => [.named value]
  | none, some (numeral, []) => [.numeral numeral]
  | none, some (numeral, _) => [.junk, .numeral numeral]
  | none, none => [.junk]

/-- The token that a single character is. -/
def ofMark : Char → Token
  | '[' => .openArr
  | ']' => .closeArr
  | '{' => .openObj
  | '}' => .closeObj
  | ':' => .colon
  | ',' => .comma
  | _ => .junk

/-- The characters that may stand between tokens. -/
def isBlank (c : Char) : Bool := c = ' ' || c = '\t' || c = '\n' || c = '\r'

/-- The characters of numbers and of the names of values. -/
def isBare (c : Char) : Bool := c.isAlphanum || c = '-' || c = '+' || c = '.'

/-- The unit that a letter after a backslash stands for. -/
def escaped? : Char → Option UInt16
  | '"' => some 34
  | '\\' => some 92
  | '/' => some 47
  | 'b' => some 8
  | 'f' => some 12
  | 'n' => some 10
  | 'r' => some 13
  | 't' => some 9
  | _ => none

/-- The value of a hexadecimal digit. -/
def hexValue? (c : Char) : Option Nat :=
  if c.isDigit then some (c.toNat - '0'.toNat)
  else if 'a' ≤ c ∧ c ≤ 'f' then some (c.toNat - 'a'.toNat + 10)
  else if 'A' ≤ c ∧ c ≤ 'F' then some (c.toNat - 'A'.toNat + 10)
  else none

/-- The scan after a token. -/
def push (s : Scan) (token : Token) : Scan := ⟨token :: s.tokens, .between⟩

/-- Ends the row of characters that is being read, if one is. -/
def endBare (s : Scan) : Scan :=
  match s.mode with
  | .bare read => ⟨bareTokens read.reverse ++ s.tokens, .between⟩
  | _ => s

/-- A character outside strings. -/
def feedOutside (s : Scan) (c : Char) : Scan :=
  if isBare c then
    match s.mode with
    | .bare read => { s with mode := .bare (c :: read) }
    | _ => { s with mode := .bare [c] }
  else if isBlank c then s.endBare
  else if c = '"' then { s.endBare with mode := .text [] }
  else s.endBare.push (ofMark c)

/-- The token that a string is. -/
def ofPieces (pieces : List Piece) : Token :=
  .str (JsonString.ofPoints (Text.CodePoint.join pieces))

/-- One more character. -/
def feedChar (s : Scan) (c : Char) : Scan :=
  match s.mode with
  | .between => s.feedOutside c
  | .bare _ => s.feedOutside c
  | .text pieces =>
    if c = '"' then s.push (ofPieces pieces.reverse)
    else if c = '\\' then { s with mode := .escape pieces }
    else if c.toNat < 32 then s.push .junk
    else { s with mode := .text (.inl (.char c) :: pieces) }
  | .escape pieces =>
    if c = 'u' then { s with mode := .code pieces 3 0 }
    else match escaped? c with
      | some unit => { s with mode := .text (.inr unit :: pieces) }
      | none => s.push .junk
  | .code pieces missing value =>
    match hexValue? c, missing with
    | some digit, 0 => { s with mode := .text (.inr (UInt16.ofNat (16 * value + digit)) :: pieces) }
    | some digit, missing + 1 => { s with mode := .code pieces missing (16 * value + digit) }
    | none, _ => s.push .junk

/-- One more code point. Half of a character stands in strings only. -/
def feed (s : Scan) : Text.CodePoint → Scan
  | .char c => s.feedChar c
  | .half unit =>
    match s.mode with
    | .text pieces => { s with mode := .text (.inl (.half unit) :: pieces) }
    | _ => s.endBare.push .junk

/-- Ends the text. A string that is still open is no token. -/
def finish (s : Scan) : Scan :=
  match s.mode with
  | .between => s
  | .bare _ => s.endBare
  | _ => s.push .junk

end Scan

/-- The tokens of a row of code points. -/
def tokens (points : List Text.CodePoint) : List Token :=
  (points.foldl Scan.feed ⟨[], .between⟩).finish.tokens.reverse

end PlantGrowth.Json
