import PlantGrowth.Species.Basic

/-!
# Routes

The resources of the service and their paths. A path is a sequence of bytes: escapes are replaced
by the bytes they stand for before the path is cut at its slashes. Slashes at its end do not count,
and a path may end in one line break behind its last name.
-/

set_option autoImplicit false

namespace PlantGrowth.Service

namespace Path

/-- The value of a hexadecimal digit. -/
def hexValue? (b : UInt8) : Option UInt8 :=
  if 48 ≤ b && b ≤ 57 then some (b - 48)
  else if 65 ≤ b && b ≤ 70 then some (b - 55)
  else if 97 ≤ b && b ≤ 102 then some (b - 87)
  else none

/-- The byte that three bytes escape: a percent sign and two hexadecimal digits. -/
def escaped? (sign high low : UInt8) : Option UInt8 :=
  if sign = 37 then
    match hexValue? high, hexValue? low with
    | some h, some l => some (16 * h + l)
    | _, _ => none
  else none

/-- Replaces each escape by the byte it stands for. -/
def unescape : List UInt8 → List UInt8
  | sign :: high :: low :: rest =>
    match escaped? sign high low with
    | some byte => byte :: unescape rest
    | none => sign :: unescape (high :: low :: rest)
  | short => short

/-- The part of an address in front of its query and its fragment. -/
def bare (address : String) : String :=
  String.ofList (address.toList.takeWhile fun c => c ≠ '?' && c ≠ '#')

/-- The byte between the segments of a path. -/
def slash : UInt8 := 47

/-- The line break. -/
def lineBreak : UInt8 := 10

/-- A path without the slash at its start. -/
def withoutRoot : List UInt8 → List UInt8
  | [] => []
  | b :: rest => if b = slash then rest else b :: rest

/-- A path without the slashes at its end. -/
def withoutTail (path : List UInt8) : List UInt8 := (path.reverse.dropWhile (· = slash)).reverse

/-- The segments of the path of an address. -/
def segments (address : String) : List (List UInt8) :=
  (withoutTail (withoutRoot (unescape (bare address).toUTF8.toList))).splitOn slash

/-- The bytes of a text. -/
def bytesOf (text : String) : List UInt8 := text.toUTF8.toList

/-- The segments without the line break that may end the last one of them. -/
def withoutLineBreak : List (List UInt8) → List (List UInt8)
  | [] => []
  | [last] => [if last.getLast? = some lineBreak then last.dropLast else last]
  | segment :: others => segment :: withoutLineBreak others

end Path

/-- The resources of the service. -/
inductive Route where
  | speciesList
  /-- One species, by the bytes of its name. -/
  | species (name : List UInt8)
  | plant
  | memoryPlant
  /-- A page that describes the service. -/
  | documentation
  deriving DecidableEq, Repr

namespace Route

/-- The resources that are not one of many, with their paths. -/
def named : List (List String × Route) :=
  [(["openapi.json"], .documentation), (["docs"], .documentation),
    (["docs", "oauth2-redirect"], .documentation), (["redoc"], .documentation),
    (["species"], .speciesList), (["structure"], .plant), (["memories", "structure"], .memoryPlant)]

/-- The resource of a path. The name of a species is not empty, and a line break is part of it. -/
def ofSegments? (segments : List (List UInt8)) : Option Route :=
  let ended := Path.withoutLineBreak segments
  match named.find? fun entry => entry.1.map Path.bytesOf = ended with
  | some entry => some entry.2
  | none =>
    match segments with
    | [a, name] => if a = Path.bytesOf "species" then some (.species name) else none
    | _ => none

/-- The verbs that a resource answers to. -/
def verbs : Route → List String
  | .speciesList => ["GET"]
  | .species _ => ["GET"]
  | .plant => ["POST"]
  | .memoryPlant => ["POST"]
  | .documentation => ["GET", "HEAD"]

end Route

/-- The species whose name has these bytes. -/
def speciesOfBytes? (name : List UInt8) : Option Species :=
  Species.all.find? fun s => Path.bytesOf s.name == name

end PlantGrowth.Service
