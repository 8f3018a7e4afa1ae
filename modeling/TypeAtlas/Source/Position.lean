import TypeAtlas.Json.Decode
/-!
# Source positions

Positions, ranges and locations in source files. Lines and characters are counted from zero.
Positions are ordered by line and then by character; a range includes both of its ends.
-/

namespace TypeAtlas

/-- A line and a character in it. -/
structure Position where
  line : UInt32
  character : UInt32
  deriving DecidableEq, Inhabited, Repr

namespace Position

/-- Strictly before in the text. -/
def before (a b : Position) : Bool :=
  a.line < b.line || (a.line == b.line && a.character < b.character)

/-- Before in the text, or the same. -/
def upTo (a b : Position) : Bool :=
  !b.before a

def toJson (p : Position) : Json :=
  .obj [("line", .ofNat p.line.toNat), ("character", .ofNat p.character.toNat)]

def ofJson? (json : Json) : Option Position := do
  let members ← json.members?
  let line ← members.required? "line" Json.uint32?
  let character ← members.required? "character" Json.uint32?
  some ⟨line, character⟩

end Position

/-- A stretch of source text, both ends included. -/
structure Range where
  start : Position
  stop : Position
  deriving DecidableEq, Inhabited, Repr

namespace Range

/-- Whether a position lies in the range. -/
def contains (r : Range) (p : Position) : Bool :=
  r.start.upTo p && p.upTo r.stop

/-- Whether the other range lies in this one. -/
def encloses (r other : Range) : Bool :=
  r.start.upTo other.start && other.stop.upTo r.stop

def toJson (r : Range) : Json :=
  .obj [("start", r.start.toJson), ("end", r.stop.toJson)]

def ofJson? (json : Json) : Option Range := do
  let members ← json.members?
  let start ← members.required? "start" Position.ofJson?
  let stop ← members.required? "end" Position.ofJson?
  some ⟨start, stop⟩

end Range

/-- A range in a named file. -/
structure Location where
  fileName : String
  range : Range
  deriving DecidableEq, Inhabited, Repr

namespace Location

/-- The empty range at a position. -/
def point (fileName : String) (p : Position) : Location :=
  ⟨fileName, ⟨p, p⟩⟩

/-- The file and where the range starts. -/
def display (l : Location) : String :=
  l.fileName ++ ":" ++ toString l.range.start.line.toNat ++ ":" ++
    toString l.range.start.character.toNat

def toJson (l : Location) : Json :=
  .obj [("fileName", .str l.fileName), ("range", l.range.toJson)]

def ofJson? (json : Json) : Option Location := do
  let members ← json.members?
  let fileName ← members.required? "fileName" Json.string?
  let range ← members.required? "range" Range.ofJson?
  some ⟨fileName, range⟩

end Location

end TypeAtlas
