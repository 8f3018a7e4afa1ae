/-!
# Lines of a byte stream

A stream is cut into lines at line feeds; a carriage return before the line feed belongs to the line
break. A line that is not valid UTF-8 ends the stream.
-/

namespace TypeAtlas

/-- A stream that is being cut into lines. -/
structure LineStream where
  /-- The bytes of the unfinished line. -/
  rest : List UInt8 := []
  /-- Whether the stream has ended. -/
  ended : Bool := false
  deriving DecidableEq, Inhabited, Repr

namespace LineStream

/-- The line break that is being looked for. -/
def lineFeed : UInt8 := 10

/-- The bytes of a finished line without the carriage return of its line break. -/
def dropReturn (bytes : List UInt8) : List UInt8 :=
  if bytes.getLast? = some 13 then bytes.dropLast else bytes

/-- The text of a line, if it is valid. -/
def decode? (bytes : List UInt8) : Option String :=
  String.fromUTF8? (ByteArray.mk bytes.toArray)

/-- The bytes before each line feed, and the bytes after the last one. -/
def cut : List UInt8 → List (List UInt8) × List UInt8
  | [] => ([], [])
  | byte :: bytes =>
    let (lines, rest) := cut bytes
    if byte = lineFeed then ([] :: lines, rest)
    else
      match lines with
      | [] => ([], byte :: rest)
      | line :: lines => ((byte :: line) :: lines, rest)

/-- The texts of lines up to the first that is not valid, and whether there is one. -/
def decodeAll : List (List UInt8) → List String × Bool
  | [] => ([], false)
  | bytes :: lines =>
    match decode? bytes with
    | none => ([], true)
    | some text =>
      let (texts, broken) := decodeAll lines
      (text :: texts, broken)

/-- More bytes. The answer holds the lines they finish. -/
def push (stream : LineStream) (bytes : List UInt8) : List String × LineStream :=
  if stream.ended then ([], stream)
  else
    let (lines, rest) := cut (stream.rest ++ bytes)
    let (texts, broken) := decodeAll (lines.map dropReturn)
    (texts, if broken then ⟨[], true⟩ else ⟨rest, false⟩)

/-- The end of the bytes. An unfinished line counts as a line. -/
def close (stream : LineStream) : List String × LineStream :=
  if stream.ended || stream.rest.isEmpty then ([], ⟨[], true⟩)
  else ((decode? stream.rest).toList, ⟨[], true⟩)

end LineStream

end TypeAtlas
