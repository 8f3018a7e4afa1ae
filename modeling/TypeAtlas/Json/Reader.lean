import TypeAtlas.Json.Value
import TypeAtlas.Decimal.Text
import TypeAtlas.Text.Hex
/-!
# Reading JSON text

`Json.ofText?` reads one value with optional blanks around it and refuses everything else: text
after the value, a byte order mark, control characters inside a string. Surrogates that do not pair
up and numbers out of range are well formed, but unreadable. Values may be nested to any depth. The
reading functions work on what is left of the text and return the rest.
-/

namespace TypeAtlas.Json.Reader

/-- The text without leading blanks: space, tab, line feed and carriage return. -/
def skipBlanks : List Char → List Char
  | c :: rest =>
    if c == ' ' || c == '\t' || c == '\n' || c == '\r' then skipBlanks rest else c :: rest
  | [] => []

/-- Four hexadecimal digits. -/
def hexUnit? : List Char → Option (Nat × List Char)
  | a :: b :: c :: d :: rest => do
    let a ← Text.hexValue? a
    let b ← Text.hexValue? b
    let c ← Text.hexValue? c
    let d ← Text.hexValue? d
    some (((a * 16 + b) * 16 + c) * 16 + d, rest)
  | _ => none

/-- The character after `\u`: one unit, or a high and a low surrogate. Half of a pair is no
character. -/
def unicodeEscape? (text : List Char) : Option (Option Char × List Char) := do
  let (unit, rest) ← hexUnit? text
  if 0xDC00 ≤ unit ∧ unit ≤ 0xDFFF then some (none, rest)
  else if 0xD800 ≤ unit ∧ unit ≤ 0xDBFF then
    match rest with
    | '\\' :: 'u' :: more =>
      let (low, after) ← hexUnit? more
      if 0xDC00 ≤ low ∧ low ≤ 0xDFFF then
        some (some (Char.ofNat (0x10000 + (unit - 0xD800) * 0x400 + (low - 0xDC00))), after)
      else some (none, rest)
    | _ => some (none, rest)
  else some (some (Char.ofNat unit), rest)

/-- The character after a backslash. -/
def escape? : List Char → Option (Option Char × List Char)
  | '"' :: rest => some (some '"', rest)
  | '\\' :: rest => some (some '\\', rest)
  | '/' :: rest => some (some '/', rest)
  | 'b' :: rest => some (some '\x08', rest)
  | 'f' :: rest => some (some '\x0c', rest)
  | 'n' :: rest => some (some '\n', rest)
  | 'r' :: rest => some (some '\r', rest)
  | 't' :: rest => some (some '\t', rest)
  | 'u' :: rest => unicodeEscape? rest
  | _ => none

/-- The inside of a string up to its closing quote; `done` holds what was read, last first. A string
with half of a surrogate pair is no text. -/
def stringBody? : Nat → List Char → Option (List Char) → Option (Option String × List Char)
  | 0, _, _ => none
  | fuel + 1, text, done =>
    match text with
    | [] => none
    | '"' :: rest => some (done.map fun chars => String.ofList chars.reverse, rest)
    | '\\' :: rest => do
      let (c, rest) ← escape? rest
      stringBody? fuel rest (done.bind fun chars => c.map (· :: chars))
    | c :: rest =>
      if c.toNat < 0x20 then none else stringBody? fuel rest (done.map (c :: ·))

/-- The digits at the start of the text, and the rest. -/
def digits (text : List Char) : List Nat × List Char :=
  ((text.takeWhile Char.isDigit).map (fun c => c.toNat - '0'.toNat), text.dropWhile Char.isDigit)

/-- Appends digits to a significand for as long as it stays below `2 ^ 64`; also the number of
digits that no longer fit. -/
def pushDigits (significand : Nat) : List Nat → Nat × Nat
  | [] => (significand, 0)
  | d :: rest =>
    if significand * 10 + d < UInt64.size then pushDigits (significand * 10 + d) rest
    else (significand, (d :: rest).length)

/-- The exponent after `e` or `E`, if there is one; `none` when its digits are missing. -/
def exponentPart? : List Char → Option (Option Int × List Char)
  | c :: rest =>
    if c == 'e' || c == 'E' then
      let (negative, rest) := match rest with
        | '+' :: rest => (false, rest)
        | '-' :: rest => (true, rest)
        | rest => (false, rest)
      let (ds, rest) := digits rest
      if ds.isEmpty then none
      else
        let magnitude : Nat := ds.foldl (fun n d => n * 10 + d) 0
        some (some (if negative then -(magnitude : Int) else magnitude), rest)
    else some (none, c :: rest)
  | [] => some (none, [])

/-- The fraction digits after a point, if there is one; `none` when its digits are missing. -/
def fractionPart? : List Char → Option (Option (List Nat) × List Char)
  | '.' :: rest =>
    let (ds, rest) := digits rest
    if ds.isEmpty then none else some (some ds, rest)
  | rest => some (none, rest)

/-- A number without its sign. Digits beyond those that fit 64 bits count only for the size. -/
def number? (negative : Bool) (text : List Char) : Option (Json × List Char) := do
  let (whole, rest) := digits text
  if whole.isEmpty || (whole.head? == some 0 && whole.length > 1) then none
  else
    let (significand, dropped) := pushDigits 0 whole
    let (fraction, rest) ← fractionPart? rest
    let (exponent, rest) ← exponentPart? rest
    if fraction.isNone && exponent.isNone && dropped == 0 &&
        (!negative || (significand ≠ 0 && significand ≤ 1 <<< 63)) then
      some (.int (if negative then -(significand : Int) else significand), rest)
    else
      let fraction := fraction.getD []
      let (significand, unread) := pushDigits significand fraction
      let scale : Int := dropped - (fraction.length - unread : Nat) + exponent.getD 0
      some ((Double.ofScientific? negative significand scale).elim .unreadable .double, rest)

mutual

/-- One value, after blanks. -/
def value? : Nat → List Char → Option (Json × List Char)
  | 0, _ => none
  | fuel + 1, text =>
    match skipBlanks text with
    | 'n' :: 'u' :: 'l' :: 'l' :: rest => some (.null, rest)
    | 't' :: 'r' :: 'u' :: 'e' :: rest => some (.bool true, rest)
    | 'f' :: 'a' :: 'l' :: 's' :: 'e' :: rest => some (.bool false, rest)
    | '"' :: rest =>
      (stringBody? fuel rest (some [])).map fun (s, rest) => (s.elim .unreadable .str, rest)
    | '[' :: rest =>
      match skipBlanks rest with
      | ']' :: rest => some (.arr [], rest)
      | rest => items? fuel rest []
    | '\x7b' :: rest =>
      match skipBlanks rest with
      | '\x7d' :: rest => some (.obj [], rest)
      | rest => members? fuel rest (some [])
    | '-' :: rest => number? true rest
    | rest => number? false rest

/-- The elements of an array up to its closing bracket; `done` holds the earlier ones, last
first. -/
def items? : Nat → List Char → List Json → Option (Json × List Char)
  | 0, _, _ => none
  | fuel + 1, text, done => do
    let (item, rest) ← value? fuel text
    match skipBlanks rest with
    | ',' :: rest => items? fuel rest (item :: done)
    | ']' :: rest => some (.arr (item :: done).reverse, rest)
    | _ => none

/-- The members of an object up to its closing brace; `done` holds the earlier ones, last first, as
long as all of their names are texts. -/
def members? : Nat → List Char → Option Members → Option (Json × List Char)
  | 0, _, _ => none
  | fuel + 1, text, done =>
    match skipBlanks text with
    | '"' :: rest => do
      let (name, rest) ← stringBody? fuel rest (some [])
      match skipBlanks rest with
      | ':' :: rest =>
        let (value, rest) ← value? fuel rest
        let done := done.bind fun members => name.map fun name => (name, value) :: members
        match skipBlanks rest with
        | ',' :: rest => members? fuel rest done
        | '\x7d' :: rest =>
          some (done.elim .unreadable fun members => .obj members.reverse, rest)
        | _ => none
      | _ => none
    | _ => none

end

end TypeAtlas.Json.Reader

namespace TypeAtlas.Json

/-- The value in a text, with the parts that stand for nothing. -/
def ofText? (text : String) : Option Json := do
  let chars := text.toList
  let (value, rest) ← Reader.value? (2 * chars.length + 2) chars
  if (Reader.skipBlanks rest).isEmpty then some value else none

/-- The value in a text, if all of it can be read; of members with one name the last counts. -/
def valueOfText? (text : String) : Option Json :=
  (ofText? text).bind value?

end TypeAtlas.Json
