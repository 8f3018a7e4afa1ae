import TypeAtlas.Json.Value
import TypeAtlas.Decimal.Text
import TypeAtlas.Text.Hex
/-!
# Writing JSON text

`Json.text` writes a value on one line, without blanks. Inside a string the quote, the backslash and
the control characters are escaped and all else stands as it is, so the text of a value never holds
a line break. What is unreadable is written as `null`.
-/

namespace TypeAtlas.Json

/-- One character of a string. -/
def escapeChar (c : Char) : List Char :=
  if c == '"' then ['\\', '"']
  else if c == '\\' then ['\\', '\\']
  else if c == '\x08' then ['\\', 'b']
  else if c == '\x0c' then ['\\', 'f']
  else if c == '\n' then ['\\', 'n']
  else if c == '\r' then ['\\', 'r']
  else if c == '\t' then ['\\', 't']
  else if c.toNat < 0x20 then
    ['\\', 'u', '0', '0'] ++ (if c.toNat < 0x10 then ['0'] else []) ++ Text.hexDigits c.toNat
  else [c]

/-- A string with its quotes. -/
def quote (s : String) : String :=
  String.ofList ('"' :: s.toList.flatMap escapeChar ++ ['"'])

mutual

/-- The text of a value. -/
def text : Json → String
  | .null => "null"
  | .bool true => "true"
  | .bool false => "false"
  | .int n => toString n
  | .double d => d.jsonText
  | .str s => quote s
  | .arr items => "[" ++ itemsText items ++ "]"
  | .obj members => "\x7b" ++ membersText members ++ "\x7d"
  | .unreadable => "null"

/-- Elements with commas between them. -/
def itemsText : List Json → String
  | [] => ""
  | [item] => text item
  | item :: rest => text item ++ "," ++ itemsText rest

/-- Members with commas between them. -/
def membersText : Members → String
  | [] => ""
  | [(name, value)] => quote name ++ ":" ++ text value
  | (name, value) :: rest => quote name ++ ":" ++ text value ++ "," ++ membersText rest

end

end TypeAtlas.Json
