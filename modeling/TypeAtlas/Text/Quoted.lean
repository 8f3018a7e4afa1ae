import TypeAtlas.Text.Hex
import TypeAtlas.Text.Hidden
/-!
# Quoted text

String literals as types show them: in double quotes, with a backslash before quotes and backslashes
and escapes for characters that do not show by themselves.
-/

namespace TypeAtlas.Text

/-- One character between the quotes. -/
def quoteChar (c : Char) : List Char :=
  if c == '\x00' then ['\\', '0']
  else if c == '\t' then ['\\', 't']
  else if c == '\r' then ['\\', 'r']
  else if c == '\n' then ['\\', 'n']
  else if c == '"' then ['\\', '"']
  else if c == '\\' then ['\\', '\\']
  else if ' ' ≤ c && c ≤ '~' then [c]
  else if isHidden c then ['\\', 'u', '\x7b'] ++ hexDigits c.toNat ++ ['\x7d']
  else [c]

/-- A text in quotes. -/
def quoted (s : String) : String :=
  String.ofList ('"' :: s.toList.flatMap quoteChar ++ ['"'])

end TypeAtlas.Text
