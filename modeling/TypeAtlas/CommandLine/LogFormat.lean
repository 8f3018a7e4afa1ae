/-!
# Formats of the log
-/

namespace TypeAtlas

/-- How the log is written. -/
inductive LogFormat where
  | text
  | tree
  | json
  deriving DecidableEq, Inhabited, Repr

namespace LogFormat

/-- The format in one word. -/
def name : LogFormat → String
  | text => "text"
  | tree => "tree"
  | json => "json"

/-- The format that a word in letters of either case asks for; `text` unless it is another one. No
letter outside ASCII has a small form that occurs in these words. -/
def ofText (word : String) : LogFormat :=
  let word := word.map Char.toLower
  if word = tree.name then tree
  else if word = json.name then json
  else text

end LogFormat

end TypeAtlas
