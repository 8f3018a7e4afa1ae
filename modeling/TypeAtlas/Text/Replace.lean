/-!
# Replacing in texts
-/

namespace TypeAtlas.Text

/-- Every occurrence of a pattern replaced, from left to right; occurrences do not overlap. The
number tells how many characters of an occurrence are still to be passed over. -/
def replaceFrom (pattern replacement : List Char) : Nat → List Char → List Char
  | _, [] => []
  | passed + 1, _ :: rest => replaceFrom pattern replacement passed rest
  | 0, c :: rest =>
    if pattern.isPrefixOf (c :: rest) then
      replacement ++ replaceFrom pattern replacement (pattern.length - 1) rest
    else c :: replaceFrom pattern replacement 0 rest

/-- Every occurrence of a pattern, which is not empty, replaced. -/
def replaceAll (pattern replacement text : String) : String :=
  String.ofList (replaceFrom pattern.toList replacement.toList 0 text.toList)

end TypeAtlas.Text
