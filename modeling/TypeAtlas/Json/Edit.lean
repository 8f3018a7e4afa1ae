import TypeAtlas.Json.Value
/-!
# Edits of JSON values

A pointer says where in a value something is changed: it is a list of keys, each the name of a
member or the place of an element. Its text has a slash before each key; in a key `~1` is a slash
and `~0` a tilde. A patch of an object lists the members that are replaced.
-/

namespace TypeAtlas

/-- The members with those of a patch put in; a member that is `null` in the patch is taken away. -/
def Members.patch (members patch : Members) : Members :=
  patch.foldl (fun members (name, value) =>
    match value with
    | .null => members.erase name
    | value => members.insert name value) members

namespace Json

/-- A place inside a value. -/
abbrev Pointer := List String

/-- The key that stands for the place after the last element of an array. -/
def endKey : String := "-"

/-- The key with slashes and tildes put back. -/
def unescapeKey : List Char → List Char
  | '~' :: '1' :: rest => '/' :: unescapeKey rest
  | '~' :: '0' :: rest => '~' :: unescapeKey rest
  | c :: rest => c :: unescapeKey rest
  | [] => []

/-- The pointer that a text stands for; what is before the first slash does not count. -/
def Pointer.ofText (text : String) : Pointer :=
  ((text.splitOn "/").drop 1).map fun key => .ofList (unescapeKey key.toList)

/-- The place in an array that a key stands for. -/
def placeOf? (key : String) : Option Nat :=
  match key.toList with
  | ['0'] => some 0
  | '0' :: _ => none
  | [] => none
  | digits =>
    if digits.all Char.isDigit then
      some (digits.foldl (fun n c => 10 * n + (c.toNat - '0'.toNat)) 0)
    else none

/-- The value with the part at a pointer changed, if there is such a part and the change
succeeds. -/
def modify? (change : Json → Option Json) : Pointer → Json → Option Json
  | [], json => change json
  | key :: keys, .obj members => do
    let value ← modify? change keys (← Members.get? members key)
    some (.obj (Members.insert members key value))
  | key :: keys, .arr items => do
    let n ← placeOf? key
    some (.arr (items.set n (← modify? change keys (← items[n]?))))
  | _ :: _, _ => none

/-- A value put at a key: a member, an element in the place of another one, or an element after the
last. -/
def put? (key : String) (value : Json) : Json → Option Json
  | .obj members => some (.obj (Members.insert members key value))
  | .arr items =>
    if key = endKey then some (.arr (items ++ [value]))
    else (placeOf? key).bind fun n =>
      if n < items.length then some (.arr (items.set n value)) else none
  | _ => none

/-- A member taken away. -/
def remove? (key : String) : Json → Option Json
  | .obj members => some (.obj (Members.erase members key))
  | _ => none

/-- An array cut to a number of elements. -/
def truncate? (n : Nat) : Json → Option Json
  | .arr items => some (.arr (items.take n))
  | _ => none

/-- A change at the last key of a pointer, made to what holds that key. -/
def modifyHolder? (change : String → Json → Option Json) (pointer : Pointer) (json : Json) :
    Option Json := do
  let key ← pointer.getLast?
  modify? (change key) pointer.dropLast json

end Json

end TypeAtlas
