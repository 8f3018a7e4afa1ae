import TypeAtlas.Decimal.Double
/-!
# JSON values

A JSON document as data. Integers from `-2 ^ 63` to `2 ^ 64 - 1` are kept exact and all other
numbers are doubles. An object keeps its members as they were written, repeated names included, so
that a decoder can refuse a repetition; `Json.lastWins` is the reading in which a later member
replaces an earlier one.

A text can be well formed and still have parts that stand for nothing: a number out of range, or a
string with half of a surrogate pair. Such a part is `unreadable`. It does no harm where a decoder
passes over it, and no decoder reads it; `Json.value?` asks for a value without such parts.
-/

namespace TypeAtlas

/-- A JSON value. -/
inductive Json where
  | null
  | bool (value : Bool)
  | int (value : Int)
  | double (value : Double)
  | str (value : String)
  | arr (items : List Json)
  | obj (members : List (String × Json))
  /-- A part of a document that stands for nothing. An object with a name that cannot be read is one
  as a whole. -/
  | unreadable
  deriving Inhabited, Repr

/-- The members of an object, in order. -/
abbrev Members := List (String × Json)

/-- The value of the first member with a name. -/
def Members.get? (members : Members) (name : String) : Option Json :=
  (members.find? fun member => member.1 == name).map (·.2)

/-- A member set in place, or added at the end. -/
def Members.insert : Members → String → Json → Members
  | [], name, value => [(name, value)]
  | member :: rest, name, value =>
    if member.1 == name then (name, value) :: rest else member :: Members.insert rest name value

/-- The members without a name. -/
def Members.erase (members : Members) (name : String) : Members :=
  members.filter fun member => member.1 != name

namespace Json

/-- A double as a document carries it: no document holds a NaN or an infinity. -/
def ofDouble (d : Double) : Json :=
  if d.isFinite then .double d else .null

/-- A natural number. -/
def ofNat (n : Nat) : Json :=
  .int n

/-- A value or `null`. -/
def ofOption (encode : α → Json) : Option α → Json
  | none => .null
  | some a => encode a

/-- A list of encoded values. -/
def ofList (encode : α → Json) (items : List α) : Json :=
  .arr (items.map encode)

/-- A member that is always written. -/
def field (name : String) (value : Json) : Members :=
  [(name, value)]

/-- A member left out when there is no value. -/
def fieldIfSome (name : String) (encode : α → Json) : Option α → Members
  | none => []
  | some a => [(name, encode a)]

/-- A member left out when the list is empty. -/
def fieldIfNonempty (name : String) (encode : α → Json) (items : List α) : Members :=
  if items.isEmpty then [] else [(name, ofList encode items)]

/-- A member left out when false. -/
def fieldIfTrue (name : String) (value : Bool) : Members :=
  if value then [(name, .bool true)] else []

/-- The value of the first member with a name; `none` when the value is no object. -/
def get? : Json → String → Option Json
  | .obj members, name => Members.get? members name
  | _, _ => none

mutual

/-- The value with every repeated member replaced by its last occurrence. -/
def lastWins : Json → Json
  | .arr items => .arr (lastWinsItems items)
  | .obj members => .obj (lastWinsMembers members [])
  | value => value

/-- The elements of an array, each read in the same way. -/
def lastWinsItems : List Json → List Json
  | [] => []
  | item :: rest => lastWins item :: lastWinsItems rest

/-- The members read so far, then the remaining ones. -/
def lastWinsMembers : Members → Members → Members
  | [], done => done
  | (name, value) :: rest, done => lastWinsMembers rest (Members.insert done name (lastWins value))

end

mutual

/-- Whether no part of the value is unreadable. -/
def isReadable : Json → Bool
  | .unreadable => false
  | .arr items => isReadableItems items
  | .obj members => isReadableMembers members
  | _ => true

/-- Whether all elements of an array are readable. -/
def isReadableItems : List Json → Bool
  | [] => true
  | item :: rest => isReadable item && isReadableItems rest

/-- Whether the values of all members are readable. -/
def isReadableMembers : Members → Bool
  | [] => true
  | (_, value) :: rest => isReadable value && isReadableMembers rest

end

/-- The value with no member repeated, if all of it can be read. -/
def value? (json : Json) : Option Json :=
  if json.isReadable then some json.lastWins else none

end Json

end TypeAtlas
