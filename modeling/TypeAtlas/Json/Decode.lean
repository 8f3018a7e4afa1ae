import TypeAtlas.Json.Value
/-!
# Decoding JSON values

Readers for the scalars and for the members of an object. A record ignores members it does not know
and refuses a member it knows when that is written twice (`Members.only?`).
-/

namespace TypeAtlas

namespace Json

/-- A string. -/
def string? : Json → Option String
  | .str s => some s
  | _ => none

/-- A truth value. -/
def boolean? : Json → Option Bool
  | .bool b => some b
  | _ => none

/-- An integer of 32 bits without sign. -/
def uint32? : Json → Option UInt32
  | .int n => if 0 ≤ n ∧ n < UInt32.size then some (UInt32.ofNat n.toNat) else none
  | _ => none

/-- An integer of 64 bits without sign. -/
def uint64? : Json → Option UInt64
  | .int n => if 0 ≤ n ∧ n < UInt64.size then some (UInt64.ofNat n.toNat) else none
  | _ => none

/-- An integer of 64 bits with sign. -/
def int64? : Json → Option Int64
  | .int n =>
    if Int64.minValue.toInt ≤ n ∧ n ≤ Int64.maxValue.toInt then some (Int64.ofInt n) else none
  | _ => none

/-- A number; integers are accepted and rounded. -/
def double? : Json → Option Double
  | .int n => some (Double.ofInt n)
  | .double d => some d
  | _ => none

/-- A list whose every element decodes. -/
def list? (decode : Json → Option α) : Json → Option (List α)
  | .arr items => items.mapM decode
  | _ => none

/-- A value that decodes, or `null`. -/
def nullable? (decode : Json → Option α) : Json → Option (Option α)
  | .null => some none
  | json => (decode json).map some

/-- The members of an object. -/
def members? : Json → Option Members
  | .obj members => some members
  | _ => none

/-- A value from a closed list of names. A name may also be written as an object that has it as its
only member, with the value `null`. -/
def name? (names : List (String × α)) : Json → Option α
  | .str s => names.lookup s
  | .obj [(s, .null)] => names.lookup s
  | _ => none

/-- A name inside a tagged value, where the object may also hold an empty object. -/
def innerName? (names : List (String × α)) : Json → Option α
  | .obj [(s, .obj [])] => names.lookup s
  | json => json.name? names

end Json

namespace Members

/-- The member with a name, if there is one; refused when there are two. -/
def only? (members : Members) (name : String) : Option (Option Json) :=
  match members.filter fun member => member.1 == name with
  | [] => some none
  | [(_, value)] => some (some value)
  | _ => none

/-- A member that has to be there. -/
def required? (members : Members) (name : String) (decode : Json → Option α) : Option α :=
  match only? members name with
  | some (some value) => decode value
  | _ => none

/-- A member that may be missing or `null`. -/
def optional? (members : Members) (name : String) (decode : Json → Option α) :
    Option (Option α) :=
  match only? members name with
  | none => none
  | some none => some none
  | some (some .null) => some none
  | some (some value) => (decode value).map some

/-- A member that may be missing, and then has a default. -/
def orDefault? (members : Members) (name : String) (decode : Json → Option α) (default : α) :
    Option α :=
  match only? members name with
  | none => none
  | some none => some default
  | some (some value) => decode value

end Members

end TypeAtlas
