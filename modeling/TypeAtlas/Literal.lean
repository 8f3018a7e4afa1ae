import TypeAtlas.Json.Decode
import TypeAtlas.Decimal.Text
/-!
# Literal values

The values of literal types and of enum members.
-/

namespace TypeAtlas

/-- An integer of any size: its sign and its decimal digits, kept as they were written. -/
structure BigInt where
  negative : Bool
  digits : String
  deriving DecidableEq, Inhabited, Repr

namespace BigInt

/-- The digits with their sign. -/
def display (n : BigInt) : String :=
  (if n.negative then "-" else "") ++ n.digits

def toJson (n : BigInt) : Json :=
  .obj [("negative", .bool n.negative), ("base10Value", .str n.digits)]

def ofJson? (json : Json) : Option BigInt := do
  let members ← json.members?
  let negative ← members.required? "negative" Json.boolean?
  let digits ← members.required? "base10Value" Json.string?
  some ⟨negative, digits⟩

end BigInt

/-- The value of a literal type. -/
inductive Literal where
  | string (value : String)
  | number (value : Double)
  | bigInt (value : BigInt)
  | boolean (value : Bool)
  deriving DecidableEq, Inhabited, Repr

namespace Literal

/-- A tag and the value it announces. -/
def toJson : Literal → Json
  | .string value => .obj [("type", .str "string"), ("value", .str value)]
  | .number value => .obj [("type", .str "number"), ("value", .ofDouble value)]
  | .bigInt value => .obj [("type", .str "big_int"), ("value", value.toJson)]
  | .boolean value => .obj [("type", .str "boolean"), ("value", .bool value)]

/-- The readers of the four sorts of value, by tag. -/
def readers : List (String × (Json → Option Literal)) :=
  [("string", fun json => json.string?.map string), ("number", fun json => json.double?.map number),
    ("big_int", fun json => (BigInt.ofJson? json).map bigInt),
    ("boolean", fun json => json.boolean?.map boolean)]

def ofJson? (json : Json) : Option Literal := do
  let members ← json.members?
  let read ← members.required? "type" (Json.innerName? readers)
  members.required? "value" read

end Literal

/-- The value of an enum member. -/
inductive EnumValue where
  | number (value : Double)
  | string (value : String)
  deriving DecidableEq, Inhabited, Repr

namespace EnumValue

/-- The value as labels show it. -/
def display : EnumValue → String
  | .number value => value.display
  | .string value => "\"" ++ value ++ "\""

def toJson : EnumValue → Json
  | .number value => .ofDouble value
  | .string value => .str value

def ofJson? : Json → Option EnumValue
  | .str value => some (.string value)
  | json => json.double?.map number

end EnumValue

end TypeAtlas
