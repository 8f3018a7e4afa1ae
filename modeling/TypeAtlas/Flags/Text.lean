import TypeAtlas.Flags.Basic
import TypeAtlas.Json.Decode
import TypeAtlas.Text.Blank
import TypeAtlas.Text.Hex
/-!
# Flag sets as text

A flag set is written as the names of its flags with ` | ` between them, in the order of the table
of its kind; bits without a name come last, as one hexadecimal number. Reading accepts the names in
any order, the names of whole groups, and hexadecimal numbers.
-/

namespace TypeAtlas

/-- The names of a kind of flags: the single bits first, then the groups. -/
def FlagKind.table : FlagKind → List (String × UInt32)
  | .symbol =>
    [("FUNCTION_SCOPED_VARIABLE", 0x1), ("BLOCK_SCOPED_VARIABLE", 0x2), ("PROPERTY", 0x4),
      ("ENUM_MEMBER", 0x8), ("FUNCTION", 0x10), ("CLASS", 0x20), ("INTERFACE", 0x40),
      ("CONST_ENUM", 0x80), ("REGULAR_ENUM", 0x100), ("VALUE_MODULE", 0x200),
      ("NAMESPACE_MODULE", 0x400), ("TYPE_LITERAL", 0x800), ("OBJECT_LITERAL", 0x1000),
      ("METHOD", 0x2000), ("CONSTRUCTOR", 0x4000), ("GET_ACCESSOR", 0x8000),
      ("SET_ACCESSOR", 0x10000), ("SIGNATURE", 0x20000), ("TYPE_PARAMETER", 0x40000),
      ("TYPE_ALIAS", 0x80000), ("EXPORT_VALUE", 0x100000), ("ALIAS", 0x200000),
      ("PROTOTYPE", 0x400000), ("EXPORT_STAR", 0x800000), ("OPTIONAL", 0x1000000),
      ("TRANSIENT", 0x2000000), ("VARIABLE", 0x3), ("ENUM", 0x180), ("ACCESSOR", 0x18000),
      ("CLASS_MEMBER", 0x1A004), ("CLASS_OR_INTERFACE", 0x60)]
  | .type =>
    [("ANY", 0x1), ("UNKNOWN", 0x2), ("STRING", 0x4), ("NUMBER", 0x8), ("BOOLEAN", 0x10),
      ("ENUM", 0x20), ("BIG_INT", 0x40), ("STRING_LITERAL", 0x80), ("NUMBER_LITERAL", 0x100),
      ("BOOLEAN_LITERAL", 0x200), ("ENUM_LITERAL", 0x400), ("BIG_INT_LITERAL", 0x800),
      ("ES_SYMBOL", 0x1000), ("UNIQUE_ES_SYMBOL", 0x2000), ("VOID", 0x4000),
      ("UNDEFINED", 0x8000), ("NULL", 0x10000), ("NEVER", 0x20000), ("TYPE_PARAMETER", 0x40000),
      ("OBJECT", 0x80000), ("UNION", 0x100000), ("INTERSECTION", 0x200000), ("INDEX", 0x400000),
      ("INDEXED_ACCESS", 0x800000), ("CONDITIONAL", 0x1000000), ("SUBSTITUTION", 0x2000000),
      ("NON_PRIMITIVE", 0x4000000), ("TEMPLATE_LITERAL", 0x8000000),
      ("STRING_MAPPING", 0x10000000), ("ENUM_LIKE", 0x420), ("ES_SYMBOL_LIKE", 0x3000),
      ("LITERAL", 0xB80), ("UNION_OR_INTERSECTION", 0x300000)]
  | .object =>
    [("CLASS", 0x1), ("INTERFACE", 0x2), ("REFERENCE", 0x4), ("TUPLE", 0x8), ("ANONYMOUS", 0x10),
      ("MAPPED", 0x20), ("INSTANTIATED", 0x40), ("OBJECT_LITERAL", 0x80),
      ("CLASS_OR_INTERFACE", 0x3)]
  | .check =>
    [("INSTANTIATED", 0x1), ("SYNTHETIC_PROPERTY", 0x2), ("SYNTHETIC_METHOD", 0x4),
      ("READONLY", 0x8), ("HAS_NON_UNIFORM_TYPE", 0x40), ("LATE", 0x1000),
      ("REVERSE_MAPPED", 0x2000), ("OPTIONAL_PARAMETER", 0x4000), ("REST_PARAMETER", 0x8000),
      ("MAPPED", 0x40000)]

namespace Flags

variable {kind : FlagKind}

/-- The names of the flags of `all` that cover bits still `left`, and the bits no name covers. -/
def namesOf (all : UInt32) : List (String × UInt32) → UInt32 → List String × UInt32
  | [], left => ([], left)
  | (name, bits) :: table, left =>
    if all &&& bits == bits && left &&& bits != 0 then
      let (names, rest) := namesOf all table (left &&& ~~~bits)
      (name :: names, rest)
    else namesOf all table left

/-- The text of a flag set. -/
def text (f : Flags kind) : String :=
  let (names, rest) := namesOf f.bits kind.table f.bits
  let unnamed := if rest == 0 then [] else ["0x" ++ String.ofList (Text.hexDigits rest.toNat)]
  " | ".intercalate (names ++ unnamed)

/-- A word in hexadecimal digits, with an optional plus sign before them. -/
def hexWord? (text : List Char) : Option UInt32 := do
  let digits := match text with
    | '+' :: rest => rest
    | text => text
  if digits.isEmpty then none
  else
    let values ← digits.mapM Text.hexValue?
    let n := values.foldl (fun n d => n * 16 + d) 0
    if n < UInt32.size then some (UInt32.ofNat n) else none

/-- One name or number. -/
def part? (table : List (String × UInt32)) : List Char → Option UInt32
  | '0' :: 'x' :: digits => hexWord? digits
  | name => table.lookup (String.ofList name)

/-- The flag set a text describes. -/
def ofText? (text : String) : Option (Flags kind) :=
  let trimmed := Text.trim text.toList
  if trimmed.isEmpty then some empty
  else do
    let words ← ((Text.split '|' trimmed).map Text.trim).mapM (part? kind.table)
    some (words.foldl (fun f word => f.union ⟨word⟩) empty)

def toJson (f : Flags kind) : Json :=
  .str f.text

def ofJson? (json : Json) : Option (Flags kind) := do
  ofText? (← json.string?)

end Flags

end TypeAtlas
