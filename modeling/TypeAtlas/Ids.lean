import TypeAtlas.Json.Decode
/-!
# Handles

Types and symbols are known by their place in a graph: a `TypeId` or a `SymbolId` is an index of
32 bits, and it may point past the end. Nodes of a tree carry the `TypeId` of the type they show.
-/

namespace TypeAtlas

/-- The place of a type in a graph. -/
structure TypeId where
  val : UInt32
  deriving DecidableEq, Inhabited, Repr, Hashable

namespace TypeId

/-- The place as a natural number. -/
def index (id : TypeId) : Nat :=
  id.val.toNat

/-- The place `n`; indices wrap at `2 ^ 32`. -/
def ofIndex (n : Nat) : TypeId :=
  ⟨UInt32.ofNat n⟩

/-- How messages name a type that a reference asks for. -/
def display (id : TypeId) : String :=
  "#" ++ toString id.index

/-- The handle with the word that tells it from other handles. -/
def text (id : TypeId) : String :=
  "TypeId(" ++ toString id.index ++ ")"

def toJson (id : TypeId) : Json :=
  .ofNat id.index

def ofJson? (json : Json) : Option TypeId :=
  json.uint32?.map TypeId.mk

def any : TypeId := ⟨0⟩
def unknown : TypeId := ⟨1⟩

/-- Stands for a type that could not be found. -/
def error : TypeId := ⟨2⟩

def string : TypeId := ⟨3⟩
def number : TypeId := ⟨4⟩
def bigint : TypeId := ⟨5⟩
def esSymbol : TypeId := ⟨6⟩
def void : TypeId := ⟨7⟩
def undefined : TypeId := ⟨8⟩
def null : TypeId := ⟨9⟩
def never : TypeId := ⟨10⟩
def nonPrimitive : TypeId := ⟨11⟩

/-- The literal `false`. -/
def falseLiteral : TypeId := ⟨12⟩

/-- The literal `true`. -/
def trueLiteral : TypeId := ⟨13⟩

def boolean : TypeId := ⟨14⟩

/-- The keyword type behind `Uppercase` and its like. -/
def intrinsic : TypeId := ⟨15⟩

/-- How many types every graph starts with. -/
def intrinsicCount : Nat := 16

/-- The types that every graph starts with, by name. -/
def intrinsics : List (String × TypeId) :=
  [("any", any), ("unknown", unknown), ("error", error), ("string", string), ("number", number),
    ("bigint", bigint), ("symbol", esSymbol), ("void", void), ("undefined", undefined),
    ("null", null), ("never", never), ("object", nonPrimitive), ("false", falseLiteral),
    ("true", trueLiteral), ("boolean", boolean), ("intrinsic", intrinsic)]

end TypeId

/-- The place of a symbol in a graph. -/
structure SymbolId where
  val : UInt32
  deriving DecidableEq, Inhabited, Repr, Hashable

namespace SymbolId

/-- The place as a natural number. -/
def index (id : SymbolId) : Nat :=
  id.val.toNat

/-- The place `n`; indices wrap at `2 ^ 32`. -/
def ofIndex (n : Nat) : SymbolId :=
  ⟨UInt32.ofNat n⟩

def toJson (id : SymbolId) : Json :=
  .ofNat id.index

def ofJson? (json : Json) : Option SymbolId :=
  json.uint32?.map SymbolId.mk

end SymbolId

end TypeAtlas
