/-!
# Flag sets

Sets of named bits, in one 32-bit word. There are four kinds: what a symbol is declared as, what a
type is, what an object type is, and what the checker notes on symbols it makes itself. Bits without
a name are kept. The word assignments are those of the TypeScript checker, so the flags of one word
are not exclusive: `boolean` is a union that also carries `BOOLEAN`.
-/

namespace TypeAtlas

/-- What a flag set describes. -/
inductive FlagKind where
  | symbol
  | type
  | object
  | check
  deriving DecidableEq, Inhabited, Repr

/-- A set of flags of one kind. -/
structure Flags (kind : FlagKind) where
  bits : UInt32
  deriving DecidableEq, Inhabited, Repr

namespace Flags

variable {kind : FlagKind}

/-- No flags. -/
def empty : Flags kind := ⟨0⟩

/-- Whether no bit is set. -/
def isEmpty (f : Flags kind) : Bool :=
  f.bits == 0

/-- Whether every flag of `g` is set in `f`. -/
def has (f g : Flags kind) : Bool :=
  f.bits &&& g.bits == g.bits

/-- Whether some flag of `g` is set in `f`. -/
def meets (f g : Flags kind) : Bool :=
  f.bits &&& g.bits != 0

/-- The flags of both sets. -/
def union (f g : Flags kind) : Flags kind :=
  ⟨f.bits ||| g.bits⟩

instance : OrOp (Flags kind) := ⟨union⟩

end Flags

/-- What a symbol is declared as. -/
abbrev SymbolFlags := Flags .symbol

namespace SymbolFlags

def functionScopedVariable : SymbolFlags := ⟨0x1⟩
def blockScopedVariable : SymbolFlags := ⟨0x2⟩
def property : SymbolFlags := ⟨0x4⟩
def enumMember : SymbolFlags := ⟨0x8⟩
def function : SymbolFlags := ⟨0x10⟩
def class' : SymbolFlags := ⟨0x20⟩
def interface : SymbolFlags := ⟨0x40⟩
def constEnum : SymbolFlags := ⟨0x80⟩
def regularEnum : SymbolFlags := ⟨0x100⟩
def objectLiteral : SymbolFlags := ⟨0x1000⟩
def typeParameter : SymbolFlags := ⟨0x40000⟩
def typeAlias : SymbolFlags := ⟨0x80000⟩
def optional : SymbolFlags := ⟨0x1000000⟩
def transient : SymbolFlags := ⟨0x2000000⟩

/-- A class or an interface. -/
def classOrInterface : SymbolFlags := class' ||| interface

/-- A symbol that names a declared type: a class, an interface, an alias or an enum. -/
def definedType : SymbolFlags :=
  class' ||| interface ||| typeAlias ||| regularEnum ||| constEnum

/-- Whether the symbol names a declared type. -/
def isDefinedType (f : SymbolFlags) : Bool :=
  f.meets definedType

end SymbolFlags

/-- What a type is. -/
abbrev TypeFlags := Flags .type

namespace TypeFlags

def any : TypeFlags := ⟨0x1⟩
def unknown : TypeFlags := ⟨0x2⟩
def string : TypeFlags := ⟨0x4⟩
def number : TypeFlags := ⟨0x8⟩
def boolean : TypeFlags := ⟨0x10⟩
def enum : TypeFlags := ⟨0x20⟩
def bigInt : TypeFlags := ⟨0x40⟩
def stringLiteral : TypeFlags := ⟨0x80⟩
def numberLiteral : TypeFlags := ⟨0x100⟩
def booleanLiteral : TypeFlags := ⟨0x200⟩
def enumLiteral : TypeFlags := ⟨0x400⟩
def bigIntLiteral : TypeFlags := ⟨0x800⟩
def esSymbol : TypeFlags := ⟨0x1000⟩
def uniqueEsSymbol : TypeFlags := ⟨0x2000⟩
def void : TypeFlags := ⟨0x4000⟩
def undefined : TypeFlags := ⟨0x8000⟩
def null : TypeFlags := ⟨0x10000⟩
def never : TypeFlags := ⟨0x20000⟩
def typeParameter : TypeFlags := ⟨0x40000⟩
def object : TypeFlags := ⟨0x80000⟩
def union : TypeFlags := ⟨0x100000⟩
def intersection : TypeFlags := ⟨0x200000⟩
def index : TypeFlags := ⟨0x400000⟩
def indexedAccess : TypeFlags := ⟨0x800000⟩
def conditional : TypeFlags := ⟨0x1000000⟩
def substitution : TypeFlags := ⟨0x2000000⟩
def nonPrimitive : TypeFlags := ⟨0x4000000⟩
def templateLiteral : TypeFlags := ⟨0x8000000⟩
def stringMapping : TypeFlags := ⟨0x10000000⟩

/-- An enum or a member of one. -/
def enumLike : TypeFlags := enum ||| enumLiteral

/-- `symbol`, or the type of one symbol. -/
def esSymbolLike : TypeFlags := esSymbol ||| uniqueEsSymbol

/-- A literal of any sort. -/
def literal : TypeFlags := stringLiteral ||| numberLiteral ||| bigIntLiteral ||| booleanLiteral

end TypeFlags

/-- What an object type is. -/
abbrev ObjectFlags := Flags .object

namespace ObjectFlags

def class' : ObjectFlags := ⟨0x1⟩
def interface : ObjectFlags := ⟨0x2⟩
def reference : ObjectFlags := ⟨0x4⟩
def tuple : ObjectFlags := ⟨0x8⟩
def anonymous : ObjectFlags := ⟨0x10⟩
def objectLiteral : ObjectFlags := ⟨0x80⟩

/-- A class or an interface. -/
def classOrInterface : ObjectFlags := class' ||| interface

end ObjectFlags

/-- What the checker notes on the symbols it makes itself. -/
abbrev CheckFlags := Flags .check

namespace CheckFlags

def syntheticProperty : CheckFlags := ⟨0x2⟩
def readonly : CheckFlags := ⟨0x8⟩
def optionalParameter : CheckFlags := ⟨0x4000⟩
def restParameter : CheckFlags := ⟨0x8000⟩

end CheckFlags

end TypeAtlas
