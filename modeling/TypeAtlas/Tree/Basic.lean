import TypeAtlas.Flags.Text
import TypeAtlas.Ids
import TypeAtlas.Literal
import TypeAtlas.Source.Position
/-!
# Type trees

A `TypeTree` shows a type as plain data: what kind of type it is and the types it is made of. It
holds no handle into a graph; the only link inside a tree is the id, which a `reference` node
shares with the node it stands for.

One node without its children is a `Layer`: the children are a parameter, so that everything which
depends on the twenty-six kinds of nodes is said once, for layers, and everything that recurses is
said for trees.
-/

namespace TypeAtlas

/-- A declared symbol, reduced to what a tree shows of it. -/
structure SymbolMeta where
  name : String
  flags : SymbolFlags
  optional : Bool := false
  anonymous : Bool := false
  rest : Bool := false
  readonly : Bool := false
  insideClassOrInterface : Bool := false
  declarations : List Location := []
  deriving DecidableEq, Inhabited, Repr

namespace SymbolMeta

/-- Whether a name is one that is made up for a symbol without a name. -/
def isAnonymousName (name : String) : Bool :=
  match name.toList with
  | '_' :: '_' :: _ => true
  | _ => false

/-- A symbol of which only the name and the flags are known. -/
def named (name : String) (flags : SymbolFlags) : SymbolMeta :=
  { name, flags, anonymous := isAnonymousName name }

/-- Where the symbol is declared first. -/
def location? (symbol : SymbolMeta) : Option Location :=
  symbol.declarations.head?

end SymbolMeta

/-- The primitive types. -/
inductive Primitive where
  | any
  | unknown
  | undefined
  | null
  | boolean
  | string
  | number
  | void
  | bigint
  | esSymbol
  | uniqueSymbol
  | never
  deriving DecidableEq, Inhabited, Repr

/-- A call or construct signature with children of type `α`. -/
structure SignatureLayer (α : Type) where
  symbolMeta : Option SymbolMeta := none
  parameters : List α
  returnType : Option α := none
  typeParameters : Option (List α) := none
  deriving Inhabited, Repr

/-- An index signature with children of type `α`. -/
structure IndexLayer (α : Type) where
  keyType : Option α := none
  valueType : Option α := none
  parameterSymbol : Option SymbolMeta := none
  readonly : Bool := false
  deriving Inhabited, Repr

/-- The members of a class or an interface with children of type `α`. -/
structure ClassLayer (α : Type) where
  classSymbol : Option SymbolMeta := none
  properties : List α
  indexInfos : List (IndexLayer α) := []
  baseType : Option α := none
  implementsTypes : List α := []
  constructSignatures : List (SignatureLayer α) := []
  deriving Inhabited, Repr

/-- The kind of a node and what belongs to that kind, with children of type `α`. -/
inductive Shape (α : Type) where
  | primitive (primitive : Primitive)
  /-- The keyword type behind `Uppercase` and its like. -/
  | intrinsic (name : String)
  | stringLiteral (value : String)
  | numberLiteral (value : Double)
  | bigintLiteral (value : BigInt)
  | booleanLiteral (value : Bool)
  | enumLiteral (value : EnumValue) (literalSymbol parentSymbol : Option SymbolMeta)
  | enum (enumSymbol : Option SymbolMeta) (members : List α)
  /-- The `objectClass` is the class whose constructor side the object is. -/
  | object (properties : List α) (indexInfos : List (IndexLayer α)) (objectClass : Option α)
  | class' (members : ClassLayer α)
  | interface (members : ClassLayer α)
  | function (signatures : List (SignatureLayer α))
  | array (element : α) (readonly : Bool)
  /-- Elements from `minLength` on are optional. -/
  | tuple (types : List α) (names : Option (List String)) (readonly : Bool)
    (minLength : Option UInt64)
  | union (types : List α)
  | intersection (types properties : List α) (indexInfos : List (IndexLayer α))
  | index (keyOf : α)
  | indexedAccess (objectType indexType : α)
  | conditional (checkType extendsType : α) (trueType falseType : Option α)
  | substitution (baseType substitute : α)
  | stringMapping (typeSymbol : Option SymbolMeta) (mapped : α)
  | templateLiteral (texts : List String) (types : List α)
  | typeParameter (typeSymbol : Option SymbolMeta) (baseConstraint defaultType : Option α)
  | nonPrimitive
  /-- Stands for a node elsewhere in the tree with the same id or, with a location, for the type
  declared there. -/
  | reference (location : Option Location)
  /-- Stands for a node that would be too deep. -/
  | maxDepth
  deriving Inhabited, Repr

/-- A node with children of type `α`. -/
structure Layer (α : Type) where
  id : TypeId
  shape : Shape α
  /-- The symbol through which the type was met. -/
  symbolMeta : Option SymbolMeta := none
  aliasSymbolMeta : Option SymbolMeta := none
  typeArguments : Option (List α) := none
  typeParameters : Option (List α) := none
  deriving Inhabited, Repr

/-- A type as a tree. -/
inductive TypeTree where
  | node (layer : Layer TypeTree)
  deriving Inhabited

namespace TypeTree

/-- The root of a tree, with the trees below it. -/
def layer : TypeTree → Layer TypeTree
  | node layer => layer

/-- The type that the root shows. -/
def id (tree : TypeTree) : TypeId :=
  tree.layer.id

/-- What the root is. -/
def shape (tree : TypeTree) : Shape TypeTree :=
  tree.layer.shape

/-- The symbol through which the root was met. -/
def symbolMeta (tree : TypeTree) : Option SymbolMeta :=
  tree.layer.symbolMeta

end TypeTree

/-- The kinds of nodes. -/
inductive NodeKind where
  | primitive
  | intrinsic
  | stringLiteral
  | numberLiteral
  | bigintLiteral
  | booleanLiteral
  | enumLiteral
  | enum
  | object
  | class'
  | interface
  | function
  | array
  | tuple
  | union
  | intersection
  | index
  | indexedAccess
  | conditional
  | substitution
  | stringMapping
  | templateLiteral
  | typeParameter
  | nonPrimitive
  | reference
  | maxDepth
  deriving DecidableEq, Inhabited, Repr

namespace Shape

variable {α : Type}

/-- The kind of a node. -/
def kind : Shape α → NodeKind
  | primitive .. => .primitive
  | intrinsic .. => .intrinsic
  | stringLiteral .. => .stringLiteral
  | numberLiteral .. => .numberLiteral
  | bigintLiteral .. => .bigintLiteral
  | booleanLiteral .. => .booleanLiteral
  | enumLiteral .. => .enumLiteral
  | enum .. => .enum
  | object .. => .object
  | class' .. => .class'
  | interface .. => .interface
  | function .. => .function
  | array .. => .array
  | tuple .. => .tuple
  | union .. => .union
  | intersection .. => .intersection
  | index .. => .index
  | indexedAccess .. => .indexedAccess
  | conditional .. => .conditional
  | substitution .. => .substitution
  | stringMapping .. => .stringMapping
  | templateLiteral .. => .templateLiteral
  | typeParameter .. => .typeParameter
  | nonPrimitive => .nonPrimitive
  | reference .. => .reference
  | maxDepth => .maxDepth

/-- Whether the node stands for another one. -/
def isReference : Shape α → Bool
  | reference .. => true
  | _ => false

/-- Whether the node shows its type itself: it is neither a reference nor cut off. -/
def isConcrete : Shape α → Bool
  | reference .. => false
  | maxDepth => false
  | _ => true

end Shape

end TypeAtlas
