import TypeAtlas.Flags.Basic
import TypeAtlas.Ids
import TypeAtlas.Literal
import TypeAtlas.Source.Position
/-!
# The records of a type graph

A graph holds a list of types and a list of symbols, which refer to each other by handle. A record
says what a type or symbol is; nothing here looks a handle up.
-/

namespace TypeAtlas

/-- The syntactic sorts of declarations. -/
inductive DeclarationKind where
  | variable
  | parameter
  | property
  | propertySignature
  | method
  | function
  | class'
  | interface
  | typeAlias
  | enum
  | enumMember
  | typeParameter
  | other
  deriving DecidableEq, Inhabited, Repr

/-- Whether a declaration of this sort can be the value declaration of its symbol. -/
def DeclarationKind.isValue : DeclarationKind → Bool
  | interface | typeAlias | typeParameter => false
  | _ => true

/-- A place where a symbol is declared. -/
structure Declaration where
  kind : DeclarationKind
  /-- Where the name stands. -/
  location : Location
  questionToken : Bool := false
  dotDotDotToken : Bool := false
  hasInitializer : Bool := false
  /-- The type of the symbol at this place. -/
  typeAtLocation : Option TypeId := none
  deriving DecidableEq, Inhabited, Repr

/-- A call or construct signature. -/
structure Signature where
  symbol : Option SymbolId := none
  typeParameters : List TypeId := []
  parameters : List SymbolId
  returnType : TypeId
  minArgumentCount : UInt32 := 0
  deriving DecidableEq, Inhabited, Repr

/-- An index signature. -/
structure IndexInfo where
  keyType : TypeId
  valueType : TypeId
  isReadonly : Bool := false
  parameter : Option SymbolId := none
  deriving DecidableEq, Inhabited, Repr

/-- What distinguishes one tuple type from another, apart from its elements. -/
structure TupleShape where
  labels : Option (List String) := none
  readonly : Bool := false
  /-- Elements from this one on are optional. -/
  minLength : Option UInt64 := none
  deriving DecidableEq, Inhabited, Repr

/-- The member lists of an object type. -/
structure ObjectMembers where
  properties : List SymbolId := []
  callSignatures : List Signature := []
  constructSignatures : List Signature := []
  indexInfos : List IndexInfo := []
  deriving DecidableEq, Inhabited, Repr

/-- An object type. A reference has a generic target and arguments for it; a generic declaration has
type parameters. -/
structure ObjectType extends ObjectMembers where
  target : Option TypeId := none
  typeArguments : List TypeId := []
  typeParameters : List TypeId := []
  tuple : Option TupleShape := none
  baseTypes : List TypeId := []
  implementsTypes : List TypeId := []
  deriving DecidableEq, Inhabited, Repr

/-- What a type is made of. -/
inductive TypeData where
  | intrinsic (name : String)
  | literal (value : Literal)
  | object (object : ObjectType)
  | union (types : List TypeId)
  | intersection (types : List TypeId)
  | typeParameter (constraint default : Option TypeId)
  | index (target : TypeId)
  | indexedAccess (objectType indexType : TypeId)
  | conditional (checkType extendsType : TypeId) (trueType falseType : Option TypeId)
  | substitution (baseType constraint : TypeId)
  | templateLiteral (texts : List String) (types : List TypeId)
  | stringMapping (target : TypeId)
  deriving DecidableEq, Inhabited, Repr

/-- A type. -/
structure TypeRecord where
  flags : TypeFlags
  objectFlags : ObjectFlags := Flags.empty
  symbol : Option SymbolId := none
  aliasSymbol : Option SymbolId := none
  aliasTypeArguments : List TypeId := []
  data : TypeData
  deriving DecidableEq, Inhabited, Repr

namespace TypeRecord

/-- The object type, if the type is one. -/
def object? (record : TypeRecord) : Option ObjectType :=
  match record.data with
  | .object object => some object
  | _ => none

/-- The keyword of an intrinsic type. -/
def intrinsicName? (record : TypeRecord) : Option String :=
  match record.data with
  | .intrinsic name => some name
  | _ => none

end TypeRecord

/-- A symbol. -/
structure SymbolRecord where
  name : String
  flags : SymbolFlags
  checkFlags : CheckFlags := Flags.empty
  declarations : List Declaration := []
  /-- Which of the declarations is the value declaration. -/
  valueDeclaration : Option UInt64 := none
  parent : Option SymbolId := none
  /-- The type of the symbol as a value. -/
  valueType : Option TypeId := none
  /-- The type the symbol declares. -/
  declaredType : Option TypeId := none
  typeParameters : List TypeId := []
  deriving DecidableEq, Inhabited, Repr

/-- The value declaration, or else the first one. -/
def SymbolRecord.primaryDeclaration? (symbol : SymbolRecord) : Option Declaration :=
  (symbol.valueDeclaration.bind fun n => symbol.declarations[n.toNat]?).or
    symbol.declarations.head?

/-- Types and symbols that refer to each other, and the two array interfaces among the types. -/
structure TypeGraph where
  types : Array TypeRecord
  symbols : Array SymbolRecord
  globalArray : TypeId
  globalReadonlyArray : TypeId
  deriving DecidableEq, Inhabited, Repr

end TypeAtlas
