import TypeAtlas.Graph.Query
/-!
# Building type graphs

Graphs grow: records are added at the end and keep their handles. `TypeGraph.initial` holds the
intrinsic types at fixed places and the two array interfaces after them; the builders below add one
type or symbol each, with whatever helper records belong to it.
-/

namespace TypeAtlas

/-- A change to a graph with an answer. -/
abbrev Build := StateM TypeGraph

namespace Build

/-! ## Records -/

/-- Adds a type at the end. -/
def addType (record : TypeRecord) : Build TypeId := fun g =>
  (.ofIndex g.types.size, { g with types := g.types.push record })

/-- Adds a symbol at the end. -/
def addSymbol (record : SymbolRecord) : Build SymbolId := fun g =>
  (.ofIndex g.symbols.size, { g with symbols := g.symbols.push record })

/-- Changes a type, if there is one at the handle. -/
def modifyType (id : TypeId) (f : TypeRecord → TypeRecord) : Build Unit := fun g =>
  match g.type? id with
  | some record => ((), { g with types := g.types.setIfInBounds id.index (f record) })
  | none => ((), g)

/-- Changes a symbol, if there is one at the handle. -/
def modifySymbol (id : SymbolId) (f : SymbolRecord → SymbolRecord) : Build Unit := fun g =>
  match g.symbol? id with
  | some record => ((), { g with symbols := g.symbols.setIfInBounds id.index (f record) })
  | none => ((), g)

/-- Changes an object type, if there is one at the handle. -/
def modifyObject (id : TypeId) (f : ObjectType → ObjectType) : Build Unit :=
  modifyType id fun record =>
    match record.data with
    | .object object => { record with data := .object (f object) }
    | _ => record

/-! ## Symbols -/

/-- A symbol with a name and flags only. -/
def createSymbol (name : String) (flags : SymbolFlags) : Build SymbolId :=
  addSymbol { name, flags }

/-- Adds a declaration. The first one that can be the value declaration becomes it. -/
def declare (symbol : SymbolId) (declaration : Declaration) : Build Unit :=
  modifySymbol symbol fun record =>
    { record with
      declarations := record.declarations ++ [declaration]
      valueDeclaration :=
        if declaration.kind.isValue && record.valueDeclaration.isNone then
          some (UInt64.ofNat record.declarations.length)
        else record.valueDeclaration }

/-- Sets the type of a symbol as a value. -/
def setSymbolType (symbol : SymbolId) (type : TypeId) : Build Unit :=
  modifySymbol symbol fun record => { record with valueType := some type }

/-- Sets the type that a symbol declares. -/
def setDeclaredType (symbol : SymbolId) (type : TypeId) : Build Unit :=
  modifySymbol symbol fun record => { record with declaredType := some type }

/-- A variable declared at a location. -/
def variableAt (name : String) (type : TypeId) (location : Location) : Build SymbolId := do
  let symbol ← createSymbol name SymbolFlags.blockScopedVariable
  declare symbol { kind := .variable, location, typeAtLocation := some type }
  setSymbolType symbol type
  return symbol

/-- A property. -/
def property (name : String) (type : TypeId) : Build SymbolId := do
  let symbol ← createSymbol name SymbolFlags.property
  setSymbolType symbol type
  return symbol

/-- A property that may be missing. -/
def optionalProperty (name : String) (type : TypeId) : Build SymbolId := do
  let symbol ← createSymbol name (SymbolFlags.property ||| SymbolFlags.optional)
  setSymbolType symbol type
  return symbol

/-- A property that is not assigned to. -/
def readonlyProperty (name : String) (type : TypeId) : Build SymbolId := do
  let symbol ← property name type
  modifySymbol symbol fun record =>
    { record with checkFlags := record.checkFlags ||| CheckFlags.readonly }
  return symbol

/-- A parameter of a function. -/
def parameter (name : String) (type : TypeId) : Build SymbolId := do
  let symbol ← createSymbol name SymbolFlags.functionScopedVariable
  setSymbolType symbol type
  return symbol

/-! ## Literal types -/

/-- A string literal type. -/
def literalString (value : String) : Build TypeId :=
  addType { flags := TypeFlags.stringLiteral, data := .literal (.string value) }

/-- A number literal type. -/
def literalNumber (value : Double) : Build TypeId :=
  addType { flags := TypeFlags.numberLiteral, data := .literal (.number value) }

/-- A big integer literal type. -/
def literalBigInt (value : BigInt) : Build TypeId :=
  addType { flags := TypeFlags.bigIntLiteral, data := .literal (.bigInt value) }

/-- The type of one symbol value. -/
def uniqueSymbol (symbol : SymbolId) : Build TypeId :=
  addType
    { flags := TypeFlags.uniqueEsSymbol, symbol := some symbol, data := .intrinsic "unique symbol" }

/-! ## Object types -/

/-- An object type without members. -/
def newObjectType (objectFlags : ObjectFlags) (symbol : Option SymbolId) : Build TypeId :=
  addType { flags := TypeFlags.object, objectFlags, symbol, data := .object {} }

/-- Replaces the members of an object type. -/
def setObjectMembers (id : TypeId) (members : ObjectMembers) : Build Unit :=
  modifyObject id fun object => { object with toObjectMembers := members }

/-- An anonymous object type. -/
def object (properties : List SymbolId) : Build TypeId := do
  let symbol ← createSymbol "__object" SymbolFlags.objectLiteral
  let id ← newObjectType (ObjectFlags.anonymous ||| ObjectFlags.objectLiteral) (some symbol)
  setObjectMembers id { properties }
  return id

/-- An anonymous object type with an index signature. -/
def objectWithIndex (properties : List SymbolId) (keyType valueType : TypeId) :
    Build TypeId := do
  let id ← object properties
  let parameter ← parameter "key" keyType
  modifyObject id fun object =>
    { object with
      indexInfos := object.indexInfos ++ [{ keyType, valueType, parameter := some parameter }] }
  return id

/-- A reference to a generic type. -/
def instantiate (target : TypeId) (typeArguments : List TypeId) : Build TypeId := do
  let g ← get
  addType
    { flags := TypeFlags.object
      objectFlags := ObjectFlags.reference
      symbol := (g.type? target).bind (·.symbol)
      data := .object { target := some target, typeArguments } }

/-- An array type. -/
def arrayOf (element : TypeId) : Build TypeId := do
  instantiate (← get).globalArray [element]

/-- A read-only array type. -/
def readonlyArrayOf (element : TypeId) : Build TypeId := do
  instantiate (← get).globalReadonlyArray [element]

/-- A tuple type. -/
def tuple (elements : List TypeId) (shape : TupleShape) : Build TypeId :=
  addType
    { flags := TypeFlags.object
      objectFlags := ObjectFlags.reference ||| ObjectFlags.tuple
      data := .object { typeArguments := elements, tuple := some shape } }

/-- A signature; arguments are needed up to the first optional or rest parameter. -/
def signature (parameters : List SymbolId) (returnType : TypeId) : Build Signature := do
  let g ← get
  let needed := parameters.takeWhile fun parameter =>
    !g.isOptionalParameter parameter && !g.isRestParameter parameter
  return { parameters, returnType, minArgumentCount := UInt32.ofNat needed.length }

/-- An anonymous function type with given signatures. -/
def functionWithSignatures (callSignatures : List Signature) : Build TypeId := do
  let symbol ← createSymbol "__function" SymbolFlags.function
  let id ← newObjectType ObjectFlags.anonymous (some symbol)
  setSymbolType symbol id
  setObjectMembers id { callSignatures }
  return id

/-- An anonymous function type. -/
def function (parameters : List SymbolId) (returnType : TypeId) : Build TypeId := do
  let signature ← signature parameters returnType
  functionWithSignatures [signature]

/-- A function declared under a name. -/
def functionDeclaration (name : String) (parameters : List SymbolId) (returnType : TypeId)
    (location : Location) : Build SymbolId := do
  let symbol ← createSymbol name SymbolFlags.function
  let signature ← signature parameters returnType
  let type ← newObjectType ObjectFlags.anonymous (some symbol)
  setObjectMembers type { callSignatures := [{ signature with symbol := some symbol }] }
  declare symbol { kind := .function, location, typeAtLocation := some type }
  setSymbolType symbol type
  return symbol

/-! ## Declared types -/

/-- A type parameter. -/
def typeParameter (name : String) (constraint default : Option TypeId) : Build TypeId := do
  let symbol ← createSymbol name SymbolFlags.typeParameter
  let id ← addType
    { flags := TypeFlags.typeParameter
      symbol := some symbol
      data := .typeParameter constraint default }
  setDeclaredType symbol id
  return id

/-- An interface. -/
def interface (name : String) (properties : List SymbolId) (baseTypes : List TypeId) :
    Build TypeId := do
  let symbol ← createSymbol name SymbolFlags.interface
  let id ← newObjectType ObjectFlags.interface (some symbol)
  setObjectMembers id { properties }
  modifyObject id fun object => { object with baseTypes }
  setDeclaredType symbol id
  return id

/-- A class. The answer is the type of its instances; the type of the class symbol as a value is the
constructor side, an anonymous object with a construct signature that returns an instance. -/
def class' (name : String) (properties constructorParameters : List SymbolId)
    (baseType : Option TypeId) (implementsTypes : List TypeId) : Build TypeId := do
  let symbol ← createSymbol name SymbolFlags.class'
  let instanceType ← newObjectType ObjectFlags.class' (some symbol)
  setObjectMembers instanceType { properties }
  modifyObject instanceType fun object =>
    { object with baseTypes := baseType.toList, implementsTypes }
  let construct ← signature constructorParameters instanceType
  let constructorType ← newObjectType ObjectFlags.anonymous (some symbol)
  setObjectMembers constructorType
    { constructSignatures := [{ construct with symbol := some symbol }] }
  setDeclaredType symbol instanceType
  setSymbolType symbol constructorType
  return instanceType

/-- One member of an enum, with its own symbol. -/
def enumMember (enumSymbol : SymbolId) (name : String) (value : EnumValue) : Build TypeId := do
  let symbol ← createSymbol name SymbolFlags.enumMember
  modifySymbol symbol fun record => { record with parent := some enumSymbol }
  let (flag, literal) := match value with
    | .number value => (TypeFlags.numberLiteral, Literal.number value)
    | .string value => (TypeFlags.stringLiteral, Literal.string value)
  let type ← addType
    { flags := TypeFlags.enumLiteral ||| flag, symbol := some symbol, data := .literal literal }
  setSymbolType symbol type
  setDeclaredType symbol type
  return type

/-- An enum: a union of its members. -/
def enum (name : String) (members : List (String × EnumValue)) : Build TypeId := do
  let symbol ← createSymbol name SymbolFlags.regularEnum
  let types ← members.mapM fun (name, value) => enumMember symbol name value
  let id ← addType
    { flags := TypeFlags.enum ||| TypeFlags.union, symbol := some symbol, data := .union types }
  setDeclaredType symbol id
  return id

/-- Names a type by an alias. The answer is the type itself. -/
def typeAlias (name : String) (type : TypeId) (typeParameters : List TypeId) :
    Build TypeId := do
  let symbol ← createSymbol name SymbolFlags.typeAlias
  modifySymbol symbol fun record => { record with declaredType := some type, typeParameters }
  modifyType type fun record => { record with aliasSymbol := some symbol }
  return type

/-! ## Types made of types -/

/-- The members of a list, each at its first place only. -/
def distinct (types : List TypeId) : List TypeId :=
  types.foldl (fun found type => if found.contains type then found else found ++ [type]) []

/-- A union of distinct types; the union of one type is that type. -/
def union (types : List TypeId) : Build TypeId :=
  match distinct types with
  | [single] => pure single
  | members => addType { flags := TypeFlags.union, data := .union members }

/-- An intersection of distinct types; the intersection of one type is that type. -/
def intersection (types : List TypeId) : Build TypeId :=
  match distinct types with
  | [single] => pure single
  | members => addType { flags := TypeFlags.intersection, data := .intersection members }

/-- The type of the keys of a type. -/
def keyof (target : TypeId) : Build TypeId :=
  addType { flags := TypeFlags.index, data := .index target }

/-- The type of a property given by a type. -/
def indexedAccess (objectType indexType : TypeId) : Build TypeId :=
  addType { flags := TypeFlags.indexedAccess, data := .indexedAccess objectType indexType }

/-- A conditional type. -/
def conditional (checkType extendsType : TypeId) (trueType falseType : Option TypeId) :
    Build TypeId :=
  addType
    { flags := TypeFlags.conditional
      data := .conditional checkType extendsType trueType falseType }

/-- A type under an additional constraint. -/
def substitution (baseType constraint : TypeId) : Build TypeId :=
  addType { flags := TypeFlags.substitution, data := .substitution baseType constraint }

/-- A template literal type; there is one text more than there are types. -/
def templateLiteral (texts : List String) (types : List TypeId) : Build TypeId :=
  addType { flags := TypeFlags.templateLiteral, data := .templateLiteral texts types }

/-- An intrinsic operator on string types, such as `Uppercase`. -/
def stringMapping (name : String) (target : TypeId) : Build TypeId := do
  let symbol ← createSymbol name SymbolFlags.typeAlias
  addType
    { flags := TypeFlags.stringMapping, symbol := some symbol, data := .stringMapping target }

/-! ## Synthesis -/

/-- A property that no source declares; it may carry the declarations it was made from. -/
def newPropertySymbol (name : String) (flags : SymbolFlags) (checkFlags : CheckFlags)
    (type : TypeId) (declarations : List Declaration) : Build SymbolId :=
  addSymbol
    { name
      flags := flags ||| (SymbolFlags.property ||| SymbolFlags.transient)
      checkFlags
      declarations
      valueDeclaration := if declarations.isEmpty then none else some 0
      valueType := some type }

/-- A copy of a type without its alias; a type without one is its own copy. -/
def cloneWithoutAlias (id : TypeId) : Build TypeId := do
  match (← get).type? id with
  | some record =>
    if record.aliasSymbol.isNone then return id
    else addType { record with aliasSymbol := none, aliasTypeArguments := [] }
  | none => return id

/-! ## The initial graph -/

/-- An interface with one type parameter and a length, as the array interfaces are. -/
def arrayInterface (name : String) : Build TypeId := do
  let element ← typeParameter "T" none none
  let symbol ← createSymbol name SymbolFlags.interface
  let length ← property "length" .number
  let target ← addType
    { flags := TypeFlags.object
      objectFlags := ObjectFlags.interface ||| ObjectFlags.reference
      symbol := some symbol
      data := .object { properties := [length], typeParameters := [element] } }
  modifySymbol symbol fun record =>
    { record with declaredType := some target, typeParameters := [element] }
  return target

end Build

namespace TypeGraph

/-- The types that every graph starts with, in the order of their handles. -/
def intrinsicTypes : List TypeRecord :=
  let keyword (flags : TypeFlags) (name : String) : TypeRecord := { flags, data := .intrinsic name }
  [keyword TypeFlags.any "any", keyword TypeFlags.unknown "unknown",
    keyword TypeFlags.any "error", keyword TypeFlags.string "string",
    keyword TypeFlags.number "number", keyword TypeFlags.bigInt "bigint",
    keyword TypeFlags.esSymbol "symbol", keyword TypeFlags.void "void",
    keyword TypeFlags.undefined "undefined", keyword TypeFlags.null "null",
    keyword TypeFlags.never "never", keyword TypeFlags.nonPrimitive "object",
    { flags := TypeFlags.booleanLiteral, data := .literal (.boolean false) },
    { flags := TypeFlags.booleanLiteral, data := .literal (.boolean true) },
    { flags := TypeFlags.boolean ||| TypeFlags.union
      data := .union [.falseLiteral, .trueLiteral] },
    keyword TypeFlags.any "intrinsic"]

/-- The graph of a program without declarations. -/
def initial : TypeGraph :=
  let bare : TypeGraph :=
    { types := intrinsicTypes.toArray, symbols := #[], globalArray := .any,
      globalReadonlyArray := .any }
  let (globalArray, g) := Build.arrayInterface "Array" bare
  let (globalReadonlyArray, g) := Build.arrayInterface "ReadonlyArray" g
  { g with globalArray, globalReadonlyArray }

end TypeGraph

end TypeAtlas
