import TypeAtlas.Tree.Fold
/-!
# Type trees as JSON

A node is one object: its id, its kind under `kind`, the members of that kind, and what all nodes
have in common. `Layer.toJson` writes a node whose children are written already, and
`Layer.ofJson?` reads a node and leaves its children unread, so both say what one node looks like;
`TypeTree.toJson` and `TypeTree.ofJson?` apply them to all nodes of a tree.
-/

namespace TypeAtlas

namespace SymbolMeta

def toJson (s : SymbolMeta) : Json :=
  .obj (Json.field "name" (.str s.name) ++ Json.field "flags" s.flags.toJson ++
    Json.fieldIfTrue "optional" s.optional ++ Json.fieldIfTrue "anonymous" s.anonymous ++
    Json.fieldIfTrue "rest" s.rest ++ Json.fieldIfTrue "readonly" s.readonly ++
    Json.fieldIfTrue "insideClassOrInterface" s.insideClassOrInterface ++
    Json.fieldIfNonempty "declarations" (fun l => .obj [("location", Location.toJson l)])
      s.declarations)

/-- A declaration of which only the location is read. -/
def declarationOfJson? (json : Json) : Option Location := do
  (← json.members?).required? "location" Location.ofJson?

def ofJson? (json : Json) : Option SymbolMeta := do
  let members ← json.members?
  let name ← members.required? "name" Json.string?
  let flags ← members.required? "flags" Flags.ofJson?
  let optional ← members.orDefault? "optional" Json.boolean? false
  let anonymous ← members.orDefault? "anonymous" Json.boolean? false
  let rest ← members.orDefault? "rest" Json.boolean? false
  let readonly ← members.orDefault? "readonly" Json.boolean? false
  let insideClassOrInterface ← members.orDefault? "insideClassOrInterface" Json.boolean? false
  let declarations ← members.orDefault? "declarations" (Json.list? declarationOfJson?) []
  some ⟨name, flags, optional, anonymous, rest, readonly, insideClassOrInterface, declarations⟩

end SymbolMeta

namespace Primitive

/-- The names of the primitive types in documents. -/
def names : List (String × Primitive) :=
  [("any", any), ("unknown", unknown), ("undefined", undefined), ("null", null),
    ("boolean", boolean), ("string", string), ("number", number), ("void", void),
    ("bigint", bigint), ("essymbol", esSymbol), ("unique_symbol", uniqueSymbol), ("never", never)]

/-- The name in documents. -/
def name : Primitive → String
  | any => "any"
  | unknown => "unknown"
  | undefined => "undefined"
  | null => "null"
  | boolean => "boolean"
  | string => "string"
  | number => "number"
  | void => "void"
  | bigint => "bigint"
  | esSymbol => "essymbol"
  | uniqueSymbol => "unique_symbol"
  | never => "never"

/-- The words a user would write for the type. -/
def keyword : Primitive → String
  | esSymbol => "symbol"
  | uniqueSymbol => "unique symbol"
  | p => p.name

end Primitive

namespace NodeKind

/-- The name of a kind in documents. -/
def name : NodeKind → String
  | primitive => "primitive"
  | intrinsic => "intrinsic"
  | stringLiteral => "string_literal"
  | numberLiteral => "number_literal"
  | bigintLiteral => "bigint_literal"
  | booleanLiteral => "boolean_literal"
  | enumLiteral => "enum_literal"
  | enum => "enum"
  | object => "object"
  | class' => "class"
  | interface => "interface"
  | function => "function"
  | array => "array"
  | tuple => "tuple"
  | union => "union"
  | intersection => "intersection"
  | index => "index"
  | indexedAccess => "indexed_access"
  | conditional => "conditional"
  | substitution => "substitution"
  | stringMapping => "string_mapping"
  | templateLiteral => "template_literal"
  | typeParameter => "type_parameter"
  | nonPrimitive => "non_primitive"
  | reference => "reference"
  | maxDepth => "max_depth"

/-- All kinds, in the order of their definition. -/
def all : List NodeKind :=
  [primitive, intrinsic, stringLiteral, numberLiteral, bigintLiteral, booleanLiteral, enumLiteral,
    enum, object, class', interface, function, array, tuple, union, intersection, index,
    indexedAccess, conditional, substitution, stringMapping, templateLiteral, typeParameter,
    nonPrimitive, reference, maxDepth]

def toJson (kind : NodeKind) : Json :=
  .str kind.name

def ofJson? (json : Json) : Option NodeKind :=
  json.name? (all.map fun kind => (kind.name, kind))

/-- The kind of a node of a tree, given by its name or by its place among the kinds. -/
def ofTag? : Json → Option NodeKind
  | .str s => (all.map fun kind => (kind.name, kind)).lookup s
  | .int n => if 0 ≤ n then all[n.toNat]? else none
  | _ => none

end NodeKind

/-- A child as it is written. -/
def unread : Json → Option Json := some

namespace SignatureLayer

def toJson (s : SignatureLayer Json) : Json :=
  .obj (Json.fieldIfSome "symbolMeta" SymbolMeta.toJson s.symbolMeta ++
    Json.field "parameters" (.arr s.parameters) ++ Json.fieldIfSome "returnType" id s.returnType ++
    Json.fieldIfSome "typeParameters" Json.arr s.typeParameters)

def ofJson? (json : Json) : Option (SignatureLayer Json) := do
  let members ← json.members?
  let symbolMeta ← members.optional? "symbolMeta" SymbolMeta.ofJson?
  let parameters ← members.required? "parameters" (Json.list? unread)
  let returnType ← members.optional? "returnType" unread
  let typeParameters ← members.optional? "typeParameters" (Json.list? unread)
  some ⟨symbolMeta, parameters, returnType, typeParameters⟩

end SignatureLayer

namespace IndexLayer

def toJson (i : IndexLayer Json) : Json :=
  .obj (Json.fieldIfSome "keyType" id i.keyType ++ Json.fieldIfSome "type" id i.valueType ++
    Json.fieldIfSome "parameterSymbol" SymbolMeta.toJson i.parameterSymbol ++
    Json.fieldIfTrue "readonly" i.readonly)

def ofJson? (json : Json) : Option (IndexLayer Json) := do
  let members ← json.members?
  let keyType ← members.optional? "keyType" unread
  let valueType ← members.optional? "type" unread
  let parameterSymbol ← members.optional? "parameterSymbol" SymbolMeta.ofJson?
  let readonly ← members.orDefault? "readonly" Json.boolean? false
  some ⟨keyType, valueType, parameterSymbol, readonly⟩

end IndexLayer

namespace ClassLayer

def toMembers (c : ClassLayer Json) : Members :=
  Json.fieldIfSome "classSymbol" SymbolMeta.toJson c.classSymbol ++
    Json.field "properties" (.arr c.properties) ++
    Json.fieldIfNonempty "indexInfos" IndexLayer.toJson c.indexInfos ++
    Json.fieldIfSome "baseType" id c.baseType ++
    Json.fieldIfNonempty "implementsTypes" id c.implementsTypes ++
    Json.fieldIfNonempty "constructSignatures" SignatureLayer.toJson c.constructSignatures

def ofMembers? (members : Members) : Option (ClassLayer Json) := do
  let classSymbol ← members.optional? "classSymbol" SymbolMeta.ofJson?
  let properties ← members.required? "properties" (Json.list? unread)
  let indexInfos ← members.orDefault? "indexInfos" (Json.list? IndexLayer.ofJson?) []
  let baseType ← members.optional? "baseType" unread
  let implementsTypes ← members.orDefault? "implementsTypes" (Json.list? unread) []
  let constructSignatures ←
    members.orDefault? "constructSignatures" (Json.list? SignatureLayer.ofJson?) []
  some ⟨classSymbol, properties, indexInfos, baseType, implementsTypes, constructSignatures⟩

end ClassLayer

namespace Shape

/-- The members that belong to the kind of the node, without the kind. -/
def toMembers : Shape Json → Members
  | primitive p => Json.field "primitive" (.str p.name)
  | intrinsic name => Json.field "name" (.str name)
  | stringLiteral value => Json.field "value" (.str value)
  | numberLiteral value => Json.field "value" (.ofDouble value)
  | bigintLiteral value => Json.field "value" value.toJson
  | booleanLiteral value => Json.field "value" (.bool value)
  | enumLiteral value literalSymbol parentSymbol =>
    Json.field "value" value.toJson ++
      Json.fieldIfSome "literalSymbol" SymbolMeta.toJson literalSymbol ++
      Json.fieldIfSome "parentSymbol" SymbolMeta.toJson parentSymbol
  | enum enumSymbol members =>
    Json.fieldIfSome "enumSymbol" SymbolMeta.toJson enumSymbol ++
      Json.field "members" (.arr members)
  | object properties indexInfos objectClass =>
    Json.field "properties" (.arr properties) ++
      Json.fieldIfNonempty "indexInfos" IndexLayer.toJson indexInfos ++
      Json.fieldIfSome "objectClass" id objectClass
  | class' members => members.toMembers
  | interface members => members.toMembers
  | function signatures => Json.field "signatures" (Json.ofList SignatureLayer.toJson signatures)
  | array element readonly =>
    Json.field "type" element ++ Json.fieldIfTrue "readonly" readonly
  | tuple types names readonly minLength =>
    Json.field "types" (.arr types) ++ Json.fieldIfSome "names" (Json.ofList Json.str) names ++
      Json.fieldIfTrue "readonly" readonly ++
      Json.fieldIfSome "minLength" (fun n : UInt64 => .ofNat n.toNat) minLength
  | union types => Json.field "types" (.arr types)
  | intersection types properties indexInfos =>
    Json.field "types" (.arr types) ++ Json.field "properties" (.arr properties) ++
      Json.fieldIfNonempty "indexInfos" IndexLayer.toJson indexInfos
  | index keyOf => Json.field "keyOf" keyOf
  | indexedAccess objectType indexType =>
    Json.field "objectType" objectType ++ Json.field "indexType" indexType
  | conditional checkType extendsType trueType falseType =>
    Json.field "checkType" checkType ++ Json.field "extendsType" extendsType ++
      Json.fieldIfSome "trueType" id trueType ++ Json.fieldIfSome "falseType" id falseType
  | substitution baseType substitute =>
    Json.field "baseType" baseType ++ Json.field "substitute" substitute
  | stringMapping typeSymbol mapped =>
    Json.fieldIfSome "typeSymbol" SymbolMeta.toJson typeSymbol ++ Json.field "type" mapped
  | templateLiteral texts types =>
    Json.field "texts" (Json.ofList Json.str texts) ++ Json.field "types" (.arr types)
  | typeParameter typeSymbol baseConstraint defaultType =>
    Json.fieldIfSome "typeSymbol" SymbolMeta.toJson typeSymbol ++
      Json.fieldIfSome "baseConstraint" id baseConstraint ++
      Json.fieldIfSome "defaultType" id defaultType
  | nonPrimitive => []
  | reference location => Json.fieldIfSome "location" Location.toJson location
  | maxDepth => []

/-- The members of a node of a given kind. -/
def ofMembers? (kind : NodeKind) (members : Members) : Option (Shape Json) :=
  match kind with
  | .primitive => do
    some (primitive (← members.required? "primitive" (Json.innerName? Primitive.names)))
  | .intrinsic => do some (intrinsic (← members.required? "name" Json.string?))
  | .stringLiteral => do some (stringLiteral (← members.required? "value" Json.string?))
  | .numberLiteral => do some (numberLiteral (← members.required? "value" Json.double?))
  | .bigintLiteral => do some (bigintLiteral (← members.required? "value" BigInt.ofJson?))
  | .booleanLiteral => do some (booleanLiteral (← members.required? "value" Json.boolean?))
  | .enumLiteral => do
    let value ← members.required? "value" EnumValue.ofJson?
    let literalSymbol ← members.optional? "literalSymbol" SymbolMeta.ofJson?
    let parentSymbol ← members.optional? "parentSymbol" SymbolMeta.ofJson?
    some (enumLiteral value literalSymbol parentSymbol)
  | .enum => do
    let enumSymbol ← members.optional? "enumSymbol" SymbolMeta.ofJson?
    some (enum enumSymbol (← members.required? "members" (Json.list? unread)))
  | .object => do
    let properties ← members.required? "properties" (Json.list? unread)
    let indexInfos ← members.orDefault? "indexInfos" (Json.list? IndexLayer.ofJson?) []
    some (object properties indexInfos (← members.optional? "objectClass" unread))
  | .class' => do some (class' (← ClassLayer.ofMembers? members))
  | .interface => do some (interface (← ClassLayer.ofMembers? members))
  | .function => do
    some (function (← members.required? "signatures" (Json.list? SignatureLayer.ofJson?)))
  | .array => do
    let element ← members.required? "type" unread
    some (array element (← members.orDefault? "readonly" Json.boolean? false))
  | .tuple => do
    let types ← members.required? "types" (Json.list? unread)
    let names ← members.optional? "names" (Json.list? Json.string?)
    let readonly ← members.orDefault? "readonly" Json.boolean? false
    some (tuple types names readonly (← members.optional? "minLength" Json.uint64?))
  | .union => do some (union (← members.required? "types" (Json.list? unread)))
  | .intersection => do
    let types ← members.required? "types" (Json.list? unread)
    let properties ← members.required? "properties" (Json.list? unread)
    let indexInfos ← members.orDefault? "indexInfos" (Json.list? IndexLayer.ofJson?) []
    some (intersection types properties indexInfos)
  | .index => do some (index (← members.required? "keyOf" unread))
  | .indexedAccess => do
    let objectType ← members.required? "objectType" unread
    some (indexedAccess objectType (← members.required? "indexType" unread))
  | .conditional => do
    let checkType ← members.required? "checkType" unread
    let extendsType ← members.required? "extendsType" unread
    let trueType ← members.optional? "trueType" unread
    some (conditional checkType extendsType trueType (← members.optional? "falseType" unread))
  | .substitution => do
    let baseType ← members.required? "baseType" unread
    some (substitution baseType (← members.required? "substitute" unread))
  | .stringMapping => do
    let typeSymbol ← members.optional? "typeSymbol" SymbolMeta.ofJson?
    some (stringMapping typeSymbol (← members.required? "type" unread))
  | .templateLiteral => do
    let texts ← members.required? "texts" (Json.list? Json.string?)
    some (templateLiteral texts (← members.required? "types" (Json.list? unread)))
  | .typeParameter => do
    let typeSymbol ← members.optional? "typeSymbol" SymbolMeta.ofJson?
    let baseConstraint ← members.optional? "baseConstraint" unread
    some (typeParameter typeSymbol baseConstraint (← members.optional? "defaultType" unread))
  | .nonPrimitive => some nonPrimitive
  | .reference => do some (reference (← members.optional? "location" Location.ofJson?))
  | .maxDepth => some maxDepth

end Shape

namespace Layer

def toJson (l : Layer Json) : Json :=
  .obj (Json.field "id" l.id.toJson ++ Json.field "kind" l.shape.kind.toJson ++
    l.shape.toMembers ++ Json.fieldIfSome "symbolMeta" SymbolMeta.toJson l.symbolMeta ++
    Json.fieldIfSome "aliasSymbolMeta" SymbolMeta.toJson l.aliasSymbolMeta ++
    Json.fieldIfSome "typeArguments" Json.arr l.typeArguments ++
    Json.fieldIfSome "typeParameters" Json.arr l.typeParameters)

def ofJson? (json : Json) : Option (Layer Json) := do
  let members ← json.members?
  let typeId ← members.required? "id" TypeId.ofJson?
  let symbolMeta ← members.optional? "symbolMeta" SymbolMeta.ofJson?
  let aliasSymbolMeta ← members.optional? "aliasSymbolMeta" SymbolMeta.ofJson?
  let typeArguments ← members.optional? "typeArguments" (Json.list? unread)
  let typeParameters ← members.optional? "typeParameters" (Json.list? unread)
  let kind ← members.required? "kind" NodeKind.ofTag?
  let shape ← Shape.ofMembers? kind members
  some ⟨typeId, shape, symbolMeta, aliasSymbolMeta, typeArguments, typeParameters⟩

end Layer

namespace Json

mutual

/-- How many arrays and objects are nested in each other, the value itself counted. -/
def depth : Json → Nat
  | .arr items => depthItems items + 1
  | .obj members => depthMembers members + 1
  | _ => 1

/-- The greatest depth of the elements of an array. -/
def depthItems : List Json → Nat
  | [] => 0
  | item :: rest => max (depth item) (depthItems rest)

/-- The greatest depth of the members of an object. -/
def depthMembers : Members → Nat
  | [] => 0
  | (_, value) :: rest => max (depth value) (depthMembers rest)

end

end Json

namespace TypeTree

def toJson : TypeTree → Json :=
  fold Layer.toJson

/-- A tree with at most the given number of levels. -/
def ofJsonWithin? : Nat → Json → Option TypeTree
  | 0, _ => none
  | levels + 1, json => do
    let layer ← Layer.ofJson? json
    some (node (← layer.traverse? (ofJsonWithin? levels)))

def ofJson? (json : Json) : Option TypeTree :=
  ofJsonWithin? json.depth json

end TypeTree

/-- A shape by itself, as an object with the name of its kind. -/
def Shape.ofJson? (json : Json) : Option (Shape TypeTree) := do
  let members ← json.members?
  let kind ← members.required? "kind" fun tag => tag.string?.bind fun _ => NodeKind.ofTag? tag
  (← Shape.ofMembers? kind members).traverse? TypeTree.ofJson?

end TypeAtlas
