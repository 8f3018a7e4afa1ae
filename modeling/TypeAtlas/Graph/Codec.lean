import TypeAtlas.Flags.Text
import TypeAtlas.Graph.Basic
/-!
# Type graphs as JSON

How each record is written and read. A list that is usually empty is left out when it is, and so is
a handle that is not there, except among the members of an object type, which are always written.
-/

namespace TypeAtlas

namespace DeclarationKind

/-- The name in documents. -/
def name : DeclarationKind → String
  | .variable => "variable"
  | parameter => "parameter"
  | property => "property"
  | propertySignature => "property_signature"
  | method => "method"
  | function => "function"
  | class' => "class"
  | interface => "interface"
  | typeAlias => "type_alias"
  | enum => "enum"
  | enumMember => "enum_member"
  | typeParameter => "type_parameter"
  | other => "other"

/-- All sorts, in the order of their definition. -/
def all : List DeclarationKind :=
  [.variable, parameter, property, propertySignature, method, function, class', interface,
    typeAlias, enum, enumMember, typeParameter, other]

def toJson (kind : DeclarationKind) : Json :=
  .str kind.name

def ofJson? (json : Json) : Option DeclarationKind :=
  json.name? (all.map fun kind => (kind.name, kind))

end DeclarationKind

namespace Declaration

def toJson (d : Declaration) : Json :=
  .obj (Json.field "kind" d.kind.toJson ++ Json.field "location" d.location.toJson ++
    Json.field "questionToken" (.bool d.questionToken) ++
    Json.field "dotDotDotToken" (.bool d.dotDotDotToken) ++
    Json.field "hasInitializer" (.bool d.hasInitializer) ++
    Json.fieldIfSome "typeAtLocation" TypeId.toJson d.typeAtLocation)

def ofJson? (json : Json) : Option Declaration := do
  let members ← json.members?
  let kind ← members.required? "kind" DeclarationKind.ofJson?
  let location ← members.required? "location" Location.ofJson?
  let questionToken ← members.orDefault? "questionToken" Json.boolean? false
  let dotDotDotToken ← members.orDefault? "dotDotDotToken" Json.boolean? false
  let hasInitializer ← members.orDefault? "hasInitializer" Json.boolean? false
  let typeAtLocation ← members.optional? "typeAtLocation" TypeId.ofJson?
  some ⟨kind, location, questionToken, dotDotDotToken, hasInitializer, typeAtLocation⟩

end Declaration

namespace Signature

def toJson (s : Signature) : Json :=
  .obj (Json.fieldIfSome "symbol" SymbolId.toJson s.symbol ++
    Json.fieldIfNonempty "typeParameters" TypeId.toJson s.typeParameters ++
    Json.field "parameters" (Json.ofList SymbolId.toJson s.parameters) ++
    Json.field "returnType" s.returnType.toJson ++
    Json.field "minArgumentCount" (.ofNat s.minArgumentCount.toNat))

def ofJson? (json : Json) : Option Signature := do
  let members ← json.members?
  let symbol ← members.optional? "symbol" SymbolId.ofJson?
  let typeParameters ← members.orDefault? "typeParameters" (Json.list? TypeId.ofJson?) []
  let parameters ← members.required? "parameters" (Json.list? SymbolId.ofJson?)
  let returnType ← members.required? "returnType" TypeId.ofJson?
  let minArgumentCount ← members.orDefault? "minArgumentCount" Json.uint32? 0
  some ⟨symbol, typeParameters, parameters, returnType, minArgumentCount⟩

end Signature

namespace IndexInfo

def toJson (i : IndexInfo) : Json :=
  .obj (Json.field "keyType" i.keyType.toJson ++ Json.field "type" i.valueType.toJson ++
    Json.field "isReadonly" (.bool i.isReadonly) ++
    Json.fieldIfSome "parameter" SymbolId.toJson i.parameter)

def ofJson? (json : Json) : Option IndexInfo := do
  let members ← json.members?
  let keyType ← members.required? "keyType" TypeId.ofJson?
  let valueType ← members.required? "type" TypeId.ofJson?
  let isReadonly ← members.orDefault? "isReadonly" Json.boolean? false
  let parameter ← members.optional? "parameter" SymbolId.ofJson?
  some ⟨keyType, valueType, isReadonly, parameter⟩

end IndexInfo

namespace TupleShape

def toJson (t : TupleShape) : Json :=
  .obj [("labels", Json.ofOption (Json.ofList Json.str) t.labels),
    ("readonly", .bool t.readonly),
    ("minLength", Json.ofOption (fun n : UInt64 => .ofNat n.toNat) t.minLength)]

def ofJson? (json : Json) : Option TupleShape := do
  let members ← json.members?
  let labels ← members.optional? "labels" (Json.list? Json.string?)
  let readonly ← members.orDefault? "readonly" Json.boolean? false
  let minLength ← members.optional? "minLength" Json.uint64?
  some ⟨labels, readonly, minLength⟩

end TupleShape

namespace ObjectType

def toMembers (o : ObjectType) : Members :=
  [("properties", Json.ofList SymbolId.toJson o.properties),
    ("callSignatures", Json.ofList Signature.toJson o.callSignatures),
    ("constructSignatures", Json.ofList Signature.toJson o.constructSignatures),
    ("indexInfos", Json.ofList IndexInfo.toJson o.indexInfos),
    ("target", Json.ofOption TypeId.toJson o.target),
    ("typeArguments", Json.ofList TypeId.toJson o.typeArguments),
    ("typeParameters", Json.ofList TypeId.toJson o.typeParameters),
    ("tuple", Json.ofOption TupleShape.toJson o.tuple),
    ("baseTypes", Json.ofList TypeId.toJson o.baseTypes),
    ("implementsTypes", Json.ofList TypeId.toJson o.implementsTypes)]

def ofMembers? (members : Members) : Option ObjectType := do
  let types := Json.list? TypeId.ofJson?
  let properties ← members.orDefault? "properties" (Json.list? SymbolId.ofJson?) []
  let callSignatures ← members.orDefault? "callSignatures" (Json.list? Signature.ofJson?) []
  let constructSignatures ←
    members.orDefault? "constructSignatures" (Json.list? Signature.ofJson?) []
  let indexInfos ← members.orDefault? "indexInfos" (Json.list? IndexInfo.ofJson?) []
  let target ← members.optional? "target" TypeId.ofJson?
  let typeArguments ← members.orDefault? "typeArguments" types []
  let typeParameters ← members.orDefault? "typeParameters" types []
  let tuple ← members.optional? "tuple" TupleShape.ofJson?
  let baseTypes ← members.orDefault? "baseTypes" types []
  let implementsTypes ← members.orDefault? "implementsTypes" types []
  some { properties, callSignatures, constructSignatures, indexInfos, target, typeArguments,
         typeParameters, tuple, baseTypes, implementsTypes }

end ObjectType

namespace TypeData

/-- What a type is made of, in one word. -/
def kindName : TypeData → String
  | intrinsic .. => "intrinsic"
  | literal .. => "literal"
  | object .. => "object"
  | union .. => "union"
  | intersection .. => "intersection"
  | typeParameter .. => "type_parameter"
  | index .. => "index"
  | indexedAccess .. => "indexed_access"
  | conditional .. => "conditional"
  | substitution .. => "substitution"
  | templateLiteral .. => "template_literal"
  | stringMapping .. => "string_mapping"

/-- The members that belong to the kind. -/
def toMembers : TypeData → Members
  | intrinsic name => Json.field "name" (.str name)
  | literal value => Json.field "value" value.toJson
  | object o => o.toMembers
  | union types => Json.field "types" (Json.ofList TypeId.toJson types)
  | intersection types => Json.field "types" (Json.ofList TypeId.toJson types)
  | typeParameter constraint default =>
    Json.fieldIfSome "constraint" TypeId.toJson constraint ++
      Json.fieldIfSome "default" TypeId.toJson default
  | index target => Json.field "target" target.toJson
  | indexedAccess objectType indexType =>
    Json.field "objectType" objectType.toJson ++ Json.field "indexType" indexType.toJson
  | conditional checkType extendsType trueType falseType =>
    Json.field "checkType" checkType.toJson ++ Json.field "extendsType" extendsType.toJson ++
      Json.fieldIfSome "trueType" TypeId.toJson trueType ++
      Json.fieldIfSome "falseType" TypeId.toJson falseType
  | substitution baseType constraint =>
    Json.field "baseType" baseType.toJson ++ Json.field "constraint" constraint.toJson
  | templateLiteral texts types =>
    Json.field "texts" (Json.ofList Json.str texts) ++
      Json.field "types" (Json.ofList TypeId.toJson types)
  | stringMapping target => Json.field "target" target.toJson

def toJson (data : TypeData) : Json :=
  .obj (Json.field "kind" (.str data.kindName) ++ data.toMembers)

/-- The members of a kind. -/
def ofMembers? (kind : String) (members : Members) : Option TypeData :=
  let types := Json.list? TypeId.ofJson?
  match kind with
  | "intrinsic" => do some (intrinsic (← members.required? "name" Json.string?))
  | "literal" => do some (literal (← members.required? "value" Literal.ofJson?))
  | "object" => do some (object (← ObjectType.ofMembers? members))
  | "union" => do some (union (← members.required? "types" types))
  | "intersection" => do some (intersection (← members.required? "types" types))
  | "type_parameter" => do
    let constraint ← members.optional? "constraint" TypeId.ofJson?
    some (typeParameter constraint (← members.optional? "default" TypeId.ofJson?))
  | "index" => do some (index (← members.required? "target" TypeId.ofJson?))
  | "indexed_access" => do
    let objectType ← members.required? "objectType" TypeId.ofJson?
    some (indexedAccess objectType (← members.required? "indexType" TypeId.ofJson?))
  | "conditional" => do
    let checkType ← members.required? "checkType" TypeId.ofJson?
    let extendsType ← members.required? "extendsType" TypeId.ofJson?
    let trueType ← members.optional? "trueType" TypeId.ofJson?
    let falseType ← members.optional? "falseType" TypeId.ofJson?
    some (conditional checkType extendsType trueType falseType)
  | "substitution" => do
    let baseType ← members.required? "baseType" TypeId.ofJson?
    some (substitution baseType (← members.required? "constraint" TypeId.ofJson?))
  | "template_literal" => do
    let texts ← members.required? "texts" (Json.list? Json.string?)
    some (templateLiteral texts (← members.required? "types" types))
  | "string_mapping" => do some (stringMapping (← members.required? "target" TypeId.ofJson?))
  | _ => none

/-- The kind may come after the members that belong to it, so all of the object has to be
readable. -/
def ofJson? (json : Json) : Option TypeData := do
  guard json.isReadable
  let members ← json.members?
  ofMembers? (← members.required? "kind" Json.string?) members

end TypeData

namespace TypeRecord

def toJson (t : TypeRecord) : Json :=
  .obj (Json.field "flags" t.flags.toJson ++ Json.field "objectFlags" t.objectFlags.toJson ++
    Json.fieldIfSome "symbol" SymbolId.toJson t.symbol ++
    Json.fieldIfSome "aliasSymbol" SymbolId.toJson t.aliasSymbol ++
    Json.fieldIfNonempty "aliasTypeArguments" TypeId.toJson t.aliasTypeArguments ++
    Json.field "data" t.data.toJson)

def ofJson? (json : Json) : Option TypeRecord := do
  let members ← json.members?
  let flags ← members.required? "flags" Flags.ofJson?
  let objectFlags ← members.orDefault? "objectFlags" Flags.ofJson? Flags.empty
  let symbol ← members.optional? "symbol" SymbolId.ofJson?
  let aliasSymbol ← members.optional? "aliasSymbol" SymbolId.ofJson?
  let aliasTypeArguments ←
    members.orDefault? "aliasTypeArguments" (Json.list? TypeId.ofJson?) []
  let data ← members.required? "data" TypeData.ofJson?
  some ⟨flags, objectFlags, symbol, aliasSymbol, aliasTypeArguments, data⟩

end TypeRecord

namespace SymbolRecord

def toJson (s : SymbolRecord) : Json :=
  .obj (Json.field "name" (.str s.name) ++ Json.field "flags" s.flags.toJson ++
    Json.field "checkFlags" s.checkFlags.toJson ++
    Json.fieldIfNonempty "declarations" Declaration.toJson s.declarations ++
    Json.fieldIfSome "valueDeclaration" (fun n : UInt64 => .ofNat n.toNat) s.valueDeclaration ++
    Json.fieldIfSome "parent" SymbolId.toJson s.parent ++
    Json.fieldIfSome "type" TypeId.toJson s.valueType ++
    Json.fieldIfSome "declaredType" TypeId.toJson s.declaredType ++
    Json.fieldIfNonempty "typeParameters" TypeId.toJson s.typeParameters)

def ofJson? (json : Json) : Option SymbolRecord := do
  let members ← json.members?
  let name ← members.required? "name" Json.string?
  let flags ← members.required? "flags" Flags.ofJson?
  let checkFlags ← members.orDefault? "checkFlags" Flags.ofJson? Flags.empty
  let declarations ← members.orDefault? "declarations" (Json.list? Declaration.ofJson?) []
  let valueDeclaration ← members.optional? "valueDeclaration" Json.uint64?
  let parent ← members.optional? "parent" SymbolId.ofJson?
  let valueType ← members.optional? "type" TypeId.ofJson?
  let declaredType ← members.optional? "declaredType" TypeId.ofJson?
  let typeParameters ← members.orDefault? "typeParameters" (Json.list? TypeId.ofJson?) []
  some ⟨name, flags, checkFlags, declarations, valueDeclaration, parent, valueType, declaredType,
    typeParameters⟩

end SymbolRecord

namespace TypeGraph

def toJson (g : TypeGraph) : Json :=
  .obj [("types", Json.ofList TypeRecord.toJson g.types.toList),
    ("symbols", Json.ofList SymbolRecord.toJson g.symbols.toList),
    ("globalArray", g.globalArray.toJson),
    ("globalReadonlyArray", g.globalReadonlyArray.toJson)]

def ofJson? (json : Json) : Option TypeGraph := do
  let members ← json.members?
  let types ← members.required? "types" (Json.list? TypeRecord.ofJson?)
  let symbols ← members.required? "symbols" (Json.list? SymbolRecord.ofJson?)
  let globalArray ← members.required? "globalArray" TypeId.ofJson?
  let globalReadonlyArray ← members.required? "globalReadonlyArray" TypeId.ofJson?
  some ⟨types.toArray, symbols.toArray, globalArray, globalReadonlyArray⟩

end TypeGraph

end TypeAtlas
