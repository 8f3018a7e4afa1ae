import TypeAtlas.Graph.Codec
import TypeAtlas.Graph.Properties
import TypeAtlas.Graph.Query
/-!
# Reports

What a graph says about one type or one symbol, gathered in a JSON object.
-/

namespace TypeAtlas.TypeGraph

variable (g : TypeGraph)

/-- Everything that is known about a type. -/
def typeReport (id : TypeId) : Json :=
  let types := Json.ofList TypeId.toJson
  let signatures := Json.ofList Signature.toJson
  .obj [("flags", (g.typeFlags id).toJson), ("objectFlags", (g.objectFlags id).toJson),
    ("isError", .bool (id == .error)),
    ("properties", Json.ofList SymbolId.toJson (g.properties id)),
    ("callSignatures", signatures (g.callSignatures id)),
    ("constructSignatures", signatures (g.constructSignatures id)),
    ("indexInfos", Json.ofList IndexInfo.toJson (g.indexInfos id)),
    ("typeArguments", types (g.typeArguments id)), ("baseTypes", types (g.baseTypes id)),
    ("implementsTypes", types (g.implementsTypes id)),
    ("baseConstraint", Json.ofOption TypeId.toJson (g.baseConstraint? id)),
    ("default", Json.ofOption TypeId.toJson (g.defaultType? id)),
    ("isArray", .bool (g.isArray id)), ("isReadonlyArray", .bool (g.isReadonlyArray id)),
    ("isTuple", .bool (g.isTuple id)),
    ("intrinsicName", Json.ofOption Json.str ((g.type? id).bind (·.intrinsicName?))),
    ("display", .str id.text)]

/-- Everything that is known about a symbol. -/
def symbolReport (id : SymbolId) : Json :=
  .obj [("typeOfSymbol", (g.valueTypeOf id).toJson), ("declaredType", (g.declaredTypeOf id).toJson),
    ("resolvedType", (g.typeOf id).toJson),
    ("isOptionalParameter", .bool (g.isOptionalParameter id)),
    ("isRestParameter", .bool (g.isRestParameter id)),
    ("isDefinedType",
      Json.ofOption (fun record => .bool record.flags.isDefinedType) (g.symbol? id)),
    ("primaryDeclaration",
      Json.ofOption Declaration.toJson ((g.symbol? id).bind (·.primaryDeclaration?)))]

/-- How much a graph holds, and its array interfaces. -/
def sizeReport : Json :=
  .obj [("types", .ofNat g.types.size), ("symbols", .ofNat g.symbols.size),
    ("globalArray", g.globalArray.toJson), ("globalReadonlyArray", g.globalReadonlyArray.toJson)]

end TypeAtlas.TypeGraph
