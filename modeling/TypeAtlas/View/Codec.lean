import TypeAtlas.Tree.Codec
import TypeAtlas.View.Basic
/-!
# Views as JSON

A failure is told from a view by its member `error`.
-/

namespace TypeAtlas

namespace Purpose

/-- The name in documents. -/
def documentName : Purpose → String
  | return' => "return"
  | parameter => "parameter"
  | classConstructor => "class_constructor"
  | classBaseType => "class_base_type"
  | classImplementations => "class_implementations"
  | objectClass => "object_class"
  | typeParameterList => "type_parameter_list"
  | typeArgumentList => "type_argument_list"
  | parameterValue => "parameter_value"
  | parameterDefault => "parameter_default"
  | parameterBaseConstraint => "parameter_base_constraint"
  | indexInfo => "index_info"
  | indexParameterType => "index_parameter_type"
  | indexValueType => "index_value_type"
  | conditionalCheck => "conditional_check"
  | conditionalExtends => "conditional_extends"
  | conditionalTrue => "conditional_true"
  | conditionalFalse => "conditional_false"
  | keyof => "keyof"
  | indexedAccessBase => "indexed_access_base"
  | indexedAccessIndex => "indexed_access_index"
  | substitutionBase => "substitution_base"
  | substitutionSubstitute => "substitution_substitute"
  | stringMappingType => "string_mapping_type"
  | templateLiteralText => "template_literal_text"

/-- All purposes, in the order of their definition. -/
def all : List Purpose :=
  [return', parameter, classConstructor, classBaseType, classImplementations, objectClass,
    typeParameterList, typeArgumentList, parameterValue, parameterDefault,
    parameterBaseConstraint, indexInfo, indexParameterType, indexValueType, conditionalCheck,
    conditionalExtends, conditionalTrue, conditionalFalse, keyof, indexedAccessBase,
    indexedAccessIndex, substitutionBase, substitutionSubstitute, stringMappingType,
    templateLiteralText]

def toJson (purpose : Purpose) : Json :=
  .str purpose.documentName

def ofJson? (json : Json) : Option Purpose :=
  json.name? (all.map fun purpose => (purpose.documentName, purpose))

end Purpose

namespace ChildOptions

def toJson (o : ChildOptions) : Json :=
  .obj (Json.fieldIfSome "purpose" Purpose.toJson o.purpose ++
    Json.fieldIfSome "name" Json.str o.name ++ Json.fieldIfTrue "optional" o.optional ++
    Json.fieldIfSome "contextualTypeArgument" TypeTree.toJson o.contextualTypeArgument)

def ofJson? (json : Json) : Option ChildOptions := do
  let members ← json.members?
  let purpose ← members.optional? "purpose" Purpose.ofJson?
  let name ← members.optional? "name" Json.string?
  let optional ← members.orDefault? "optional" Json.boolean? false
  let contextualTypeArgument ← members.optional? "contextualTypeArgument" TypeTree.ofJson?
  some ⟨purpose, name, optional, contextualTypeArgument⟩

end ChildOptions

namespace ViewSymbol

def toJson (s : ViewSymbol) : Json :=
  .obj (Json.field "name" (.str s.name) ++ Json.fieldIfTrue "anonymous" s.anonymous ++
    Json.fieldIfTrue "insideClassOrInterface" s.insideClassOrInterface ++
    Json.fieldIfTrue "property" s.property ++ Json.fieldIfTrue "isArgument" s.isArgument ++
    Json.fieldIfNonempty "locations" Location.toJson s.locations)

def ofJson? (json : Json) : Option ViewSymbol := do
  let members ← json.members?
  let name ← members.required? "name" Json.string?
  let anonymous ← members.orDefault? "anonymous" Json.boolean? false
  let insideClassOrInterface ← members.orDefault? "insideClassOrInterface" Json.boolean? false
  let property ← members.orDefault? "property" Json.boolean? false
  let isArgument ← members.orDefault? "isArgument" Json.boolean? false
  let locations ← members.orDefault? "locations" (Json.list? Location.ofJson?) []
  some ⟨name, anonymous, insideClassOrInterface, property, isArgument, locations⟩

end ViewSymbol

namespace Child

variable {α β : Type}

/-- The views among children. -/
def views (children : List (Child α)) : List α :=
  children.filterMap fun
    | raw .. => none
    | made view => some view

/-- The child with its view changed, when the change succeeds. -/
def traverse? (f : α → Option β) : Child α → Option (Child β)
  | raw tree options => some (raw tree options)
  | made view => do some (made (← f view))

def toJson : Child Json → Json
  | raw tree options =>
    .obj [("raw", .obj [("info", tree.toJson), ("opts", options.toJson)])]
  | made view => .obj [("localized", view)]

def ofJson? : Json → Option (Child Json)
  | .obj [("raw", json)] => do
    let members ← json.members?
    let tree ← members.required? "info" TypeTree.ofJson?
    some (raw tree (← members.orDefault? "opts" ChildOptions.ofJson? {}))
  | .obj [("localized", json)] => some (made json)
  | _ => none

end Child

namespace ViewLayer

def toJson (l : ViewLayer Json) : Json :=
  .obj (Json.field "handle" (.ofNat l.handle.val.toNat) ++
    Json.fieldIfSome "kind" NodeKind.toJson l.kind ++
    Json.fieldIfSome "kindText" Json.str l.kindText ++
    Json.fieldIfSome "alias" Json.str l.aliasName ++
    Json.fieldIfSome "name" Json.str l.name ++
    Json.fieldIfSome "symbol" ViewSymbol.toJson l.symbol ++
    Json.fieldIfSome "purpose" Purpose.toJson l.purpose ++
    Json.fieldIfTrue "optional" l.optional ++ Json.fieldIfTrue "rest" l.rest ++
    Json.fieldIfTrue "readonly" l.readonly ++
    (if l.dimension == 0 then [] else Json.field "dimension" (.ofNat l.dimension.toNat)) ++
    Json.fieldIfSome "typeId" TypeId.toJson l.typeId ++
    Json.fieldIfNonempty "children" Child.toJson l.children)

def ofJson? (json : Json) : Option (ViewLayer Json) := do
  let members ← json.members?
  let handle ← members.required? "handle" Json.uint32?
  let kind ← members.optional? "kind" NodeKind.ofJson?
  let kindText ← members.optional? "kindText" Json.string?
  let aliasName ← members.optional? "alias" Json.string?
  let name ← members.optional? "name" Json.string?
  let symbol ← members.optional? "symbol" ViewSymbol.ofJson?
  let purpose ← members.optional? "purpose" Purpose.ofJson?
  let optional ← members.orDefault? "optional" Json.boolean? false
  let rest ← members.orDefault? "rest" Json.boolean? false
  let readonly ← members.orDefault? "readonly" Json.boolean? false
  let dimension ← members.orDefault? "dimension" Json.uint32? 0
  let typeId ← members.optional? "typeId" TypeId.ofJson?
  let children ← members.orDefault? "children" (Json.list? Child.ofJson?) []
  some ⟨⟨handle⟩, kind, kindText, aliasName, name, symbol, purpose, optional, rest, readonly,
    dimension, typeId, children⟩

end ViewLayer

namespace View

def toJson (view : View) : Json :=
  ViewLayer.toJson
    { view.layer with
      children := view.children.attach.map fun
        | ⟨.raw tree options, _⟩ => .raw tree options
        | ⟨.made inner, _⟩ => .made (toJson inner) }
termination_by sizeOf view
decreasing_by exact sizeOf_lt_of_mem_children ‹_›

/-- A view with at most the given number of levels. -/
def ofJsonWithin? : Nat → Json → Option View
  | 0, _ => none
  | levels + 1, json => do
    let layer ← ViewLayer.ofJson? json
    let children ← layer.children.mapM (Child.traverse? (ofJsonWithin? levels))
    some (node { layer with children })

def ofJson? (json : Json) : Option View :=
  ofJsonWithin? json.depth json

end View

namespace ErrorDetails

def toJson (e : ErrorDetails) : Json :=
  .obj (Json.field "name" (.str e.name) ++ Json.field "message" (.str e.message) ++
    Json.fieldIfSome "stack" Json.str e.stack)

def ofJson? (json : Json) : Option ErrorDetails := do
  let members ← json.members?
  let name ← members.required? "name" Json.string?
  let message ← members.required? "message" Json.string?
  some ⟨name, message, ← members.optional? "stack" Json.string?⟩

end ErrorDetails

namespace ViewFailure

def toJson (f : ViewFailure) : Json :=
  .obj (Json.field "error" f.error.toJson ++
    Json.fieldIfSome "typeInfo" TypeTree.toJson f.tree)

def ofJson? (json : Json) : Option ViewFailure := do
  let members ← json.members?
  let error ← members.required? "error" ErrorDetails.ofJson?
  some ⟨error, ← members.optional? "typeInfo" TypeTree.ofJson?⟩

end ViewFailure

namespace ViewResult

def toJson : ViewResult → Json
  | .failure f => .obj [("error", f.toJson)]
  | .view v => v.toJson

/-- The failure that a value describes. -/
def failureOfJson? (json : Json) : Option ViewFailure := do
  (← json.members?).required? "error" ViewFailure.ofJson?

/-- A failure if the value describes one, and a view otherwise. -/
def ofJson? (json : Json) : Option ViewResult :=
  match failureOfJson? json with
  | some f => some (.failure f)
  | none => (View.ofJson? json).map .view

end ViewResult

end TypeAtlas
