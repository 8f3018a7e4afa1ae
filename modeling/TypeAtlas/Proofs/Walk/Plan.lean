import Mathlib.Data.List.Flatten
import TypeAtlas.Tree.Layer
import TypeAtlas.Tree.Walk
/-!
# The plan of a node

Which types a walk meets below a type, and in which order, does not depend on what the walk has met
before: it is data. `TypeGraph.plan` is this data, a layer with occurrences in the places of
children, and `Walk.layer` visits it from left to right (`Walk.layer_eq`). So a fact about the node
of a type is a fact about its plan, and a fact about walks is one about `Layer.mapM`.
-/

namespace TypeAtlas

variable {α β : Type} {m : Type → Type} [Monad m]

/-! ## Visiting a layer -/

/-- Parameters, return type, type parameters. -/
def SignatureLayer.mapM (f : α → m β) (s : SignatureLayer α) : m (SignatureLayer β) := do
  let parameters ← s.parameters.mapM f
  let returnType ← s.returnType.mapM f
  let typeParameters ← s.typeParameters.mapM (List.mapM f)
  return ⟨s.symbolMeta, parameters, returnType, typeParameters⟩

/-- Key type, value type. -/
def IndexLayer.mapM (f : α → m β) (i : IndexLayer α) : m (IndexLayer β) := do
  let keyType ← i.keyType.mapM f
  let valueType ← i.valueType.mapM f
  return ⟨keyType, valueType, i.parameterSymbol, i.readonly⟩

/-- Properties, index signatures, base type, implemented types, construct signatures. -/
def ClassLayer.mapM (f : α → m β) (c : ClassLayer α) : m (ClassLayer β) := do
  let properties ← c.properties.mapM f
  let indexInfos ← c.indexInfos.mapM (IndexLayer.mapM f)
  let baseType ← c.baseType.mapM f
  let implementsTypes ← c.implementsTypes.mapM f
  let constructSignatures ← c.constructSignatures.mapM (SignatureLayer.mapM f)
  return ⟨c.classSymbol, properties, indexInfos, baseType, implementsTypes, constructSignatures⟩

/-- The children of a node. An object begins with its class, which `Shape.children` lists last; all
other children are visited in the order of `Shape.children`. -/
def Shape.mapM (f : α → m β) : Shape α → m (Shape β)
  | primitive p => return primitive p
  | intrinsic name => return intrinsic name
  | stringLiteral value => return stringLiteral value
  | numberLiteral value => return numberLiteral value
  | bigintLiteral value => return bigintLiteral value
  | booleanLiteral value => return booleanLiteral value
  | enumLiteral value literal parent => return enumLiteral value literal parent
  | enum symbol members => return enum symbol (← members.mapM f)
  | object properties indexInfos objectClass => do
    let objectClass ← objectClass.mapM f
    let properties ← properties.mapM f
    return object properties (← indexInfos.mapM (IndexLayer.mapM f)) objectClass
  | class' members => return class' (← members.mapM f)
  | interface members => return interface (← members.mapM f)
  | function signatures => return function (← signatures.mapM (SignatureLayer.mapM f))
  | array element readonly => return array (← f element) readonly
  | tuple types names readonly minLength =>
    return tuple (← types.mapM f) names readonly minLength
  | union types => return union (← types.mapM f)
  | intersection types properties indexInfos => do
    let types ← types.mapM f
    let properties ← properties.mapM f
    return intersection types properties (← indexInfos.mapM (IndexLayer.mapM f))
  | index keyOf => return index (← f keyOf)
  | indexedAccess objectType indexType => do
    let objectType ← f objectType
    return indexedAccess objectType (← f indexType)
  | conditional checkType extendsType trueType falseType => do
    let checkType ← f checkType
    let extendsType ← f extendsType
    let trueType ← trueType.mapM f
    return conditional checkType extendsType trueType (← falseType.mapM f)
  | substitution baseType substitute => do
    let baseType ← f baseType
    return substitution baseType (← f substitute)
  | stringMapping symbol mapped => return stringMapping symbol (← f mapped)
  | templateLiteral texts types => return templateLiteral texts (← types.mapM f)
  | typeParameter symbol baseConstraint defaultType => do
    let baseConstraint ← baseConstraint.mapM f
    return typeParameter symbol baseConstraint (← defaultType.mapM f)
  | nonPrimitive => return nonPrimitive
  | reference location => return reference location
  | maxDepth => return maxDepth

/-- The children of the kind, then type arguments, then type parameters. -/
def Layer.mapM (f : α → m β) (l : Layer α) : m (Layer β) := do
  let shape ← l.shape.mapM f
  let typeArguments ← l.typeArguments.mapM (List.mapM f)
  let typeParameters ← l.typeParameters.mapM (List.mapM f)
  return ⟨l.id, shape, l.symbolMeta, l.aliasSymbolMeta, typeArguments, typeParameters⟩

/-! ## Plans -/

namespace Occurrence

/-- A type met without a symbol. -/
def ofType (type : TypeId) : Occurrence where
  type

end Occurrence

namespace TypeGraph

variable (g : TypeGraph)

/-- A symbol met with the type it has. -/
def member (insideClassOrInterface : Bool) (symbol : SymbolId) : Occurrence where
  type := g.typeOf symbol
  symbol := some symbol
  insideClassOrInterface

/-- A parameter met with the type it has. -/
def parameterOf (parameter : SymbolId) : Occurrence where
  type := g.typeOf parameter
  symbol := some parameter
  optional := some (g.isOptionalParameter parameter)

/-- Types as they are met in a list that is left out when it is empty. -/
def listed (types : List TypeId) : Option (List Occurrence) :=
  if types.isEmpty then none else some (types.map .ofType)

def planSignature (s : Signature) : SignatureLayer Occurrence where
  symbolMeta := g.mentionedSymbol? s.symbol
  parameters := s.parameters.map g.parameterOf
  returnType := some (.ofType s.returnType)
  typeParameters := listed s.typeParameters

def planIndexInfo (info : IndexInfo) : IndexLayer Occurrence where
  keyType := some (.ofType info.keyType)
  valueType := some (.ofType info.valueType)
  parameterSymbol := g.mentionedSymbol? info.parameter
  readonly := info.isReadonly

/-- An enum or a member of one. -/
def planEnum (record : TypeRecord) : Shape Occurrence :=
  let symbol := g.mentionedSymbol? record.symbol
  if record.flags.meets (TypeFlags.union ||| TypeFlags.enum) then
    match record.data with
    | .union members => .enum symbol (members.map .ofType)
    | _ => .enum symbol []
  else
    let parent := g.mentionedSymbol? ((record.symbol.bind g.symbol?).bind (·.parent))
    match record.data with
    | .literal (.number value) => .enumLiteral (.number value) symbol parent
    | .literal (.string value) => .enumLiteral (.string value) symbol parent
    | _ => .primitive .unknown

/-- The construct signatures that a class shows: those of its constructor side. -/
def constructorsOf (symbol : Option SymbolId) (isClass : Bool) : List Signature :=
  match symbol with
  | some symbol => if isClass then g.constructSignatures (g.valueTypeOf symbol) else []
  | none => []

def planClassLike (id : TypeId) (symbol : Option SymbolId) (isClass : Bool) :
    ClassLayer Occurrence where
  classSymbol := g.mentionedSymbol? symbol
  properties := (g.properties id).map (g.member true)
  indexInfos := (g.indexInfos id).map g.planIndexInfo
  baseType := (g.baseTypes id).head?.map .ofType
  implementsTypes := (g.implementsTypes id).map .ofType
  constructSignatures := (g.constructorsOf symbol isClass).map g.planSignature

/-- Whether an object type is the constructor side of a class. -/
def isConstructorSide (record : TypeRecord) : Bool :=
  g.isClassSymbol record.symbol && !record.objectFlags.has ObjectFlags.class'

/-- The signatures that make a type show as a function. -/
def functionSignatures (id : TypeId) (record : TypeRecord) : List Signature :=
  g.callSignatures id ++ if g.isConstructorSide record then [] else g.constructSignatures id

/-- The type of the elements of an array. -/
def elementOf (id : TypeId) : TypeId :=
  (g.typeArguments id).head?.getD .unknown

/-- The class of a constructor side. -/
def classOf (record : TypeRecord) : Option Occurrence :=
  (if g.isConstructorSide record then record.symbol.map g.declaredTypeOf else none).map .ofType

/-- An object type. -/
def planObject (id : TypeId) (record : TypeRecord) : Shape Occurrence :=
  let signatures := g.functionSignatures id record
  let flags := g.resolvedObjectFlags id
  if !signatures.isEmpty then .function (signatures.map g.planSignature)
  else if g.isArray id then .array (.ofType (g.elementOf id)) (g.isReadonlyArray id)
  else if g.isTuple id then
    let shape := g.tupleShape id
    .tuple ((g.typeArguments id).map .ofType) shape.labels shape.readonly shape.minLength
  else if flags.has ObjectFlags.class' then .class' (g.planClassLike id record.symbol true)
  else if flags.has ObjectFlags.interface then .interface (g.planClassLike id record.symbol false)
  else
    .object ((g.properties id).map (g.member false)) ((g.indexInfos id).map g.planIndexInfo)
      (g.classOf record)

/-- An intersection, flattened one level. -/
def planIntersection (members : List TypeId) : Shape Occurrence :=
  let (objects, others) := (g.flattenedOnce members).partition g.isPlainObject
  let properties := (g.propertiesOfAll objects).map (g.member false)
  let infos := (objects.flatMap g.indexInfos).map g.planIndexInfo
  if others.isEmpty then .object properties infos none
  else .intersection (others.map .ofType) properties infos

/-- A type that is neither a primitive, an enum, a literal nor an object. -/
def planOperator (record : TypeRecord) : Shape Occurrence :=
  let otherwise : Shape Occurrence :=
    if record.flags.has TypeFlags.nonPrimitive then .nonPrimitive else .primitive .unknown
  match record.data with
  | .union members =>
    if record.flags.has TypeFlags.union then .union (members.map .ofType) else otherwise
  | .intersection members =>
    if record.flags.has TypeFlags.intersection then g.planIntersection members else otherwise
  | .index target => .index (.ofType target)
  | .indexedAccess objectType indexType => .indexedAccess (.ofType objectType) (.ofType indexType)
  | .conditional checkType extendsType trueType falseType =>
    .conditional (.ofType checkType) (.ofType extendsType) (trueType.map .ofType)
      (falseType.map .ofType)
  | .substitution baseType constraint => .substitution (.ofType baseType) (.ofType constraint)
  | .templateLiteral texts members => .templateLiteral texts (members.map .ofType)
  | .stringMapping target => .stringMapping (g.mentionedSymbol? record.symbol) (.ofType target)
  | _ => otherwise

/-- The value of a literal type, as a node shows it. -/
def planLiteral : Literal → Shape Occurrence
  | .string value => .stringLiteral value
  | .number value => .numberLiteral value
  | .bigInt value => .bigintLiteral value
  | .boolean value => .booleanLiteral value

/-- The kind of the node of a type, with what belongs to it. -/
def planShape (id : TypeId) : Shape Occurrence :=
  match g.type? id with
  | none => .primitive .unknown
  | some record =>
    let flags := record.flags
    if flags.has TypeFlags.typeParameter then
      .typeParameter (g.mentionedSymbol? record.symbol) ((g.baseConstraint? id).map .ofType)
        ((g.defaultType? id).map .ofType)
    else if flags.has TypeFlags.any then
      if record.intrinsicName? = some "intrinsic" then .intrinsic "intrinsic" else .primitive .any
    else
      match Walk.primitiveOfFlags? flags with
      | some primitive => .primitive primitive
      | none =>
        if flags.meets TypeFlags.enumLike then g.planEnum record
        else
          match Walk.latePrimitiveOfFlags? flags with
          | some primitive => .primitive primitive
          | none =>
            if flags.meets TypeFlags.literal then
              match record.data with
              | .literal value => planLiteral value
              | _ => .primitive .unknown
            else if flags.has TypeFlags.object then g.planObject id record
            else g.planOperator record

/-- The node of a type, with the occurrences that a walk goes on to. -/
def plan (id : TypeId) (symbolMeta : Option SymbolMeta) : Layer Occurrence :=
  let shape := g.planShape id
  { id
    shape
    symbolMeta
    aliasSymbolMeta := g.mentionedSymbol? ((g.type? id).bind (·.aliasSymbol))
    typeArguments := listed (g.generics id shape.kind).1
    typeParameters := listed (g.generics id shape.kind).2 }

end TypeGraph

/-! ## A walk visits the plan -/

namespace Walk

variable (g : TypeGraph) (visit : Occurrence → Walk TypeTree)

theorem types_eq (ts : List TypeId) : types visit ts = (ts.map .ofType).mapM visit :=
  List.mapM_map.symm

theorem type?_eq (t : Option TypeId) : type? visit t = (t.map .ofType).mapM visit := by
  cases t <;> rfl

theorem symbols_eq (ss : List SymbolId) (inside : Bool) :
    symbols g visit ss inside = (ss.map (g.member inside)).mapM visit :=
  List.mapM_map.symm

theorem typesIfAny_eq (ts : List TypeId) :
    typesIfAny visit ts = (TypeGraph.listed ts).mapM (List.mapM visit) := by
  unfold typesIfAny TypeGraph.listed
  split
  · rfl
  · rw [types_eq]
    rfl

theorem signature_eq (s : Signature) : signature g visit s = (g.planSignature s).mapM visit := by
  have hparameters : (s.parameters.map g.parameterOf).mapM visit =
      s.parameters.mapM fun p => visit (g.parameterOf p) := List.mapM_map
  simp only [SignatureLayer.mapM, TypeGraph.planSignature, hparameters, ← typesIfAny_eq,
    Option.mapM_some, bind_map_left, signature, typesIfAny]
  split <;> rfl

theorem indexInfos_eq (infos : List IndexInfo) :
    indexInfos g visit infos = (infos.map g.planIndexInfo).mapM (IndexLayer.mapM visit) := by
  rw [List.mapM_map]
  refine congrArg (fun f => infos.mapM f) (funext fun info => ?_)
  simp only [Function.comp, IndexLayer.mapM, TypeGraph.planIndexInfo, Option.mapM_some,
    bind_map_left]
  rfl

theorem signatures_eq (ss : List Signature) :
    ss.mapM (signature g visit) = (ss.map g.planSignature).mapM (SignatureLayer.mapM visit) := by
  rw [List.mapM_map]
  exact congrArg (fun f => ss.mapM f) (funext (signature_eq g visit))

theorem enumShape_eq (record : TypeRecord) :
    enumShape g visit record = (g.planEnum record).mapM visit := by
  unfold enumShape TypeGraph.planEnum
  simp only [types_eq, apply_ite (Shape.mapM visit)]
  cases record.data with
  | literal value => cases value <;> rfl
  | _ => rfl

theorem classLike_eq (id : TypeId) (symbol : Option SymbolId) (isClass : Bool) :
    classLike g visit id symbol isClass = (g.planClassLike id symbol isClass).mapM visit := by
  simp only [classLike, ClassLayer.mapM, TypeGraph.planClassLike, symbols_eq, indexInfos_eq,
    type?_eq, types_eq, ← signatures_eq]
  rfl

theorem objectShape_eq (id : TypeId) (record : TypeRecord) :
    objectShape g visit id record = (g.planObject id record).mapM visit := by
  unfold objectShape TypeGraph.planObject
  simp only [classLike_eq, signatures_eq, symbols_eq, indexInfos_eq, type?_eq, types_eq,
    apply_ite (Shape.mapM visit)]
  rfl

theorem intersectionShape_eq (members : List TypeId) :
    intersectionShape g visit members = (g.planIntersection members).mapM visit := by
  unfold intersectionShape TypeGraph.planIntersection
  simp only [symbols_eq, indexInfos_eq, types_eq, apply_ite (Shape.mapM visit)]
  rfl

theorem operatorShape_eq (record : TypeRecord) :
    operatorShape g visit record = (g.planOperator record).mapM visit := by
  unfold operatorShape TypeGraph.planOperator
  simp only [intersectionShape_eq, type?_eq, types_eq, apply_ite pure]
  cases record.data <;> simp only [apply_ite (Shape.mapM visit)] <;> rfl

theorem shape_eq (id : TypeId) : shape g visit id = (g.planShape id).mapM visit := by
  unfold shape TypeGraph.planShape
  simp only [enumShape_eq, objectShape_eq, operatorShape_eq, type?_eq]
  cases g.type? id with
  | none => rfl
  | some record =>
    simp only [apply_ite (Shape.mapM visit)]
    cases primitiveOfFlags? record.flags with
    | some primitive => rfl
    | none =>
      simp only [apply_ite (Shape.mapM visit)]
      cases latePrimitiveOfFlags? record.flags with
      | some primitive => rfl
      | none =>
        simp only [apply_ite (Shape.mapM visit)]
        cases record.data with
        | literal value => cases value <;> rfl
        | _ => rfl

/-- The kind of a node does not depend on its children. -/
theorem kind_mapM {f : α → Walk β} (s : Shape α) (context : WalkContext) :
    (s.mapM f context).1.kind = s.kind := by
  cases s <;> rfl

theorem layer_eq (id : TypeId) (symbolMeta : Option SymbolMeta) :
    layer g visit id symbolMeta = (g.plan id symbolMeta).mapM visit := by
  funext context
  have hkind := kind_mapM (f := visit) (g.planShape id) context
  simp only [layer, shape_eq, typesIfAny_eq, Layer.mapM, TypeGraph.plan, bind, StateT.bind]
  rw [← hkind]
  rfl

end Walk

end TypeAtlas
