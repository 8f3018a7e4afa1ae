import TypeAtlas.Config
import TypeAtlas.Graph.Properties
import TypeAtlas.Tree.Basic
/-!
# From a graph to a tree

`TypeGraph.tree` shows a type of a graph as a tree. The walk goes depth first and remembers the
types it has met. The first meeting with a type makes a full node, every later one, in any branch,
a reference to it; so a graph with cycles has a finite tree. A node below the lowest level of the
configuration is cut off.

What a node consists of is said in `Walk.shape` and its parts; they take as a parameter the
function that walks a child, and `Walk.walk` ties the knot.
-/

namespace TypeAtlas

/-- The state of a walk. -/
structure WalkContext where
  /-- How many nodes the walk is inside of. -/
  depth : Nat := 0
  /-- The types that have a full node. -/
  seen : List TypeId := []
  deriving DecidableEq, Inhabited, Repr

/-- A step of a walk. -/
abbrev Walk := StateM WalkContext

/-- A type at a place of the walk, and the symbol it is met through. -/
structure Occurrence where
  type : TypeId
  symbol : Option SymbolId := none
  /-- Whether the occurrence is optional, if that is not for the symbol to say. -/
  optional : Option Bool := none
  insideClassOrInterface : Bool := false
  deriving DecidableEq, Inhabited, Repr

/-- What a tree is made for. -/
inductive TreeRoot where
  | symbol (symbol : SymbolId)
  | type (type : TypeId)
  /-- The symbol is only the way by which the type is met. -/
  | symbolWithType (symbol : SymbolId) (type : TypeId)
  deriving DecidableEq, Inhabited, Repr

namespace TypeGraph

variable (g : TypeGraph)

/-- The symbol of an occurrence, as a tree shows it. -/
def symbolMeta? (symbol : SymbolId) (optional : Option Bool) (insideClassOrInterface : Bool) :
    Option SymbolMeta :=
  (g.symbol? symbol).map fun record =>
    let parentIsClassLike :=
      ((record.parent.bind g.symbol?).map (·.flags.meets SymbolFlags.classOrInterface)).getD false
    { SymbolMeta.named record.name record.flags with
      optional := optional.getD (record.flags.has SymbolFlags.optional)
      rest := g.isRestParameter symbol
      readonly := record.checkFlags.has CheckFlags.readonly
      insideClassOrInterface := insideClassOrInterface || parentIsClassLike
      declarations := record.declarations.map (·.location) }

/-- A symbol mentioned by a record. -/
def mentionedSymbol? (symbol : Option SymbolId) : Option SymbolMeta :=
  symbol.bind fun symbol => g.symbolMeta? symbol none false

/-- Where a named type is declared: at the alias or else at the symbol, if that names a type. -/
def definedTypeLocation? (type : TypeId) : Option Location :=
  (g.type? type).bind fun record =>
    (record.aliasSymbol.toList ++ record.symbol.toList).findSome? fun symbol =>
      (g.symbol? symbol).bind fun symbol =>
        if symbol.flags.isDefinedType then symbol.primaryDeclaration?.map (·.location) else none

/-- Whether a symbol is a class. -/
def isClassSymbol (symbol : Option SymbolId) : Bool :=
  ((symbol.bind g.symbol?).map (·.flags.has SymbolFlags.class')).getD false

/-- The object flags of a type, and those of the generic target of a reference. -/
def resolvedObjectFlags (type : TypeId) : ObjectFlags :=
  let own := g.objectFlags type
  match (g.object? type).bind (·.target) with
  | some target =>
    if own.has ObjectFlags.reference then own ||| g.objectFlags target else own
  | none => own

/-- The constituents of an intersection, those of its constituents put in their place. -/
def flattenedOnce (types : List TypeId) : List TypeId :=
  types.flatMap fun type =>
    match g.data? type with
    | some (.intersection nested) => nested
    | _ => [type]

/-- The properties of several objects; of those with the same name, the first. -/
def propertiesOfAll (objects : List TypeId) : List SymbolId :=
  (objects.flatMap g.properties).foldl
    (fun found property =>
      if (g.symbol? property).isSome then g.pushUnique found property else found) []

/-- The type arguments of a type, and the parameters they are for: those of its alias, or else of
the generic type it refers to, or else the parameters it declares. -/
def generics (type : TypeId) (kind : NodeKind) : List TypeId × List TypeId :=
  match g.type? type with
  | none => ([], [])
  | some record =>
    match record.aliasSymbol with
    | some aliasSymbol =>
      (record.aliasTypeArguments, ((g.symbol? aliasSymbol).map (·.typeParameters)).getD [])
    | none =>
      if kind = .array ∨ kind = .tuple then ([], [])
      else
        match record.object? with
        | none => ([], [])
        | some object =>
          match object.target with
          | some target =>
            (object.typeArguments, ((g.object? target).map (·.typeParameters)).getD [])
          | none => ([], object.typeParameters)

end TypeGraph

namespace Walk

/-- The primitive type that the flags of a type name, before enums are considered. -/
def primitiveOfFlags? (flags : TypeFlags) : Option Primitive :=
  [(TypeFlags.unknown, Primitive.unknown), (TypeFlags.undefined, .undefined),
    (TypeFlags.null, .null), (TypeFlags.boolean, .boolean), (TypeFlags.string, .string),
    (TypeFlags.number, .number), (TypeFlags.void, .void)].findSome? fun (flag, primitive) =>
      if flags.has flag then some primitive else none

/-- The primitive type that the flags of a type name, once it is no enum. -/
def latePrimitiveOfFlags? (flags : TypeFlags) : Option Primitive :=
  [(TypeFlags.bigInt, Primitive.bigint), (TypeFlags.esSymbolLike, .esSymbol),
    (TypeFlags.uniqueEsSymbol, .uniqueSymbol), (TypeFlags.never, .never)].findSome?
      fun (flag, primitive) => if flags.meets flag then some primitive else none

/-- The node of a literal type. -/
def literalShape : Literal → Shape TypeTree
  | .string value => .stringLiteral value
  | .number value => .numberLiteral value
  | .bigInt value => .bigintLiteral value
  | .boolean value => .booleanLiteral value

variable (g : TypeGraph) (visit : Occurrence → Walk TypeTree)

/-- Walks a type that is met without a symbol. -/
def type (type : TypeId) : Walk TypeTree :=
  visit { type }

/-- Walks types in order. -/
def types (types : List TypeId) : Walk (List TypeTree) :=
  types.mapM (type visit)

/-- Walks a type that may be missing. -/
def type? (type : Option TypeId) : Walk (Option TypeTree) :=
  type.mapM (Walk.type visit)

/-- Walks the types of symbols in order. -/
def symbols (symbols : List SymbolId) (insideClassOrInterface : Bool) : Walk (List TypeTree) :=
  symbols.mapM fun symbol =>
    visit { type := g.typeOf symbol, symbol := some symbol, insideClassOrInterface }

/-- A signature: parameters, return type, type parameters. -/
def signature (signature : Signature) : Walk (SignatureLayer TypeTree) := do
  let parameters ← signature.parameters.mapM fun parameter =>
    visit
      { type := g.typeOf parameter
        symbol := some parameter
        optional := some (g.isOptionalParameter parameter) }
  let returnType ← type visit signature.returnType
  let typeParameters ←
    if signature.typeParameters.isEmpty then pure none
    else some <$> types visit signature.typeParameters
  return ⟨g.mentionedSymbol? signature.symbol, parameters, some returnType, typeParameters⟩

/-- Index signatures: for each the key type and the value type. -/
def indexInfos (infos : List IndexInfo) : Walk (List (IndexLayer TypeTree)) :=
  infos.mapM fun info => do
    let keyType ← type visit info.keyType
    let valueType ← type visit info.valueType
    return ⟨some keyType, some valueType, g.mentionedSymbol? info.parameter, info.isReadonly⟩

/-- An enum or a member of one. -/
def enumShape (record : TypeRecord) : Walk (Shape TypeTree) := do
  let symbol := g.mentionedSymbol? record.symbol
  if record.flags.meets (TypeFlags.union ||| TypeFlags.enum) then
    match record.data with
    | .union members => return .enum symbol (← types visit members)
    | _ => return .enum symbol []
  else
    let parent := g.mentionedSymbol? ((record.symbol.bind g.symbol?).bind (·.parent))
    match record.data with
    | .literal (.number value) => return .enumLiteral (.number value) symbol parent
    | .literal (.string value) => return .enumLiteral (.string value) symbol parent
    | _ => return .primitive .unknown

/-- The members of a class or an interface. Construct signatures are those of the constructor
side. -/
def classLike (id : TypeId) (symbol : Option SymbolId) (isClass : Bool) :
    Walk (ClassLayer TypeTree) := do
  let construct := match symbol with
    | some symbol => if isClass then g.constructSignatures (g.valueTypeOf symbol) else []
    | none => []
  let properties ← symbols g visit (g.properties id) true
  let infos ← indexInfos g visit (g.indexInfos id)
  let baseType ← type? visit (g.baseTypes id).head?
  let implementsTypes ← types visit (g.implementsTypes id)
  let constructSignatures ← construct.mapM (signature g visit)
  return ⟨g.mentionedSymbol? symbol, properties, infos, baseType, implementsTypes,
    constructSignatures⟩

/-- An object type: a function, an array, a tuple, a class, an interface, or else an object. A type
of a class symbol that is not the class itself is the constructor side. -/
def objectShape (id : TypeId) (record : TypeRecord) : Walk (Shape TypeTree) := do
  let symbol := record.symbol
  let isConstructorSide :=
    g.isClassSymbol symbol && !record.objectFlags.has ObjectFlags.class'
  let signatures :=
    g.callSignatures id ++ if isConstructorSide then [] else g.constructSignatures id
  let flags := g.resolvedObjectFlags id
  if !signatures.isEmpty then return .function (← signatures.mapM (signature g visit))
  else if g.isArray id then
    let element ← type visit ((g.typeArguments id).head?.getD .unknown)
    return .array element (g.isReadonlyArray id)
  else if g.isTuple id then
    let shape := g.tupleShape id
    return .tuple (← types visit (g.typeArguments id)) shape.labels shape.readonly shape.minLength
  else if flags.has ObjectFlags.class' then return .class' (← classLike g visit id symbol true)
  else if flags.has ObjectFlags.interface then
    return .interface (← classLike g visit id symbol false)
  else
    let instanceType := if isConstructorSide then symbol.map g.declaredTypeOf else none
    let objectClass ← type? visit instanceType
    let properties ← symbols g visit (g.properties id) false
    return .object properties (← indexInfos g visit (g.indexInfos id)) objectClass

/-- An intersection, flattened one level. If all constituents are plain objects it is an object with
the properties of all; otherwise the others remain as its types. -/
def intersectionShape (members : List TypeId) : Walk (Shape TypeTree) := do
  let (objects, others) := (g.flattenedOnce members).partition g.isPlainObject
  let infos := objects.flatMap g.indexInfos
  if others.isEmpty then
    let properties ← symbols g visit (g.propertiesOfAll objects) false
    return .object properties (← indexInfos g visit infos) none
  else
    let types ← types visit others
    let properties ← symbols g visit (g.propertiesOfAll objects) false
    return .intersection types properties (← indexInfos g visit infos)

/-- A type that is neither a primitive, an enum, a literal nor an object. -/
def operatorShape (record : TypeRecord) : Walk (Shape TypeTree) := do
  let otherwise : Shape TypeTree :=
    if record.flags.has TypeFlags.nonPrimitive then .nonPrimitive else .primitive .unknown
  match record.data with
  | .union members =>
    if record.flags.has TypeFlags.union then return .union (← types visit members)
    else return otherwise
  | .intersection members =>
    if record.flags.has TypeFlags.intersection then intersectionShape g visit members
    else return otherwise
  | .index target => return .index (← type visit target)
  | .indexedAccess objectType indexType =>
    let objectTree ← type visit objectType
    return .indexedAccess objectTree (← type visit indexType)
  | .conditional checkType extendsType trueType falseType =>
    let checkTree ← type visit checkType
    let extendsTree ← type visit extendsType
    let trueTree ← type? visit trueType
    return .conditional checkTree extendsTree trueTree (← type? visit falseType)
  | .substitution baseType constraint =>
    let baseTree ← type visit baseType
    return .substitution baseTree (← type visit constraint)
  | .templateLiteral texts members => return .templateLiteral texts (← types visit members)
  | .stringMapping target =>
    return .stringMapping (g.mentionedSymbol? record.symbol) (← type visit target)
  | _ => return otherwise

/-- The node of a type. Flags are not exclusive; they are tested in a fixed order. -/
def shape (id : TypeId) : Walk (Shape TypeTree) := do
  match g.type? id with
  | none => return .primitive .unknown
  | some record =>
    let flags := record.flags
    if flags.has TypeFlags.typeParameter then
      let baseConstraint ← type? visit (g.baseConstraint? id)
      let defaultType ← type? visit (g.defaultType? id)
      return .typeParameter (g.mentionedSymbol? record.symbol) baseConstraint defaultType
    else if flags.has TypeFlags.any then
      if record.intrinsicName? = some "intrinsic" then return .intrinsic "intrinsic"
      else return .primitive .any
    else
      match primitiveOfFlags? flags with
      | some primitive => return .primitive primitive
      | none =>
        if flags.meets TypeFlags.enumLike then enumShape g visit record
        else
          match latePrimitiveOfFlags? flags with
          | some primitive => return .primitive primitive
          | none =>
            if flags.meets TypeFlags.literal then
              match record.data with
              | .literal value => return literalShape value
              | _ => return .primitive .unknown
            else if flags.has TypeFlags.object then objectShape g visit id record
            else operatorShape g visit record

/-- Walks a list of types; an empty list leaves nothing. -/
def typesIfAny (types : List TypeId) : Walk (Option (List TypeTree)) :=
  if types.isEmpty then pure none else some <$> Walk.types visit types

/-- The full node of a type: its kind, then its type arguments and type parameters. -/
def layer (id : TypeId) (symbolMeta : Option SymbolMeta) : Walk (Layer TypeTree) := do
  let shape ← shape g visit id
  let (arguments, parameters) := g.generics id shape.kind
  let typeArguments ← typesIfAny visit arguments
  let typeParameters ← typesIfAny visit parameters
  let aliasSymbolMeta := g.mentionedSymbol? ((g.type? id).bind (·.aliasSymbol))
  return ⟨id, shape, symbolMeta, aliasSymbolMeta, typeArguments, typeParameters⟩

/-- Walks an occurrence, with a number of levels left for its node and those below it. -/
def walk (config : TreeConfig) : Nat → Occurrence → Walk TypeTree
  | levels, place => do
    let symbolMeta := place.symbol.bind fun symbol =>
      g.symbolMeta? symbol place.optional place.insideClassOrInterface
    let leaf (shape : Shape TypeTree) : TypeTree := .node { id := place.type, shape, symbolMeta }
    match levels with
    | 0 => return leaf .maxDepth
    | levels + 1 =>
      let context ← get
      let location :=
        if config.referenceDefinedTypes && 0 < context.depth then g.definedTypeLocation? place.type
        else none
      if context.seen.contains place.type then return leaf (.reference none)
      else if location.isSome then return leaf (.reference location)
      else
        set ({ depth := context.depth + 1, seen := place.type :: context.seen } : WalkContext)
        let layer ← layer g (walk config levels) place.type symbolMeta
        modify fun context => { context with depth := context.depth - 1 }
        return .node layer

end Walk

namespace TypeGraph

variable (g : TypeGraph)

/-- Where a walk starts. -/
def occurrenceOf : TreeRoot → Occurrence
  | .symbol symbol => { type := g.typeOf symbol, symbol := some symbol }
  | .type type => { type }
  | .symbolWithType symbol type => { type, symbol := some symbol }

/-- The tree of a root. -/
def tree (root : TreeRoot) (config : TreeConfig) : TypeTree :=
  (Walk.walk g config config.maxDepth.toNat (g.occurrenceOf root) {}).1

end TypeGraph

end TypeAtlas
