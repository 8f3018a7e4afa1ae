import TypeAtlas.Tree.Scope
import TypeAtlas.View.Error
import TypeAtlas.View.Message
/-!
# From a tree to views

A resolver makes views of nodes on demand. The view of a node describes its children, and only when
they are asked for are they viewed in turn. Arrays and references are not viewed: they are
unwrapped until another node is reached (`Unwrapped.resolve`), through the scope of the tree or,
for a reference with a location, through a retriever.

The state of a resolver only grows: each view gets the next handle, and the resolver remembers for
it the node it was made from and the root of the tree that the node is part of.
-/

namespace TypeAtlas

/-- A tree with its scope. -/
structure Root where
  tree : TypeTree
  scope : Scope
  scope_eq : scope = Scope.ofTree tree

namespace Root

/-- A tree as a root. -/
def ofTree (tree : TypeTree) : Root :=
  ⟨tree, Scope.ofTree tree, rfl⟩

instance : Inhabited Root := ⟨ofTree default⟩

end Root

/-- Finds the tree of the type declared at a location. -/
abbrev Retriever := Location → Except Failure (Option TypeTree)

/-- Where a view comes from: the node it was made from, unless it is a group, and the root in whose
scope the references below it are resolved. -/
structure Origin where
  raw : Option TypeTree
  root : Root
  deriving Inhabited

/-- The state of a resolver. -/
structure ResolverState where
  nextHandle : UInt32 := 0
  origins : List (ViewId × Origin) := []
  deriving Inhabited

/-- A step of a resolver. -/
abbrev Resolve := StateM ResolverState

namespace ResolverState

/-- Where the view with a handle comes from. -/
def origin? (state : ResolverState) (handle : ViewId) : Option Origin :=
  state.origins.lookup handle

/-- Whether a view was made by this resolver. -/
def knows (state : ResolverState) (view : View) : Bool :=
  (state.origin? view.handle).isSome

/-- The node that a view was made from. -/
def raw? (state : ResolverState) (view : View) : Option TypeTree :=
  (state.origin? view.handle).bind (·.raw)

end ResolverState

/-! ## Unwrapping -/

/-- How many references are followed for one node. -/
def maxReferenceHops : Nat := 64

/-- A node on the way to the one that is viewed. -/
structure Unwrapped where
  node : TypeTree
  root : Root
  /-- The symbol of the occurrence, or else that of the first retrieved tree that has one. -/
  symbol : Option SymbolMeta
  /-- How many arrays were passed. -/
  dimension : Nat := 0
  /-- Whether one of them was read-only. -/
  readonlyArray : Bool := false

namespace Unwrapped

theorem sizeOf_element_lt {tree element : TypeTree} {readonly : Bool}
    (h : tree.shape = .array element readonly) : sizeOf element < sizeOf tree :=
  TypeTree.sizeOf_lt_of_mem_children
    (by
      have : element ∈ tree.layer.shape.children := by
        rw [show tree.layer.shape = tree.shape from rfl, h]
        simp [Shape.children]
      simp [TypeTree.children, Layer.children, this])

/-- The first node inside nested arrays that is no array. -/
def peel (u : Unwrapped) : Unwrapped :=
  match _shape : u.node.shape with
  | .array element readonly =>
    peel { u with
      node := element
      dimension := u.dimension + 1
      readonlyArray := u.readonlyArray || readonly }
  | _ => u
termination_by sizeOf u.node
decreasing_by exact sizeOf_element_lt ‹_›

/-- The node that a reference stands for. -/
def follow (retriever : Option Retriever) (u : Unwrapped) (location : Option Location) :
    Except ViewError Unwrapped :=
  match location with
  | none =>
    match u.root.scope.get? u.node.id with
    | some target => .ok { u with node := target }
    | none => .error (.invalidReference u.node.id)
  | some location =>
    match retriever with
    | none => .error (.missingRetriever location)
    | some retrieve =>
      match retrieve location with
      | .error failure => .error (.retriever failure)
      | .ok none => .error (.unresolvedLocation location)
      | .ok (some tree) =>
        .ok { u with node := tree, root := .ofTree tree, symbol := u.symbol.or tree.symbolMeta }

/-- The first node that is neither an array nor a reference, with a number of references that may be
followed. -/
def resolve (retriever : Option Retriever) : Nat → Unwrapped → Except ViewError Unwrapped
  | hops, start =>
    let u := start.peel
    match u.node.shape with
    | .reference location =>
      match hops with
      | 0 => .error (.referenceChainTooLong maxReferenceHops)
      | hops + 1 =>
        match follow retriever u location with
        | .ok next => resolve retriever hops next
        | .error error => .error error
    | _ => .ok u

end Unwrapped

/-! ## Describing children -/

namespace Resolve

/-- Takes the next handle for a view. -/
def allocate (origin : Origin) : Resolve ViewId := fun state =>
  let handle : ViewId := ⟨state.nextHandle⟩
  (handle,
    { nextHandle := state.nextHandle + 1, origins := (handle, origin) :: state.origins })

/-- A child described by its tree alone. -/
def plain (tree : TypeTree) : Child View :=
  .raw tree {}

/-- A child with a purpose. -/
def withPurpose (purpose : Purpose) (tree : TypeTree) : Child View :=
  .raw tree { purpose := some purpose }

/-- A group of children. -/
def group (root : Root) (purpose : Purpose) (kindText : String) (children : List (Child View)) :
    Resolve (ViewLayer View) := do
  let handle ← allocate ⟨none, root⟩
  return { handle, purpose := some purpose, kindText := some kindText, children }

/-- The group of type parameters and type arguments, if there are any. Arguments are shown with the
parameters they are for; those left over follow. -/
def generics (root : Root) (parameters arguments : Option (List TypeTree)) :
    Resolve (List (Child View)) := do
  let parameters := parameters.getD []
  let arguments := arguments.getD []
  let group (purpose : Purpose) (items : List (Child View)) : Resolve (List (Child View)) := do
    return [.made (.node (← group root purpose (Message.purposeText purpose) items))]
  if parameters.isEmpty then
    if arguments.isEmpty then return []
    else group .typeArgumentList (arguments.map plain)
  else
    let paired := parameters.zipIdx.map fun (parameter, n) =>
      Child.raw parameter { contextualTypeArgument := arguments[n]? }
    group .typeParameterList (paired ++ (arguments.drop parameters.length).map plain)

/-- A group for each index signature. -/
def indexInfos (root : Root) (infos : List (IndexLayer TypeTree)) :
    Resolve (List (Child View)) :=
  infos.mapM fun info => do
    let items := info.keyType.toList.map (withPurpose .indexParameterType) ++
      info.valueType.toList.map (withPurpose .indexValueType)
    let layer ← group root .indexInfo Message.indexInfo.template items
    return .made (.node
      { layer with name := info.parameterSymbol.map (·.name), readonly := info.readonly })

/-- Type parameters, parameters and return type. -/
def signature (root : Root) (s : SignatureLayer TypeTree) : Resolve (List (Child View)) := do
  let generics ← generics root s.typeParameters none
  return generics ++ s.parameters.map (withPurpose .parameter) ++
    s.returnType.toList.map (withPurpose .return')

/-- Base type, implemented types, constructor, index signatures, properties. -/
def classLike (root : Root) (id : TypeId) (c : ClassLayer TypeTree) :
    Resolve (List (Child View)) := do
  let base := c.baseType.toList.map (withPurpose .classBaseType)
  let implementations ←
    if c.implementsTypes.isEmpty then pure []
    else do
      let purpose := Purpose.classImplementations
      let layer ← group root purpose (Message.purposeText purpose) (c.implementsTypes.map plain)
      pure [Child.made (.node layer)]
  let construct :=
    if c.constructSignatures.isEmpty then []
    else
      [withPurpose .classConstructor (.node { id, shape := .function c.constructSignatures })]
  let infos ← indexInfos root c.indexInfos
  return base ++ implementations ++ construct ++ infos ++ c.properties.map plain

/-- The texts and types of a template literal by turns; empty texts are left out. -/
def templateLiteral (root : Root) (texts : List String) (types : List TypeTree) :
    Resolve (List (Child View)) := do
  let pieces ← texts.zipIdx.mapM fun (text, n) => do
    let text ←
      if text.isEmpty then pure []
      else do
        let layer ← group root .templateLiteralText
          (Message.format Message.textSegment.template [text]) []
        pure [Child.made (.node layer)]
    return text ++ types[n]?.toList.map plain
  return pieces.flatten

/-- The elements of a tuple with their names. -/
def tuple (types : List TypeTree) (names : Option (List String)) (minLength : Option UInt64) :
    List (Child View) :=
  types.zipIdx.map fun (type, n) =>
    .raw type
      { name := names.bind (·[n]?), optional := minLength.any fun min => min.toNat ≤ n }

/-- The children that belong to the kind of a node, apart from the generics. -/
def ofShape (root : Root) (id : TypeId) (options : ChildOptions) :
    Shape TypeTree → Resolve (List (Child View))
  | .object properties infos objectClass => do
    let infos ← indexInfos root infos
    return objectClass.toList.map (withPurpose .objectClass) ++ infos ++ properties.map plain
  | .class' members => classLike root id members
  | .interface members => classLike root id members
  | .function signatures =>
    return signatures.map fun s => plain (.node { id, shape := .function [s] })
  | .tuple types names _ minLength => return tuple types names minLength
  | .conditional checkType extendsType trueType falseType =>
    return [withPurpose .conditionalCheck checkType, withPurpose .conditionalExtends extendsType] ++
      trueType.toList.map (withPurpose .conditionalTrue) ++
      falseType.toList.map (withPurpose .conditionalFalse)
  | .index keyOf => return [withPurpose .keyof keyOf]
  | .indexedAccess objectType indexType =>
    return [withPurpose .indexedAccessBase objectType, withPurpose .indexedAccessIndex indexType]
  | .substitution baseType substitute =>
    return [withPurpose .substitutionBase baseType, withPurpose .substitutionSubstitute substitute]
  | .intersection types properties infos => do
    let infos ← indexInfos root infos
    return infos ++ properties.map plain ++ types.map plain
  | .union types => return types.map plain
  | .enum _ members => return members.map plain
  | .stringMapping _ mapped => return [withPurpose .stringMappingType mapped]
  | .templateLiteral texts types => templateLiteral root texts types
  | .typeParameter _ baseConstraint defaultType =>
    return options.contextualTypeArgument.toList.map (withPurpose .parameterValue) ++
      defaultType.toList.map (withPurpose .parameterDefault) ++
      baseConstraint.toList.map (withPurpose .parameterBaseConstraint)
  | .array .. | .primitive _ | .intrinsic _ | .stringLiteral _ | .numberLiteral _
  | .bigintLiteral _ | .booleanLiteral _ | .enumLiteral .. | .nonPrimitive | .reference _
  | .maxDepth => return []

/-- The descriptions of the children of a node. A function with one signature shows that signature;
an array is never described. -/
def describe (root : Root) (tree : TypeTree) (options : ChildOptions) :
    Resolve (Except ViewError (List (Child View))) := do
  match tree.shape with
  | .function [s] => return .ok (← signature root s)
  | .array .. => return .error .unexpectedArray
  | shape =>
    let generics ← generics root tree.layer.typeParameters tree.layer.typeArguments
    return .ok (generics ++ (← ofShape root tree.id options shape))

/-! ## Viewing nodes -/

/-- The name of a type: its alias, or else the name that its kind gives it. -/
def aliasName? (tree : TypeTree) : Option String :=
  match tree.layer.aliasSymbolMeta with
  | some symbol => some symbol.name
  | none =>
    match tree.shape with
    | .typeParameter symbol .. => symbol.map (·.name)
    | .enumLiteral _ member parent =>
      member.map fun member =>
        match parent with
        | some parent => parent.name ++ "." ++ member.name
        | none => member.name
    | .enum symbol _ => symbol.map (·.name)
    | .class' members => members.classSymbol.map (·.name)
    | .interface members => members.classSymbol.map (·.name)
    | _ => none

/-- What a view shows of a symbol. -/
def viewSymbol (symbol : SymbolMeta) : ViewSymbol where
  name := symbol.name
  anonymous := symbol.anonymous
  insideClassOrInterface := symbol.insideClassOrInterface
  property := symbol.flags.has SymbolFlags.property
  isArgument := symbol.flags.has SymbolFlags.functionScopedVariable
  locations := symbol.declarations

/-- Whether a node is a read-only tuple. -/
def isReadonlyTuple : Shape TypeTree → Bool
  | .tuple _ _ readonly _ => readonly
  | _ => false

/-- The view of an unwrapped node with given children. -/
def assemble (u : Unwrapped) (options : ChildOptions) (handle : ViewId)
    (children : List (Child View)) : View :=
  .node
    { handle
      kind := some u.node.shape.kind
      kindText := some u.node.shape.text
      aliasName := aliasName? u.node
      name := options.name
      symbol := u.symbol.map viewSymbol
      purpose := options.purpose
      optional := options.optional || u.symbol.any (·.optional)
      rest := u.symbol.any (·.rest)
      readonly := u.readonlyArray || u.symbol.any (·.readonly) || isReadonlyTuple u.node.shape
      dimension := UInt32.ofNat u.dimension
      typeId := some u.node.id
      children }

/-- The view of a tree in the scope of a root. -/
def view (retriever : Option Retriever) (tree : TypeTree) (root : Root) (options : ChildOptions) :
    Resolve (Except ViewError View) := do
  let start : Unwrapped := { node := tree, root, symbol := tree.symbolMeta }
  match start.resolve retriever maxReferenceHops with
  | .error error => return .error error
  | .ok u =>
    let handle ← allocate ⟨some u.node, u.root⟩
    match ← describe u.root u.node options with
    | .ok children => return .ok (assemble u options handle children)
    | .error error => return .error error

/-- A view, or the error shown in its place. -/
def resultOf (tree : TypeTree) : Except ViewError View → ViewResult
  | .ok v => .view v
  | .error error => .failure ⟨error.details, some tree⟩

/-- The view of the root of a tree. -/
def localize (retriever : Option Retriever) (root : Root) : Resolve ViewResult := do
  return resultOf root.tree (← view retriever root.tree root {})

/-- The view of one described child. -/
def child (retriever : Option Retriever) (root : Root) : Child View → Resolve ViewResult
  | .made group => return .view group
  | .raw tree options => do return resultOf tree (← view retriever tree root options)

/-- The views of the children of a view, in order. A child that has none becomes a failure and
leaves the others alone. The groups of generics are left out on demand. -/
def children (retriever : Option Retriever) (parent : View) (typeLists : Bool) :
    Resolve (Except ViewError (List ViewResult)) := do
  match (← get).origin? parent.handle with
  | none => return .error (.unknownNode parent.handle)
  | some origin =>
    let shown := parent.children.filter fun child =>
      typeLists || !child.purpose.any Purpose.isTypeList
    return .ok (← shown.mapM (child retriever origin.root))

end Resolve

end TypeAtlas
