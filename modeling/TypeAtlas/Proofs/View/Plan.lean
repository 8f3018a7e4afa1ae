import Mathlib.Data.List.Basic
import TypeAtlas.View.Resolver
/-!
# The plan of a description

What `Resolve.describe` lists for a node does not depend on the state of the resolver: it is data.
`TypeTree.pieces` is this data, the trees and the groups of trees in their order, and describing a
node makes one child of each piece (`Resolve.describe_eq`). Only the groups touch the state, each by
taking one handle. So a fact about descriptions is one about `Piece.make` and an induction over a
list.
-/

namespace TypeAtlas

/-- A tree in a description, with what is said about it there. -/
structure Item where
  tree : TypeTree
  options : ChildOptions := {}

namespace Item

/-- The child that an item describes. -/
def child (item : Item) : Child View :=
  .raw item.tree item.options

/-- Trees that are described alone. -/
def plain (trees : List TypeTree) : List Item :=
  trees.map fun tree => { tree }

/-- Trees that are described with a purpose. -/
def withPurpose (purpose : Purpose) (trees : List TypeTree) : List Item :=
  trees.map fun tree => { tree, options := { purpose := some purpose } }

theorem map_child_plain (trees : List TypeTree) :
    (plain trees).map child = trees.map Resolve.plain :=
  List.map_map

theorem map_child_withPurpose (purpose : Purpose) (trees : List TypeTree) :
    (withPurpose purpose trees).map child = trees.map (Resolve.withPurpose purpose) :=
  List.map_map

end Item

/-- A part of a description: an item, or a group of items. Only the groups of index signatures have
a name or are read-only. -/
inductive Piece where
  | item (item : Item)
  | group (purpose : Purpose) (kindText : String) (items : List Item)
    (name : Option String := none) (readonly : Bool := false)

namespace Piece

/-- The items of a piece. -/
def items : Piece → List Item
  | item i => [i]
  | group _ _ items _ _ => items

/-- The child that a piece describes. -/
def make (root : Root) : Piece → Resolve (Child View)
  | item i => return i.child
  | group purpose kindText items name readonly => do
    let layer ← Resolve.group root purpose kindText (items.map Item.child)
    return .made (.node { layer with name, readonly })

/-- The view of a group, with its handle. -/
def groupView (purpose : Purpose) (kindText : String) (items : List Item) (name : Option String)
    (readonly : Bool) (handle : ViewId) : View :=
  .node
    { handle
      purpose := some purpose
      kindText := some kindText
      name
      readonly
      children := items.map Item.child }

/-- Only a group touches the state: it takes a handle. -/
theorem make_group (root : Root) (purpose : Purpose) (kindText : String) (items : List Item)
    (name : Option String) (readonly : Bool) (s : ResolverState) :
    (group purpose kindText items name readonly).make root s =
      (.made (groupView purpose kindText items name readonly (Resolve.allocate ⟨none, root⟩ s).1),
        (Resolve.allocate ⟨none, root⟩ s).2) :=
  rfl

/-- A piece for each item. -/
def each (items : List Item) : List Piece :=
  items.map item

/-- The group of type parameters and type arguments, if there are any. -/
def generics (parameters arguments : Option (List TypeTree)) : List Piece :=
  let parameters := parameters.getD []
  let arguments := arguments.getD []
  let group (purpose : Purpose) (items : List Item) : List Piece :=
    [.group purpose (Message.purposeText purpose) items]
  if parameters.isEmpty then
    if arguments.isEmpty then [] else group .typeArgumentList (Item.plain arguments)
  else
    let paired := parameters.zipIdx.map fun (parameter, n) =>
      { tree := parameter, options := { contextualTypeArgument := arguments[n]? } }
    group .typeParameterList (paired ++ Item.plain (arguments.drop parameters.length))

/-- The group of an index signature. -/
def indexInfo (info : IndexLayer TypeTree) : Piece :=
  .group .indexInfo Message.indexInfo.template
    (Item.withPurpose .indexParameterType info.keyType.toList ++
      Item.withPurpose .indexValueType info.valueType.toList)
    (info.parameterSymbol.map (·.name)) info.readonly

/-- Type parameters, parameters and return type. -/
def signature (s : SignatureLayer TypeTree) : List Piece :=
  generics s.typeParameters none ++ each (Item.withPurpose .parameter s.parameters) ++
    each (Item.withPurpose .return' s.returnType.toList)

/-- Base type, implemented types, constructor, index signatures, properties. -/
def classLike (id : TypeId) (c : ClassLayer TypeTree) : List Piece :=
  let implementations : List Piece :=
    if c.implementsTypes.isEmpty then []
    else [group .classImplementations (Message.purposeText .classImplementations)
      (Item.plain c.implementsTypes)]
  let construct : List TypeTree :=
    if c.constructSignatures.isEmpty then []
    else [.node { id, shape := .function c.constructSignatures }]
  each (Item.withPurpose .classBaseType c.baseType.toList) ++ implementations ++
    each (Item.withPurpose .classConstructor construct) ++ c.indexInfos.map indexInfo ++
    each (Item.plain c.properties)

/-- The texts and types of a template literal by turns; empty texts are left out. -/
def templateLiteral (texts : List String) (types : List TypeTree) : List Piece :=
  texts.zipIdx.flatMap fun (text, n) =>
    (if text.isEmpty then []
      else [group .templateLiteralText (Message.format Message.textSegment.template [text]) []]) ++
      each (Item.plain types[n]?.toList)

/-- The elements of a tuple with their names. -/
def tuple (types : List TypeTree) (names : Option (List String)) (minLength : Option UInt64) :
    List Item :=
  types.zipIdx.map fun (type, n) =>
    { tree := type
      options :=
        { name := names.bind (·[n]?), optional := minLength.any fun min => min.toNat ≤ n } }

/-- The pieces that belong to the kind of a node, apart from the generics. -/
def ofShape (id : TypeId) (options : ChildOptions) : Shape TypeTree → List Piece
  | .object properties infos objectClass =>
    each (Item.withPurpose .objectClass objectClass.toList) ++ infos.map indexInfo ++
      each (Item.plain properties)
  | .class' members => classLike id members
  | .interface members => classLike id members
  | .function signatures =>
    each (Item.plain (signatures.map fun s => .node { id, shape := .function [s] }))
  | .tuple types names _ minLength => each (tuple types names minLength)
  | .conditional checkType extendsType trueType falseType =>
    each (Item.withPurpose .conditionalCheck [checkType]) ++
      each (Item.withPurpose .conditionalExtends [extendsType]) ++
      each (Item.withPurpose .conditionalTrue trueType.toList) ++
      each (Item.withPurpose .conditionalFalse falseType.toList)
  | .index keyOf => each (Item.withPurpose .keyof [keyOf])
  | .indexedAccess objectType indexType =>
    each (Item.withPurpose .indexedAccessBase [objectType]) ++
      each (Item.withPurpose .indexedAccessIndex [indexType])
  | .substitution baseType substitute =>
    each (Item.withPurpose .substitutionBase [baseType]) ++
      each (Item.withPurpose .substitutionSubstitute [substitute])
  | .intersection types properties infos =>
    infos.map indexInfo ++ each (Item.plain properties) ++ each (Item.plain types)
  | .union types => each (Item.plain types)
  | .enum _ members => each (Item.plain members)
  | .stringMapping _ mapped => each (Item.withPurpose .stringMappingType [mapped])
  | .templateLiteral texts types => templateLiteral texts types
  | .typeParameter _ baseConstraint defaultType =>
    each (Item.withPurpose .parameterValue options.contextualTypeArgument.toList) ++
      each (Item.withPurpose .parameterDefault defaultType.toList) ++
      each (Item.withPurpose .parameterBaseConstraint baseConstraint.toList)
  | .array .. | .primitive _ | .intrinsic _ | .stringLiteral _ | .numberLiteral _
  | .bigintLiteral _ | .booleanLiteral _ | .enumLiteral .. | .nonPrimitive | .reference _
  | .maxDepth => []

end Piece

/-- The pieces of the description of a node. -/
def TypeTree.pieces (tree : TypeTree) (options : ChildOptions) : List Piece :=
  match tree.shape with
  | .function [s] => Piece.signature s
  | shape =>
    Piece.generics tree.layer.typeParameters tree.layer.typeArguments ++
      Piece.ofShape tree.id options shape

/-! ## A description makes its pieces -/

namespace Piece

variable (root : Root)

/-- Items do not touch the state. -/
theorem mapM_make_each (items : List Item) :
    (each items).mapM (make root) = pure (items.map Item.child) := by
  induction items with
  | nil => rfl
  | cons i items ih =>
    rw [each, List.map_cons, List.mapM_cons, ← each, ih]
    rfl

theorem mapM_make_plain (trees : List TypeTree) :
    (each (Item.plain trees)).mapM (make root) = pure (trees.map Resolve.plain) := by
  rw [mapM_make_each, Item.map_child_plain]

theorem mapM_make_withPurpose (purpose : Purpose) (trees : List TypeTree) :
    (each (Item.withPurpose purpose trees)).mapM (make root) =
      pure (trees.map (Resolve.withPurpose purpose)) := by
  rw [mapM_make_each, Item.map_child_withPurpose]

theorem generics_eq (parameters arguments : Option (List TypeTree)) :
    Resolve.generics root parameters arguments =
      (generics parameters arguments).mapM (make root) := by
  unfold Resolve.generics generics
  dsimp only
  by_cases hp : (parameters.getD []).isEmpty = true
  · rw [if_pos hp, if_pos hp]
    by_cases ha : (arguments.getD []).isEmpty = true
    · rw [if_pos ha, if_pos ha]
      rfl
    · rw [if_neg ha, if_neg ha, List.mapM_cons, List.mapM_nil, make, Item.map_child_plain]
      rfl
  · rw [if_neg hp, if_neg hp, List.mapM_cons, List.mapM_nil, make, List.map_append,
      Item.map_child_plain, List.map_map]
    rfl

theorem indexInfos_eq (infos : List (IndexLayer TypeTree)) :
    Resolve.indexInfos root infos = (infos.map indexInfo).mapM (make root) := by
  rw [Resolve.indexInfos, List.mapM_map]
  refine congrArg (fun f => infos.mapM f) (funext fun info => ?_)
  simp only [Function.comp, indexInfo, make, List.map_append, Item.map_child_withPurpose]

theorem signature_eq (s : SignatureLayer TypeTree) :
    Resolve.signature root s = (signature s).mapM (make root) := by
  simp only [Resolve.signature, signature, generics_eq, List.mapM_append, mapM_make_withPurpose,
    bind_assoc, pure_bind]

theorem classLike_eq (id : TypeId) (c : ClassLayer TypeTree) :
    Resolve.classLike root id c = (classLike id c).mapM (make root) := by
  have hconstruct : (if c.constructSignatures.isEmpty then []
      else [Resolve.withPurpose .classConstructor
        (.node { id, shape := .function c.constructSignatures })]) =
      (if c.constructSignatures.isEmpty then []
        else [TypeTree.node { id, shape := .function c.constructSignatures }]).map
          (Resolve.withPurpose .classConstructor) := by
    split <;> rfl
  unfold Resolve.classLike classLike
  rw [hconstruct]
  by_cases hi : c.implementsTypes.isEmpty = true
  · simp only [if_pos hi, indexInfos_eq, List.mapM_append, List.mapM_nil, mapM_make_withPurpose,
      mapM_make_plain, bind_assoc, pure_bind]
  · simp only [if_neg hi, indexInfos_eq, List.mapM_append, List.mapM_cons, List.mapM_nil,
      mapM_make_withPurpose, mapM_make_plain, make, Item.map_child_plain, bind_assoc, pure_bind]
    rfl

/-- The pieces of a list of parts are made part by part. -/
theorem mapM_make_flatMap {α : Type} (f : α → List Piece) (as : List α) :
    (as.flatMap f).mapM (make root) = do
      return (← as.mapM fun a => (f a).mapM (make root)).flatten := by
  induction as with
  | nil => rfl
  | cons a as ih =>
    simp only [List.flatMap_cons, List.mapM_append, List.mapM_cons, ih, bind_assoc, pure_bind,
      List.flatten_cons]

theorem templateLiteral_eq (texts : List String) (types : List TypeTree) :
    Resolve.templateLiteral root texts types =
      (templateLiteral texts types).mapM (make root) := by
  unfold Resolve.templateLiteral templateLiteral
  rw [mapM_make_flatMap]
  refine congrArg (fun f : String × Nat → Resolve (List (Child View)) => do
    return (← texts.zipIdx.mapM f).flatten) (funext fun ⟨text, n⟩ => ?_)
  simp only [List.mapM_append, mapM_make_plain, pure_bind]
  by_cases htext : text.isEmpty = true
  · simp only [if_pos htext, List.mapM_nil, pure_bind]
  · simp only [if_neg htext, List.mapM_cons, List.mapM_nil, make, bind_assoc, pure_bind]
    rfl

theorem ofShape_eq (id : TypeId) (options : ChildOptions) (shape : Shape TypeTree) :
    Resolve.ofShape root id options shape = (ofShape id options shape).mapM (make root) := by
  cases shape with
  | class' members | interface members => exact classLike_eq root id members
  | templateLiteral texts types => exact templateLiteral_eq root texts types
  | object | intersection =>
    simp only [Resolve.ofShape, ofShape, List.mapM_append, mapM_make_plain, mapM_make_withPurpose,
      indexInfos_eq, bind_assoc, pure_bind]
  | union | enum | typeParameter =>
    simp only [Resolve.ofShape, ofShape, List.mapM_append, mapM_make_plain, mapM_make_withPurpose,
      pure_bind]
  | tuple types names readonly minLength =>
    simp only [ofShape, mapM_make_each, tuple, List.map_map]
    rfl
  | function signatures =>
    simp only [Resolve.ofShape, ofShape, mapM_make_plain, List.map_map]
    rfl
  | conditional | indexedAccess | substitution | index | stringMapping =>
    simp only [Resolve.ofShape, ofShape, List.mapM_append, mapM_make_withPurpose, pure_bind]
    rfl
  | array | primitive | intrinsic | stringLiteral | numberLiteral | bigintLiteral | booleanLiteral
  | enumLiteral | nonPrimitive | reference | maxDepth => rfl

end Piece

theorem TypeTree.pieces_signature {tree : TypeTree} {s : SignatureLayer TypeTree}
    (h : tree.shape = .function [s]) (options : ChildOptions) :
    tree.pieces options = Piece.signature s := by
  rw [pieces, h]

theorem TypeTree.pieces_other {tree : TypeTree} (h : ∀ s, tree.shape ≠ .function [s])
    (options : ChildOptions) :
    tree.pieces options =
      Piece.generics tree.layer.typeParameters tree.layer.typeArguments ++
        Piece.ofShape tree.id options tree.shape := by
  unfold pieces
  split
  · next hshape => exact absurd hshape (h _)
  · rfl

namespace Resolve

/-- A node that is no array is described by its pieces. -/
theorem describe_eq (root : Root) {tree : TypeTree}
    (harray : ∀ element readonly, tree.shape ≠ .array element readonly) (options : ChildOptions) :
    describe root tree options = do
      return .ok (← (tree.pieces options).mapM (Piece.make root)) := by
  unfold describe
  split
  · next s hshape => rw [tree.pieces_signature hshape, Piece.signature_eq]
  · next hshape => exact absurd hshape (harray _ _)
  · next hsignature _ =>
    rw [tree.pieces_other hsignature]
    simp only [Piece.generics_eq, Piece.ofShape_eq, List.mapM_append, bind_assoc, pure_bind]

end Resolve

end TypeAtlas
