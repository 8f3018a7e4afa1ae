import TypeAtlas.Proofs.View.Codec
import TypeAtlas.Proofs.View.Describe
/-!
# What a description shows

A description lists the trees below a node by themselves, in groups, as arguments of type
parameters, or inside functions that stand for signatures. Taken together these are the children of
the node, each once (`Piece.shown_pieces`), but for one case: a function with one signature is
described by this signature, and leaves the type arguments and type parameters of the node out
(`TypeTree.leftOut`, `Resolve.description_shows_children`).
-/

namespace TypeAtlas

/-! ## The trees in a description -/

/-- Whether a child of a node stands for signatures of the node: it is the constructor of a class,
or one of several signatures of a function, which alone are listed without a purpose. -/
def ChildOptions.standsForSignatures (options : ChildOptions) (parent : NodeKind) : Bool :=
  options.purpose == some .classConstructor || parent == .function && options.purpose.isNone

/-- The trees that a child of a node shows: a function that stands for signatures shows what these
are made of, and a group shows the trees in it, at any depth. -/
def Child.shown (parent : NodeKind) : Child View → List TypeTree
  | raw tree options =>
    (if options.standsForSignatures parent then tree.shape.children else [tree]) ++
      options.contextualTypeArgument.toList
  | made view => view.trees

/-- What the description of a function with one signature has no place for. -/
def TypeTree.leftOut (tree : TypeTree) : List TypeTree :=
  match tree.shape with
  | .function [_] => tree.layer.typeArguments.getD [] ++ tree.layer.typeParameters.getD []
  | _ => []

/-- A template literal has a text before each of its types. -/
def Shape.HasTexts {α : Type} : Shape α → Prop
  | templateLiteral texts types => types.length ≤ texts.length
  | _ => True

theorem TypeTree.leftOut_other {tree : TypeTree} (h : ∀ s, tree.shape ≠ .function [s]) :
    tree.leftOut = [] := by
  unfold leftOut
  split
  next s hs => exact absurd hs (h s)
  next => rfl

/-! ## The trees in a piece -/

/-- The tree of an item with the argument that is given for it. -/
def Item.trees (item : Item) : List TypeTree :=
  item.tree :: item.options.contextualTypeArgument.toList

namespace Piece

/-- The trees that a piece shows. -/
def shown (parent : NodeKind) : Piece → List TypeTree
  | item i => i.child.shown parent
  | group _ _ items _ _ => items.flatMap Item.trees

variable {parent : NodeKind}

theorem shown_make (root : Root) (p : Piece) (s : ResolverState) :
    (p.make root s).1.shown parent = p.shown parent := by
  cases p with
  | item i => rfl
  | group purpose kindText items name readonly =>
    rw [make_group, Child.shown, groupView, View.trees_node]
    exact List.flatMap_map ..

theorem shown_mapM_make (root : Root) (ps : List Piece) (s : ResolverState) :
    (ps.mapM (make root) s).1.flatMap (Child.shown parent) = ps.flatMap (shown parent) := by
  rw [List.flatMap_def, List.flatMap_def, map_mapM_list (shown_make root)]

/-! ## Items -/

/-- Items that do not stand for signatures show themselves. -/
theorem shown_each {items : List Item}
    (h : ∀ i ∈ items, i.options.standsForSignatures parent = false) :
    (each items).flatMap (shown parent) = items.flatMap Item.trees := by
  rw [each, List.flatMap_map]
  refine List.flatMap_congr fun i hi => ?_
  rw [shown, Item.child, Child.shown, h i hi]
  rfl

theorem trees_plain (trees : List TypeTree) : (Item.plain trees).flatMap Item.trees = trees := by
  simp [Item.plain, Item.trees, List.flatMap_map]

theorem trees_withPurpose (purpose : Purpose) (trees : List TypeTree) :
    (Item.withPurpose purpose trees).flatMap Item.trees = trees := by
  simp [Item.withPurpose, Item.trees, List.flatMap_map]

theorem shown_plain (hparent : (parent == .function) = false) (trees : List TypeTree) :
    (each (Item.plain trees)).flatMap (shown parent) = trees := by
  rw [shown_each, trees_plain]
  refine List.forall_mem_map.2 fun tree _ => ?_
  rw [ChildOptions.standsForSignatures, hparent]
  rfl

theorem shown_withPurpose {purpose : Purpose} (hpurpose : purpose ≠ .classConstructor)
    (trees : List TypeTree) :
    (each (Item.withPurpose purpose trees)).flatMap (shown parent) = trees := by
  rw [shown_each, trees_withPurpose]
  refine List.forall_mem_map.2 fun tree _ => ?_
  simp [ChildOptions.standsForSignatures, hpurpose]

/-- A function that stands for signatures shows what they are made of. -/
theorem shown_signatures {options : ChildOptions} (h : options.standsForSignatures parent = true)
    (hargument : options.contextualTypeArgument = none) (id : TypeId)
    (signatures : List (SignatureLayer TypeTree)) :
    (item ⟨.node { id, shape := .function signatures }, options⟩).shown parent =
      signatures.flatMap SignatureLayer.children := by
  rw [shown, Item.child, Child.shown, if_pos h, hargument]
  exact List.append_nil _

/-! ## Groups -/

/-- A group that is left out if nothing is in it. -/
theorem shown_groupOf (purpose : Purpose) (kindText : String) (trees : List TypeTree) :
    (if trees.isEmpty then [] else [group purpose kindText (Item.plain trees)]).flatMap
      (shown parent) = trees := by
  split
  next hnone =>
    rw [List.isEmpty_iff.1 hnone]
    rfl
  next => rw [List.flatMap_singleton, shown, trees_plain]

/-- The items at the places of a list are its first ones. -/
theorem flatMap_zipIdx_getElem? {α β : Type} (items : List α) : ∀ (places : List β) (n : Nat),
    (places.zipIdx n).flatMap (fun p => items[p.2]?.toList) = (items.drop n).take places.length
  | [], n => by
    rw [List.zipIdx_nil, List.length_nil, List.take_zero]
    rfl
  | _ :: places, n => by
    rw [List.zipIdx_cons, List.flatMap_cons, flatMap_zipIdx_getElem? items places (n + 1),
      List.length_cons]
    by_cases hn : n < items.length
    · rw [List.drop_eq_getElem_cons hn, List.take_succ_cons, List.getElem?_eq_getElem hn]
      rfl
    · have hnone := Nat.le_of_not_lt hn
      rw [List.getElem?_eq_none hnone, List.drop_eq_nil_of_le hnone,
        List.drop_eq_nil_of_le (Nat.le_succ_of_le hnone), List.take_nil, List.take_nil]
      rfl

/-- Every argument stands with the parameter at its place, or follows. -/
theorem perm_paired (parameters arguments : List TypeTree) :
    (parameters.zipIdx.flatMap (fun p => p.1 :: arguments[p.2]?.toList) ++
      arguments.drop parameters.length).Perm (parameters ++ arguments) := by
  have hparameters : parameters.zipIdx.flatMap (fun p => [p.1]) = parameters :=
    (List.flatMap_pure_eq_map ..).trans (List.zipIdx_map_fst 0 parameters)
  have harguments := flatMap_zipIdx_getElem? arguments parameters 0
  rw [List.drop_zero] at harguments
  have hapart := List.flatMap_append_perm parameters.zipIdx (fun p => [p.1])
    (fun p => arguments[p.2]?.toList)
  rw [hparameters, harguments] at hapart
  refine (hapart.symm.append_right _).trans ?_
  rw [List.append_assoc, List.take_append_drop]

theorem perm_generics (parameters arguments : Option (List TypeTree)) :
    ((generics parameters arguments).flatMap (shown parent)).Perm
      (arguments.getD [] ++ parameters.getD []) := by
  unfold generics
  dsimp only
  split
  next hparameters =>
    rw [List.isEmpty_iff.1 hparameters, List.append_nil]
    exact .of_eq (shown_groupOf _ _ _)
  next =>
    rw [List.flatMap_singleton, shown, List.flatMap_append, trees_plain, List.flatMap_map]
    exact (perm_paired _ _).trans List.perm_append_comm

theorem shown_indexInfos (infos : List (IndexLayer TypeTree)) :
    (infos.map indexInfo).flatMap (shown parent) = infos.flatMap IndexLayer.children := by
  rw [List.flatMap_map]
  refine List.flatMap_congr fun info _ => ?_
  rw [indexInfo, shown, List.flatMap_append, trees_withPurpose, trees_withPurpose,
    IndexLayer.children]

/-! ## Kinds -/

theorem perm_signature (s : SignatureLayer TypeTree) :
    ((signature s).flatMap (shown parent)).Perm s.children := by
  rw [signature, List.flatMap_append, List.flatMap_append, shown_withPurpose (by decide),
    shown_withPurpose (by decide), SignatureLayer.children, List.append_assoc]
  have hgenerics : ((generics s.typeParameters none).flatMap (shown parent)).Perm
      (s.typeParameters.getD []) := perm_generics _ _
  exact List.perm_append_comm.trans (hgenerics.append_left _)

theorem perm_append_reverse {α : Type} (as bs cs : List α) :
    (as ++ bs ++ cs).Perm (cs ++ bs ++ as) := by
  rw [List.append_assoc cs bs as]
  exact List.perm_append_comm.trans (List.perm_append_comm.append_left cs)

/-- The properties of a class come first among its children and last in its description. -/
theorem perm_classLike (hparent : (parent == .function) = false) (id : TypeId)
    (c : ClassLayer TypeTree) :
    ((classLike id c).flatMap (shown parent)).Perm c.children := by
  have hconstruct : (each (Item.withPurpose .classConstructor
      (if c.constructSignatures.isEmpty then []
        else [TypeTree.node { id, shape := .function c.constructSignatures }]))).flatMap
          (shown parent) = c.constructSignatures.flatMap SignatureLayer.children := by
    split
    next hnone =>
      rw [List.isEmpty_iff.1 hnone]
      rfl
    next => exact (List.flatMap_singleton ..).trans (shown_signatures rfl rfl id _)
  rw [classLike, List.flatMap_append, List.flatMap_append, List.flatMap_append,
    List.flatMap_append, shown_groupOf, hconstruct, shown_plain hparent,
    shown_withPurpose (by decide), shown_indexInfos]
  refine (perm_append_reverse _ _ _).trans (.of_eq ?_)
  rw [ClassLayer.children]
  simp only [List.append_assoc]

/-- Every type stands behind the text at its place. -/
theorem shown_templateLiteral (hparent : (parent == .function) = false) {texts : List String}
    {types : List TypeTree} (h : types.length ≤ texts.length) :
    (templateLiteral texts types).flatMap (shown parent) = types := by
  have htext : ∀ p : String × Nat,
      ((if p.1.isEmpty then []
        else [group .templateLiteralText (Message.format Message.textSegment.template [p.1]) []]) ++
          each (Item.plain types[p.2]?.toList)).flatMap (shown parent) = types[p.2]?.toList := by
    intro p
    rw [List.flatMap_append, shown_plain hparent]
    split <;> rfl
  rw [templateLiteral, List.flatMap_assoc, List.flatMap_congr fun p _ => htext p,
    flatMap_zipIdx_getElem?, List.drop_zero, List.take_of_length_le h]

theorem shown_tuple (hparent : (parent == .function) = false) (types : List TypeTree)
    (names : Option (List String)) (minLength : Option UInt64) :
    (each (tuple types names minLength)).flatMap (shown parent) = types := by
  rw [shown_each, tuple, List.flatMap_map]
  · exact (List.flatMap_pure_eq_map ..).trans (List.zipIdx_map_fst 0 types)
  · refine List.forall_mem_map.2 fun p _ => ?_
    rw [ChildOptions.standsForSignatures, hparent]
    rfl

/-- The pieces that belong to the kind of a node show the children that belong to it. -/
theorem perm_ofShape (id : TypeId) {shape : Shape TypeTree}
    (harray : ∀ element readonly, shape ≠ .array element readonly)
    (htexts : shape.HasTexts) :
    ((ofShape id {} shape).flatMap (shown shape.kind)).Perm shape.children := by
  cases shape with
  | array element readonly => exact absurd rfl (harray element readonly)
  | class' members | interface members => exact perm_classLike rfl id members
  | object properties infos objectClass =>
    rw [ofShape, List.flatMap_append, List.flatMap_append, shown_withPurpose (by decide),
      shown_indexInfos, shown_plain rfl]
    exact perm_append_reverse _ _ _
  | intersection types properties infos =>
    rw [ofShape, List.flatMap_append, List.flatMap_append, shown_indexInfos, shown_plain rfl,
      shown_plain rfl]
    exact perm_append_reverse _ _ _
  | function signatures =>
    rw [ofShape, Item.plain, each, List.map_map, List.map_map, List.flatMap_map, Shape.children]
    exact .of_eq (List.flatMap_congr fun s _ =>
      (shown_signatures rfl rfl id [s]).trans (List.flatMap_singleton ..))
  | tuple types names readonly minLength =>
    exact .of_eq (shown_tuple rfl types names minLength)
  | templateLiteral texts types =>
    exact .of_eq (shown_templateLiteral rfl htexts)
  | union types | enum _ types => exact .of_eq (shown_plain rfl types)
  | typeParameter symbol baseConstraint defaultType =>
    rw [ofShape, List.flatMap_append, List.flatMap_append, shown_withPurpose (by decide),
      shown_withPurpose (by decide), shown_withPurpose (by decide)]
    exact List.perm_append_comm
  | conditional | index | indexedAccess | substitution | stringMapping =>
    simp (disch := decide) only [ofShape, List.flatMap_append, shown_withPurpose, Shape.children]
    rfl
  | primitive | intrinsic | stringLiteral | numberLiteral | bigintLiteral | booleanLiteral
  | enumLiteral | nonPrimitive | reference | maxDepth => rfl

/-- A description and what it has no place for are the children of the node. -/
theorem shown_pieces {tree : TypeTree}
    (harray : ∀ element readonly, tree.shape ≠ .array element readonly)
    (htexts : tree.shape.HasTexts) :
    ((tree.pieces {}).flatMap (shown tree.shape.kind) ++ tree.leftOut).Perm tree.children := by
  rw [TypeTree.children, Layer.children, List.append_assoc]
  by_cases hsignature : ∃ s, tree.shape = .function [s]
  · obtain ⟨s, hs⟩ := hsignature
    have hshape : tree.layer.shape.children = s.children := by
      rw [show tree.layer.shape = .function [s] from hs]
      exact List.flatMap_singleton ..
    rw [tree.pieces_signature hs, TypeTree.leftOut, hs, hshape]
    exact (perm_signature s).append_right _
  · have hother : ∀ s, tree.shape ≠ .function [s] := fun s hs => hsignature ⟨s, hs⟩
    rw [tree.pieces_other hother, TypeTree.leftOut_other hother, List.append_nil,
      List.flatMap_append]
    exact ((perm_generics _ _).append (perm_ofShape tree.id harray htexts)).trans
      List.perm_append_comm

end Piece

namespace Resolve

/-- The description of a node that is no array shows each child of the node once and nothing else,
but for what it has no place for: it is complete just when there is nothing of this. -/
theorem description_shows_children (root : Root) {tree : TypeTree}
    (harray : ∀ element readonly, tree.shape ≠ .array element readonly)
    (htexts : tree.shape.HasTexts) (s : ResolverState) :
    ∃ cs, (describe root tree {} s).1 = .ok cs ∧
      (cs.flatMap (Child.shown tree.shape.kind) ++ tree.leftOut).Perm tree.children ∧
      ((cs.flatMap (Child.shown tree.shape.kind)).Perm tree.children ↔ tree.leftOut = []) := by
  have hperm := Piece.shown_pieces harray htexts
  rw [← Piece.shown_mapM_make root _ s] at hperm
  refine ⟨((tree.pieces {}).mapM (Piece.make root) s).1, ?_, hperm, fun hcomplete => ?_,
    fun hnone => ?_⟩
  · rw [describe_eq root harray]
    rfl
  · have hlength := hperm.length_eq.trans hcomplete.length_eq.symm
    rw [List.length_append, Nat.add_eq_left] at hlength
    exact List.eq_nil_of_length_eq_zero hlength
  · rw [hnone, List.append_nil] at hperm
    exact hperm

end Resolve

/-! ## A class and a function -/

/-- A node without children. -/
def bare (n : UInt32) : TypeTree :=
  .node { id := ⟨n⟩, shape := .primitive .string }

/-- A class with a constructor, one type argument more than type parameters, and an index
signature. -/
def fullClass : TypeTree :=
  .node
    { id := ⟨1⟩
      shape := .class'
        { properties := [bare 2]
          indexInfos := [{ keyType := some (bare 3), valueType := some (bare 4) }]
          baseType := some (bare 5)
          implementsTypes := [bare 6]
          constructSignatures := [{ parameters := [bare 7], returnType := some (bare 8) }] }
      typeArguments := some [bare 9, bare 10]
      typeParameters := some [bare 11] }

/-- Its description is complete. -/
theorem Resolve.description_shows_children_fullClass :
    ∃ cs, (describe (.ofTree fullClass) fullClass {} {}).1 = .ok cs ∧
      (cs.flatMap (Child.shown .class')).Perm
        [bare 2, bare 3, bare 4, bare 5, bare 6, bare 7, bare 8, bare 9, bare 10, bare 11] :=
  have ⟨cs, hcs, _, hcomplete⟩ :=
    @description_shows_children (.ofTree fullClass) fullClass nofun trivial {}
  ⟨cs, hcs, hcomplete.2 rfl⟩

/-- A function type with a type parameter of its alias. -/
def aliasedFunction : TypeTree :=
  .node
    { id := ⟨1⟩
      shape := .function [{ parameters := [bare 2], returnType := some (bare 3) }]
      typeParameters := some [bare 4] }

/-- The type parameter is left out. -/
theorem Resolve.description_incomplete_aliasedFunction :
    ∃ cs, (describe (.ofTree aliasedFunction) aliasedFunction {} {}).1 = .ok cs ∧
      cs.flatMap (Child.shown .function) = [bare 2, bare 3] ∧
      aliasedFunction.children = [bare 2, bare 3, bare 4] ∧
      ¬(cs.flatMap (Child.shown .function)).Perm aliasedFunction.children :=
  ⟨_, rfl, rfl, rfl, fun hperm => absurd hperm.length_eq (by decide)⟩

end TypeAtlas
