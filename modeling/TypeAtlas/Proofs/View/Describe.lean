import TypeAtlas.Proofs.View.Plan
import TypeAtlas.Proofs.Walk.Visit
/-!
# What the description of a node is made of

The children that `Resolve.describe` lists for a node are the trees below it, its signatures as
functions of their own, and groups of them. So a property of trees that goes down to children and
holds of such functions holds of all trees in the description, and every group is remembered with
the root in whose scope the node was described (`Resolve.describe_describes`).
-/

namespace TypeAtlas

/-- Whether a node is a type parameter. -/
def Shape.isTypeParameter {α : Type} : Shape α → Bool
  | .typeParameter .. => true
  | _ => false

/-- The type parameters of a node with the arguments that are given for them. -/
def TypeTree.pairs (tree : TypeTree) : List (TypeTree × TypeTree) :=
  (tree.layer.typeParameters.getD []).zip (tree.layer.typeArguments.getD [])

theorem TypeTree.mem_children_of_mem_pairs {tree : TypeTree} {p : TypeTree × TypeTree}
    (hp : p ∈ tree.pairs) : p.1 ∈ tree.children ∧ p.2 ∈ tree.children := by
  obtain ⟨hparameter, hargument⟩ := List.of_mem_zip hp
  exact ⟨List.mem_append_right _ hparameter,
    List.mem_append_left _ (List.mem_append_right _ hargument)⟩

/-- A child given by a tree that has a property, together with the argument that comes with it. -/
def Child.IsItem (Q : TypeTree → Option TypeTree → Prop) : Child View → Prop
  | .raw tree options => Q tree options.contextualTypeArgument
  | .made _ => False

namespace ResolverState

/-- The view with a handle was made in the scope of a root. -/
def Holds (state : ResolverState) (root : Root) (handle : ViewId) : Prop :=
  ∃ raw, (handle, ⟨raw, root⟩) ∈ state.origins

/-- Each handle is the number of views that were made before. -/
structure Numbered (state : ResolverState) : Prop where
  next : state.nextHandle = UInt32.ofNat state.origins.length
  handle : ∀ {newer older : List (ViewId × Origin)} {entry : ViewId × Origin},
    state.origins = newer ++ entry :: older → entry.1 = ⟨UInt32.ofNat older.length⟩

/-- All views made between two states were made in the scope of roots with a property. -/
structure Grows (G : Root → Prop) (s t : ResolverState) : Prop where
  origins : ∃ new, t.origins = new ++ s.origins ∧ ∀ entry ∈ new, G entry.2.root
  numbered : s.Numbered → t.Numbered

variable {G : Root → Prop} {root : Root} {s t u : ResolverState}

theorem Grows.refl (s : ResolverState) : Grows G s s :=
  ⟨⟨[], rfl, List.forall_mem_nil _⟩, id⟩

theorem Grows.trans (h₁ : Grows G s t) (h₂ : Grows G t u) : Grows G s u := by
  obtain ⟨⟨new₁, ht, hnew₁⟩, hnumbered₁⟩ := h₁
  obtain ⟨⟨new₂, hu, hnew₂⟩, hnumbered₂⟩ := h₂
  exact ⟨⟨new₂ ++ new₁, by rw [hu, ht, List.append_assoc],
    List.forall_mem_append.2 ⟨hnew₂, hnew₁⟩⟩, hnumbered₂ ∘ hnumbered₁⟩

theorem Grows.mono {G' : Root → Prop} (hG : ∀ {root}, G root → G' root) (h : Grows G s t) :
    Grows G' s t := by
  obtain ⟨⟨new, ht, hnew⟩, hnumbered⟩ := h
  exact ⟨⟨new, ht, fun entry hentry => hG (hnew entry hentry)⟩, hnumbered⟩

theorem Grows.length_le (h : Grows G s t) : s.origins.length ≤ t.origins.length := by
  obtain ⟨⟨new, ht, -⟩, -⟩ := h
  rw [ht, List.length_append]
  exact Nat.le_add_left _ _

theorem Holds.mono {handle : ViewId} (h : s.Holds root handle) (hst : Grows G s t) :
    t.Holds root handle := by
  obtain ⟨raw, hraw⟩ := h
  obtain ⟨⟨new, ht, -⟩, -⟩ := hst
  exact ⟨raw, ht ▸ List.mem_append_right new hraw⟩

end ResolverState

namespace Child

/-- A child that is an item, or a group of items that is remembered with a root. -/
def Fits (Q : TypeTree → Option TypeTree → Prop) (root : Root) (state : ResolverState) :
    Child View → Prop
  | .raw tree options => IsItem Q (.raw tree options)
  | .made view => state.Holds root view.handle ∧ ∀ item ∈ view.children, item.IsItem Q

variable {Q : TypeTree → Option TypeTree → Prop} {root : Root} {s t : ResolverState}

theorem IsItem.fits {c : Child View} (h : c.IsItem Q) : c.Fits Q root s := by
  cases c with
  | raw tree options => exact h
  | made view => exact h.elim

theorem Fits.mono {c : Child View} (h : c.Fits Q root s) {G : Root → Prop}
    (hst : ResolverState.Grows G s t) : c.Fits Q root t := by
  cases c with
  | raw tree options => exact h
  | made view => exact ⟨h.1.mono hst, h.2⟩

end Child

namespace Resolve

open ResolverState

/-- Between two states the given children were described in the scope of a root. -/
structure Describes (Q : TypeTree → Option TypeTree → Prop) (root : Root) (s : ResolverState)
    (cs : List (Child View)) (t : ResolverState) : Prop where
  grows : Grows (· = root) s t
  fits {c : Child View} : c ∈ cs → c.Fits Q root t

section

variable {Q : TypeTree → Option TypeTree → Prop} {root : Root} {s t u : ResolverState}
  {cs ds : List (Child View)}

theorem describes_items (h : ∀ c ∈ cs, c.IsItem Q) : Describes Q root s cs s where
  grows := .refl s
  fits hc := (h _ hc).fits

theorem Describes.append (h₁ : Describes Q root s cs t) (h₂ : Describes Q root t ds u) :
    Describes Q root s (cs ++ ds) u where
  grows := h₁.grows.trans h₂.grows
  fits h := (List.mem_append.1 h).elim (fun h => (h₁.fits h).mono h₂.grows) h₂.fits

/-! ## Handles -/

theorem numbered_allocate (origin : Origin) {s : ResolverState} (h : s.Numbered) :
    (allocate origin s).2.Numbered where
  next := by
    change s.nextHandle + 1 = UInt32.ofNat (s.origins.length + 1)
    rw [h.next, UInt32.ofNat_add]
    rfl
  handle {newer older entry} hsplit := by
    cases newer with
    | nil =>
      obtain ⟨rfl, rfl⟩ := List.cons.inj hsplit
      exact congrArg ViewId.mk h.next
    | cons first newer => exact h.handle (List.cons.inj hsplit).2

theorem grows_allocate (raw : Option TypeTree) (s : ResolverState) :
    Grows (· = root) s (allocate ⟨raw, root⟩ s).2 :=
  ⟨⟨[_], rfl, List.forall_mem_singleton.2 rfl⟩, numbered_allocate _⟩

theorem holds_allocate (raw : Option TypeTree) (s : ResolverState) :
    (allocate ⟨raw, root⟩ s).2.Holds root (allocate ⟨raw, root⟩ s).1 :=
  ⟨raw, List.mem_cons_self⟩

end

end Resolve

/-! ## What the pieces show -/

/-- Signatures as a function of their own have the property if what is below them has it. -/
def Resolve.ClosedUnderFunctions (Q : TypeTree → Prop) : Prop :=
  ∀ id signatures, (∀ tree ∈ signatures.flatMap SignatureLayer.children, Q tree) →
    Q (.node { id, shape := .function signatures })

theorem Resolve.children_function (id : TypeId) (signatures : List (SignatureLayer TypeTree)) :
    (TypeTree.node { id, shape := .function signatures }).children =
      signatures.flatMap SignatureLayer.children := by
  simp only [TypeTree.children, Layer.children, TypeTree.layer, Shape.children, Option.getD_none,
    List.append_nil]

namespace Piece

open Resolve ResolverState

variable {Q : TypeTree → Option TypeTree → Prop} {root : Root}

/-- All trees in a piece have a property, together with the arguments that come with them. -/
def Within (Q : TypeTree → Option TypeTree → Prop) (p : Piece) : Prop :=
  ∀ i ∈ p.items, Q i.tree i.options.contextualTypeArgument

/-- An item leaves the state alone, and a group takes one handle. -/
theorem make_describes {p : Piece} (h : p.Within Q) (s : ResolverState) :
    Describes Q root s [(p.make root s).1] (p.make root s).2 := by
  cases p with
  | item i => exact describes_items (List.forall_mem_singleton.2 (h i List.mem_cons_self))
  | group purpose kindText items name readonly =>
    refine ⟨grows_allocate none s, fun hc => ?_⟩
    rw [List.mem_singleton.1 hc]
    exact ⟨holds_allocate none s, List.forall_mem_map.2 h⟩

/-- By induction on the pieces. -/
theorem mapM_make_describes : ∀ {ps : List Piece}, (∀ p ∈ ps, p.Within Q) → ∀ s : ResolverState,
    Describes Q root s (ps.mapM (make root) s).1 (ps.mapM (make root) s).2
  | [], _, _ => describes_items (List.forall_mem_nil _)
  | p :: ps, h, s => by
    rw [List.forall_mem_cons] at h
    rw [List.mapM_cons]
    exact (make_describes h.1 s).append (mapM_make_describes h.2 _)

theorem within_each {items : List Item}
    (h : ∀ i ∈ items, Q i.tree i.options.contextualTypeArgument) : ∀ p ∈ each items, p.Within Q :=
  List.forall_mem_map.2 fun i hi => List.forall_mem_singleton.2 (h i hi)

theorem within_group {purpose : Purpose} {kindText : String} {items : List Item}
    (h : ∀ i ∈ items, Q i.tree i.options.contextualTypeArgument) :
    ∀ p ∈ [group purpose kindText items], p.Within Q :=
  List.forall_mem_singleton.2 h

theorem within_append {ps qs : List Piece} (hps : ∀ p ∈ ps, p.Within Q)
    (hqs : ∀ p ∈ qs, p.Within Q) : ∀ p ∈ ps ++ qs, p.Within Q :=
  List.forall_mem_append.2 ⟨hps, hqs⟩

section

variable {trees : List TypeTree} (h : ∀ tree ∈ trees, Q tree none)

include h

theorem items_plain : ∀ i ∈ Item.plain trees, Q i.tree i.options.contextualTypeArgument :=
  List.forall_mem_map.2 h

theorem items_withPurpose (purpose : Purpose) :
    ∀ i ∈ Item.withPurpose purpose trees, Q i.tree i.options.contextualTypeArgument :=
  List.forall_mem_map.2 h

theorem within_plain : ∀ p ∈ each (Item.plain trees), p.Within Q :=
  within_each (items_plain h)

theorem within_withPurpose (purpose : Purpose) :
    ∀ p ∈ each (Item.withPurpose purpose trees), p.Within Q :=
  within_each (items_withPurpose h purpose)

end

theorem within_generics {parameters arguments : Option (List TypeTree)}
    (hparameters : ∀ p ∈ (parameters.getD []).zipIdx, Q p.1 (arguments.getD [])[p.2]?)
    (harguments : ∀ tree ∈ arguments.getD [], Q tree none) :
    ∀ p ∈ generics parameters arguments, p.Within Q := by
  unfold generics
  dsimp only
  split
  · split
    · exact List.forall_mem_nil _
    · exact within_group (items_plain harguments)
  · have hrest : ∀ tree ∈ (arguments.getD []).drop (parameters.getD []).length, Q tree none :=
      fun tree htree => harguments tree (List.mem_of_mem_drop htree)
    have hrest := items_plain hrest
    exact within_group (List.forall_mem_append.2 ⟨List.forall_mem_map.2 hparameters, hrest⟩)

/-- Parameters with the arguments at their places, for parameters that may have none. -/
theorem forall_mem_zipIdx_of_zip {parameters arguments : List TypeTree}
    (hparameters : ∀ tree ∈ parameters, Q tree none)
    (hpairs : ∀ p ∈ parameters.zip arguments, Q p.1 (some p.2)) :
    ∀ p ∈ parameters.zipIdx, Q p.1 arguments[p.2]? := by
  rintro ⟨parameter, n⟩ hp
  rw [List.mem_zipIdx_iff_getElem?] at hp
  cases hargument : arguments[n]? with
  | none => exact hparameters parameter (List.mem_of_getElem? hp)
  | some argument =>
    exact hpairs (parameter, argument)
      (List.mem_of_getElem? (List.getElem?_zip_eq_some.2 ⟨hp, hargument⟩))

theorem within_indexInfos {infos : List (IndexLayer TypeTree)}
    (h : ∀ tree ∈ infos.flatMap IndexLayer.children, Q tree none) :
    ∀ p ∈ infos.map indexInfo, p.Within Q := by
  refine List.forall_mem_map.2 fun info hinfo => ?_
  have hchildren := fun tree htree => h tree (List.mem_flatMap.2 ⟨info, hinfo, htree⟩)
  rw [IndexLayer.children, List.forall_mem_append] at hchildren
  exact List.forall_mem_append.2
    ⟨items_withPurpose hchildren.1 _, items_withPurpose hchildren.2 _⟩

theorem within_signature {s : SignatureLayer TypeTree} (h : ∀ tree ∈ s.children, Q tree none) :
    ∀ p ∈ signature s, p.Within Q := by
  simp only [SignatureLayer.children, List.forall_mem_append] at h
  obtain ⟨⟨hparameters, hreturn⟩, htypeParameters⟩ := h
  have hgenerics : ∀ p ∈ generics s.typeParameters none, p.Within Q := within_generics
    (fun p hp => htypeParameters p.1 (List.fst_mem_of_mem_zipIdx hp)) (List.forall_mem_nil _)
  exact within_append (within_append hgenerics (within_withPurpose hparameters _))
    (within_withPurpose hreturn _)

theorem within_classLike (hQ : ClosedUnderFunctions (Q · none)) (id : TypeId)
    {c : ClassLayer TypeTree} (h : ∀ tree ∈ c.children, Q tree none) :
    ∀ p ∈ classLike id c, p.Within Q := by
  simp only [ClassLayer.children, List.forall_mem_append] at h
  obtain ⟨⟨⟨⟨hproperties, hinfos⟩, hbase⟩, himplements⟩, hconstruct⟩ := h
  have himplementations : ∀ p ∈ (if c.implementsTypes.isEmpty then []
      else [group .classImplementations (Message.purposeText .classImplementations)
        (Item.plain c.implementsTypes)]), p.Within Q := by
    split
    · exact List.forall_mem_nil _
    · exact within_group (items_plain himplements)
  have hconstructor : ∀ tree ∈ (if c.constructSignatures.isEmpty then []
      else [TypeTree.node { id, shape := .function c.constructSignatures }]), Q tree none := by
    split
    · exact List.forall_mem_nil _
    · exact List.forall_mem_singleton.2 (hQ id _ hconstruct)
  have hfirst := within_append (within_withPurpose hbase .classBaseType) himplementations
  have hsecond := within_append hfirst (within_withPurpose hconstructor .classConstructor)
  exact within_append (within_append hsecond (within_indexInfos hinfos))
    (within_plain hproperties)

theorem within_templateLiteral (texts : List String) {types : List TypeTree}
    (h : ∀ tree ∈ types, Q tree none) : ∀ p ∈ templateLiteral texts types, p.Within Q := by
  refine List.forall_mem_flatMap.2 fun part _ =>
    within_append ?_ (within_plain fun tree htree => ?_)
  · split
    · exact List.forall_mem_nil _
    · exact within_group (List.forall_mem_nil _)
  · exact h tree (List.mem_of_getElem? (Option.mem_toList.1 htree))

/-- A function for each signature. -/
theorem within_signatures (hQ : ClosedUnderFunctions (Q · none)) (id : TypeId)
    {signatures : List (SignatureLayer TypeTree)}
    (h : ∀ tree ∈ signatures.flatMap SignatureLayer.children, Q tree none) :
    ∀ tree ∈ signatures.map fun s => TypeTree.node { id, shape := .function [s] }, Q tree none := by
  refine List.forall_mem_map.2 fun s hs => hQ id [s] fun tree htree => h tree ?_
  rw [List.flatMap_singleton] at htree
  exact List.mem_flatMap.2 ⟨s, hs, htree⟩

theorem within_ofShape (hQ : ClosedUnderFunctions (Q · none)) (id : TypeId)
    {options : ChildOptions} {shape : Shape TypeTree} (h : ∀ tree ∈ shape.children, Q tree none)
    (hargument : shape.isTypeParameter = true →
      ∀ argument ∈ options.contextualTypeArgument, Q argument none) :
    ∀ p ∈ ofShape id options shape, p.Within Q := by
  cases shape with
  | object properties infos objectClass =>
    simp only [Shape.children, List.forall_mem_append] at h
    obtain ⟨⟨hproperties, hinfos⟩, hclass⟩ := h
    exact within_append (within_append (within_withPurpose hclass _) (within_indexInfos hinfos))
      (within_plain hproperties)
  | class' members | interface members => exact within_classLike hQ id h
  | function signatures => exact within_plain (within_signatures hQ id h)
  | tuple types names _ minLength =>
    exact within_each (List.forall_mem_map.2 fun p hp => h p.1 (List.fst_mem_of_mem_zipIdx hp))
  | conditional checkType extendsType trueType falseType =>
    simp only [Shape.children, List.cons_append, List.nil_append, List.forall_mem_cons,
      List.forall_mem_append] at h
    obtain ⟨hcheck, hextends, htrue, hfalse⟩ := h
    have hcheck := within_withPurpose (List.forall_mem_singleton.2 hcheck) .conditionalCheck
    have hextends := within_withPurpose (List.forall_mem_singleton.2 hextends) .conditionalExtends
    exact within_append (within_append (within_append hcheck hextends)
      (within_withPurpose htrue _)) (within_withPurpose hfalse _)
  | index child | stringMapping symbol child => exact within_withPurpose h _
  | indexedAccess first second | substitution first second =>
    simp only [Shape.children, List.forall_mem_cons] at h
    exact within_append (within_withPurpose (List.forall_mem_singleton.2 h.1) _)
      (within_withPurpose (List.forall_mem_singleton.2 h.2.1) _)
  | intersection types properties infos =>
    simp only [Shape.children, List.forall_mem_append] at h
    obtain ⟨⟨htypes, hproperties⟩, hinfos⟩ := h
    exact within_append (within_append (within_indexInfos hinfos) (within_plain hproperties))
      (within_plain htypes)
  | union types | enum _ types => exact within_plain h
  | templateLiteral texts types => exact within_templateLiteral texts h
  | typeParameter _ baseConstraint defaultType =>
    simp only [Shape.children, List.forall_mem_append] at h
    have hvalue := within_withPurpose
      (fun tree htree => hargument rfl tree (Option.mem_toList.1 htree)) .parameterValue
    exact within_append (within_append hvalue (within_withPurpose h.2 _))
      (within_withPurpose h.1 _)
  | array | primitive | intrinsic | stringLiteral | numberLiteral | bigintLiteral | booleanLiteral
  | enumLiteral | nonPrimitive | reference | maxDepth => exact List.forall_mem_nil _

/-- The pieces of a node show what is below the node. -/
theorem within_pieces (hQ : ClosedUnderFunctions (Q · none)) {tree : TypeTree}
    {options : ChildOptions} (h : ∀ child ∈ tree.children, Q child none)
    (hpairs : ∀ p ∈ tree.pairs, Q p.1 (some p.2))
    (hargument : tree.shape.isTypeParameter = true →
      ∀ argument ∈ options.contextualTypeArgument, Q argument none) :
    ∀ p ∈ tree.pieces options, p.Within Q := by
  simp only [TypeTree.children, Layer.children, List.forall_mem_append] at h
  obtain ⟨⟨hshape, harguments⟩, hparameters⟩ := h
  rw [show tree.layer.shape = tree.shape from rfl] at hshape
  by_cases hsignature : ∃ s, tree.shape = .function [s]
  · obtain ⟨s, hs⟩ := hsignature
    rw [hs, Shape.children, List.flatMap_singleton] at hshape
    rw [tree.pieces_signature hs]
    exact within_signature hshape
  · rw [tree.pieces_other fun s hs => hsignature ⟨s, hs⟩]
    exact within_append (within_generics (forall_mem_zipIdx_of_zip hparameters hpairs) harguments)
      (within_ofShape hQ tree.id hshape hargument)

end Piece

/-- Every node that is no array has a description, and it is made of what is below the node. -/
theorem Resolve.describe_describes {Q : TypeTree → Option TypeTree → Prop} (root : Root)
    (hQ : ClosedUnderFunctions (Q · none)) {tree : TypeTree} {options : ChildOptions}
    (harray : ∀ element readonly, tree.shape ≠ .array element readonly)
    (h : ∀ child ∈ tree.children, Q child none) (hpairs : ∀ p ∈ tree.pairs, Q p.1 (some p.2))
    (hargument : tree.shape.isTypeParameter = true →
      ∀ argument ∈ options.contextualTypeArgument, Q argument none) (s : ResolverState) :
    ∃ cs, (describe root tree options s).1 = .ok cs ∧
      Describes Q root s cs (describe root tree options s).2 := by
  rw [describe_eq root harray]
  exact ⟨_, rfl, Piece.mapM_make_describes (Piece.within_pieces hQ h hpairs hargument) s⟩

end TypeAtlas
