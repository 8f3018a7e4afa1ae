import TypeAtlas.Graph.Builder
import TypeAtlas.Program
import TypeAtlas.Proofs.Graph.Growth
import TypeAtlas.Proofs.View.Passage
import TypeAtlas.Proofs.View.Task
import TypeAtlas.Proofs.Walk.Nodes
import TypeAtlas.View.Label
/-!
# Layers of arrays

The view of a node inside arrays counts the arrays that were passed on the way to it, which are the
layers of its type. Its description has a pair of brackets for each of them. In front of them it
says `readonly` if a layer is a read-only array, but also if the symbol that the node was met
through is read-only, or the node itself is a read-only tuple (`Session.description_layers`): so
a read-only property of a plain array looks like a read-only array
(`Session.description_readonlyProperty`).

A session views nothing but nodes of the trees that it began with and of those that were retrieved.
What holds of all these nodes is therefore known of every view (`Session.traced`).
-/

namespace TypeAtlas

open TypeTree Passage Resolve ResolverState

/-! ## Where views come from -/

/-- A property that trees hand down to the trees below them, and that holds of every tree that is
found. -/
structure Inherited (retriever : Option Retriever) (Q : TypeTree → Prop) : Prop where
  child : ∀ {tree c}, Q tree → c ∈ tree.children → Q c
  functions : ClosedUnderFunctions Q
  found : ∀ {retrieve location tree}, retrieve ∈ retriever →
    retrieve location = .ok (some tree) → Q tree

/-- A tree and the argument that comes with it have a property. -/
def WithArgument (Q : TypeTree → Prop) (tree : TypeTree) (argument : Option TypeTree) : Prop :=
  Q tree ∧ ∀ a ∈ argument, Q a

/-- The node of a place and the tree that its references are resolved in have a property. -/
structure Place.Has (Q : TypeTree → Prop) (place : Place) : Prop where
  node : Q place.node
  root : Q place.root.tree

/-- A child that is made of trees with a property. -/
def Child.Traced (Q : TypeTree → Prop) (c : Child View) : Prop :=
  ∃ p : Piece, p.Within (WithArgument Q) ∧ ∃ root s, (p.make root s).1 = c

/-- A view of a tree with a property in the scope of another one, or a group of such trees. -/
def View.Traced (retriever : Option Retriever) (Q : TypeTree → Prop) (view : View) : Prop :=
  (∃ tree root options s, Place.Has Q ⟨tree, root⟩ ∧ (∀ a ∈ options.contextualTypeArgument, Q a) ∧
    (Resolve.view retriever tree root options s).1 = .ok view) ∨
  Child.Traced Q (.made view)

theorem exists_of_mem_mapM {σ α β : Type} {k : α → StateM σ β} {b : β} : ∀ {as : List α} {s : σ},
    b ∈ (as.mapM k s).1 → ∃ a ∈ as, ∃ t, (k a t).1 = b
  | a :: as, s, h => by
    rw [List.mapM_cons] at h
    rcases List.mem_cons.1 h with rfl | h
    · exact ⟨a, List.mem_cons_self, s, rfl⟩
    · obtain ⟨a', ha', t, heq⟩ := exists_of_mem_mapM h
      exact ⟨a', List.mem_cons_of_mem a ha', t, heq⟩

section

variable {retriever : Option Retriever} {Q : TypeTree → Prop} (hQ : Inherited retriever Q)

include hQ

theorem Inherited.node {n tree : TypeTree} (htree : Q tree) (hn : n ∈ tree.preorder) : Q n := by
  rcases mem_preorder_iff.1 hn with rfl | ⟨c, hc, hn⟩
  · exact htree
  · exact Inherited.node (hQ.child htree hc) hn
termination_by sizeOf tree
decreasing_by exact sizeOf_lt_of_mem_children hc

/-- The way from a place leads to places with the property. -/
theorem Inherited.passes {place last : Place} {passed : List Passage}
    (h : Passes retriever place passed last) (hplace : place.Has Q) : last.Has Q := by
  induction h with
  | stop place => exact hplace
  | array hshape _ ih =>
    exact ih ⟨hQ.child hplace.node (mem_children_of_array hshape), hplace.root⟩
  | @inScope place last target passed hshape htarget _ ih =>
    rw [place.root.scope_eq] at htarget
    exact ih ⟨hQ.node hplace.root (Scope.get?_ofTree_eq_some htarget).1, hplace.root⟩
  | retrieved hshape hanswer _ ih =>
    obtain ⟨retrieve, hretrieve, htree⟩ := Option.map_eq_some_iff.1 hanswer
    have htree := hQ.found hretrieve htree
    exact ih ⟨htree, htree⟩

theorem Inherited.reached {tree : TypeTree} {root : Root} {u : Unwrapped}
    (hplace : Place.Has Q ⟨tree, root⟩)
    (hu : (Unwrapped.start tree root).resolve retriever maxReferenceHops = .ok u) :
    u.place.Has Q := by
  have hends := (Unwrapped.start tree root).ends_resolve retriever maxReferenceHops
  rw [hu] at hends
  obtain ⟨hpasses, -⟩ := hends
  exact hQ.passes hpasses hplace

theorem Inherited.pairs {tree : TypeTree} (htree : Q tree) :
    ∀ p ∈ tree.pairs, WithArgument Q p.1 (some p.2) := by
  intro p hp
  obtain ⟨hparameter, hargument⟩ := mem_children_of_mem_pairs hp
  refine ⟨hQ.child htree hparameter, fun a ha => ?_⟩
  obtain rfl := Option.some.inj ha
  exact hQ.child htree hargument

theorem Inherited.closedUnderFunctions : ClosedUnderFunctions (WithArgument Q · none) :=
  fun id signatures h => ⟨hQ.functions id signatures fun c hc => (h c hc).1, nofun⟩

/-- What a session keeps to when its roots have the property. -/
def Inherited.regime : Regime retriever where
  IsRoot root := Q root.tree
  IsItem _ := WithArgument Q
  IsError _ := True
  tree hroot := ⟨hroot, nofun⟩
  functions _ := hQ.closedUnderFunctions
  error _ _ _ := trivial
  root hroot hitem hu := (hQ.reached ⟨hitem.1, hroot⟩ hu).root
  child hroot hitem hu _ hc := ⟨hQ.child (hQ.reached ⟨hitem.1, hroot⟩ hu).node hc, nofun⟩
  pair hroot hitem hu := hQ.pairs (hQ.reached ⟨hitem.1, hroot⟩ hu).node
  argument _ hitem _ _ := ⟨hitem.2 _ rfl, nofun⟩

/-- The children of a view are made of trees with the property. -/
theorem Inherited.children {view : View} (h : view.Traced retriever Q) {c : Child View}
    (hc : c ∈ view.children) : c.Traced Q := by
  rcases h with ⟨tree, root, options, s, hplace, hargument, hview⟩ | ⟨p, hp, root, s, hmake⟩
  · rw [view_eq] at hview
    cases hu : (Unwrapped.start tree root).resolve retriever maxReferenceHops with
    | error error => rw [hu] at hview; cases hview
    | ok u =>
      rw [hu] at hview
      obtain rfl := Except.ok.inj hview
      obtain ⟨p, hp, t, hmake⟩ := exists_of_mem_mapM hc
      have hnode := (hQ.reached hplace hu).node
      have hpieces := Piece.within_pieces hQ.closedUnderFunctions
        (fun _ hchild => ⟨hQ.child hnode hchild, nofun⟩) (hQ.pairs hnode)
        (fun _ a ha => ⟨hargument a ha, nofun⟩)
      exact ⟨p, hpieces p hp, _, _, hmake⟩
  · cases p with
    | item i => cases hmake
    | group purpose kindText items name readonly =>
      obtain rfl := Child.made.inj hmake
      obtain ⟨i, hi, rfl⟩ := List.mem_map.1 hc
      exact ⟨.item i, List.forall_mem_singleton.2 (hp i hi), root, s, rfl⟩

/-- The groups in a view are made of trees with the property as well. -/
theorem Inherited.offered {given view : View} (h : given.Traced retriever Q)
    (hview : view = given ∨ .made view ∈ given.children) : view.Traced retriever Q := by
  rcases hview with rfl | hview
  · exact h
  · exact Or.inr (hQ.children h hview)

omit hQ in
theorem resultOf_eq_view {tree : TypeTree} {result : Except ViewError View} {view : View}
    (h : resultOf tree result = .view view) : result = .ok view := by
  cases result with
  | error error => cases h
  | ok made => exact congrArg Except.ok (ViewResult.view.inj h)

omit hQ in
/-- What is viewed of such a child in the scope of a root with the property. -/
theorem Child.Traced.result {c : Child View} (hc : c.Traced Q) {root : Root}
    (hroot : Q root.tree) {s : ResolverState} {view : View}
    (h : (Resolve.child retriever root c s).1 = .view view) : view.Traced retriever Q := by
  cases c with
  | made group =>
    obtain rfl := ViewResult.view.inj h
    exact Or.inr hc
  | raw tree options =>
    obtain ⟨p, hp, root', s', hmake⟩ := hc
    cases p with
    | group purpose kindText items name readonly => cases hmake
    | item i =>
      obtain ⟨rfl, rfl⟩ := Child.raw.inj hmake
      obtain ⟨htree, hargument⟩ := hp i (List.mem_singleton_self i)
      exact Or.inl ⟨i.tree, root, i.options, s, ⟨htree, hroot⟩, hargument, resultOf_eq_view h⟩

omit hQ in
theorem Child.Traced.admits {c : Child View} (hc : c.Traced Q) : c.Admits (WithArgument Q) := by
  obtain ⟨p, hp, root, s, rfl⟩ := hc
  exact (Piece.make_describes hp s).fits (List.mem_singleton_self _) |>.admits

/-- The origins that are added while a root with the property is viewed have it as well. -/
theorem Inherited.grown {s t : ResolverState} (hs : ∀ entry ∈ s.origins, Q entry.2.root.tree)
    (hst : Grows hQ.regime.IsRoot s t) : ∀ entry ∈ t.origins, Q entry.2.root.tree := by
  obtain ⟨new, ht, hnew⟩ := hst.origins
  rw [ht, List.forall_mem_append]
  exact ⟨hnew, hs⟩

/-- One more answer whose views are made of trees with the property. -/
theorem Inherited.offered_append {answers : List Answer} {answer : Answer}
    (hbefore : ∀ view, Offered answers view → view.Traced retriever Q)
    (hnew : ∀ results, answer = .ok results → ∀ given, .view given ∈ results →
      given.Traced retriever Q) :
    ∀ view, Offered (answers ++ [answer]) view → view.Traced retriever Q := by
  rintro view ⟨results, hresults, given, hgiven, hview⟩
  rcases List.mem_append.1 hresults with hresults | hresults
  · exact hbefore view ⟨results, hresults, given, hgiven, hview⟩
  · exact hQ.offered (hnew results (List.mem_singleton.1 hresults).symm given hgiven) hview

/-- In a session all views are made of trees with the property, if the roots have it and if it holds
of what is found, by induction on the calls. -/
theorem Session.traced {P : Root → Prop} (hP : ∀ {root}, P root → Q root.tree) {s : ResolverState}
    {answers : List Answer} (h : Session retriever P s answers) :
    (∀ entry ∈ s.origins, Q entry.2.root.tree) ∧
      ∀ view, Offered answers view → view.Traced retriever Q := by
  induction h with
  | new => exact ⟨nofun, fun view ⟨_, hmem, _⟩ => absurd hmem List.not_mem_nil⟩
  | @localize s answers root before hroot ih =>
    have hroot := hP hroot
    have hgrows := (view_keeps hQ.regime hroot {} (hQ.regime.tree hroot) s).1
    refine ⟨hQ.grown ih.1 hgrows, hQ.offered_append ih.2 ?_⟩
    rintro results heq given hgiven
    obtain rfl := Except.ok.inj heq
    have hview := resultOf_eq_view (List.mem_singleton.1 hgiven).symm
    exact Or.inl ⟨root.tree, root, {}, s, ⟨hroot, hroot⟩, nofun, hview⟩
  | @children s answers parent before hparent typeLists ih =>
    cases horigin : s.origin? parent.handle with
    | none =>
      rw [children_of_unknown horigin]
      exact ⟨ih.1, hQ.offered_append ih.2 nofun⟩
    | some origin =>
      have hroot : Q origin.root.tree := ih.1 _ (mem_of_origin? horigin)
      have hshown : ∀ c ∈ shown parent typeLists, c.Traced Q := fun c hc =>
        hQ.children (ih.2 parent hparent) (List.mem_filter.1 hc).1
      have hgrows := grows_mapM_child hQ.regime hroot (fun c hc => (hshown c hc).admits) s
      rw [children_of_origin horigin]
      refine ⟨hQ.grown ih.1 hgrows, hQ.offered_append ih.2 ?_⟩
      rintro results heq given hgiven
      obtain rfl := Except.ok.inj heq
      obtain ⟨c, hc, t, hresult⟩ := exists_of_mem_mapM hgiven
      exact (hshown c hc).result hroot hresult

end

/-! ## The layers of a type -/

/-- The way through the arrays of given types, and through any references. -/
inductive Layers (retriever : Option Retriever) : Place → List TypeId → Place → Prop
  | stop (place : Place) : Layers retriever place [] place
  | array {place last : Place} {element : TypeTree} {readonly : Bool} {layers : List TypeId} :
      place.node.shape = .array element readonly →
      Layers retriever ⟨element, place.root⟩ layers last →
      Layers retriever place (place.node.id :: layers) last
  | reference {place next last : Place} {location : Option Location} {layers : List TypeId} :
      Passes retriever place [.reference location] next → Layers retriever next layers last →
      Layers retriever place layers last

namespace TypeGraph

variable (g : TypeGraph)

/-- The arrays in a tree are arrays of the graph, and read-only where those are. -/
def ShowsArrays (tree : TypeTree) : Prop :=
  ∀ n ∈ tree.preorder, ∀ element readonly, n.shape = .array element readonly →
    g.isArray n.id = true ∧ readonly = g.isReadonlyArray n.id

theorem showsArrays_tree (root : TreeRoot) (config : TreeConfig) :
    g.ShowsArrays (g.tree root config) := fun _ hn _ _ hshape =>
  have harray := (g.isNode_tree root config hn).array hshape
  ⟨harray.1, harray.2.2⟩

/-- The trees that a retriever finds are trees of the graph. -/
def Finds (retriever : Option Retriever) : Prop :=
  ∀ retrieve ∈ retriever, ∀ {location tree}, retrieve location = .ok (some tree) →
    ∃ root config, tree = g.tree root config

variable {g} {retriever : Option Retriever}

theorem inherited_showsArrays (hretriever : g.Finds retriever) :
    Inherited retriever g.ShowsArrays where
  child htree hc n hn := htree n (mem_preorder_of_mem_children hc hn)
  functions id signatures h n hn element readonly hshape := by
    rcases mem_preorder_iff.1 hn with rfl | ⟨c, hc, hn⟩
    · cases hshape
    · exact h c (Resolve.children_function id signatures ▸ hc) n hn element readonly hshape
  found hretrieve htree := by
    obtain ⟨root, config, rfl⟩ := hretriever _ hretrieve htree
    exact g.showsArrays_tree root config

/-- Each array that is passed is a layer. -/
theorem exists_layers (hretriever : g.Finds retriever) {place last : Place}
    {passed : List Passage} (h : Passes retriever place passed last)
    (hplace : place.Has g.ShowsArrays) :
    ∃ layers, Layers retriever place layers last ∧ (∀ type ∈ layers, g.isArray type = true) ∧
      arrays passed = layers.map g.isReadonlyArray := by
  have hQ := inherited_showsArrays hretriever
  induction h with
  | stop place => exact ⟨[], .stop place, List.forall_mem_nil _, rfl⟩
  | @array place last element readonly passed hshape _ ih =>
    obtain ⟨harray, hreadonly⟩ := hplace.node _ (mem_preorder_self _) _ _ hshape
    have helement := hQ.child hplace.node (mem_children_of_array hshape)
    obtain ⟨layers, hlayers, harrays, heq⟩ := ih ⟨helement, hplace.root⟩
    refine ⟨place.node.id :: layers, .array hshape hlayers,
      List.forall_mem_cons.2 ⟨harray, harrays⟩, ?_⟩
    rw [List.map_cons, ← heq, ← hreadonly]
    rfl
  | @inScope place last target passed hshape htarget _ ih =>
    have hfirst : Passes retriever place [.reference none] ⟨target, place.root⟩ :=
      .inScope hshape htarget (.stop _)
    obtain ⟨layers, hlayers, harrays, heq⟩ := ih (hQ.passes hfirst hplace)
    exact ⟨layers, .reference hfirst hlayers, harrays, heq⟩
  | @retrieved place last location tree passed hshape hanswer _ ih =>
    have hfirst : Passes retriever place [.reference (some location)] ⟨tree, .ofTree tree⟩ :=
      .retrieved hshape hanswer (.stop _)
    obtain ⟨layers, hlayers, harrays, heq⟩ := ih (hQ.passes hfirst hplace)
    exact ⟨layers, .reference hfirst hlayers, harrays, heq⟩

end TypeGraph

/-- A view was made of a node inside the layers of arrays of a graph. -/
structure View.Inside (g : TypeGraph) (retriever : Option Retriever) (view : View)
    (layers : List TypeId) (u : Unwrapped) : Prop where
  made : ∃ tree root options s, (Resolve.view retriever tree root options s).1 = .ok view ∧
    (Unwrapped.start tree root).resolve retriever maxReferenceHops = .ok u ∧
    Layers retriever ⟨tree, root⟩ layers u.place
  arrays : ∀ type ∈ layers, g.isArray type = true
  dimension : view.layer.dimension = UInt32.ofNat layers.length

namespace View

theorem description_of_dimension {view : View} (h : 0 < view.layer.dimension) :
    view.description = (if view.layer.readonly then "readonly " else "") ++
      (view.layer.aliasName.or view.layer.kindText).getD "" ++
        String.join (List.replicate view.layer.dimension.toNat "[]") := by
  simp only [description, h, decide_true, Bool.and_true]

variable {g : TypeGraph} {retriever : Option Retriever}

/-- The layers that the node of a view is inside of are those that were passed on the way to it. -/
theorem exists_inside (hretriever : g.Finds retriever) {tree : TypeTree} {root : Root}
    (hplace : Place.Has g.ShowsArrays ⟨tree, root⟩) {options : ChildOptions} {s : ResolverState}
    {view : View} (hmade : (Resolve.view retriever tree root options s).1 = .ok view) :
    ∃ layers u, view.Inside g retriever layers u ∧ view = (viewAt options u s).1 ∧
      (u.readonlyArray = true ↔ ∃ type ∈ layers, g.isReadonlyArray type = true) := by
  have hview := hmade
  rw [view_eq] at hview
  cases hu : (Unwrapped.start tree root).resolve retriever maxReferenceHops with
  | error error => rw [hu] at hview; cases hview
  | ok u =>
    rw [hu] at hview
    obtain rfl := Except.ok.inj hview
    have hends := (Unwrapped.start tree root).ends_resolve retriever maxReferenceHops
    rw [hu] at hends
    obtain ⟨hpasses, -, -, hcounts⟩ := hends
    obtain ⟨layers, hlayers, harrays, heq⟩ := TypeGraph.exists_layers hretriever hpasses hplace
    have hcount : u.dimension = layers.length := by
      rw [hcounts.dimension, heq, List.length_map]
      exact Nat.zero_add _
    refine ⟨layers, u, ⟨⟨tree, root, options, s, hmade, hu, hlayers⟩, harrays,
      congrArg UInt32.ofNat hcount⟩, rfl, ?_⟩
    rw [hcounts.readonlyArray, heq]
    exact List.contains_iff_mem.trans List.mem_map

end View

/-- The description of a node inside arrays has a pair of brackets for each of them. It says
`readonly` in front if one of them is read-only, if the symbol that the node was met through is, or
if the node itself is a read-only tuple. -/
theorem Session.description_layers {g : TypeGraph} {retriever : Option Retriever}
    (hretriever : g.Finds retriever) {s : ResolverState} {answers : List Answer}
    (h : Session retriever (fun root => ∃ r config, root.tree = g.tree r config) s answers)
    {view : View} (hview : Offered answers view) (hdimension : 0 < view.layer.dimension) :
    ∃ layers u, view.Inside g retriever layers u ∧ ∃ readonly : Bool,
      view.description = (if readonly then "readonly " else "") ++
        (aliasName? u.node).getD u.node.shape.text ++
          String.join (List.replicate view.layer.dimension.toNat "[]") ∧
      (readonly = true ↔ (∃ type ∈ layers, g.isReadonlyArray type = true) ∨
        u.symbol.any (·.readonly) = true ∨ isReadonlyTuple u.node.shape = true) := by
  have hQ := TypeGraph.inherited_showsArrays hretriever
  have hP : ∀ {root : Root}, (∃ r config, root.tree = g.tree r config) →
      g.ShowsArrays root.tree := by
    rintro root ⟨r, config, heq⟩
    exact heq ▸ g.showsArrays_tree r config
  rcases (h.traced hQ hP).2 view hview with
    ⟨tree, root, options, s, hplace, -, hmade⟩ | ⟨p, -, root, s, hmake⟩
  · obtain ⟨layers, u, hinside, rfl, harrays⟩ := View.exists_inside hretriever hplace hmade
    have hbase : ((viewAt options u s).1.layer.aliasName.or
        (viewAt options u s).1.layer.kindText).getD "" =
        (aliasName? u.node).getD u.node.shape.text := by
      change ((aliasName? u.node).or (some u.node.shape.text)).getD "" = _
      cases aliasName? u.node <;> rfl
    have hreadonly : (viewAt options u s).1.layer.readonly =
      (u.readonlyArray || u.symbol.any (·.readonly) || isReadonlyTuple u.node.shape) := rfl
    refine ⟨layers, u, hinside, (viewAt options u s).1.layer.readonly, ?_, ?_⟩
    · rw [View.description_of_dimension hdimension, hbase]
    · rw [hreadonly, Bool.or_assoc, Bool.or_eq_true, Bool.or_eq_true, harrays]
  · cases p with
    | item i => cases hmake
    | group purpose kindText items name readonly =>
      obtain rfl := Child.made.inj hmake
      cases hdimension

/-! ## Two properties -/

/-- A program finds the trees of its graph. -/
theorem Program.finds_retriever (program : Program) :
    program.graph.Finds (some program.retriever) := by
  intro retrieve hretrieve location tree htree
  obtain rfl := Option.some.inj hretrieve
  obtain ⟨root, -, rfl⟩ := Option.map_eq_some_iff.1 (Except.ok.inj htree)
  exact ⟨root, program.config, rfl⟩

namespace TypeGraph

/-- A property of a read-only array of arrays of a declared interface. -/
def readonlyLists : Build SymbolId := do
  let named ← Build.createSymbol "Named" SymbolFlags.interface
  let type ← Build.newObjectType ObjectFlags.interface (some named)
  Build.setDeclaredType named type
  Build.declare named { kind := .interface, location := ⟨"named.ts", ⟨⟨0, 10⟩, ⟨0, 15⟩⟩⟩ }
  Build.property "lists" (← Build.readonlyArrayOf (← Build.arrayOf type))

/-- A read-only property of an array. -/
def readonlyList : Build SymbolId := do
  Build.readonlyProperty "list" (← Build.arrayOf .string)

/-- The program with the graph that was built, which leaves declared types to their declarations. -/
def programOf (build : Build SymbolId) : Program where
  graph := (build .initial).2
  config := { referenceDefinedTypes := true }

/-- The root of the tree of the symbol that was built. -/
def rootOf (build : Build SymbolId) : Root :=
  .ofTree ((programOf build).graph.tree (.symbol (build .initial).1) (programOf build).config)

/-- The dimension and the description of the view of this root. -/
def seen (build : Build SymbolId) : Option (UInt32 × String) :=
  match (Resolve.localize (programOf build).retriever (rootOf build) {}).1 with
  | .view view => some (view.layer.dimension, view.description)
  | .failure _ => none

theorem exists_offered {build : Build SymbolId} {dimension : UInt32} {description : String}
    (h : seen build = some (dimension, description)) :
    ∃ s answers view, Session (some (programOf build).retriever)
        (fun root => ∃ r config, root.tree = (programOf build).graph.tree r config) s answers ∧
      Offered answers view ∧ view.layer.dimension = dimension ∧
      view.description = description := by
  unfold seen at h
  split at h
  next view hview =>
    obtain ⟨rfl, rfl⟩ := Prod.mk.inj (Option.some.inj h)
    have hroot : ∃ r config, (rootOf build).tree = (programOf build).graph.tree r config :=
      ⟨_, _, rfl⟩
    refine ⟨_, _, view, .localize .new hroot, ?_, rfl, rfl⟩
    exact ⟨_, List.mem_singleton_self _, view, List.mem_singleton.2 hview.symm, Or.inl rfl⟩
  next => cases h

end TypeGraph

open TypeGraph

/-- The outer array is read-only, and the inner one is of references to another tree. -/
theorem Session.description_layers_readonlyLists :
    let program := programOf readonlyLists
    ∃ s answers view, Session (some program.retriever)
        (fun root => ∃ r config, root.tree = program.graph.tree r config) s answers ∧
      Offered answers view ∧ 0 < view.layer.dimension ∧
      view.description = "readonly Named[][]" ∧
      ∃ layers u, view.Inside program.graph (some program.retriever) layers u ∧
        ∃ readonly : Bool, view.description = (if readonly then "readonly " else "") ++
            (aliasName? u.node).getD u.node.shape.text ++
              String.join (List.replicate view.layer.dimension.toNat "[]") ∧
          (readonly = true ↔ (∃ type ∈ layers, program.graph.isReadonlyArray type = true) ∨
            u.symbol.any (·.readonly) = true ∨ isReadonlyTuple u.node.shape = true) := by
  intro program
  have hseen : seen readonlyLists = some (2, "readonly Named[][]") := by decide +kernel
  obtain ⟨s, answers, view, hsession, hoffered, hdimension, hdescription⟩ := exists_offered hseen
  have hpos : 0 < view.layer.dimension := by
    rw [hdimension]
    decide
  exact ⟨s, answers, view, hsession, hoffered, hpos, hdescription,
    Session.description_layers program.finds_retriever hsession hoffered hpos⟩

/-- No array is read-only, but the property is. -/
theorem Session.description_readonlyProperty :
    let program := programOf readonlyList
    (∀ type, program.graph.isReadonlyArray type = false) ∧
      ∃ s answers view, Session (some program.retriever)
          (fun root => ∃ r config, root.tree = program.graph.tree r config) s answers ∧
        Offered answers view ∧ view.layer.dimension = 1 ∧
        view.description = "readonly string[]" := by
  refine ⟨fun type => ?_, exists_offered (by decide +kernel)⟩
  have hstored : ∀ n < (programOf readonlyList).graph.types.size,
      (programOf readonlyList).graph.isReadonlyArray (.ofIndex n) = false := by decide +kernel
  by_cases htype : type.index < (programOf readonlyList).graph.types.size
  · rw [← TypeId.ofIndex_index type]
    exact hstored _ htype
  · have hnone : (programOf readonlyList).graph.type? type = none :=
      Array.getElem?_eq_none (Nat.le_of_not_lt htype)
    rw [isReadonlyArray, object?, hnone]
    rfl

end TypeAtlas
