import TypeAtlas.Proofs.Walk.Step
/-!
# The nodes of a generated tree

A node of a generated tree is a leaf of one of three sorts, or it shows the plan of its type: what
it says is what the plan says, and each of its children has the type and the symbol of the
occurrence in its place (`TypeGraph.isNode_tree`). So full nodes of one type say the same, wherever
they are met (`TypeGraph.full_nodes_agree`).
-/

namespace TypeAtlas

open TypeTree

/-- What a node says about where it was met, whatever it shows. -/
def TypeTree.label (tree : TypeTree) : TypeId × Option SymbolMeta :=
  (tree.id, tree.symbolMeta)

namespace TypeGraph

variable (g : TypeGraph)

/-- What every node at an occurrence says about it. -/
def labelOf (place : Occurrence) : TypeId × Option SymbolMeta :=
  (place.type, g.occurrenceMeta? place)

/-- The nodes that a walk can make. -/
inductive IsNode (config : TreeConfig) : TypeTree → Prop
  | cut (place : Occurrence) : IsNode config (g.leafOf place .maxDepth)
  | met (place : Occurrence) : IsNode config (g.leafOf place (.reference none))
  | declared {place : Occurrence} {context : WalkContext} {location : Location}
      (h : g.locationAt? config place context = some location) :
      IsNode config (g.leafOf place (.reference (some location)))
  | shown {layer : Layer TypeTree}
      (h : layer.map label = (g.plan layer.id layer.symbolMeta).map g.labelOf) :
      IsNode config (.node layer)

end TypeGraph

namespace Walk

variable (g : TypeGraph) (config : TreeConfig)

theorem label_walk (levels : Nat) (place : Occurrence) (context : WalkContext) :
    (walk g config levels place context).1.label = g.labelOf place :=
  congrArg₂ Prod.mk (id_walk g config levels place context)
    (symbolMeta_walk g config levels place context)

theorem map_label_visitPlan (levels : Nat) (place : Occurrence) (context : WalkContext) :
    (visitPlan g config levels place context).1.map label =
      (g.plan place.type (g.occurrenceMeta? place)).map g.labelOf :=
  Layer.map_mapM (label_walk g config levels) _ _

/-- A property of the nodes of the trees made, whatever the state. -/
theorem composes_nodes (P : TypeTree → Prop) :
    Composes fun (_ : WalkContext) trees (_ : WalkContext) => ∀ n ∈ nodes trees, P n where
  nil _ n hn := absurd hn List.not_mem_nil
  append h₁ h₂ n hn := by
    rw [nodes_append, List.mem_append] at hn
    exact hn.elim (h₁ n) (h₂ n)
  perm hp h n hn := h n ((hp.flatMap_right preorder).mem_iff.2 hn)

/-- By induction on the levels, over the four things that a walk can do. -/
theorem walk_isNode (levels : Nat) (place : Occurrence) :
    Emits (fun _ trees _ => ∀ n ∈ nodes trees, g.IsNode config n) ([·])
      (walk g config levels place) := by
  induction levels generalizing place with
  | zero =>
    intro s n hn
    rw [walk_zero, g.nodes_leafOf place rfl, List.mem_singleton] at hn
    exact hn ▸ .cut place
  | succ levels ih =>
    intro s n hn
    rcases walk_cases g config (levels + 1) place s with
      ⟨h, -⟩ | ⟨-, h⟩ | ⟨location, hlocation, h⟩ | ⟨below, hbelow, -, h⟩
    · cases h
    · rw [h, g.nodes_leafOf place rfl, List.mem_singleton] at hn
      exact hn ▸ .met place
    · rw [h, g.nodes_leafOf place rfl, List.mem_singleton] at hn
      exact hn ▸ .declared hlocation
    · obtain rfl : levels = below := Nat.succ.inj hbelow
      rw [h, nodes, List.flatMap_singleton, preorder_node, List.mem_cons] at hn
      rcases hn with rfl | hn
      · exact .shown (map_label_visitPlan g config levels place s)
      · exact Layer.mapM_emits (composes_nodes _) ih _ _ n hn

end Walk

/-- The nodes of a generated tree are those that a walk can make. -/
theorem TypeGraph.isNode_tree (g : TypeGraph) (root : TreeRoot) (config : TreeConfig)
    {n : TypeTree} (hn : n ∈ (g.tree root config).preorder) : g.IsNode config n :=
  Walk.walk_isNode g config _ (g.occurrenceOf root) {} n
    (by rwa [nodes, List.flatMap_singleton])

/-! ## What the nodes show -/

namespace TypeGraph

variable {g : TypeGraph}

theorem kind_planEnum_ne_array (record : TypeRecord) : (g.planEnum record).kind ≠ .array := by
  unfold planEnum
  split_ifs <;> split <;> simp [Shape.kind]

theorem kind_planOperator_ne_array (record : TypeRecord) :
    (g.planOperator record).kind ≠ .array := by
  unfold planOperator
  cases record.data with
  | intersection members =>
    dsimp only [planIntersection]
    split_ifs <;> simp [Shape.kind]
  | index | indexedAccess | conditional | substitution | templateLiteral | stringMapping =>
    simp [Shape.kind]
  | union | intrinsic | literal | object | typeParameter =>
    dsimp only
    split_ifs <;> simp [Shape.kind]

theorem planObject_eq_array {id : TypeId} {record : TypeRecord} {place : Occurrence}
    {readonly : Bool} (h : g.planObject id record = .array place readonly) :
    g.isArray id = true ∧ place = .ofType (g.elementOf id) ∧ readonly = g.isReadonlyArray id := by
  unfold planObject at h
  dsimp only at h
  split_ifs at h with _ harray
  obtain ⟨hplace, hreadonly⟩ := Shape.array.inj h
  exact ⟨harray, hplace.symm, hreadonly.symm⟩

/-- Only arrays show as arrays. -/
theorem planShape_eq_array {id : TypeId} {place : Occurrence} {readonly : Bool}
    (h : g.planShape id = .array place readonly) :
    g.isArray id = true ∧ place = .ofType (g.elementOf id) ∧ readonly = g.isReadonlyArray id := by
  unfold planShape at h
  cases hrecord : g.type? id with
  | none => rw [hrecord] at h; cases h
  | some record =>
    rw [hrecord] at h
    dsimp only at h
    split at h
    · cases h
    split at h
    · split at h <;> cases h
    split at h
    · cases h
    split at h
    · exact absurd (congrArg Shape.kind h) (kind_planEnum_ne_array record)
    split at h
    · cases h
    split at h
    · split at h
      · next value _ => cases value <;> cases h
      · cases h
    split at h
    · exact planObject_eq_array h
    · exact absurd (congrArg Shape.kind h) (kind_planOperator_ne_array record)

namespace IsNode

variable {config : TreeConfig} {n : TypeTree}

/-- An array node shows an array with the type of its elements. -/
theorem array (h : g.IsNode config n) {element : TypeTree} {readonly : Bool}
    (hshape : n.shape = .array element readonly) :
    g.isArray n.id = true ∧ element.id = g.elementOf n.id ∧
      readonly = g.isReadonlyArray n.id := by
  cases h with
  | cut | met | declared => cases hshape
  | @shown layer h =>
    have hmap := congrArg Layer.shape h
    rw [Layer.map, show layer.shape = .array element readonly from hshape] at hmap
    cases hplan : g.planShape layer.id with
    | array place planned =>
      obtain ⟨harray, rfl, rfl⟩ := planShape_eq_array hplan
      rw [Layer.map, plan, hplan] at hmap
      obtain ⟨hlabel, hreadonly⟩ := Shape.array.inj hmap
      exact ⟨harray, congrArg Prod.fst hlabel, hreadonly⟩
    | _ => rw [Layer.map, plan, hplan] at hmap; cases hmap

/-- A located reference is made where the type is left to its definition. -/
theorem locatedReference (h : g.IsNode config n) {location : Location}
    (hshape : n.shape = .reference (some location)) :
    config.referenceDefinedTypes = true ∧ g.definedTypeLocation? n.id = some location := by
  cases h with
  | cut | met => cases hshape
  | declared h =>
    cases hshape
    unfold locationAt? at h
    split at h
    next hconfig => exact ⟨(Bool.and_eq_true_iff.1 hconfig).1, h⟩
    next => cases h
  | @shown layer h =>
    have hkind := congrArg (fun l => l.shape.kind) h
    simp only [Layer.map, Shape.kind_map, plan] at hkind
    have hconcrete := Shape.isConcrete_eq_of_kind_eq hkind
    rw [show layer.shape = .reference (some location) from hshape,
      g.isConcrete_planShape] at hconcrete
    cases hconcrete

/-- A reference in a tree that leaves nothing to locations has none. -/
theorem reference (h : g.IsNode config n) (hconfig : config.referenceDefinedTypes = false)
    {location : Option Location} (hshape : n.shape = .reference location) : location = none := by
  cases location with
  | none => rfl
  | some location =>
    obtain ⟨hleft, -⟩ := h.locatedReference hshape
    rw [hconfig] at hleft
    cases hleft

end IsNode

end TypeGraph

/-! ## Nodes of one type -/

/-- What a node shows: the node with the labels of its children in their places, and without the
symbol through which it was met. -/
def TypeTree.content (tree : TypeTree) : Layer (TypeId × Option SymbolMeta) :=
  { tree.layer.map label with symbolMeta := none }

namespace TypeTree

variable {a b : TypeTree}

theorem kind_eq_of_content_eq (h : a.content = b.content) : a.shape.kind = b.shape.kind := by
  have hkind : (a.layer.shape.map label).kind = (b.layer.shape.map label).kind :=
    congrArg (fun layer => layer.shape.kind) h
  rwa [Shape.kind_map, Shape.kind_map] at hkind

theorem aliasSymbolMeta_eq_of_content_eq (h : a.content = b.content) :
    a.layer.aliasSymbolMeta = b.layer.aliasSymbolMeta := by
  show a.content.aliasSymbolMeta = b.content.aliasSymbolMeta
  rw [h]

theorem map_label_children (tree : TypeTree) : tree.children.map label = tree.content.children := by
  show tree.layer.children.map label = (tree.layer.map label).children
  rw [Layer.children_map]

end TypeTree

namespace TypeGraph

variable (g : TypeGraph)

/-- What a full node of a type shows. -/
def contentOf (id : TypeId) : Layer (TypeId × Option SymbolMeta) :=
  (g.plan id none).map g.labelOf

variable {g}

theorem IsNode.content_eq {config : TreeConfig} {n : TypeTree} (h : g.IsNode config n)
    (hconcrete : n.shape.isConcrete = true) : n.content = g.contentOf n.id := by
  cases h with
  | cut | met | declared => cases hconcrete
  | @shown layer h =>
    show ({ layer.map label with symbolMeta := none } : Layer _) = g.contentOf layer.id
    rw [h]
    rfl

/-- **A node does not depend on where the walk met it.** Whatever the roots, the depths and the
choice of what is left to locations: two full nodes of one type are of one kind, say the same of it
with the same alias, and have children of the same types that are met through the same symbols, in
the same order. -/
theorem full_nodes_agree (g : TypeGraph) {root root' : TreeRoot} {config config' : TreeConfig}
    {a b : TypeTree} (ha : a ∈ (g.tree root config).preorder)
    (hb : b ∈ (g.tree root' config').preorder) (hafull : a.shape.isConcrete = true)
    (hbfull : b.shape.isConcrete = true) (hid : a.id = b.id) :
    a.content = b.content ∧ a.shape.kind = b.shape.kind ∧
      a.layer.aliasSymbolMeta = b.layer.aliasSymbolMeta ∧
      a.children.map label = b.children.map label := by
  have hcontent : a.content = b.content := by
    rw [(g.isNode_tree root config ha).content_eq hafull,
      (g.isNode_tree root' config' hb).content_eq hbfull, hid]
  refine ⟨hcontent, kind_eq_of_content_eq hcontent, aliasSymbolMeta_eq_of_content_eq hcontent, ?_⟩
  rw [map_label_children, map_label_children, hcontent]

/-- Two objects: the first has the second as two properties, and the second has the first. -/
def mutualObjects : TypeGraph where
  types := #[
    { flags := TypeFlags.object, data := .object { properties := [⟨0⟩, ⟨1⟩] } },
    { flags := TypeFlags.object, data := .object { properties := [⟨2⟩] } }]
  symbols := #[
    { name := "left", flags := SymbolFlags.property, valueType := some ⟨1⟩ },
    { name := "right", flags := SymbolFlags.property, valueType := some ⟨1⟩ },
    { name := "back", flags := SymbolFlags.property, valueType := some ⟨0⟩ }]
  globalArray := ⟨2⟩
  globalReadonlyArray := ⟨3⟩

/-- The second object has a reference below it where it is a property of the first, and a node that
is cut off where it is the root. -/
theorem full_nodes_agree_mutualObjects :
    ∃ a ∈ (mutualObjects.tree (.type ⟨0⟩) {}).preorder,
      ∃ b ∈ (mutualObjects.tree (.type ⟨1⟩) { maxDepth := 1 }).preorder,
        a.shape.isConcrete = true ∧ b.shape.isConcrete = true ∧ a.id = b.id ∧
        a.children.map (·.shape.kind) = [.reference] ∧
        b.children.map (·.shape.kind) = [.maxDepth] ∧
        a.content = b.content ∧ a.shape.kind = b.shape.kind ∧
        a.layer.aliasSymbolMeta = b.layer.aliasSymbolMeta ∧
        a.children.map label = b.children.map label := by
  have ha := List.getElem_mem (l := (mutualObjects.tree (.type ⟨0⟩) {}).preorder) (n := 1)
    (by decide +kernel)
  have hb := List.getElem_mem (l := (mutualObjects.tree (.type ⟨1⟩) { maxDepth := 1 }).preorder)
    (n := 0) (by decide +kernel)
  exact ⟨_, ha, _, hb, by decide +kernel, by decide +kernel, by decide +kernel, by decide +kernel,
    by decide +kernel,
    mutualObjects.full_nodes_agree ha hb (by decide +kernel) (by decide +kernel)
      (by decide +kernel)⟩

end TypeGraph

end TypeAtlas
