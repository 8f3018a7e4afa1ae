import Mathlib.Data.List.Perm.Subperm
import TypeAtlas.Proofs.Walk.Closure
import TypeAtlas.Proofs.Walk.Held
import TypeAtlas.Proofs.Walk.Nodes
/-!
# How deep a walk goes

The nodes that a walk is inside of show different types, so in a graph without dangling handles it
is never inside of more nodes than the graph has types. While a walk has levels left for all the
types it has not met yet (`WalkContext.Roomy`), no node is cut off. So a walk with more levels than
there are types shows all that can be reached (`TypeGraph.deep_tree_complete`).
-/

namespace TypeAtlas

open TypeTree

namespace TypeGraph

variable {g : TypeGraph}

/-- There are no more different types of a graph than it has records. -/
theorem length_le_size_of_nodup {ids : List TypeId} (hnodup : ids.Nodup)
    (hids : ∀ id ∈ ids, g.HasType id) : ids.length ≤ g.types.size := by
  have hindices : (ids.map TypeId.index).Nodup :=
    hnodup.map fun _ _ => TypeId.index_inj
  have hsubset : ids.map TypeId.index ⊆ List.range g.types.size := by
    intro n hn
    obtain ⟨id, hid, rfl⟩ := List.mem_map.1 hn
    exact List.mem_range.2 (hids id hid)
  simpa using (hindices.subperm hsubset).length_le

/-- The handles that a root names are handles of the graph. -/
def HasRoot (g : TypeGraph) : TreeRoot → Prop
  | .symbol symbol => g.HasSymbol symbol
  | .type type => g.HasType type
  | .symbolWithType symbol type => g.HasSymbol symbol ∧ g.HasType type

theorem Closed.hasType_occurrenceOf (hg : g.Closed) {root : TreeRoot} (hroot : g.HasRoot root) :
    g.HasType (g.occurrenceOf root).type := by
  cases root with
  | symbol symbol => exact hg.inBounds.typeOf symbol
  | type type => exact hroot
  | symbolWithType symbol type => exact hroot.2

end TypeGraph

namespace WalkContext

/-- Each type met is a type of the graph and was met once, and there is a level left for each type
that was not met and one more. -/
structure Roomy (g : TypeGraph) (levels : Nat) (s : WalkContext) : Prop where
  nodup : s.seen.Nodup
  hasType : ∀ type ∈ s.seen, g.HasType type
  size_lt : g.types.size < levels + s.seen.length

/-- From a state with room for all types, the given trees were made of types of the graph, and none
of their nodes was cut off. -/
def Spans (g : TypeGraph) (levels : Nat) (s : WalkContext) (trees : List TypeTree)
    (t : WalkContext) : Prop :=
  s.Roomy g levels → (∀ tree ∈ trees, g.HasType tree.id) →
    t.Roomy g levels ∧ ∀ n ∈ nodes trees, g.HasType n.id ∧ n.shape.kind ≠ .maxDepth

variable {g : TypeGraph} {levels : Nat} {s t : WalkContext}

theorem Roomy.levels_pos (h : s.Roomy g levels) : 0 < levels := by
  have hlength := TypeGraph.length_le_size_of_nodup h.nodup h.hasType
  have hsize := h.size_lt
  omega

/-- One level is used up by one more type. -/
theorem Roomy.enter (h : s.Roomy g (levels + 1)) {type : TypeId} (hnew : type ∉ s.seen)
    (htype : g.HasType type) : (s.enter type).Roomy g levels where
  nodup := List.nodup_cons.2 ⟨hnew, h.nodup⟩
  hasType := List.forall_mem_cons.2 ⟨htype, h.hasType⟩
  size_lt := by
    have hsize := h.size_lt
    show g.types.size < levels + (s.seen.length + 1)
    omega

theorem Roomy.leave (h : s.Roomy g levels) : s.leave.Roomy g (levels + 1) where
  nodup := h.nodup
  hasType := h.hasType
  size_lt := by
    have hsize := h.size_lt
    show g.types.size < levels + 1 + s.seen.length
    omega

theorem composes_spans (g : TypeGraph) (levels : Nat) : Composes (Spans g levels) where
  nil s hs _ := ⟨hs, List.forall_mem_nil _⟩
  append h₁ h₂ hs htrees := by
    rw [List.forall_mem_append] at htrees
    obtain ⟨ht, hfirst⟩ := h₁ hs htrees.1
    obtain ⟨hu, hrest⟩ := h₂ ht htrees.2
    rw [nodes_append, List.forall_mem_append]
    exact ⟨hu, hfirst, hrest⟩
  perm hp h hs htrees := by
    obtain ⟨ht, hnodes⟩ := h hs fun tree htree => htrees tree (hp.mem_iff.1 htree)
    exact ⟨ht, fun n hn => hnodes n ((hp.flatMap_right preorder).mem_iff.2 hn)⟩

/-- A reference is no cut. -/
theorem spans_leafOf (place : Occurrence) (location : Option Location) :
    Spans g levels s [g.leafOf place (.reference location)] s := by
  intro hs htrees
  rw [g.nodes_leafOf place rfl]
  exact ⟨hs, List.forall_mem_singleton.2 ⟨htrees _ (List.mem_singleton_self _), nofun⟩⟩

end WalkContext

namespace Walk

open WalkContext

variable {g : TypeGraph} (hg : g.Closed) (config : TreeConfig)

include hg

/-- The children of a type of the graph are types of the graph. -/
theorem hasType_visitPlan (levels : Nat) (place : Occurrence) (hplace : g.HasType place.type)
    (s : WalkContext) :
    ∀ tree ∈ (visitPlan g config levels place s).1.children, g.HasType tree.id := by
  intro tree htree
  have hlabels := congrArg Layer.children (map_label_visitPlan g config levels place s)
  rw [Layer.children_map, Layer.children_map] at hlabels
  have hlabel : tree.label ∈ (g.plan place.type (g.occurrenceMeta? place)).children.map g.labelOf :=
    hlabels ▸ List.mem_map_of_mem htree
  obtain ⟨child, hchild, heq⟩ := List.mem_map.1 hlabel
  have hid : child.type = tree.id := congrArg Prod.fst heq
  exact hid ▸ (hg.hasPlace_of_mem_plan hplace _ child hchild).type

/-- By induction on the levels: a walk into a node uses up a level and meets a new type. -/
theorem walk_spans (levels : Nat) (place : Occurrence) :
    Emits (Spans g levels) ([·]) (walk g config levels place) := by
  induction levels generalizing place with
  | zero => exact fun s hs => absurd hs.levels_pos (lt_irrefl 0)
  | succ levels ih =>
    intro s hs htrees
    rcases walk_cases g config (levels + 1) place s with
      ⟨h, -⟩ | ⟨-, h⟩ | ⟨location, -, h⟩ | ⟨below, hbelow, hnew, h⟩
    · cases h
    · rw [h] at htrees ⊢
      exact spans_leafOf place none hs htrees
    · rw [h] at htrees ⊢
      exact spans_leafOf place (some location) hs htrees
    · obtain rfl : levels = below := Nat.succ.inj hbelow
      have hplace : g.HasType place.type := by
        have hid := htrees _ (List.mem_singleton_self _)
        rwa [id_walk] at hid
      have hchildren := Layer.mapM_emits (composes_spans g levels) ih
        (g.plan place.type (g.occurrenceMeta? place)) (s.enter place.type)
        (hs.enter hnew hplace) (hasType_visitPlan hg config levels place hplace s)
      rw [h, nodes, List.flatMap_singleton, preorder_node, List.forall_mem_cons]
      exact ⟨hchildren.1.leave,
        ⟨hplace, Shape.kind_ne_maxDepth (isConcrete_visitPlan g config levels place s)⟩,
        hchildren.2⟩

end Walk

namespace TypeGraph

variable {g : TypeGraph}

/-- The ids of the concrete nodes are those of types of the graph, and there is no other node than
these and references. -/
theorem spans_tree (hg : g.Closed) {root : TreeRoot} (hroot : g.HasRoot root) {config : TreeConfig}
    (hdepth : g.types.size + 1 ≤ config.maxDepth.toNat) :
    ∀ n ∈ (g.tree root config).preorder, g.HasType n.id ∧ n.shape.kind ≠ .maxDepth := by
  have hstart : WalkContext.Roomy g config.maxDepth.toNat {} :=
    ⟨List.nodup_nil, List.forall_mem_nil _, hdepth⟩
  have htree : ∀ tree ∈ [g.tree root config], g.HasType tree.id := by
    rw [List.forall_mem_singleton, tree, Walk.id_walk]
    exact hg.hasType_occurrenceOf hroot
  have hspans := (Walk.walk_spans hg config _ (g.occurrenceOf root) {} hstart htree).2
  rwa [nodes, List.flatMap_singleton] at hspans

theorem count_concreteIds (tree : TypeTree) (id : TypeId) :
    (concreteIds [tree]).count id =
      tree.preorder.countP fun n => n.shape.isConcrete && n.id == id := by
  rw [concreteIds, nodes, List.flatMap_singleton, List.count, List.countP_map, List.countP_filter]
  exact List.countP_congr fun n _ => by simp [and_comm]

/-- **Deep walks are complete.** In a graph without dangling handles, with more levels than there
are types: no node of a tree is cut off, there are no more full nodes than types, and every type
that occurs in the tree, other than at a reference with a location, has exactly one full node. -/
theorem deep_tree_complete (hg : g.Closed) {root : TreeRoot} (hroot : g.HasRoot root)
    {config : TreeConfig} (hdepth : g.types.size + 1 ≤ config.maxDepth.toNat) :
    (∀ n ∈ (g.tree root config).preorder, n.shape.kind ≠ .maxDepth) ∧
      (g.tree root config).preorder.countP (·.shape.isConcrete) ≤ g.types.size ∧
      ∀ n ∈ (g.tree root config).preorder,
        (∀ location, n.shape ≠ .reference (some location)) →
          ((g.tree root config).preorder.countP fun c => c.shape.isConcrete && c.id == n.id) =
            1 := by
  have hspans := spans_tree hg hroot hdepth
  have hnodup := g.nodup_concreteIds_tree root config
  refine ⟨fun n hn => (hspans n hn).2, ?_, fun n hn hlocation => ?_⟩
  · have hids : ∀ id ∈ concreteIds [g.tree root config], g.HasType id := by
      intro id hid
      obtain ⟨n, hn, -, rfl⟩ := mem_concreteIds_iff.1 hid
      rw [nodes, List.flatMap_singleton] at hn
      exact (hspans n hn).1
    have hlength := length_le_size_of_nodup hnodup hids
    rwa [concreteIds, List.length_map, nodes, List.flatMap_singleton,
      ← List.countP_eq_length_filter] at hlength
  · rw [← count_concreteIds]
    refine List.count_eq_one_of_mem hnodup (mem_concreteIds_iff.2 ?_)
    rw [nodes, List.flatMap_singleton]
    -- the full node is the node itself or the one that it refers to
    cases hshape : n.shape with
    | reference location =>
      cases location with
      | some location => exact absurd hshape (hlocation location)
      | none => exact g.closed_tree root config n hn hshape
    | maxDepth => exact absurd (congrArg Shape.kind hshape) (hspans n hn).2
    | _ => exact ⟨n, hn, by rw [hshape]; rfl, rfl⟩

/-- Objects in a ring: each has the next one as its only property. -/
def ring (n : Nat) : TypeGraph :=
  let next (i : Nat) : SymbolRecord :=
    { name := "next"
      flags := SymbolFlags.property
      valueType := some (.ofIndex (initial.types.size + (i + 1) % n)) }
  let object (i : Nat) : TypeRecord :=
    { flags := TypeFlags.object
      data := .object { properties := [.ofIndex (initial.symbols.size + i)] } }
  { initial with
    types := initial.types ++ ((List.range n).map object).toArray
    symbols := initial.symbols ++ ((List.range n).map next).toArray }

/-- The walk goes around the ring once: eight full nodes, the last one with a reference below it. -/
theorem deep_tree_complete_ring :
    (ring 8).Closed ∧ (ring 8).types.size = 28 ∧
      ((ring 8).tree (.type ⟨20⟩) { maxDepth := 29 }).preorder.length = 9 ∧
      (∀ n ∈ ((ring 8).tree (.type ⟨20⟩) { maxDepth := 29 }).preorder,
        n.shape.kind ≠ .maxDepth) ∧
      ((ring 8).tree (.type ⟨20⟩) { maxDepth := 29 }).preorder.countP (·.shape.isConcrete) ≤
        (ring 8).types.size ∧
      ∀ n ∈ ((ring 8).tree (.type ⟨20⟩) { maxDepth := 29 }).preorder,
        (∀ location, n.shape ≠ .reference (some location)) →
          (((ring 8).tree (.type ⟨20⟩) { maxDepth := 29 }).preorder.countP
            fun c => c.shape.isConcrete && c.id == n.id) = 1 := by
  have hclosed : (ring 8).Closed := by decide +kernel
  have hroot : (ring 8).HasRoot (.type ⟨20⟩) := by
    unfold HasRoot HasType
    decide +kernel
  exact ⟨hclosed, by decide +kernel, by decide +kernel,
    deep_tree_complete hclosed hroot (by decide +kernel)⟩

end TypeGraph

end TypeAtlas
