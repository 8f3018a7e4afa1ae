import TypeAtlas.Proofs.Walk.Step
/-!
# References of a generated tree

The walk marks a type as met before it goes into the children of its node, so a reference may stand
for a node that encloses it or for one in any other branch. What holds between the states before and
after some visits (`WalkContext.Covers`): the types met in between are exactly those of the concrete
nodes made in between, each of them was new, and every reference leads to a type met by then. For a
whole walk this says that ids are unique and that every reference without a location resolves
(`TypeGraph.references_resolve_uniquely`).
-/

namespace TypeAtlas

open TypeTree

/-- Every reference without a location carries the id of a concrete node of the same tree. -/
def TypeTree.Closed (tree : TypeTree) : Prop :=
  ∀ r ∈ tree.preorder, r.shape = .reference none →
    ∃ c ∈ tree.preorder, c.shape.isConcrete = true ∧ c.id = r.id

namespace WalkContext

/-- Between two states of a walk the given trees were made. -/
structure Covers (s : WalkContext) (trees : List TypeTree) (t : WalkContext) : Prop where
  mem_seen_iff (i : TypeId) : i ∈ t.seen ↔ i ∈ s.seen ∨ i ∈ concreteIds trees
  fresh {i : TypeId} : i ∈ s.seen → i ∉ concreteIds trees
  nodup : (concreteIds trees).Nodup
  closed {r : TypeTree} : r ∈ nodes trees → r.shape = .reference none → r.id ∈ t.seen

namespace Covers

variable {s t u : WalkContext} {ts us : List TypeTree}

theorem refl (s : WalkContext) : Covers s [] s where
  mem_seen_iff _ := ⟨Or.inl, fun h => h.resolve_right List.not_mem_nil⟩
  fresh _ := List.not_mem_nil
  nodup := List.nodup_nil
  closed hr := absurd hr List.not_mem_nil

theorem mono (h : Covers s ts t) {i : TypeId} (hi : i ∈ s.seen) : i ∈ t.seen :=
  (h.mem_seen_iff i).2 (Or.inl hi)

theorem append (h₁ : Covers s ts t) (h₂ : Covers t us u) : Covers s (ts ++ us) u where
  mem_seen_iff i := by
    rw [h₂.mem_seen_iff, h₁.mem_seen_iff, concreteIds_append, List.mem_append, or_assoc]
  fresh hi hmem := by
    rw [concreteIds_append, List.mem_append] at hmem
    exact hmem.elim (h₁.fresh hi) (h₂.fresh (h₁.mono hi))
  nodup := by
    rw [concreteIds_append, List.nodup_append']
    exact ⟨h₁.nodup, h₂.nodup, fun i hi => h₂.fresh ((h₁.mem_seen_iff i).2 (Or.inr hi))⟩
  closed hr hshape := by
    rw [nodes_append, List.mem_append] at hr
    exact hr.elim (fun hr => h₂.mono (h₁.closed hr hshape)) (fun hr => h₂.closed hr hshape)

theorem perm (hp : ts.Perm us) (h : Covers s ts t) : Covers s us t where
  mem_seen_iff i := by rw [h.mem_seen_iff, (concreteIds_perm hp).mem_iff]
  fresh hi := mt (concreteIds_perm hp).mem_iff.2 (h.fresh hi)
  nodup := (concreteIds_perm hp).nodup_iff.1 h.nodup
  closed hr := h.closed ((hp.flatMap_right preorder).mem_iff.2 hr)

theorem composes : Composes Covers where
  nil := refl
  append := append
  perm := perm

/-- A leaf is no concrete node; if it is a reference within the tree, its type was met before. -/
theorem leaf {g : TypeGraph} {place : Occurrence} {shape : Shape TypeTree}
    (hchildren : shape.children = []) (hleaf : shape.isConcrete = false)
    (href : shape = .reference none → place.type ∈ s.seen) :
    Covers s [g.leafOf place shape] s := by
  have hids : concreteIds [g.leafOf place shape] = [] := by
    rw [TypeGraph.leafOf, concreteIds_node, if_neg (ne_true_of_eq_false hleaf)]
    simp [Layer.children, hchildren, concreteIds, nodes]
  refine ⟨fun i => ?_, fun _ => ?_, ?_, fun hr hshape => ?_⟩
  · simp [hids]
  · simp [hids]
  · simp [hids]
  · rw [g.nodes_leafOf place hchildren, List.mem_singleton] at hr
    subst hr
    exact href hshape

/-- A node is concrete, its type is new, and its children are made once its type counts as met. -/
theorem node {layer : Layer TypeTree} (hnew : layer.id ∉ s.seen)
    (hconcrete : layer.shape.isConcrete = true)
    (h : Covers (s.enter layer.id) layer.children t) : Covers s [.node layer] t.leave := by
  have hnodes : nodes [.node layer] = .node layer :: nodes layer.children := by
    rw [nodes, List.flatMap_singleton, preorder_node]
  have hids : concreteIds [.node layer] = layer.id :: concreteIds layer.children := by
    rw [concreteIds_node, if_pos hconcrete]
  have hself : layer.id ∈ (s.enter layer.id).seen := List.mem_cons_self
  refine ⟨fun i => ?_, fun {i} hi hmem => ?_, ?_, fun hr hshape => ?_⟩
  · rw [hids, List.mem_cons]
    apply (h.mem_seen_iff i).trans
    rw [enter, List.mem_cons, or_left_comm, or_assoc]
  · rw [hids, List.mem_cons] at hmem
    rcases hmem with rfl | hmem
    · exact hnew hi
    · exact h.fresh (List.mem_cons_of_mem _ hi) hmem
  · rw [hids, List.nodup_cons]
    exact ⟨h.fresh hself, h.nodup⟩
  · rw [hnodes, List.mem_cons] at hr
    rcases hr with rfl | hr
    · exact h.mono hself
    · exact h.closed hr hshape

end Covers

end WalkContext

namespace Walk

open WalkContext

variable (g : TypeGraph) (config : TreeConfig)

/-- What a walk does: by induction on the levels, since the children of a node are made with one
level less. -/
theorem walk_covers (levels : Nat) (place : Occurrence) :
    Emits Covers ([·]) (walk g config levels place) := by
  induction levels generalizing place with
  | zero => exact fun _ => Covers.leaf rfl rfl (fun h => by cases h)
  | succ levels ih =>
    intro s
    rcases walk_cases g config (levels + 1) place s with
      ⟨h, -⟩ | ⟨hseen, h⟩ | ⟨location, -, h⟩ | ⟨below, hbelow, hnew, h⟩
    · cases h
    · rw [h]
      exact Covers.leaf rfl rfl fun _ => hseen
    · rw [h]
      exact Covers.leaf rfl rfl fun h => by cases h
    · obtain rfl : levels = below := Nat.succ.inj hbelow
      rw [h]
      exact Covers.node hnew (isConcrete_visitPlan g config levels place s)
        (Layer.mapM_emits Covers.composes ih _ _)

end Walk

namespace TypeGraph

variable (g : TypeGraph) (root : TreeRoot) (config : TreeConfig)

theorem tree_covers :
    ∃ t, WalkContext.Covers {} [g.tree root config] t :=
  ⟨_, Walk.walk_covers g config _ _ _⟩

theorem nodup_concreteIds_tree : (concreteIds [g.tree root config]).Nodup :=
  let ⟨_, h⟩ := g.tree_covers root config
  h.nodup

theorem closed_tree : (g.tree root config).Closed := by
  obtain ⟨t, h⟩ := g.tree_covers root config
  intro r hr hshape
  have hmem : r.id ∈ concreteIds [g.tree root config] :=
    ((h.mem_seen_iff _).1 (h.closed (by simpa [nodes] using hr) hshape)).resolve_left
      List.not_mem_nil
  simpa [mem_concreteIds_iff, nodes] using hmem

/-- In a generated tree no two concrete nodes share an id, and every reference without a location
carries the id of a concrete node, which is the one that the scope of the tree leads to. -/
theorem references_resolve_uniquely :
    (((g.tree root config).preorder.filter (·.shape.isConcrete)).map TypeTree.id).Nodup ∧
      ∀ r ∈ (g.tree root config).preorder, r.shape = .reference none →
        ∃ c ∈ (g.tree root config).preorder, c.shape.isConcrete = true ∧ c.id = r.id ∧
          (Scope.ofTree (g.tree root config)).get? r.id = some c := by
  have hnodup := g.nodup_concreteIds_tree root config
  refine ⟨by simpa [concreteIds, nodes] using hnodup, fun r hr hshape => ?_⟩
  obtain ⟨c, hc, hconcrete, hid⟩ := g.closed_tree root config r hr hshape
  exact ⟨c, hc, hconcrete, hid, hid ▸ Scope.get?_ofTree_id hnodup hc hconcrete⟩

end TypeGraph

end TypeAtlas
