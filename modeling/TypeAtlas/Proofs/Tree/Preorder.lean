import Mathlib.Data.List.Nodup
import TypeAtlas.Tree.Scope
/-!
# The nodes of a tree and its scope

`n ∈ t.preorder` says that `n` is a node of `t`. The nodes of the worklist of `Scope.visit` are the
part of the preorder still to be indexed, so `Scope.ofTree` leads from an id to the first concrete
node with that id (`Scope.get?_ofTree`), which is the only one when concrete nodes do not share ids
(`Scope.get?_ofTree_id`).
-/

namespace TypeAtlas

namespace TypeTree

/-! ## Nodes -/

theorem mem_preorder_iff {n t : TypeTree} :
    n ∈ t.preorder ↔ n = t ∨ ∃ c ∈ t.children, n ∈ c.preorder := by
  rw [preorder_eq, List.mem_cons, List.mem_flatMap]

theorem mem_preorder_self (t : TypeTree) : t ∈ t.preorder :=
  mem_preorder_iff.2 (Or.inl rfl)

theorem mem_preorder_of_mem_children {n c t : TypeTree} (hc : c ∈ t.children)
    (hn : n ∈ c.preorder) : n ∈ t.preorder :=
  mem_preorder_iff.2 (Or.inr ⟨c, hc, hn⟩)

/-- A node of a node is a node. -/
theorem mem_preorder_trans {m n : TypeTree} (hm : m ∈ n.preorder) (t : TypeTree)
    (hn : n ∈ t.preorder) : m ∈ t.preorder := by
  rcases mem_preorder_iff.1 hn with rfl | ⟨c, hc, hn⟩
  · exact hm
  · exact mem_preorder_of_mem_children hc (mem_preorder_trans hm c hn)
termination_by sizeOf t
decreasing_by exact sizeOf_lt_of_mem_children hc

/-- The nodes of several trees, one tree after the other. -/
def nodes (trees : List TypeTree) : List TypeTree :=
  trees.flatMap preorder

theorem nodes_append (ts us : List TypeTree) : nodes (ts ++ us) = nodes ts ++ nodes us :=
  List.flatMap_append

/-- The first node of several trees is the root of the first, and those below it come next. -/
theorem nodes_cons (t : TypeTree) (us : List TypeTree) :
    nodes (t :: us) = t :: nodes (t.children ++ us) := by
  simp only [nodes, List.flatMap_cons, List.flatMap_append, preorder_eq t, List.cons_append]

theorem preorder_node (layer : Layer TypeTree) :
    (node layer).preorder = node layer :: nodes layer.children :=
  preorder_eq _

/-- The ids of the concrete nodes of several trees, each as often as there are nodes with it. -/
def concreteIds (trees : List TypeTree) : List TypeId :=
  ((nodes trees).filter (·.shape.isConcrete)).map id

theorem concreteIds_append (ts us : List TypeTree) :
    concreteIds (ts ++ us) = concreteIds ts ++ concreteIds us := by
  simp only [concreteIds, nodes_append, List.filter_append, List.map_append]

theorem concreteIds_node (layer : Layer TypeTree) :
    concreteIds [node layer] =
      if layer.shape.isConcrete then layer.id :: concreteIds layer.children
      else concreteIds layer.children := by
  rw [concreteIds, nodes, List.flatMap_singleton, preorder_node, List.filter_cons]
  change List.map id (if layer.shape.isConcrete = true then _ else _) = _
  split <;> rfl

theorem mem_concreteIds_iff {trees : List TypeTree} {i : TypeId} :
    i ∈ concreteIds trees ↔ ∃ n ∈ nodes trees, n.shape.isConcrete = true ∧ n.id = i := by
  simp only [concreteIds, List.mem_map, List.mem_filter, and_assoc]

theorem concreteIds_perm {ts us : List TypeTree} (h : ts.Perm us) :
    (concreteIds ts).Perm (concreteIds us) :=
  ((h.flatMap_right preorder).filter _).map id

end TypeTree

/-! ## The scope -/

namespace Scope

theorem get?_add (scope : Scope) (tree : TypeTree) (i : TypeId) :
    (scope.add tree).get? i =
      (scope.get? i).or (if tree.shape.isConcrete && tree.id == i then some tree else none) := by
  simp only [add]
  split
  case isTrue h =>
    obtain ⟨hc, hnew⟩ := Bool.and_eq_true_iff.1 h
    have hnone : scope.get? tree.id = none := by
      simpa only [contains, Bool.not_eq_true', Option.isSome_eq_false_iff,
        Option.isNone_iff_eq_none]
        using hnew
    by_cases hi : tree.id = i
    · subst hi
      simp only [get?, List.lookup_cons_self] at hnone ⊢
      simp [hnone, hc]
    · have hb : (i == tree.id) = false := by simpa using Ne.symm hi
      simp [get?, List.lookup_cons, hb, hi]
  case isFalse h =>
    by_cases hi : tree.id = i
    · subst hi
      cases hc : tree.shape.isConcrete with
      | false => simp
      | true =>
        obtain ⟨n, hn⟩ : ∃ n, scope.get? tree.id = some n := by
          simpa only [hc, Bool.true_and, contains, Bool.not_eq_true', Bool.not_eq_false,
            Option.isSome_iff_exists] using h
        simp [hn]
    · simp [hi]

/-- A search finds what was there before, or else the first node of the worklist in preorder. -/
theorem get?_visit (work : List TypeTree) (scope : Scope) (i : TypeId) :
    (visit work scope).get? i =
      (scope.get? i).or
        ((TypeTree.nodes work).find? fun n => n.shape.isConcrete && n.id == i) := by
  induction work, scope using visit.induct with
  | case1 scope => simp [visit, TypeTree.nodes]
  | case2 tree rest scope ih =>
    rw [visit, ih, get?_add, TypeTree.nodes_cons, List.find?_cons, Option.or_assoc]
    cases tree.shape.isConcrete && tree.id == i <;> simp

theorem get?_ofTree (tree : TypeTree) (i : TypeId) :
    (ofTree tree).get? i = tree.preorder.find? fun n => n.shape.isConcrete && n.id == i := by
  rw [ofTree, get?_visit]
  simp [get?, TypeTree.nodes]

/-- A node found in a scope is a concrete node of the tree and carries the id. -/
theorem get?_ofTree_eq_some {tree n : TypeTree} {i : TypeId} (h : (ofTree tree).get? i = some n) :
    n ∈ tree.preorder ∧ n.shape.isConcrete = true ∧ n.id = i := by
  rw [get?_ofTree] at h
  have hp := List.find?_some h
  simp only [Bool.and_eq_true, beq_iff_eq] at hp
  exact ⟨List.mem_of_find?_eq_some h, hp.1, hp.2⟩

/-- When no two concrete nodes share an id, the scope leads to each of them. -/
theorem get?_ofTree_id {tree n : TypeTree} (hnodup : (TypeTree.concreteIds [tree]).Nodup)
    (hn : n ∈ tree.preorder) (hc : n.shape.isConcrete = true) :
    (ofTree tree).get? n.id = some n := by
  have hmem : n ∈ tree.preorder.filter (·.shape.isConcrete) := List.mem_filter.2 ⟨hn, hc⟩
  have hinj : ((tree.preorder.filter (·.shape.isConcrete)).map TypeTree.id).Nodup := by
    simpa [TypeTree.concreteIds, TypeTree.nodes] using hnodup
  obtain ⟨m, hm⟩ : ∃ m, (ofTree tree).get? n.id = some m := by
    rw [get?_ofTree, ← Option.isSome_iff_exists, List.find?_isSome]
    exact ⟨n, hn, by simp [hc]⟩
  obtain ⟨hm₁, hm₂, hm₃⟩ := get?_ofTree_eq_some hm
  rw [hm, List.inj_on_of_nodup_map hinj (List.mem_filter.2 ⟨hm₁, hm₂⟩) hmem hm₃]

end Scope

end TypeAtlas
