import Mathlib.Data.Finset.Card
import Mathlib.Data.Finset.Dedup
import TypeAtlas.Proofs.Tree.Preorder
/-!
# Indexing a tree with a stack

`Scope.ofTree` searches a tree with a worklist. `Indexing` is the same search with a stack: a round
takes the node on top, takes it into the scope and puts its children on the stack in reverse, so
that the leftmost is on top next.

A round takes the first node off the nodes that are still to come (`Indexing.step?_eq_some`), so the
search comes to its end after as many rounds as there are nodes, and what has been visited at any
time is the part of the preorder that is not pending (`Indexing.after_eq_some`). The scope it ends
with is `Scope.ofTree` of the tree; it has one entry for each id of a concrete node and leads from
it to the first of them (`Scope.preorder_index`).
-/

namespace TypeAtlas

namespace Scope

variable {i : TypeId} {tree : TypeTree}

/-! ## Taking in several nodes -/

/-- The scope after several nodes have been taken in, one after the other. -/
def addAll (scope : Scope) (nodes : List TypeTree) : Scope :=
  nodes.foldl add scope

/-- The search takes in the nodes of its worklist in preorder. -/
theorem visit_eq_addAll (work : List TypeTree) (scope : Scope) :
    visit work scope = scope.addAll (TypeTree.nodes work) := by
  induction work, scope using visit.induct with
  | case1 scope => rw [visit]; rfl
  | case2 tree rest scope ih =>
    rw [visit, ih, TypeTree.nodes_cons]
    rfl

theorem ofTree_eq_addAll (tree : TypeTree) : ofTree tree = addAll {} tree.preorder := by
  rw [ofTree, visit_eq_addAll, TypeTree.nodes, List.flatMap_singleton]

/-! ## The ids of a scope -/

/-- The ids that lead somewhere. -/
def ids (scope : Scope) : List TypeId :=
  scope.entries.map Prod.fst

theorem length_ids (scope : Scope) : scope.ids.length = scope.size :=
  List.length_map _

theorem mem_ids_iff (scope : Scope) : i ∈ scope.ids ↔ (scope.get? i).isSome := by
  rw [get?, List.lookup_isSome_iff, ids, List.mem_map]
  constructor
  · rintro ⟨entry, hentry, rfl⟩
    exact ⟨entry, hentry, beq_self_eq_true _⟩
  · rintro ⟨entry, hentry, hi⟩
    exact ⟨entry, hentry, (beq_iff_eq.1 hi).symm⟩

/-- No id is entered twice. -/
theorem nodup_ids_add {scope : Scope} (h : scope.ids.Nodup) (tree : TypeTree) :
    (scope.add tree).ids.Nodup := by
  rw [add]
  split
  case isFalse => exact h
  case isTrue hnew =>
    have hfree : scope.contains tree.id = false := by
      simpa using (Bool.and_eq_true_iff.1 hnew).2
    have hmem : tree.id ∉ scope.ids := by
      rw [mem_ids_iff, ← contains, hfree]
      exact Bool.false_ne_true
    exact List.nodup_cons.2 ⟨hmem, h⟩

theorem nodup_ids_addAll {scope : Scope} (h : scope.ids.Nodup) (nodes : List TypeTree) :
    (scope.addAll nodes).ids.Nodup := by
  induction nodes generalizing scope with
  | nil => exact h
  | cons n nodes ih => exact ih (nodup_ids_add h n)

theorem nodup_ids_ofTree (tree : TypeTree) : (ofTree tree).ids.Nodup := by
  rw [ofTree_eq_addAll]
  have hempty : (ids {}).Nodup := List.nodup_nil
  exact nodup_ids_addAll hempty _

/-- The ids of the scope of a tree are those of its concrete nodes. -/
theorem mem_ids_ofTree_iff :
    i ∈ (ofTree tree).ids ↔ i ∈ (tree.preorder.filter (·.shape.isConcrete)).map TypeTree.id := by
  simp only [mem_ids_iff, get?_ofTree, List.find?_isSome, List.mem_map, List.mem_filter,
    Bool.and_eq_true, beq_iff_eq, and_assoc]

/-- As many entries as there are ids of concrete nodes. -/
theorem size_ofTree (tree : TypeTree) :
    (ofTree tree).size =
      ((tree.preorder.filter (·.shape.isConcrete)).map TypeTree.id).toFinset.card := by
  have hids : (ofTree tree).ids.toFinset =
      ((tree.preorder.filter (·.shape.isConcrete)).map TypeTree.id).toFinset :=
    Finset.ext fun _ => by rw [List.mem_toFinset, List.mem_toFinset, mem_ids_ofTree_iff]
  rw [← hids, List.toFinset_card_of_nodup (nodup_ids_ofTree tree), length_ids]

/-! ## The search with a stack -/

/-- A search under way. The top of the stack is its last tree. -/
structure Indexing where
  stack : List TypeTree
  scope : Scope := {}

namespace Indexing

variable {n : Nat} {x y : Indexing}

/-- One round, if the stack is not empty. -/
def step? (x : Indexing) : Option Indexing :=
  x.stack.getLast?.map fun top =>
    { stack := x.stack.dropLast ++ top.children.reverse
      scope := x.scope.add top }

/-- The search after a number of rounds. -/
def after : Nat → Indexing → Option Indexing
  | 0, x => some x
  | n + 1, x => x.step?.bind (after n)

/-- The nodes to come, in the order of the visits. -/
def pending (x : Indexing) : List TypeTree :=
  TypeTree.nodes x.stack.reverse

/-- A round visits the first of the nodes to come. -/
theorem step?_eq_some (h : x.step? = some y) :
    ∃ top, x.pending = top :: y.pending ∧ y.scope = x.scope.add top := by
  obtain ⟨top, htop, rfl⟩ := Option.map_eq_some_iff.1 h
  obtain ⟨below, hstack⟩ := List.getLast?_eq_some_iff.1 htop
  refine ⟨top, ?_, rfl⟩
  have hbefore : x.stack.reverse = top :: below.reverse := by
    rw [hstack, List.reverse_append, List.reverse_singleton, List.singleton_append]
  have hafter : (x.stack.dropLast ++ top.children.reverse).reverse =
      top.children ++ below.reverse := by
    rw [hstack, List.dropLast_concat, List.reverse_append, List.reverse_reverse]
  rw [pending, hbefore, TypeTree.nodes_cons, pending, hafter]

/-- The search ends when no node is to come. -/
theorem step?_eq_none_iff : x.step? = none ↔ x.pending = [] := by
  rw [step?, Option.map_eq_none_iff, List.getLast?_eq_none_iff]
  constructor
  · intro h
    rw [pending, h]
    rfl
  · intro h
    rw [pending, TypeTree.nodes, List.flatMap_eq_nil_iff] at h
    refine List.eq_nil_iff_forall_not_mem.2 fun tree htree => ?_
    have hempty := h tree (List.mem_reverse.2 htree)
    rw [TypeTree.preorder_eq] at hempty
    exact List.cons_ne_nil _ _ hempty

/-- The rounds so far have visited the nodes that are no longer to come, and no others. -/
theorem after_eq_some (h : after n x = some y) :
    ∃ visited, visited.length = n ∧ x.pending = visited ++ y.pending ∧
      y.scope = x.scope.addAll visited := by
  induction n generalizing x with
  | zero =>
    obtain rfl : x = y := Option.some.inj h
    exact ⟨[], rfl, rfl, rfl⟩
  | succ n ih =>
    obtain ⟨z, hz, hy⟩ := Option.bind_eq_some_iff.1 h
    obtain ⟨top, hpending, hscope⟩ := step?_eq_some hz
    obtain ⟨visited, hlength, hvisited, hadded⟩ := ih hy
    refine ⟨top :: visited, by rw [List.length_cons, hlength], ?_, ?_⟩
    · rw [hpending, hvisited, List.cons_append]
    · rw [hadded, hscope]
      rfl

/-- As long as a node is to come there is a next round. -/
theorem exists_after (hn : n ≤ x.pending.length) : ∃ y, after n x = some y := by
  induction n generalizing x with
  | zero => exact ⟨x, rfl⟩
  | succ n ih =>
    have hstep : x.step? ≠ none := by
      rw [Ne, step?_eq_none_iff, ← List.length_eq_zero_iff]
      omega
    obtain ⟨z, hz⟩ := Option.ne_none_iff_exists'.1 hstep
    obtain ⟨top, hpending, -⟩ := step?_eq_some hz
    have hleft : n ≤ z.pending.length := by
      rw [hpending, List.length_cons] at hn
      omega
    obtain ⟨y, hy⟩ := ih hleft
    exact ⟨y, by rw [after, hz]; exact hy⟩

/-- The search ends after one round for each node, with all of them taken in. -/
theorem after_pending (x : Indexing) :
    ∃ y, after x.pending.length x = some y ∧ y.step? = none ∧
      y.scope = x.scope.addAll x.pending := by
  obtain ⟨y, hy⟩ := exists_after (le_refl x.pending.length)
  obtain ⟨visited, hlength, hpending, hscope⟩ := after_eq_some hy
  have hdone : y.pending = [] := by
    have := congrArg List.length hpending
    rw [List.length_append, hlength] at this
    exact List.length_eq_zero_iff.1 (by omega)
  refine ⟨y, hy, step?_eq_none_iff.2 hdone, ?_⟩
  rw [hscope, hpending, hdone, List.append_nil]

end Indexing

/-- The search with a stack ends, after one round for each node of the tree, with the scope of the
tree. An id leads to the first concrete node in preorder that carries it, and there are as many
entries as such nodes have ids. -/
theorem preorder_index (tree : TypeTree) :
    (∃ y, Indexing.after tree.preorder.length { stack := [tree] } = some y ∧ y.step? = none ∧
      y.scope = ofTree tree) ∧
    (∀ i, (ofTree tree).get? i =
      tree.preorder.find? fun n => n.shape.isConcrete && n.id == i) ∧
    (ofTree tree).size =
      ((tree.preorder.filter (·.shape.isConcrete)).map TypeTree.id).toFinset.card := by
  refine ⟨?_, get?_ofTree tree, size_ofTree tree⟩
  have hpending : Indexing.pending { stack := [tree] } = tree.preorder := by
    rw [Indexing.pending, List.reverse_singleton, TypeTree.nodes, List.flatMap_singleton]
  obtain ⟨y, hy, hend, hscope⟩ := Indexing.after_pending { stack := [tree] }
  rw [hpending] at hy hscope
  exact ⟨y, hy, hend, hscope.trans (ofTree_eq_addAll tree).symm⟩

end Scope

end TypeAtlas
