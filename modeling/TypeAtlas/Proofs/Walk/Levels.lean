import TypeAtlas.Proofs.Walk.Nodes
/-!
# The levels of a generated tree

The root of a tree is at level one, and a child is one level below its parent. A walk keeps count of
the nodes it is inside of, so the count is the level above the node that it makes next, and with the
levels that are left it makes up the maximal depth at every node (`Walk.walk_levels`). Hence nodes
are cut off at one level and nowhere else (`TypeGraph.exact_depth`), and a maximal depth that was
not reached may as well be greater (`TypeGraph.tree_of_unused_depth`).
-/

namespace TypeAtlas

open TypeTree

namespace TypeTree

/-- The nodes of a tree with their levels, each before those below it, if the root is at the given
level. -/
def leveled (level : Nat) (tree : TypeTree) : List (Nat × TypeTree) :=
  (level, tree) :: tree.children.attach.flatMap fun ⟨child, _⟩ => leveled (level + 1) child
termination_by sizeOf tree
decreasing_by exact sizeOf_lt_of_mem_children ‹_›

theorem leveled_eq (level : Nat) (tree : TypeTree) :
    tree.leveled level = (level, tree) :: tree.children.flatMap (leveled (level + 1)) := by
  rw [leveled]
  simp [List.flatMap_subtype]

/-- Every node of the tree is at a level. -/
theorem map_snd_leveled (level : Nat) (tree : TypeTree) :
    (tree.leveled level).map Prod.snd = tree.preorder := by
  rw [leveled_eq, preorder_eq, List.map_cons, List.map_flatMap]
  refine congrArg (tree :: ·) (List.flatMap_congr fun child hchild => ?_)
  exact map_snd_leveled (level + 1) child
termination_by sizeOf tree
decreasing_by exact sizeOf_lt_of_mem_children hchild

/-- A node at a level is a good one for a tree with a lowest level: it is cut off just at this
level, it is not below it, and it has no children if it does not show its type. -/
structure FitsLevel (lowest level : Nat) (tree : TypeTree) : Prop where
  cut_iff : tree.shape.kind = .maxDepth ↔ level = lowest
  le : level ≤ lowest
  leaf : tree.shape.isConcrete = false → tree.children = []

end TypeTree

namespace WalkContext

/-- Between two states of a walk with some levels left the given trees were made: the count of
enclosing nodes is what it was, and the nodes are good ones for the levels below these. -/
def Counts (levels : Nat) (s : WalkContext) (trees : List TypeTree) (t : WalkContext) : Prop :=
  t.depth = s.depth ∧
    ∀ n ∈ trees.flatMap (leveled (s.depth + 1)), n.2.FitsLevel (s.depth + levels + 1) n.1

variable {levels : Nat} {s t : WalkContext}

theorem composes_counts (levels : Nat) : Composes (Counts levels) where
  nil _ := ⟨rfl, List.forall_mem_nil _⟩
  append h₁ h₂ := by
    rw [Counts, h₁.1] at h₂
    rw [Counts, List.flatMap_append, List.forall_mem_append]
    exact ⟨h₂.1, h₁.2, h₂.2⟩
  perm hp h := ⟨h.1, fun n hn => h.2 n ((hp.flatMap_right _).mem_iff.2 hn)⟩

/-- A leaf is at the level of the next node. -/
theorem counts_leafOf (g : TypeGraph) (place : Occurrence) {shape : Shape TypeTree}
    (hchildren : shape.children = []) (hcut : shape.kind = .maxDepth ↔ levels = 0) :
    Counts levels s [g.leafOf place shape] s := by
  have hleaf : (g.leafOf place shape).children = [] := by
    simp [TypeGraph.leafOf, TypeTree.children, TypeTree.layer, Layer.children, hchildren]
  refine ⟨rfl, ?_⟩
  rw [List.flatMap_singleton, leveled_eq, hleaf, List.flatMap_nil, List.forall_mem_singleton]
  exact ⟨hcut.trans (by omega), by omega, fun _ => hleaf⟩

/-- The children of a node are one level down, with one level less below them. -/
theorem Counts.node {layer : Layer TypeTree} (hconcrete : layer.shape.isConcrete = true)
    {id : TypeId} (h : Counts levels (s.enter id) layer.children t) :
    Counts (levels + 1) s [.node layer] t.leave := by
  have hlowest : (s.enter id).depth + levels + 1 = s.depth + (levels + 1) + 1 := by
    show s.depth + 1 + levels + 1 = _
    omega
  rw [Counts, hlowest] at h
  refine ⟨by rw [leave, h.1]; rfl, ?_⟩
  rw [List.flatMap_singleton, leveled_eq, List.forall_mem_cons]
  refine ⟨⟨⟨fun hkind => ?_, fun hlevel => by omega⟩, by omega, fun hleaf => ?_⟩, h.2⟩
  · exact absurd hkind (Shape.kind_ne_maxDepth hconcrete)
  · exact absurd (hconcrete.symm.trans hleaf) (by decide)

end WalkContext

namespace Walk

open WalkContext

variable (g : TypeGraph) (config : TreeConfig)

/-- By induction on the levels: a walk into a node counts one node more and has one level less. -/
theorem walk_levels (levels : Nat) (place : Occurrence) :
    Emits (Counts levels) ([·]) (walk g config levels place) := by
  induction levels generalizing place with
  | zero => exact fun _ => counts_leafOf g place rfl (by simp [Shape.kind])
  | succ levels ih =>
    intro s
    rcases walk_cases g config (levels + 1) place s with
      ⟨h, -⟩ | ⟨-, h⟩ | ⟨location, -, h⟩ | ⟨below, hbelow, -, h⟩
    · cases h
    · rw [h]
      exact counts_leafOf g place rfl (by simp [Shape.kind])
    · rw [h]
      exact counts_leafOf g place rfl (by simp [Shape.kind])
    · obtain rfl : levels = below := Nat.succ.inj hbelow
      rw [h]
      exact .node (isConcrete_visitPlan g config levels place s)
        (Layer.mapM_emits (composes_counts levels) ih _ _)

/-- A tree without nodes that are cut off. -/
def Uncut (tree : TypeTree) : Prop :=
  ∀ n ∈ tree.preorder, n.shape.kind ≠ .maxDepth

variable {g config}

/-- A walk that cuts nothing off does the same with more levels left: by induction on the levels,
the states before two visits of one child are the same. -/
theorem walk_agree {config' : TreeConfig}
    (hsame : config'.referenceDefinedTypes = config.referenceDefinedTypes) {levels levels' : Nat}
    (hle : levels ≤ levels') (place : Occurrence) :
    Agree Uncut ([·]) (walk g config levels place) (walk g config' levels' place) := by
  induction levels generalizing levels' place with
  | zero =>
    intro s huncut
    rw [walk_zero, List.forall_mem_singleton] at huncut
    exact absurd rfl (huncut _ (mem_preorder_self _))
  | succ levels ih =>
    obtain ⟨levels', rfl⟩ := Nat.exists_eq_succ_of_ne_zero (Nat.ne_zero_of_lt hle)
    intro s huncut
    have hlocation : g.locationAt? config' place s = g.locationAt? config place s := by
      rw [TypeGraph.locationAt?, hsame]
      rfl
    rw [walk_succ] at huncut
    rw [walk_succ, walk_succ, hlocation]
    split
    · rfl
    next hnew =>
    rw [if_neg hnew] at huncut
    split
    · rfl
    next hnone =>
    rw [hnone, List.forall_mem_singleton] at huncut
    have hplan : visitPlan g config' levels' place s = visitPlan g config levels place s :=
      Layer.mapM_agree (fun child _ => ih (Nat.le_of_succ_le_succ hle) child) _
        fun child hchild n hn => huncut n (mem_preorder_of_mem_children hchild hn)
    rw [hplan]

end Walk

namespace TypeGraph

variable (g : TypeGraph) (root : TreeRoot)

/-- **Nodes are cut off at one level and nowhere else.** The nodes of a generated tree, with the
root at level one, are at most one level below the maximal depth, and just those at that level are
cut off. Nodes that are cut off and references have no children. Whatever a walk has met before, its
count of enclosing nodes is the same before and after. -/
theorem exact_depth (config : TreeConfig) :
    (∀ p ∈ (g.tree root config).leveled 1,
      (p.2.shape.kind = .maxDepth ↔ p.1 = config.maxDepth.toNat + 1) ∧
        p.1 ≤ config.maxDepth.toNat + 1) ∧
      (∀ n ∈ (g.tree root config).preorder,
        n.shape.kind = .maxDepth ∨ n.shape.kind = .reference → n.children = []) ∧
      ∀ levels place s, (Walk.walk g config levels place s).2.depth = s.depth := by
  have hcounts := (Walk.walk_levels g config config.maxDepth.toNat (g.occurrenceOf root) {}).2
  rw [List.flatMap_singleton, Nat.zero_add, Nat.zero_add] at hcounts
  refine ⟨fun p hp => ⟨(hcounts p hp).cut_iff, (hcounts p hp).le⟩, fun n hn hkind => ?_,
    fun levels place s => (Walk.walk_levels g config levels place s).1⟩
  rw [← map_snd_leveled 1] at hn
  obtain ⟨p, hp, rfl⟩ := List.mem_map.1 hn
  refine (hcounts p hp).leaf ?_
  rcases hkind with hkind | hkind
  · exact Shape.isConcrete_eq_of_kind_eq (t := Shape.maxDepth (α := TypeTree)) hkind
  · exact Shape.isConcrete_eq_of_kind_eq (t := Shape.reference (α := TypeTree) none) hkind

/-- A tree of which nothing is cut off is the tree for every greater maximal depth as well. -/
theorem tree_of_unused_depth {config config' : TreeConfig}
    (hsame : config'.referenceDefinedTypes = config.referenceDefinedTypes)
    (hle : config.maxDepth ≤ config'.maxDepth)
    (huncut : ∀ n ∈ (g.tree root config).preorder, n.shape.kind ≠ .maxDepth) :
    g.tree root config' = g.tree root config := by
  have hagree := Walk.walk_agree hsame (UInt32.le_iff_toNat_le.1 hle) (g.occurrenceOf root) {}
    (List.forall_mem_singleton.2 huncut)
  exact congrArg Prod.fst hagree

/-- Three levels are enough for the two objects, and two are not. -/
theorem tree_of_unused_depth_mutualObjects :
    (∃ n ∈ (mutualObjects.tree (.type ⟨0⟩) { maxDepth := 2 }).preorder,
      n.shape.kind = .maxDepth) ∧
      (∀ n ∈ (mutualObjects.tree (.type ⟨0⟩) { maxDepth := 3 }).preorder,
        n.shape.kind ≠ .maxDepth) ∧
      mutualObjects.tree (.type ⟨0⟩) { maxDepth := 4294967295 } =
        mutualObjects.tree (.type ⟨0⟩) { maxDepth := 3 } :=
  have huncut : ∀ n ∈ (mutualObjects.tree (.type ⟨0⟩) { maxDepth := 3 }).preorder,
      n.shape.kind ≠ .maxDepth := by decide +kernel
  ⟨by decide +kernel, huncut,
    mutualObjects.tree_of_unused_depth (.type ⟨0⟩) rfl (by decide) huncut⟩

end TypeGraph

end TypeAtlas
