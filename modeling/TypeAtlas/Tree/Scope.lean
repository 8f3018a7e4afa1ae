import TypeAtlas.Tree.Fold
/-!
# The scope of a tree

A `reference` node without a location stands for a node of the same tree, which need not lie above
it. `Scope.ofTree` therefore indexes a whole tree: each id leads to the first concrete node that
carries it, in preorder. The tree is searched with a worklist, so the leftmost node that is not yet
visited is always at its head.
-/

namespace TypeAtlas

/-- Concrete nodes by id. -/
structure Scope where
  entries : List (TypeId × TypeTree) := []
  deriving Inhabited

namespace Scope

/-- The node with an id. -/
def get? (scope : Scope) (id : TypeId) : Option TypeTree :=
  scope.entries.lookup id

/-- Whether some node has the id. -/
def contains (scope : Scope) (id : TypeId) : Bool :=
  (scope.get? id).isSome

/-- The number of ids. -/
def size (scope : Scope) : Nat :=
  scope.entries.length

/-- Takes in a node, unless it stands for another one or its id is there already. -/
def add (scope : Scope) (tree : TypeTree) : Scope :=
  if tree.shape.isConcrete && !scope.contains tree.id then
    ⟨(tree.id, tree) :: scope.entries⟩
  else scope

/-- Takes in the trees of a worklist, each node before those below it. -/
def visit : List TypeTree → Scope → Scope
  | [], scope => scope
  | tree :: rest, scope => visit (tree.children ++ rest) (scope.add tree)
termination_by work => (work.flatMap TypeTree.preorder).length
decreasing_by
  rw [List.flatMap_cons, TypeTree.preorder_eq tree, List.cons_append, List.flatMap_append]
  exact Nat.lt_succ_self _

/-- The scope of a tree. -/
def ofTree (tree : TypeTree) : Scope :=
  visit [tree] {}

end Scope

end TypeAtlas
