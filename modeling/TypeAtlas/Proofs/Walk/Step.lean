import Mathlib.Tactic.SplitIfs
import TypeAtlas.Proofs.Tree.Preorder
import TypeAtlas.Proofs.Walk.Visit
/-!
# What one step of a walk does

A walk at an occurrence either stops at a leaf, leaving its state alone, or goes through the plan of
the type one level further down (`Walk.walk_cases`). Facts about walks are inductions on the number
of levels over these four cases.
-/

namespace TypeAtlas

namespace TypeGraph

variable (g : TypeGraph)

/-- The symbol of an occurrence, as its node shows it. -/
def occurrenceMeta? (place : Occurrence) : Option SymbolMeta :=
  place.symbol.bind fun symbol => g.symbolMeta? symbol place.optional place.insideClassOrInterface

/-- A node that stands for the type of an occurrence. -/
def leafOf (place : Occurrence) (shape : Shape TypeTree) : TypeTree :=
  .node { id := place.type, shape, symbolMeta := g.occurrenceMeta? place }

/-- A leaf has no nodes below it. -/
theorem nodes_leafOf (place : Occurrence) {shape : Shape TypeTree} (h : shape.children = []) :
    TypeTree.nodes [g.leafOf place shape] = [g.leafOf place shape] := by
  simp [TypeTree.nodes, TypeTree.preorder_eq, leafOf, TypeTree.children, TypeTree.layer,
    Layer.children, h]

/-- Where the type at a place of a walk is declared, if it is left to a location. -/
def locationAt? (config : TreeConfig) (place : Occurrence) (context : WalkContext) :
    Option Location :=
  if config.referenceDefinedTypes && 0 < context.depth then g.definedTypeLocation? place.type
  else none

end TypeGraph

namespace WalkContext

/-- The state inside the node of a type. -/
def enter (context : WalkContext) (type : TypeId) : WalkContext where
  depth := context.depth + 1
  seen := type :: context.seen

/-- The state after a node. -/
def leave (context : WalkContext) : WalkContext :=
  { context with depth := context.depth - 1 }

end WalkContext

namespace Walk

variable (g : TypeGraph) (config : TreeConfig)

/-- The children of a type, visited inside its node. -/
def visitPlan (levels : Nat) (place : Occurrence) (context : WalkContext) :
    Layer TypeTree × WalkContext :=
  (g.plan place.type (g.occurrenceMeta? place)).mapM (walk g config levels)
    (context.enter place.type)

theorem walk_zero (place : Occurrence) (context : WalkContext) :
    walk g config 0 place context = (g.leafOf place .maxDepth, context) :=
  rfl

theorem walk_succ (levels : Nat) (place : Occurrence) (context : WalkContext) :
    walk g config (levels + 1) place context =
      if context.seen.contains place.type then (g.leafOf place (.reference none), context)
      else
        match g.locationAt? config place context with
        | some location => (g.leafOf place (.reference (some location)), context)
        | none =>
          (.node (visitPlan g config levels place context).1,
            (visitPlan g config levels place context).2.leave) := by
  rw [walk]
  simp only [bind, StateT.bind, get, getThe, MonadStateOf.get, StateT.get, pure, layer_eq]
  split
  · rfl
  cases h : g.locationAt? config place context with
  | none =>
    simp only [TypeGraph.locationAt?] at h
    simp only [h]
    rfl
  | some location =>
    simp only [TypeGraph.locationAt?] at h
    simp only [h]
    rfl

/-- The four things that a walk can do at an occurrence. -/
theorem walk_cases (levels : Nat) (place : Occurrence) (context : WalkContext) :
    levels = 0 ∧ walk g config levels place context = (g.leafOf place .maxDepth, context) ∨
    place.type ∈ context.seen ∧
      walk g config levels place context = (g.leafOf place (.reference none), context) ∨
    (∃ location, g.locationAt? config place context = some location ∧
      walk g config levels place context =
        (g.leafOf place (.reference (some location)), context)) ∨
    ∃ below, levels = below + 1 ∧ place.type ∉ context.seen ∧
      walk g config levels place context =
        (.node (visitPlan g config below place context).1,
          (visitPlan g config below place context).2.leave) := by
  cases levels with
  | zero => exact Or.inl ⟨rfl, walk_zero g config place context⟩
  | succ below =>
    rw [walk_succ]
    by_cases hseen : place.type ∈ context.seen
    · exact Or.inr (Or.inl ⟨hseen, by rw [if_pos (List.contains_iff_mem.2 hseen)]⟩)
    · rw [if_neg (mt List.contains_iff_mem.1 hseen)]
      cases hlocation : g.locationAt? config place context with
      | some location => exact Or.inr (Or.inr (Or.inl ⟨location, rfl, rfl⟩))
      | none => exact Or.inr (Or.inr (Or.inr ⟨below, rfl, hseen, rfl⟩))

/-! ## Nodes of a walk -/

/-- The node at an occurrence carries its type. -/
theorem id_walk (levels : Nat) (place : Occurrence) (context : WalkContext) :
    (walk g config levels place context).1.id = place.type := by
  rcases walk_cases g config levels place context with
    ⟨-, h⟩ | ⟨-, h⟩ | ⟨_, -, h⟩ | ⟨_, -, -, h⟩ <;> rw [h] <;> rfl

/-- The node at an occurrence shows its symbol. -/
theorem symbolMeta_walk (levels : Nat) (place : Occurrence) (context : WalkContext) :
    (walk g config levels place context).1.symbolMeta = g.occurrenceMeta? place := by
  rcases walk_cases g config levels place context with
    ⟨-, h⟩ | ⟨-, h⟩ | ⟨_, -, h⟩ | ⟨_, -, -, h⟩ <;> rw [h] <;> rfl

end Walk

namespace TypeGraph

variable (g : TypeGraph)

/-! ## Plans are concrete -/

theorem isConcrete_planEnum (record : TypeRecord) : (g.planEnum record).isConcrete = true := by
  unfold planEnum
  split_ifs <;> split <;> rfl

theorem isConcrete_planObject (id : TypeId) (record : TypeRecord) :
    (g.planObject id record).isConcrete = true := by
  unfold planObject
  dsimp only
  split_ifs <;> rfl

theorem isConcrete_planIntersection (members : List TypeId) :
    (g.planIntersection members).isConcrete = true := by
  unfold planIntersection
  dsimp only
  split_ifs <;> rfl

theorem isConcrete_planOperator (record : TypeRecord) :
    (g.planOperator record).isConcrete = true := by
  unfold planOperator
  cases record.data with
  | union => dsimp only; split_ifs <;> rfl
  | intersection members =>
    dsimp only
    split_ifs
    · exact g.isConcrete_planIntersection members
    · rfl
    · rfl
  | index | indexedAccess | conditional | substitution | templateLiteral | stringMapping => rfl
  | intrinsic | literal | object | typeParameter => dsimp only; split_ifs <;> rfl

/-- The plan of a type is never that of a leaf. -/
theorem isConcrete_planShape (id : TypeId) : (g.planShape id).isConcrete = true := by
  unfold planShape
  cases g.type? id with
  | none => rfl
  | some record =>
    dsimp only
    split
    · rfl
    split
    · split <;> rfl
    split
    · rfl
    split
    · exact g.isConcrete_planEnum record
    split
    · rfl
    split
    · split
      · next value _ => cases value <;> rfl
      · rfl
    split
    · exact g.isConcrete_planObject id record
    · exact g.isConcrete_planOperator record

end TypeGraph

/-- Whether a node is a leaf can be told from its kind. -/
theorem Shape.isConcrete_eq_of_kind_eq {α β : Type} {s : Shape α} {t : Shape β}
    (h : s.kind = t.kind) : s.isConcrete = t.isConcrete := by
  cases s <;> cases t <;> first | rfl | cases h

theorem Shape.kind_ne_maxDepth {α : Type} {s : Shape α} (h : s.isConcrete = true) :
    s.kind ≠ .maxDepth := by
  intro hkind
  have hleaf := isConcrete_eq_of_kind_eq (t := maxDepth (α := α)) hkind
  cases h.symm.trans hleaf

theorem Walk.isConcrete_visitPlan (g : TypeGraph) (config : TreeConfig) (levels : Nat)
    (place : Occurrence) (context : WalkContext) :
    (visitPlan g config levels place context).1.shape.isConcrete = true :=
  (Shape.isConcrete_eq_of_kind_eq (kind_mapM _ _)).trans (g.isConcrete_planShape _)

end TypeAtlas
