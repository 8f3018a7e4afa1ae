import TypeAtlas.Proofs.Tree.Parts
import TypeAtlas.Proofs.Tree.Preorder
/-!
# The round trip of trees

A tree is read back from what arrives of it exactly when all its numbers arrive
(`TypeTree.ofJson?_through_eq_some_self`). On the way a node is taken apart into its number and its
children (`Layer.renumber?_bind_traverse?_eq_some_self`), and the number of levels that are read is
enough because a child is not as deep as its parent (`TypeTree.depth_through_toJson_le`).
-/

namespace TypeAtlas

variable {α β γ : Type}

/-! ## Traversing a node -/

theorem forall_mem_optionList {P : α → Prop} {xs : Option (List α)} :
    (∀ a ∈ xs.getD [], P a) ↔ ∀ items ∈ xs, ∀ a ∈ items, P a := by
  cases xs <;> simp

section Self

variable {f : α → Option α}

theorem SignatureLayer.traverse?_eq_some_self {s : SignatureLayer α} :
    s.traverse? f = some s ↔ ∀ c ∈ s.children, f c = some c := by
  obtain ⟨symbolMeta, parameters, returnType, typeParameters⟩ := s
  simp only [children, List.forall_mem_append, forall_mem_optionList]
  simp [traverse?, Option.bind_eq_some_iff, and_assoc]

theorem IndexLayer.traverse?_eq_some_self {i : IndexLayer α} :
    i.traverse? f = some i ↔ ∀ c ∈ i.children, f c = some c := by
  obtain ⟨keyType, valueType, parameterSymbol, readonly⟩ := i
  simp only [children, List.forall_mem_append]
  simp [traverse?, Option.bind_eq_some_iff]

theorem ClassLayer.traverse?_eq_some_self {c : ClassLayer α} :
    c.traverse? f = some c ↔ ∀ child ∈ c.children, f child = some child := by
  obtain ⟨classSymbol, properties, indexInfos, baseType, implementsTypes, signatures⟩ := c
  simp only [children, List.forall_mem_append, List.forall_mem_flatMap]
  simp [traverse?, Option.bind_eq_some_iff, and_assoc, IndexLayer.traverse?_eq_some_self,
    SignatureLayer.traverse?_eq_some_self]

theorem Shape.traverse?_eq_some_self {s : Shape α} :
    s.traverse? f = some s ↔ ∀ c ∈ s.children, f c = some c := by
  cases s <;> simp only [children, List.forall_mem_append, List.forall_mem_cons,
    List.forall_mem_flatMap] <;>
  simp [traverse?, Option.bind_eq_some_iff, and_assoc, IndexLayer.traverse?_eq_some_self,
    SignatureLayer.traverse?_eq_some_self, ClassLayer.traverse?_eq_some_self]

/-- A node comes back when neither its number nor its children are changed. -/
theorem Shape.renumber?_bind_traverse?_eq_some_self {g : Double → Option Double} {s : Shape α} :
    (s.renumber? g).bind (traverse? f) = some s ↔
      (∀ d ∈ s.number?, g d = some d) ∧ ∀ c ∈ s.children, f c = some c := by
  rw [← traverse?_eq_some_self, ← renumber?_eq_some_self]
  cases s with
  | numberLiteral value => cases h : g value <;> simp [renumber?, traverse?, h]
  | enumLiteral value literalSymbol parentSymbol =>
    cases h : value.renumber? g <;> simp [renumber?, traverse?, h]
  | _ => simp only [renumber?, Option.bind_some, true_and]

end Self

section Map

variable (f : β → Option γ) (g : α → β)

@[simp]
theorem SignatureLayer.traverse?_map (s : SignatureLayer α) :
    (s.map g).traverse? f = s.traverse? (f ∘ g) := by
  simp [traverse?, map, List.mapM_map, mapM_option_map, Function.comp_def]

@[simp]
theorem IndexLayer.traverse?_map (i : IndexLayer α) :
    (i.map g).traverse? f = i.traverse? (f ∘ g) := by
  simp [traverse?, map, mapM_option_map, Function.comp_def]

@[simp]
theorem ClassLayer.traverse?_map (c : ClassLayer α) :
    (c.map g).traverse? f = c.traverse? (f ∘ g) := by
  simp [traverse?, map, List.mapM_map, mapM_option_map, Function.comp_def]

@[simp]
theorem Shape.traverse?_map (s : Shape α) : (s.map g).traverse? f = s.traverse? (f ∘ g) := by
  cases s <;> simp [traverse?, map, List.mapM_map, mapM_option_map, Function.comp_def]

@[simp]
theorem Layer.traverse?_map (l : Layer α) : (l.map g).traverse? f = l.traverse? (f ∘ g) := by
  simp [traverse?, map, List.mapM_map, mapM_option_map, Function.comp_def]

end Map

/-- A node comes back when neither its number nor its children are changed. -/
theorem Layer.renumber?_bind_traverse?_eq_some_self {f : α → Option α}
    {g : Double → Option Double} {l : Layer α} :
    (l.renumber? g).bind (traverse? f) = some l ↔
      (∀ d ∈ l.shape.number?, g d = some d) ∧ ∀ c ∈ l.children, f c = some c := by
  obtain ⟨id, shape, symbolMeta, aliasSymbolMeta, typeArguments, typeParameters⟩ := l
  simp only [children, List.forall_mem_append, forall_mem_optionList, and_assoc]
  rw [← and_assoc, ← Shape.renumber?_bind_traverse?_eq_some_self]
  cases h : shape.renumber? g with
  | none => simp [renumber?, h]
  | some changed => simp [renumber?, h, traverse?, Option.bind_eq_some_iff]

/-! ## The numbers of a tree -/

namespace TypeTree

/-- The numbers of the literals and enum members in a tree. -/
def numbers (t : TypeTree) : List Double :=
  t.preorder.filterMap fun n => n.shape.number?

theorem numbers_node (l : Layer TypeTree) :
    (node l).numbers = l.shape.number?.toList ++ l.children.flatMap numbers := by
  have hchildren : (l.children.flatMap preorder).filterMap (fun n => n.shape.number?) =
      l.children.flatMap numbers :=
    List.filterMap_flatMap
  have hshape : (node l).shape = l.shape := rfl
  rw [numbers, preorder_node, List.filterMap_cons, nodes, hchildren, hshape]
  cases l.shape.number? <;> rfl

theorem forall_mem_numbers_node {P : Double → Prop} {l : Layer TypeTree} :
    (∀ d ∈ (node l).numbers, P d) ↔
      (∀ d ∈ l.shape.number?, P d) ∧ ∀ c ∈ l.children, ∀ d ∈ c.numbers, P d := by
  rw [numbers_node, List.forall_mem_append, List.forall_mem_flatMap]
  simp only [Option.mem_toList, Option.mem_def]

end TypeTree

/-- All numbers of a tree arrive. -/
def Medium.Carries (m : Medium) (t : TypeTree) : Prop :=
  ∀ d ∈ t.numbers, m.number? d = some d

theorem Medium.exact_carries {t : TypeTree} :
    exact.Carries t ↔ ∀ d ∈ t.numbers, d.isFinite = true :=
  forall₂_congr fun d _ => by rw [exact_number?, Option.ite_none_right_eq_some, and_iff_left rfl]

/-! ## Depth -/

namespace Json

theorem depth_pos (json : Json) : 0 < json.depth := by
  cases json <;> simp [depth]

theorem depthItems_le_iff {items : List Json} {n : ℕ} :
    depthItems items ≤ n ↔ ∀ item ∈ items, item.depth ≤ n := by
  induction items with
  | nil => simp [depthItems]
  | cons item items ih => rw [depthItems, Nat.max_le, ih, List.forall_mem_cons]

theorem depthMembers_le_iff {members : Members} {n : ℕ} :
    depthMembers members ≤ n ↔ members.Each fun json => json.depth ≤ n := by
  induction members with
  | nil => simp [depthMembers]
  | cons member members ih => rw [depthMembers, Nat.max_le, ih, Members.each_cons]

theorem depth_obj_le_iff {members : Members} {n : ℕ} :
    (obj members).depth ≤ n + 1 ↔ members.Each fun json => json.depth ≤ n := by
  rw [depth, Nat.add_le_add_iff_right, depthMembers_le_iff]

/-- The parts of a value are no deeper than the value. -/
theorem descending_depth (n : ℕ) : Descending fun json => json.depth ≤ n where
  arr := fun items h => depthItems_le_iff.1 (by rw [depth] at h; omega)
  obj := fun members h => depthMembers_le_iff.1 (by rw [depth] at h; omega)

end Json

namespace TypeTree

theorem toJson_node (l : Layer TypeTree) : (node l).toJson = (l.map toJson).toJson :=
  fold_node Layer.toJson l

/-- A property that is handed up holds of a tree if it holds of the tree's numbers. -/
theorem hereditary_toJson {P : Json → Prop} (hP : Json.Hereditary P) :
    ∀ t : TypeTree, (∀ d ∈ t.numbers, P (.ofDouble d)) → P t.toJson
  | node l, h => by
    rw [forall_mem_numbers_node] at h
    rw [toJson_node]
    refine Layer.hereditary_toJson hP ?_ ?_
    · rw [Layer.children_map, List.forall_mem_map]
      exact fun c hc => hereditary_toJson hP c (h.2 c hc)
    · rw [Layer.map, Shape.number?_map]
      exact h.1
termination_by t => sizeOf t
decreasing_by exact sizeOf_lt_of_mem_children (show c ∈ (node l).children from hc)

/-! ## Trees on a medium -/

variable (m : Medium)

theorem through_toJson_ne_null (t : TypeTree) : t.toJson.through m ≠ .null := by
  obtain ⟨l⟩ := t
  rw [toJson_node, Layer.toJson, Json.through_obj]
  exact Json.noConfusion

/-- What arrives of a child is not as deep as what arrives of its parent. -/
theorem depth_through_toJson_le {l : Layer TypeTree} {levels : ℕ}
    (h : ((node l).toJson.through m).depth ≤ levels + 1) :
    ∀ c ∈ l.children, (c.toJson.through m).depth ≤ levels := by
  rw [toJson_node, Layer.toJson, Json.through_obj, Json.depth_obj_le_iff] at h
  have hparts : (l.map toJson).toMembers.Each fun json => (json.through m).depth ≤ levels :=
    fun member hmember => h _ (List.mem_map_of_mem hmember)
  intro c hc
  refine Layer.descending_toMembers ((Json.descending_depth levels).through m) hparts c.toJson ?_
  rw [Layer.children_map]
  exact List.mem_map_of_mem hc

theorem ofJsonWithin?_through_eq_some_self {levels : ℕ} {t : TypeTree}
    (h : (t.toJson.through m).depth ≤ levels) :
    ofJsonWithin? levels (t.toJson.through m) = some t ↔ m.Carries t := by
  induction levels generalizing t with
  | zero => exact absurd h (Nat.not_le.2 (Json.depth_pos _))
  | succ levels ih =>
    obtain ⟨l⟩ := t
    have hchildren : ∀ c ∈ l.children,
        ofJsonWithin? levels (c.toJson.through m) = some c ↔ m.Carries c :=
      fun c hc => ih (depth_through_toJson_le m h c hc)
    have hread : ofJsonWithin? (levels + 1) ((node l).toJson.through m) =
        ((l.renumber? m.number?).bind (Layer.traverse? fun c =>
          ofJsonWithin? levels (c.toJson.through m))).map node := by
      rw [toJson_node, ofJsonWithin?, Layer.ofJson?_toJson m toJson (through_toJson_ne_null m)]
      cases l.renumber? m.number? with
      | none => rfl
      | some changed =>
        simp only [Option.map_some, Option.bind_eq_bind, Option.bind_some, Layer.traverse?_map]
        exact Option.map_eq_bind.symm
    rw [hread, Medium.Carries, forall_mem_numbers_node, Option.map_eq_some_iff]
    simp only [node.injEq, exists_eq_right, Layer.renumber?_bind_traverse?_eq_some_self]
    exact and_congr_right fun _ => forall₂_congr hchildren

/-- A tree is read back from what arrives of it exactly when each of its numbers arrives. -/
theorem ofJson?_through_eq_some_self {t : TypeTree} :
    ofJson? (t.toJson.through m) = some t ↔ m.Carries t :=
  ofJsonWithin?_through_eq_some_self m (Nat.le_refl _)

end TypeTree

end TypeAtlas
