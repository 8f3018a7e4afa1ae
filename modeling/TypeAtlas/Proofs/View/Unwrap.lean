import TypeAtlas.Proofs.Tree.Preorder
import TypeAtlas.View.Resolver
/-!
# Unwrapping

`Unwrapped.peel` goes down from arrays to elements within one root and stops at a node that is no
array; `Unwrapped.resolve` peels, follows a reference, and starts again.
-/

namespace TypeAtlas

open TypeTree

theorem TypeTree.mem_children_of_array {tree element : TypeTree} {readonly : Bool}
    (h : tree.shape = .array element readonly) : element ∈ tree.children := by
  have hmem : element ∈ tree.layer.shape.children := by
    rw [show tree.layer.shape = tree.shape from rfl, h]
    exact List.mem_singleton_self element
  exact List.mem_append_left _ (List.mem_append_left _ hmem)

/-- A node that stands for itself alone: it is neither an array nor a reference. -/
def Shape.isUnwrapped {α : Type} : Shape α → Bool
  | array .. => false
  | reference .. => false
  | _ => true

theorem Shape.isReference_iff {α : Type} {s : Shape α} :
    s.isReference = true ↔ ∃ location, s = .reference location := by
  cases s <;> simp [isReference]

theorem Shape.ne_array_of_isUnwrapped {α : Type} {s : Shape α} (h : s.isUnwrapped = true)
    (element : α) (readonly : Bool) : s ≠ .array element readonly := by
  rintro rfl
  cases h

theorem Shape.kind_ne_of_isUnwrapped {α : Type} {s : Shape α} (h : s.isUnwrapped = true) :
    s.kind ≠ .array ∧ s.kind ≠ .reference := by
  cases s with
  | array element readonly => cases h
  | reference location => cases h
  | _ => exact ⟨nofun, nofun⟩

theorem Shape.isReference_of_isUnwrapped {α : Type} {s : Shape α} (h : s.isUnwrapped = true) :
    s.isReference = false := by
  cases s with
  | reference location => cases h
  | _ => rfl

theorem Shape.isReference_of_isConcrete {α : Type} {s : Shape α} (h : s.isConcrete = true) :
    s.isReference = false := by
  cases s with
  | reference location => cases h
  | _ => rfl

/-- The tree with its root met through a symbol. -/
def TypeTree.metThrough (tree : TypeTree) (symbol : Option SymbolMeta) : TypeTree :=
  .node { tree.layer with symbolMeta := symbol }

namespace Unwrapped

/-- The unwrapped node without the symbol that belongs to its own place. -/
def forget (u : Unwrapped) : Unwrapped :=
  { u with node := u.node.metThrough none }

/-- One step from an array to its element. -/
def inside (u : Unwrapped) (element : TypeTree) (readonly : Bool) : Unwrapped :=
  { u with
    node := element
    dimension := u.dimension + 1
    readonlyArray := u.readonlyArray || readonly }

theorem peel_array {u : Unwrapped} {element : TypeTree} {readonly : Bool}
    (h : u.node.shape = .array element readonly) : u.peel = (u.inside element readonly).peel := by
  rw [peel]
  split
  · next h' =>
    obtain ⟨rfl, rfl⟩ := Shape.array.inj (h.symm.trans h')
    rfl
  · next hne => exact absurd h (hne element readonly)

theorem peel_of_ne_array {u : Unwrapped} (h : ∀ element readonly,
    u.node.shape ≠ .array element readonly) : u.peel = u := by
  rw [peel]
  split
  · next h' => exact absurd h' (h _ _)
  · rfl

/-- A property of the pairs of a start and what it peels to: it holds of nodes that are no arrays
and is handed up from the element to the array. -/
theorem peel_rec {motive : Unwrapped → Unwrapped → Prop}
    (stop : ∀ u, (∀ element readonly, u.node.shape ≠ .array element readonly) → motive u u)
    (step : ∀ u element readonly, u.node.shape = .array element readonly →
      motive (u.inside element readonly) (u.inside element readonly).peel →
        motive u (u.inside element readonly).peel)
    (u : Unwrapped) : motive u u.peel := by
  by_cases h : ∃ element readonly, u.node.shape = .array element readonly
  · obtain ⟨element, readonly, h⟩ := h
    rw [peel_array h]
    exact step u element readonly h (peel_rec stop step (u.inside element readonly))
  · have h : ∀ element readonly, u.node.shape ≠ .array element readonly :=
      fun element readonly hshape => h ⟨element, readonly, hshape⟩
    rw [peel_of_ne_array h]
    exact stop u h
termination_by sizeOf u.node
decreasing_by exact sizeOf_element_lt ‹_›

theorem peel_shape_ne_array (u : Unwrapped) (element : TypeTree) (readonly : Bool) :
    u.peel.node.shape ≠ .array element readonly :=
  peel_rec (motive := fun _ v => v.node.shape ≠ .array element readonly)
    (fun _ h => h element readonly) (fun _ _ _ _ h => h) u

theorem peel_root (u : Unwrapped) : u.peel.root = u.root :=
  peel_rec (motive := fun u v => v.root = u.root) (fun _ _ => rfl) (fun _ _ _ _ h => h) u

theorem peel_node_mem (u : Unwrapped) : u.peel.node ∈ u.node.preorder :=
  peel_rec (motive := fun u v => v.node ∈ u.node.preorder) (fun u _ => mem_preorder_self u.node)
    (fun _ _ _ hshape h => mem_preorder_of_mem_children (mem_children_of_array hshape) h) u

/-- Unwrapping ends at a peeled node that is no reference. -/
theorem resolve_of_peel {retriever : Option Retriever} {hops : Nat} {u : Unwrapped}
    (h : u.peel.node.shape.isReference = false) : u.resolve retriever hops = .ok u.peel := by
  unfold resolve
  dsimp only
  split
  · next h' => rw [h'] at h; cases h
  · rfl

/-- Unwrapping goes on from a peeled node that is a reference. -/
theorem resolve_succ {retriever : Option Retriever} {hops : Nat} {u : Unwrapped}
    {location : Option Location} (h : u.peel.node.shape = .reference location) :
    u.resolve retriever (hops + 1) =
      (u.peel.follow retriever location).bind (resolve retriever hops) := by
  conv_lhs => unfold resolve
  simp only [h]
  cases u.peel.follow retriever location <;> rfl

theorem resolve_zero {retriever : Option Retriever} {u : Unwrapped} {location : Option Location}
    (h : u.peel.node.shape = .reference location) :
    u.resolve retriever 0 = .error (.referenceChainTooLong maxReferenceHops) := by
  unfold resolve
  simp only [h]

/-- What unwrapping ends at. -/
theorem isUnwrapped_peel {u : Unwrapped} (h : u.peel.node.shape.isReference = false) :
    u.peel.node.shape.isUnwrapped = true := by
  cases hshape : u.peel.node.shape with
  | array element readonly => exact absurd hshape (u.peel_shape_ne_array element readonly)
  | reference location => rw [hshape] at h; cases h
  | _ => rfl

/-- Unwrapping ends at the peeled node, or gives up, or follows a reference. -/
theorem resolve_cases (retriever : Option Retriever) (hops : Nat) (u : Unwrapped) :
    (u.peel.node.shape.isUnwrapped = true ∧ u.resolve retriever hops = .ok u.peel) ∨
      ∃ location, u.peel.node.shape = .reference location ∧
        ((hops = 0 ∧
            u.resolve retriever hops = .error (.referenceChainTooLong maxReferenceHops)) ∨
          ∃ below, hops = below + 1 ∧ u.resolve retriever hops =
            (u.peel.follow retriever location).bind (resolve retriever below)) := by
  by_cases hend : u.peel.node.shape.isReference = true
  · obtain ⟨location, hshape⟩ := Shape.isReference_iff.1 hend
    refine Or.inr ⟨location, hshape, ?_⟩
    cases hops with
    | zero => exact Or.inl ⟨rfl, resolve_zero hshape⟩
    | succ below => exact Or.inr ⟨below, rfl, resolve_succ hshape⟩
  · have hend := Bool.eq_false_iff.2 hend
    exact Or.inl ⟨isUnwrapped_peel hend, resolve_of_peel hend⟩

/-- A property of the hops, the start and the end of unwrapping: it holds where no reference is
followed, and is handed back over each reference. -/
theorem resolve_rec {retriever : Option Retriever} {motive : Nat → Unwrapped → Unwrapped → Prop}
    (stop : ∀ hops u, u.peel.node.shape.isUnwrapped = true → motive hops u u.peel)
    (step : ∀ {hops u next v location}, u.peel.node.shape = .reference location →
      u.peel.follow retriever location = .ok next → next.resolve retriever hops = .ok v →
        motive hops next v → motive (hops + 1) u v)
    {hops : Nat} {u v : Unwrapped} (h : u.resolve retriever hops = .ok v) : motive hops u v := by
  induction hops generalizing u with
  | zero =>
    rcases u.resolve_cases retriever 0 with
      ⟨hend, heq⟩ | ⟨location, -, ⟨-, heq⟩ | ⟨below, hbelow, -⟩⟩
    · rw [heq] at h
      exact Except.ok.inj h ▸ stop 0 u hend
    · rw [heq] at h
      cases h
    · cases hbelow
  | succ hops ih =>
    rcases u.resolve_cases retriever (hops + 1) with
      ⟨hend, heq⟩ | ⟨location, hshape, ⟨hzero, -⟩ | ⟨below, hbelow, heq⟩⟩
    · rw [heq] at h
      exact Except.ok.inj h ▸ stop (hops + 1) u hend
    · cases hzero
    · cases hbelow
      rw [heq] at h
      cases hfollow : u.peel.follow retriever location with
      | error error => rw [hfollow] at h; cases h
      | ok next =>
        rw [hfollow] at h
        exact step hshape hfollow h (ih h)

theorem isUnwrapped_of_resolve {retriever : Option Retriever} {hops : Nat} {u v : Unwrapped}
    (h : u.resolve retriever hops = .ok v) : v.node.shape.isUnwrapped = true :=
  resolve_rec (motive := fun _ _ v => v.node.shape.isUnwrapped = true) (fun _ _ hend => hend)
    (fun _ _ _ hend => hend) h

/-- What is reached is reached as well if one more reference may be followed. -/
theorem resolve_more {retriever : Option Retriever} {hops : Nat} {u v : Unwrapped}
    (h : u.resolve retriever hops = .ok v) : u.resolve retriever (hops + 1) = .ok v := by
  refine resolve_rec (motive := fun hops u v => u.resolve retriever (hops + 1) = .ok v) ?_ ?_ h
  · exact fun hops u hend => resolve_of_peel (Shape.isReference_of_isUnwrapped hend)
  · intro hops u next v location hshape hfollow _ ih
    rw [resolve_succ hshape, hfollow]
    exact ih

end Unwrapped

end TypeAtlas
