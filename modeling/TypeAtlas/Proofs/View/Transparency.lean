import TypeAtlas.Proofs.View.Batch
/-!
# References are transparent

A reference stands for another node of the tree. It is viewed as that node is, but met through the
symbol of the reference (`Resolve.reference_transparent`): unwrapping forgets the symbol that belongs
to the place of the node, so it leads from two nodes that differ in nothing else to two such nodes
again (`Unwrapped.resolve_forget`), and these have the same view.
-/

namespace TypeAtlas

open TypeTree

namespace Unwrapped

variable {retriever : Option Retriever} {u v : Unwrapped} {hops : Nat}

/-! ## The node behind a reference -/

/-- Inside an array, the symbol that belongs to the place of the array is gone. -/
theorem peel_forget (u : Unwrapped) : u.forget.peel = u.peel ∨ u.forget.peel = u.peel.forget := by
  by_cases h : ∃ element readonly, u.node.shape = .array element readonly
  · obtain ⟨element, readonly, hshape⟩ := h
    refine Or.inl ?_
    rw [peel_array hshape, peel_array (u := u.forget) hshape]
    rfl
  · rw [not_exists] at h
    have hne : ∀ element readonly, u.node.shape ≠ .array element readonly :=
      fun element readonly hshape => h element ⟨readonly, hshape⟩
    refine Or.inr ?_
    rw [peel_of_ne_array hne, peel_of_ne_array (u := u.forget) hne]

/-- What a reference leads to depends on its id and its location only. -/
theorem resolve_forget (retriever : Option Retriever) (hops : Nat) (u : Unwrapped) :
    (u.forget.resolve retriever hops).map forget = (u.resolve retriever hops).map forget := by
  have hsame : u.forget.peel.node.shape = u.peel.node.shape ∧
      u.forget.peel.forget = u.peel.forget ∧
        u.forget.peel.follow retriever = u.peel.follow retriever := by
    rcases u.peel_forget with h | h <;> rw [h] <;> exact ⟨rfl, rfl, rfl⟩
  obtain ⟨hshape, hforget, hfollow⟩ := hsame
  rcases u.resolve_cases retriever hops with
    ⟨hend, heq⟩ | ⟨location, hlocation, ⟨rfl, heq⟩ | ⟨below, rfl, heq⟩⟩
  · have hend := Shape.isReference_of_isUnwrapped hend
    rw [heq, resolve_of_peel (hshape ▸ hend), Except.map, Except.map, hforget]
  · rw [heq, resolve_zero (hshape.trans hlocation)]
  · rw [heq, resolve_succ (hshape.trans hlocation), hfollow]

/-- Unwrapping nodes that differ at most in the symbols of their places. -/
theorem resolve_of_forget_eq (h : u.forget = v.forget) {reached : Unwrapped}
    (hreached : u.resolve retriever hops = .ok reached) :
    ∃ reached', v.resolve retriever hops = .ok reached' ∧ reached.forget = reached'.forget := by
  have hmap := resolve_forget retriever hops u
  rw [h, resolve_forget, hreached] at hmap
  cases hv : v.resolve retriever hops with
  | error error =>
    rw [hv] at hmap
    cases hmap
  | ok reached' =>
    rw [hv] at hmap
    exact ⟨reached', rfl, (Except.ok.inj hmap).symm⟩

/-- A reference takes one step more than the node that it stands for. -/
theorem resolve_reference {root : Root} {r c : TypeTree} (hshape : r.shape = .reference none)
    (hc : root.scope.get? r.id = some c) {reached : Unwrapped}
    (hreached : (start (c.metThrough r.symbolMeta) root).resolve retriever hops = .ok reached) :
    ∃ reached', (start r root).resolve retriever (hops + 1) = .ok reached' ∧
      reached.forget = reached'.forget := by
  have hpeel : (start r root).peel = start r root :=
    peel_of_ne_array fun _ _ h => by cases hshape.symm.trans h
  have hfollow : (start r root).follow retriever none = .ok { start r root with node := c } := by
    rw [follow, start, hc]
  rw [resolve_succ (by rwa [hpeel]), hpeel, hfollow]
  have hforget : (start (c.metThrough r.symbolMeta) root).forget =
      { start r root with node := c }.forget := rfl
  exact resolve_of_forget_eq hforget hreached

/-! ## The symbol of an occurrence -/

/-- The retriever has a tree with the symbol at its root. -/
def Lends (retriever : Option Retriever) (symbol : Option SymbolMeta) : Prop :=
  ∃ retrieve location tree, retriever = some retrieve ∧ retrieve location = .ok (some tree) ∧
    tree.symbolMeta = symbol

/-- The symbol of an occurrence stays, and if there is none then a retrieved tree may lend its own.
-/
def Keeps (retriever : Option Retriever) (before after : Option SymbolMeta) : Prop :=
  after = before ∨ before = none ∧ Lends retriever after

theorem Keeps.trans {a b c : Option SymbolMeta} (hab : Keeps retriever a b)
    (hbc : Keeps retriever b c) : Keeps retriever a c := by
  rcases hab with rfl | ⟨rfl, hlent⟩
  · exact hbc
  · rcases hbc with rfl | ⟨-, hlent⟩ <;> exact Or.inr ⟨rfl, hlent⟩

theorem peel_symbol (u : Unwrapped) : u.peel.symbol = u.symbol :=
  peel_rec (motive := fun u v => v.symbol = u.symbol) (fun _ _ => rfl) (fun _ _ _ _ h => h) u

theorem follow_keeps {location : Option Location} (h : u.follow retriever location = .ok v) :
    Keeps retriever u.symbol v.symbol := by
  unfold follow at h
  split at h
  · split at h
    · cases h
      exact Or.inl rfl
    · cases h
  next location =>
    split at h
    · cases h
    next retrieve =>
      split at h
      · cases h
      · cases h
      next tree htree =>
        cases h
        dsimp only
        cases u.symbol with
        | some symbol => exact Or.inl rfl
        | none => exact Or.inr ⟨rfl, retrieve, location, tree, rfl, htree, rfl⟩

theorem resolve_keeps (h : u.resolve retriever hops = .ok v) :
    Keeps retriever u.symbol v.symbol := by
  refine resolve_rec (motive := fun _ u v => Keeps retriever u.symbol v.symbol) ?_ ?_ h
  · exact fun _ u _ => Or.inl u.peel_symbol
  · intro _ u next v _ _ hfollow _ ih
    have hstep := follow_keeps hfollow
    rw [peel_symbol] at hstep
    exact hstep.trans ih

end Unwrapped

/-! ## The view of a reference -/

namespace Resolve

open Unwrapped

variable {retriever : Option Retriever} {root : Root} {tree : TypeTree} {options : ChildOptions}

/-- A node that can be unwrapped has a view, whatever the state. -/
theorem view_of_reached {u : Unwrapped}
    (hu : (start tree root).resolve retriever maxReferenceHops = .ok u) (s : ResolverState) :
    (view retriever tree root options s).1 = .ok (viewAt options u s).1 := by
  rw [view_eq, hu]
  rfl

/-- A reference whose target, met through the symbol of the reference, is unwrapped over fewer
references than may be followed has a view, in every state and with all options. Up to handles it is
the view of the target; it shows the symbol of the reference, whether this is optional and whether it
takes all remaining arguments. Only to a reference without a symbol may a retrieved tree lend its
own. -/
theorem reference_transparent (hunique : (concreteIds [tree]).Nodup) {r c : TypeTree}
    (hshape : r.shape = .reference none) (hc : c ∈ tree.preorder)
    (hconcrete : c.shape.isConcrete = true) (hid : c.id = r.id) {reached : Unwrapped}
    (hreached : (start (c.metThrough r.symbolMeta) (.ofTree tree)).resolve retriever
      (maxReferenceHops - 1) = .ok reached) (options : ChildOptions) (s t : ResolverState) :
    ∃ v w, (view retriever (c.metThrough r.symbolMeta) (.ofTree tree) options s).1 = .ok v ∧
      (view retriever r (.ofTree tree) options t).1 = .ok w ∧
      (∃ ρ : Equiv.Perm ViewId, w = v.rename ρ) ∧
      ∃ symbol, Keeps retriever r.symbolMeta symbol ∧
        w.layer.symbol = symbol.map viewSymbol ∧
        w.layer.optional = (options.optional || symbol.any (·.optional)) ∧
        w.layer.rest = symbol.any (·.rest) := by
  have htarget : (Root.ofTree tree).scope.get? r.id = some c :=
    hid ▸ Scope.get?_ofTree_id hunique hc hconcrete
  obtain ⟨reached', hreached', hforget⟩ := resolve_reference hshape htarget hreached
  have hnext : t.nextHandle = s.nextHandle + (t.nextHandle - s.nextHandle) := by
    rw [UInt32.add_comm, UInt32.sub_add_cancel]
  refine ⟨_, _, view_of_reached (resolve_more hreached) s, view_of_reached hreached' t,
    ⟨_, viewAt_shift options hforget hnext⟩, reached'.symbol, resolve_keeps hreached', ?_⟩
  exact ⟨rfl, rfl, rfl⟩

/-- An interface that is declared elsewhere. -/
def declaredTree : TypeTree :=
  .node
    { id := ⟨7⟩
      shape := .interface
        { properties := [.node { id := ⟨8⟩, shape := .primitive .string }]
          constructSignatures := [{ parameters := [] }] }
      symbolMeta := some (.named "Declared" SymbolFlags.interface) }

/-- A read-only list of what is declared elsewhere. -/
def declaredList : TypeTree :=
  .node
    { id := ⟨2⟩
      shape := .array
        (.node { id := ⟨3⟩, shape := .reference (some (.point "lib.ts" ⟨0, 0⟩)) }) true
      symbolMeta := some (.named "xs" SymbolFlags.property) }

/-- An optional property with the same list. -/
def sameList : TypeTree :=
  .node
    { id := ⟨2⟩
      shape := .reference none
      symbolMeta := some { name := "ys", flags := SymbolFlags.property, optional := true } }

/-- An object with the list, and a reference to it. -/
def twoLists : TypeTree :=
  .node { id := ⟨1⟩, shape := .object [declaredList, sameList] [] none }

/-- The reference leads over an array and to another tree, which has a symbol of its own. -/
theorem reference_transparent_twoLists :
    let retriever : Option Retriever := some fun _ => .ok (some declaredTree)
    sameList ∈ twoLists.preorder ∧
      ∃ v w, (view retriever (declaredList.metThrough sameList.symbolMeta) (.ofTree twoLists) {}
          {}).1 = .ok v ∧
        (view retriever sameList (.ofTree twoLists) {} { nextHandle := 5 }).1 = .ok w ∧
        (∃ ρ : Equiv.Perm ViewId, w = v.rename ρ) ∧
        w.layer.symbol.map (·.name) = some "ys" ∧ w.layer.optional = true := by
  intro retriever
  have hmem : ∀ child ∈ twoLists.children, child ∈ twoLists.preorder := fun child hchild =>
    mem_preorder_of_mem_children hchild (mem_preorder_self child)
  have hok : ((start (declaredList.metThrough sameList.symbolMeta) (.ofTree twoLists)).resolve
      retriever (maxReferenceHops - 1)).isOk = true := by decide +kernel
  cases hreached : (start (declaredList.metThrough sameList.symbolMeta) (.ofTree twoLists)).resolve
      retriever (maxReferenceHops - 1) with
  | error error =>
    rw [hreached] at hok
    cases hok
  | ok reached =>
    obtain ⟨v, w, hv, hw, hsame, symbol, hkeeps, hsymbol, hoptional, -⟩ :=
      reference_transparent (by decide +kernel) (r := sameList) rfl
        (hmem declaredList List.mem_cons_self) rfl rfl hreached {} {} { nextHandle := 5 }
    obtain rfl : symbol = sameList.symbolMeta := hkeeps.resolve_right nofun
    refine ⟨hmem sameList (List.mem_cons_of_mem _ List.mem_cons_self), v, w, hv, hw, hsame, ?_⟩
    exact ⟨by rw [hsymbol]; rfl, hoptional⟩

end Resolve

end TypeAtlas
