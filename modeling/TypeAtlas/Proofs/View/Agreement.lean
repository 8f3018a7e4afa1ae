import TypeAtlas.Program
import TypeAtlas.Proofs.View.Session
/-!
# Retrievers that agree

A resolver asks its retriever for nothing but the locations that references name. So if two
retrievers agree on some locations, and the trees found there refer to no other ones, then all that
is viewed with one of them is viewed with the other (`TypeTree.outline_eq`). This holds for as many
views as there may be, even if handles come again: whichever root a handle leads back to, it is one
of those that refer to these locations only.
-/

namespace TypeAtlas

open TypeTree

/-- The location that a reference names. -/
def Shape.location? {α : Type} : Shape α → Option Location
  | .reference location => location
  | _ => none

/-- The locations that the references in a tree name. -/
def TypeTree.locations (tree : TypeTree) : List Location :=
  tree.preorder.filterMap fun n => n.shape.location?

/-- Every location that a reference in the tree names has a property. -/
def TypeTree.RefersWithin (A : Location → Prop) (tree : TypeTree) : Prop :=
  ∀ location ∈ tree.locations, A location

/-- Two retrievers find the same at the locations with a property, and what they find there refers
to such locations only. -/
structure Retriever.Agree (near far : Retriever) (A : Location → Prop) : Prop where
  eq : ∀ location, A location → near location = far location
  within : ∀ location tree, A location → near location = .ok (some tree) → tree.RefersWithin A

variable {near far : Retriever} {A : Location → Prop}

namespace TypeTree.RefersWithin

variable {tree : TypeTree}

theorem location (h : tree.RefersWithin A) {n : TypeTree} (hn : n ∈ tree.preorder)
    {location : Location} (hshape : n.shape = .reference (some location)) : A location :=
  h location (List.mem_filterMap.2 ⟨n, hn, by rw [hshape, Shape.location?]⟩)

theorem node (h : tree.RefersWithin A) {n : TypeTree} (hn : n ∈ tree.preorder) :
    n.RefersWithin A := by
  intro location hlocation
  obtain ⟨m, hm, hshape⟩ := List.mem_filterMap.1 hlocation
  exact h location (List.mem_filterMap.2 ⟨m, mem_preorder_trans hm tree hn, hshape⟩)

theorem child (h : tree.RefersWithin A) {n : TypeTree} (hn : n ∈ tree.children) :
    n.RefersWithin A :=
  h.node (mem_preorder_of_mem_children hn (mem_preorder_self n))

theorem of_children (hnone : tree.shape.location? = none)
    (h : ∀ n ∈ tree.children, n.RefersWithin A) : tree.RefersWithin A := by
  intro location hlocation
  obtain ⟨m, hm, hshape⟩ := List.mem_filterMap.1 hlocation
  rcases mem_preorder_iff.1 hm with rfl | ⟨c, hc, hm⟩
  · rw [hnone] at hshape
    cases hshape
  · exact h c hc location (List.mem_filterMap.2 ⟨m, hm, hshape⟩)

theorem closedUnderFunctions (A : Location → Prop) :
    Resolve.ClosedUnderFunctions (RefersWithin A) := by
  intro id signatures h
  exact of_children rfl fun n hn => h n (Resolve.children_function id signatures ▸ hn)

end TypeTree.RefersWithin

/-! ## Unwrapping -/

namespace Unwrapped

/-- Neither the node nor the root refers to other locations. -/
structure RefersWithin (A : Location → Prop) (u : Unwrapped) : Prop where
  node : u.node.RefersWithin A
  root : u.root.tree.RefersWithin A

variable {u v : Unwrapped}

theorem RefersWithin.peel (h : u.RefersWithin A) : u.peel.RefersWithin A where
  node := h.node.node u.peel_node_mem
  root := by
    rw [u.peel_root]
    exact h.root

variable (h : near.Agree far A)

include h

/-- A reference leads to the same node, whichever retriever is asked. -/
theorem follow_agree (hu : u.RefersWithin A) {location : Option Location}
    (hshape : u.node.shape = .reference location) :
    u.follow (some near) location = u.follow (some far) location ∧
      ∀ v, u.follow (some near) location = .ok v → v.RefersWithin A := by
  cases location with
  | none =>
    refine ⟨rfl, fun v hv => ?_⟩
    rw [follow] at hv
    cases htarget : u.root.scope.get? u.node.id with
    | none => rw [htarget] at hv; cases hv
    | some target =>
      rw [htarget] at hv
      obtain rfl := Except.ok.inj hv
      rw [u.root.scope_eq] at htarget
      exact ⟨hu.root.node (Scope.get?_ofTree_eq_some htarget).1, hu.root⟩
  | some location =>
    have hlocation := hu.node.location (mem_preorder_self _) hshape
    refine ⟨by rw [follow, follow, h.eq location hlocation], fun v hv => ?_⟩
    rw [follow] at hv
    cases hfound : near location with
    | error failure => rw [hfound] at hv; cases hv
    | ok found =>
      cases found with
      | none => rw [hfound] at hv; cases hv
      | some tree =>
        rw [hfound] at hv
        obtain rfl := Except.ok.inj hv
        have htree := h.within location tree hlocation hfound
        exact ⟨htree, htree⟩

/-- By induction on the references that may be followed. -/
theorem resolve_agree (hops : ℕ) (hu : u.RefersWithin A) :
    u.resolve (some near) hops = u.resolve (some far) hops ∧
      ∀ v, u.resolve (some near) hops = .ok v → v.RefersWithin A := by
  induction hops generalizing u with
  | zero =>
    by_cases hend : u.peel.node.shape.isReference = true
    · obtain ⟨location, hshape⟩ := Shape.isReference_iff.1 hend
      rw [resolve_zero hshape, resolve_zero hshape]
      exact ⟨rfl, fun v hv => nomatch hv⟩
    · rw [Bool.not_eq_true] at hend
      rw [resolve_of_peel hend, resolve_of_peel hend]
      exact ⟨rfl, fun v hv => Except.ok.inj hv ▸ hu.peel⟩
  | succ hops ih =>
    by_cases hend : u.peel.node.shape.isReference = true
    · obtain ⟨location, hshape⟩ := Shape.isReference_iff.1 hend
      obtain ⟨heq, hwithin⟩ := follow_agree h hu.peel hshape
      rw [resolve_succ hshape, resolve_succ hshape, ← heq]
      cases hnext : u.peel.follow (some near) location with
      | error error => exact ⟨rfl, fun v hv => nomatch hv⟩
      | ok next => exact ih (hwithin next hnext)
    · rw [Bool.not_eq_true] at hend
      rw [resolve_of_peel hend, resolve_of_peel hend]
      exact ⟨rfl, fun v hv => Except.ok.inj hv ▸ hu.peel⟩

end Unwrapped

/-- Neither a tree nor the argument that comes with it refers to other locations. -/
def ItemWithin (A : Location → Prop) (tree : TypeTree) (argument : Option TypeTree) : Prop :=
  tree.RefersWithin A ∧ ∀ a ∈ argument, a.RefersWithin A

theorem TypeTree.RefersWithin.item {tree : TypeTree} (h : tree.RefersWithin A) :
    ItemWithin A tree none :=
  ⟨h, fun _ ha => nomatch ha⟩

/-- What is viewed with a retriever stays within the locations on which it agrees with another. -/
def Retriever.Agree.regime (h : near.Agree far A) : Regime (some near) where
  IsRoot root := root.tree.RefersWithin A
  IsItem _ := ItemWithin A
  IsError _ := True
  tree hroot := hroot.item
  functions _ id signatures hbelow :=
    (RefersWithin.closedUnderFunctions A id signatures fun tree htree => (hbelow tree htree).1).item
  error _ _ _ := trivial
  root hroot hitem hu := ((Unwrapped.resolve_agree h _ ⟨hitem.1, hroot⟩).2 _ hu).root
  child hroot hitem hu child hchild :=
    (((Unwrapped.resolve_agree h _ ⟨hitem.1, hroot⟩).2 _ hu).node.child hchild).item
  pair hroot hitem hu p hp := by
    have hnode := ((Unwrapped.resolve_agree h _ ⟨hitem.1, hroot⟩).2 _ hu).node
    obtain ⟨hparameter, hargument⟩ := mem_children_of_mem_pairs hp
    refine ⟨hnode.child hparameter, fun a ha => ?_⟩
    obtain rfl := Option.some.inj ha
    exact hnode.child hargument
  argument _ hitem _ _ := (hitem.2 _ rfl).item

/-! ## Steps of a resolver -/

/-- A child that is an item, or a group of items. -/
def Child.Offers (Q : TypeTree → Option TypeTree → Prop) : Child View → Prop
  | .raw tree options => Q tree options.contextualTypeArgument
  | .made group => ∀ item ∈ group.children, item.IsItem Q

/-- All children are items or groups of items. -/
def View.Offers (Q : TypeTree → Option TypeTree → Prop) (view : View) : Prop :=
  ∀ child ∈ view.children, child.Offers Q

section Offers

variable {Q : TypeTree → Option TypeTree → Prop} {root : Root} {s : ResolverState}

theorem Child.IsItem.offers {c : Child View} (h : c.IsItem Q) : c.Offers Q := by
  cases c with
  | raw tree options => exact h
  | made group => exact h.elim

theorem Child.Fits.offers {c : Child View} (h : c.Fits Q root s) : c.Offers Q := by
  cases c with
  | raw tree options => exact h
  | made group => exact h.2

theorem View.Fits.offers {view : View} (h : view.Fits Q root s) : view.Offers Q :=
  fun child hchild => (h.2 child hchild).offers

end Offers

namespace Resolve

variable {α β : Type} {G : Root → Prop} {P : α → Prop}

/-- Two steps do the same from every state that remembers only roots with a property; they remember
no others, and their result has a property too. -/
def Same (G : Root → Prop) (P : α → Prop) (x y : Resolve α) : Prop :=
  ∀ s : ResolverState, (∀ entry ∈ s.origins, G entry.2.root) →
    x s = y s ∧ P (x s).1 ∧ ∀ entry ∈ (x s).2.origins, G entry.2.root

theorem same_pure {a : α} (ha : P a) : Same G P (pure a) (pure a) :=
  fun _ hs => ⟨rfl, ha, hs⟩

theorem Same.bind {x y : Resolve α} {k l : α → Resolve β} {Q : β → Prop} (hxy : Same G P x y)
    (hkl : ∀ a, P a → Same G Q (k a) (l a)) : Same G Q (x >>= k) (y >>= l) := by
  intro s hs
  obtain ⟨heq, hresult, hstate⟩ := hxy s hs
  have hnext := hkl _ hresult _ hstate
  refine ⟨?_, hnext.2⟩
  change k (x s).1 (x s).2 = l (y s).1 (y s).2
  rw [← heq]
  exact hnext.1

theorem same_mapM {k l : β → Resolve α} : ∀ {bs : List β}, (∀ b ∈ bs, Same G P (k b) (l b)) →
    Same G (fun results => ∀ a ∈ results, P a) (bs.mapM k) (bs.mapM l)
  | [], _ => same_pure (List.forall_mem_nil _)
  | b :: bs, h => by
    rw [List.forall_mem_cons] at h
    rw [List.mapM_cons, List.mapM_cons]
    exact h.1.bind fun a ha => (same_mapM h.2).bind fun results hresults =>
      same_pure (List.forall_mem_cons.2 ⟨ha, hresults⟩)

section

variable (h : near.Agree far A)

include h

/-- A node has the same view. -/
theorem view_same {tree : TypeTree} {root : Root} {options : ChildOptions}
    (hroot : root.tree.RefersWithin A)
    (hitem : ItemWithin A tree options.contextualTypeArgument) :
    Same (·.tree.RefersWithin A) (fun answer => ∀ v, answer = .ok v → v.Offers (ItemWithin A))
      (view (some near) tree root options) (view (some far) tree root options) := by
  intro s hs
  have hresolve := (Unwrapped.resolve_agree h (u := Unwrapped.start tree root) maxReferenceHops
    ⟨hitem.1, hroot⟩).1
  have heq : view (some near) tree root options = view (some far) tree root options := by
    unfold Unwrapped.start at hresolve
    unfold view
    dsimp only
    rw [hresolve]
  obtain ⟨hgrows, hkeeps⟩ := view_keeps h.regime hroot options hitem s
  obtain ⟨⟨new, horigins, hnew⟩, -⟩ := hgrows
  refine ⟨congrFun heq s, fun v hv => ?_, ?_⟩
  · rw [hv] at hkeeps
    obtain ⟨_, -, hfits⟩ := hkeeps
    exact hfits.offers
  · rw [horigins, List.forall_mem_append]
    exact ⟨hnew, hs⟩

/-- So has a tree in place of which there may be an error. -/
theorem resultOf_same {tree : TypeTree} {root : Root} (options : ChildOptions)
    (hroot : root.tree.RefersWithin A)
    (hitem : ItemWithin A tree options.contextualTypeArgument) :
    Same (·.tree.RefersWithin A) (fun result => ∀ v ∈ result.view?, v.Offers (ItemWithin A))
      (do return resultOf tree (← view (some near) tree root options))
      (do return resultOf tree (← view (some far) tree root options)) := by
  refine (view_same h hroot hitem).bind fun answer hanswer => same_pure fun v hv => ?_
  cases answer with
  | error error => cases hv
  | ok view =>
    obtain rfl := Option.some.inj hv
    exact hanswer view rfl

theorem child_same {root : Root} (hroot : root.tree.RefersWithin A) {c : Child View}
    (hc : c.Offers (ItemWithin A)) :
    Same (·.tree.RefersWithin A) (fun result => ∀ v ∈ result.view?, v.Offers (ItemWithin A))
      (child (some near) root c) (child (some far) root c) := by
  cases c with
  | raw tree options => exact resultOf_same h options hroot hc
  | made group =>
    refine same_pure fun v hv => ?_
    obtain rfl := Option.some.inj hv
    exact fun item hitem => (hc item hitem).offers

/-- The root in whose scope the children are viewed is one of those remembered. -/
theorem children_same {parent : View} (hparent : parent.Offers (ItemWithin A))
    (typeLists : Bool) :
    Same (·.tree.RefersWithin A)
      (fun answer => ∀ results, answer = .ok results → ∀ result ∈ results, ∀ v ∈ result.view?,
        v.Offers (ItemWithin A))
      (children (some near) parent typeLists) (children (some far) parent typeLists) := by
  intro s hs
  cases horigin : s.origin? parent.handle with
  | none =>
    rw [children_of_unknown horigin, children_of_unknown horigin]
    refine ⟨rfl, ?_, hs⟩
    rintro results ⟨⟩
  | some origin =>
    have hroot : origin.root.tree.RefersWithin A := hs _ (ResolverState.mem_of_origin? horigin)
    have hshown := same_mapM fun c (hc : c ∈ shown parent typeLists) =>
      child_same h hroot (hparent c (List.mem_filter.1 hc).1)
    obtain ⟨heq, hresults, hstate⟩ := hshown s hs
    rw [children_of_origin horigin, children_of_origin horigin, ← heq]
    exact ⟨rfl, fun results hok => Except.ok.inj hok ▸ hresults, hstate⟩

end

end Resolve

/-! ## Outlines -/

section

variable (h : near.Agree far A)

include h

open Resolve

/-- By induction on the levels that are shown. -/
theorem Outline.render_same (options : OutlineOptions) (levels : ℕ) :
    ∀ (depth : ℕ) (result : ViewResult), (∀ v ∈ result.view?, v.Offers (ItemWithin A)) →
      Same (·.tree.RefersWithin A) (fun _ => True)
        (render (some near) options levels depth result)
        (render (some far) options levels depth result) := by
  induction levels with
  | zero =>
    intro depth result _
    unfold render
    cases result.view? <;> exact same_pure trivial
  | succ levels ih =>
    intro depth result hresult
    unfold render
    cases hview : result.view? with
    | none => exact same_pure trivial
    | some view =>
      dsimp only
      split
      · exact same_pure trivial
      · refine (children_same h (hresult view hview) options.typeArguments).bind
          fun answer hanswer => ?_
        cases answer with
        | error error => exact same_pure trivial
        | ok results =>
          have htexts := same_mapM fun below (hbelow : below ∈ results) =>
            ih (depth + 1) below (hanswer results rfl below hbelow)
          exact htexts.bind fun texts _ => same_pure trivial

/-- A tree that refers to no other locations has the same outline. -/
theorem TypeTree.outline_eq {tree : TypeTree} (htree : tree.RefersWithin A)
    (options : OutlineOptions) :
    tree.outline (some near) options = tree.outline (some far) options := by
  have hroot : (Root.ofTree tree).tree.RefersWithin A := htree
  have hsame := (resultOf_same h {} hroot htree.item).bind
    fun result hresult => Outline.render_same h options options.expandDepth.toNat 0 result hresult
  exact congrArg Prod.fst (hsame {} (List.forall_mem_nil _)).1

end

end TypeAtlas
