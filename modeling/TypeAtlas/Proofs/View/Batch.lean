import TypeAtlas.Proofs.View.Calls
/-!
# Batches of children

What a child is viewed as depends on the state of the resolver in the handles only: in another state
the same view is made with other handles (`Resolve.similar_child`). So the children of a view come
out the same in whatever order they are viewed and whatever was viewed before, and as handles are
used once, one renaming takes all that a batch gives to what a later one gives
(`Resolver.Reaches.batches_agree`).
-/

namespace TypeAtlas

/-- All handles moved on by the same distance. -/
def ViewId.shift (distance : UInt32) : Equiv.Perm ViewId where
  toFun handle := ⟨handle.val + distance⟩
  invFun handle := ⟨handle.val - distance⟩
  left_inv _ := congrArg ViewId.mk (UInt32.add_sub_cancel ..)
  right_inv _ := congrArg ViewId.mk (UInt32.sub_add_cancel ..)

open ResolverState

/-! ## Two states -/

variable {s t : ResolverState} {distance : UInt32}

namespace Resolve

theorem allocate_shift (h : t.nextHandle = s.nextHandle + distance) (origin origin' : Origin) :
    (allocate origin t).1 = ViewId.shift distance (allocate origin' s).1 :=
  congrArg ViewId.mk h

theorem nextHandle_allocate_shift (h : t.nextHandle = s.nextHandle + distance)
    (origin origin' : Origin) :
    (allocate origin t).2.nextHandle = (allocate origin' s).2.nextHandle + distance := by
  change t.nextHandle + 1 = s.nextHandle + 1 + distance
  rw [h, UInt32.add_assoc, UInt32.add_comm distance, UInt32.add_assoc]

end Resolve

namespace Piece

variable (root : Root)

theorem rename_groupView (ρ : ViewId → ViewId) (purpose : Purpose) (kindText : String)
    (items : List Item) (name : Option String) (readonly : Bool) (handle : ViewId) :
    (groupView purpose kindText items name readonly handle).rename ρ =
      groupView purpose kindText items name readonly (ρ handle) := by
  have hitems : (items.map Item.child).map (Child.map (View.rename ρ)) = items.map Item.child :=
    List.map_map
  rw [groupView, View.rename_node, hitems]
  rfl

/-- A group takes the next handle in both states. -/
theorem make_shift (h : t.nextHandle = s.nextHandle + distance) (p : Piece) :
    (p.make root t).1 = (p.make root s).1.map (View.rename (ViewId.shift distance)) ∧
      (p.make root t).2.nextHandle = (p.make root s).2.nextHandle + distance := by
  cases p with
  | item i => exact ⟨rfl, h⟩
  | group purpose kindText items name readonly =>
    rw [make_group, make_group, Child.map, rename_groupView, Resolve.allocate_shift h]
    exact ⟨rfl, Resolve.nextHandle_allocate_shift h _ _⟩

theorem mapM_make_shift (ps : List Piece) (h : t.nextHandle = s.nextHandle + distance) :
    (ps.mapM (make root) t).1 =
      (ps.mapM (make root) s).1.map (Child.map (View.rename (ViewId.shift distance))) := by
  induction ps generalizing s t with
  | nil => rfl
  | cons p ps ih =>
    obtain ⟨hfirst, hnext⟩ := make_shift root h p
    rw [List.mapM_cons]
    exact congrArg₂ List.cons hfirst (ih hnext)

end Piece

namespace Resolve

theorem rename_assemble (ρ : ViewId → ViewId) (u : Unwrapped) (options : ChildOptions)
    (handle : ViewId) (cs : List (Child View)) :
    (assemble u options handle cs).rename ρ =
      assemble u options (ρ handle) (cs.map (Child.map (View.rename ρ))) :=
  View.rename_node _

/-- The symbol that belongs to the place of a node is not part of its description. -/
theorem pieces_forget (u : Unwrapped) (options : ChildOptions) :
    u.forget.node.pieces options = u.node.pieces options :=
  rfl

/-- A view shows the symbol of the occurrence, and not the one that belongs to the place of the
node. -/
theorem assemble_forget (u : Unwrapped) : assemble u.forget = assemble u :=
  rfl

/-- In two states nodes are viewed as the same up to handles if they differ at most in the symbols
that belong to their places. -/
theorem viewAt_shift (options : ChildOptions) {u v : Unwrapped} (huv : u.forget = v.forget)
    (h : t.nextHandle = s.nextHandle + distance) :
    (viewAt options v t).1 = (viewAt options u s).1.rename (ViewId.shift distance) := by
  have hnext := nextHandle_allocate_shift h ⟨some v.node, v.root⟩ ⟨some u.node, u.root⟩
  have hhandle := allocate_shift h ⟨some v.node, v.root⟩ ⟨some u.node, u.root⟩
  have hroot : v.forget.root = u.root := huv ▸ rfl
  have hpieces : v.node.pieces options = u.node.pieces options := by
    rw [← pieces_forget, ← huv, pieces_forget]
  have hassemble : assemble v = assemble u := by rw [← assemble_forget, ← huv, assemble_forget]
  have hchildren := Piece.mapM_make_shift u.root (u.node.pieces options) hnext
  change assemble v options _ ((v.node.pieces options).mapM (Piece.make v.forget.root) _).1 = _
  rw [hpieces, hassemble, hroot]
  exact (congrArg₂ (assemble u options) hhandle hchildren).trans (rename_assemble _ _ _ _ _).symm

/-- In two states a child is viewed as the same up to handles. -/
theorem similar_child (retriever : Option Retriever) (root : Root) (c : Child View)
    (s t : ResolverState) :
    ViewResult.Similar (child retriever root c s).1 (child retriever root c t).1 := by
  cases c with
  | made view => exact ⟨.refl ViewId, (ViewResult.rename_id _).symm⟩
  | raw tree options =>
    rw [Task.child_raw_eq rfl, Task.child_raw_eq rfl]
    cases (Unwrapped.start tree root).resolve retriever maxReferenceHops with
    | error error => exact ⟨.refl ViewId, rfl⟩
    | ok u =>
      have hnext : t.nextHandle = s.nextHandle + (t.nextHandle - s.nextHandle) := by
        rw [UInt32.add_comm, UInt32.sub_add_cancel]
      exact ⟨ViewId.shift (t.nextHandle - s.nextHandle),
        congrArg ViewResult.view (viewAt_shift options rfl hnext)⟩

theorem similar_of_alone {retriever : Option Retriever} {root : Root} {cs : List (Child View)}
    {results others : List ViewResult}
    (h : List.Forall₂ (fun c result => ∃ s, result = (child retriever root c s).1) cs results)
    (hothers : List.Forall₂ (fun c other => ∀ s,
      ViewResult.Similar (child retriever root c s).1 other) cs others) :
    List.Forall₂ ViewResult.Similar results others := by
  induction h generalizing others with
  | nil =>
    cases hothers
    exact .nil
  | cons hresult _ ih =>
    obtain ⟨s, rfl⟩ := hresult
    cases hothers with
    | cons hother hothers => exact .cons (hother s) (ih hothers)

/-! ## The handles of a batch -/

/-- The handles in a result are those of the view that was made for it, or those of a group. -/
theorem handles_child (retriever : Option Retriever) (root : Root) {c : Child View}
    (hgroup : ∀ group, c = .made group → group.IsGroup t) (s : ResolverState) :
    (child retriever root c s).1.handles =
      (child retriever root c s).1.localized.flatMap View.handles ++ c.parts View.handles := by
  cases c with
  | made view =>
    change view.handles = (ViewResult.view view).localized.flatMap _ ++ view.handles
    rw [(hgroup view rfl).localized]
    rfl
  | raw tree options =>
    rw [Task.child_raw_eq rfl]
    cases (Unwrapped.start tree root).resolve retriever maxReferenceHops with
    | error error => rfl
    | ok u =>
      change View.handles _ = [_].flatMap View.handles ++ []
      rw [List.flatMap_singleton, List.append_nil]

/-- Every handle in a batch is one that was taken for it, or one of a group of the parent. -/
theorem handles_perm {retriever : Option Retriever} {root : Root} {cs : List (Child View)}
    {results : List ViewResult}
    (h : List.Forall₂ (fun c result => ∃ s, result = (child retriever root c s).1) cs results)
    (hgroups : ∀ group, .made group ∈ cs → group.IsGroup t) :
    (results.flatMap ViewResult.handles).Perm (cs.flatMap (Child.parts View.handles) ++
      (results.flatMap ViewResult.localized).flatMap View.handles) := by
  induction h with
  | nil => exact .nil
  | @cons c result cs results hfirst _ ih =>
    obtain ⟨s, rfl⟩ := hfirst
    have hhead := handles_child retriever root
      (fun group hc => hgroups group (hc ▸ List.mem_cons_self)) s
    have htail := ih fun group hmem => hgroups group (List.mem_cons_of_mem _ hmem)
    simp only [List.flatMap_cons, List.flatMap_append, hhead]
    refine (List.perm_append_comm.append htail).trans ?_
    simp only [List.append_assoc]
    exact (List.perm_append_comm_assoc _ _ _).append_left _

end Resolve

namespace Resolver

open Resolve

variable {x y : Resolver} {parent : View} {results : List ViewResult}

/-- The groups of a view that was given have their handles from it. -/
theorem Sound.sublist_handles (hx : x.Sound) (hparent : Offered x.answers parent) :
    (parent.children.flatMap (Child.parts View.handles)).Sublist x.handles := by
  rcases hx.offered hparent with hgroup | ⟨-, hmem⟩
  · rw [hgroup.parts_children]
    exact List.nil_sublist _
  · have hhandles := (List.singleton_sublist.2 hmem).flatMap View.handles
    obtain ⟨l⟩ := parent
    rw [List.flatMap_singleton, View.handles_node] at hhandles
    exact (List.sublist_cons_self _ _).trans hhandles

/-- The children of a view are viewed with a retriever that always answers the same, one after the
other or in turns. -/
inductive Batch (x : Resolver) (retriever : Option Retriever) (parent : View) (typeLists : Bool) :
    List ViewResult → ResolverState → Prop
  | atOnce {results : List ViewResult} {t : ResolverState}
      (h : Resolve.children retriever parent typeLists x.state = (.ok results, t)) :
      Batch x retriever parent typeLists results t
  | inTurns {origin : Origin} {results : List ViewResult} {t : ResolverState}
      (horigin : x.state.origin? parent.handle = some origin)
      (h : Interleaved (· = retriever) origin.root ((shown parent typeLists).map .waiting) x.state
        (results.map .done) t) :
      Batch x retriever parent typeLists results t

variable {retriever : Option Retriever} {typeLists : Bool}

theorem Batch.interleaved (h : x.Batch retriever parent typeLists results t) :
    ∃ origin, x.state.origin? parent.handle = some origin ∧
      Interleaved (· = retriever) origin.root ((shown parent typeLists).map .waiting) x.state
        (results.map .done) t := by
  cases h with
  | inTurns horigin h => exact ⟨_, horigin, h⟩
  | atOnce h =>
    cases horigin : x.state.origin? parent.handle with
    | none =>
      rw [children_of_unknown horigin] at h
      cases h
    | some origin =>
      rw [children_of_origin horigin] at h
      cases h
      exact ⟨origin, rfl, Interleaved.mapM_child (P := (· = retriever)) retriever rfl [] _ x.state⟩

theorem Sound.batch (hx : x.Sound) (hparent : Offered x.answers parent)
    (h : x.Batch retriever parent typeLists results t) :
    (x.answer (.ok results) t).Sound ∧ x.Extends (x.answer (.ok results) t) := by
  obtain ⟨origin, -, hrun⟩ := h.interleaved
  exact hx.interleaved (fun _ => hx.isGroup_shown hparent) hrun

/-- No handle is used twice in a batch. -/
theorem Sound.nodup_batch (hx : x.Sound) (hparent : Offered x.answers parent)
    (h : x.Batch retriever parent typeLists results t) (hsize : t.origins.length ≤ UInt32.size) :
    (results.flatMap ViewResult.handles).Nodup := by
  have hnodup := (hx.batch hparent h).1.nodup hsize
  rw [handles_answer] at hnodup
  obtain ⟨origin, -, hrun⟩ := h.interleaved
  have hshown : (shown parent typeLists).Sublist parent.children := List.filter_sublist
  have hparts := (hshown.flatMap (Child.parts View.handles)).trans (hx.sublist_handles hparent)
  have hperm := handles_perm hrun.alone fun _ => hx.isGroup_shown hparent
  exact hperm.nodup_iff.2 (hnodup.sublist (hparts.append_right _))

/-- Each result of a batch is what its child alone is viewed as, in any state. -/
theorem Batch.similar (h : x.Batch retriever parent typeLists results t) {origin : Origin}
    (horigin : x.state.origin? parent.handle = some origin) :
    List.Forall₂ (fun c result => ∀ s,
      ViewResult.Similar (child retriever origin.root c s).1 result) (shown parent typeLists)
      results := by
  obtain ⟨origin', horigin', hrun⟩ := h.interleaved
  obtain rfl := Option.some.inj (horigin.symm.trans horigin')
  refine hrun.alone.imp fun c result hresult s => ?_
  obtain ⟨s', rfl⟩ := hresult
  exact similar_child retriever origin.root c s s'

/-- Two batches are the same one by one if the parent leads to the same origin. -/
theorem Batch.similar_batch (h : x.Batch retriever parent typeLists results t)
    {others : List ViewResult} {t' : ResolverState}
    (h' : y.Batch retriever parent typeLists others t')
    (horigin : y.state.origin? parent.handle = x.state.origin? parent.handle) :
    List.Forall₂ ViewResult.Similar results others := by
  obtain ⟨origin, hx, hrun⟩ := h.interleaved
  exact similar_of_alone hrun.alone (h'.similar (horigin.trans hx))

/-- The children of any view that was given are viewed. In whatever order they take their turns, and
whichever of them fail, each result is up to handles what its child alone is viewed as, in any
state. And whatever was called before they are viewed again, one renaming takes the earlier results
to the later ones, as long as there are handles for all views. -/
theorem Reaches.batches_agree (hx : Reaches {} x) (hparent : Offered x.answers parent)
    (retriever : Option Retriever) (typeLists : Bool) :
    ∃ origin, x.state.origin? parent.handle = some origin ∧
      (∃ results t, Resolve.children retriever parent typeLists x.state = (.ok results, t)) ∧
      ∀ {results t}, x.Batch retriever parent typeLists results t →
        List.Forall₂
          (fun c result => ∀ s, ViewResult.Similar (child retriever origin.root c s).1 result)
          (shown parent typeLists) results ∧
        ∀ {y others t'}, (x.answer (.ok results) t).Reaches y →
          y.Batch retriever parent typeLists others t' → t'.origins.length ≤ UInt32.size →
            ∃ ρ : Equiv.Perm ViewId, others = results.map (ViewResult.rename ρ) := by
  obtain ⟨hx, -⟩ := hx.sound sound_new
  obtain ⟨origin, horigin⟩ := hx.exists_origin hparent
  refine ⟨origin, horigin, ⟨_, _, children_of_origin horigin typeLists⟩, fun {results t} h => ?_⟩
  refine ⟨h.similar horigin, fun {y others t'} hreaches h' hsize => ?_⟩
  obtain ⟨hanswered, hextends⟩ := hx.batch hparent h
  obtain ⟨hy, hlater⟩ := hreaches.sound hanswered
  have hparent' := hparent.mono (List.Subset.trans hextends.answers hlater.answers)
  obtain ⟨_, htakes'⟩ := (hy.batch hparent' h').2.takes
  obtain ⟨_, htakes⟩ := (hextends.trans hlater).takes
  obtain ⟨_, hanswer⟩ := hlater.takes
  have hsizey := Nat.le_trans htakes'.length_le hsize
  have hsizet := Nat.le_trans hanswer.length_le hsizey
  have horigin' := hy.origin?_eq hsizey (htakes.mem (mem_of_origin? horigin))
  exact ViewResult.exists_rename (h.similar_batch h' (horigin'.trans horigin.symm))
    (hx.nodup_batch hparent h hsizet) (hy.nodup_batch hparent' h' hsize)

/-- The children of a root, one of which fails, are viewed twice. -/
theorem Reaches.batches_agree_sample :
    let x := explored (.ofTree sample)
    let y := x.children none (rootView (.ofTree sample)) true
    ∃ results others, x.answers.getLast? = some (.ok results) ∧
      y.answers.getLast? = some (.ok others) ∧ results.length = 3 ∧
        ∃ ρ : Equiv.Perm ViewId, others = results.map (ViewResult.rename ρ) := by
  have hroot : (Resolve.localize none (.ofTree sample) {}).1.isFailure = false := by decide +kernel
  have hx : Reaches {} (localize {} none (.ofTree sample)) := .single (.localize none _)
  have hreaches := reaches_explored hroot
  obtain ⟨_, -, ⟨results, t, h⟩, hbatches⟩ :=
    Reaches.batches_agree hx (offered_rootView hroot) none true
  have hexplored : explored (.ofTree sample) =
      (localize {} none (.ofTree sample)).answer (.ok results) t := by
    rw [explored, Resolver.children, h]
  have hoffered : Offered (explored (.ofTree sample)).answers (rootView (.ofTree sample)) :=
    (offered_rootView hroot).mono (List.subset_append_left _ _)
  obtain ⟨_, -, ⟨others, t', h'⟩, -⟩ :=
    Reaches.batches_agree (hx.trans hreaches) hoffered none true
  have hsize : ((explored (.ofTree sample)).children none (rootView (.ofTree sample))
      true).state.origins.length ≤ UInt32.size := by decide +kernel
  have hlength : ((explored (.ofTree sample)).answers.getLast?.bind Except.toOption).map
      List.length = some 3 := by decide +kernel
  have hlast : (explored (.ofTree sample)).answers.getLast? = some (.ok results) := by
    rw [hexplored]
    rfl
  rw [Resolver.children, h'] at hsize
  rw [hlast] at hlength
  have hsame := (hbatches (.atOnce h)).2 (hexplored ▸ .refl) (.atOnce h') hsize
  refine ⟨results, others, hlast, ?_, Option.some.inj hlength, hsame⟩
  rw [Resolver.children, h']
  exact List.getLast?_concat

end Resolver

end TypeAtlas
