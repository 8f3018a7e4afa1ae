import TypeAtlas.Proofs.View.Describe
import TypeAtlas.Proofs.View.Unwrap
/-!
# Sessions with a resolver

A session is a run of a resolver: a reader has roots viewed, and then the children of any view given
so far, in any order and as often as they like. What a session keeps to is a `Regime`: the roots in
whose scope nodes are viewed, what is described in the scope of each of them, and the errors that
may be shown. If unwrapping does not lead out of a regime, then no session does
(`Session.keeps`), as long as each handle leads back to the root that its view was made with.
-/

namespace TypeAtlas

/-- What a call to a resolver returns. -/
abbrev Answer := Except ViewError (List ViewResult)

/-- The views that a reader has been given by some answers: the views in them, and the groups among
the children of these views. -/
def Offered (answers : List Answer) (view : View) : Prop :=
  ∃ results, .ok results ∈ answers ∧ ∃ given, .view given ∈ results ∧
    (view = given ∨ .made view ∈ given.children)

theorem Offered.mono {answers answers' : List Answer} {view : View} (h : Offered answers view)
    (hanswers : answers ⊆ answers') : Offered answers' view :=
  h.imp fun _ ⟨hmem, hgiven⟩ => ⟨hanswers hmem, hgiven⟩

/-- The states that a resolver can be in, each with the answers so far, when roots with a property
are viewed. -/
inductive Session (retriever : Option Retriever) (P : Root → Prop) :
    ResolverState → List Answer → Prop
  | new : Session retriever P {} []
  | localize {state : ResolverState} {answers : List Answer} {root : Root}
      (before : Session retriever P state answers) (hroot : P root) :
      Session retriever P (Resolve.localize retriever root state).2
        (answers ++ [.ok [(Resolve.localize retriever root state).1]])
  | children {state : ResolverState} {answers : List Answer} {parent : View}
      (before : Session retriever P state answers) (hparent : Offered answers parent)
      (typeLists : Bool) :
      Session retriever P (Resolve.children retriever parent typeLists state).2
        (answers ++ [(Resolve.children retriever parent typeLists state).1])

/-- A view that is remembered with a root and has fitting children. -/
def View.Fits (Q : TypeTree → Option TypeTree → Prop) (root : Root) (state : ResolverState)
    (view : View) : Prop :=
  state.Holds root view.handle ∧ ∀ child ∈ view.children, child.Fits Q root state

/-- Where unwrapping a node for a view begins. -/
def Unwrapped.start (tree : TypeTree) (root : Root) : Unwrapped :=
  { node := tree, root, symbol := tree.symbolMeta }

/-- What a session keeps to. -/
structure Regime (retriever : Option Retriever) where
  /-- The roots in whose scope nodes are viewed. -/
  IsRoot : Root → Prop
  /-- What is described in the scope of a root, and with which argument. -/
  IsItem : Root → TypeTree → Option TypeTree → Prop
  /-- The errors that may be shown. -/
  IsError : ViewError → Prop
  tree : ∀ {root}, IsRoot root → IsItem root root.tree none
  functions : ∀ {root}, IsRoot root → Resolve.ClosedUnderFunctions (IsItem root · none)
  error : ∀ {root tree argument e}, IsRoot root → IsItem root tree argument →
    (Unwrapped.start tree root).resolve retriever maxReferenceHops = .error e → IsError e
  root : ∀ {root tree argument u}, IsRoot root → IsItem root tree argument →
    (Unwrapped.start tree root).resolve retriever maxReferenceHops = .ok u → IsRoot u.root
  child : ∀ {root tree argument u}, IsRoot root → IsItem root tree argument →
    (Unwrapped.start tree root).resolve retriever maxReferenceHops = .ok u →
      ∀ child ∈ u.node.children, IsItem u.root child none
  pair : ∀ {root tree argument u}, IsRoot root → IsItem root tree argument →
    (Unwrapped.start tree root).resolve retriever maxReferenceHops = .ok u →
      ∀ p ∈ u.node.pairs, IsItem u.root p.1 (some p.2)
  argument : ∀ {root tree argument u}, IsRoot root → IsItem root tree (some argument) →
    (Unwrapped.start tree root).resolve retriever maxReferenceHops = .ok u →
      u.node.shape.isTypeParameter = true → IsItem u.root argument none

/-- Every session keeps to this. -/
def Regime.any (retriever : Option Retriever) : Regime retriever where
  IsRoot _ := True
  IsItem _ _ _ := True
  IsError _ := True
  tree _ := trivial
  functions _ _ _ _ := trivial
  error _ _ _ := trivial
  root _ _ _ := trivial
  child _ _ _ _ _ := trivial
  pair _ _ _ _ _ := trivial
  argument _ _ _ _ := trivial

/-- A result that is a fitting view, or one of the errors. -/
def ViewResult.Keeps {retriever : Option Retriever} (R : Regime retriever) (state : ResolverState) :
    ViewResult → Prop
  | .view v => ∃ root, R.IsRoot root ∧ v.Fits (R.IsItem root) root state
  | .failure f => ∃ error, R.IsError error ∧ f.error = error.details

section

open Resolve ResolverState

variable {retriever : Option Retriever} {root : Root} {s t : ResolverState}

/-- A group among fitting children fits as a view. -/
theorem Child.Fits.group {Q : TypeTree → Option TypeTree → Prop} {view : View}
    (h : (Child.made view).Fits Q root s) : view.Fits Q root s :=
  ⟨h.1, fun child hchild => (h.2 child hchild).fits⟩

theorem View.Fits.offered {Q : TypeTree → Option TypeTree → Prop} {given view : View}
    (h : given.Fits Q root s) (hview : view = given ∨ .made view ∈ given.children) :
    view.Fits Q root s := by
  rcases hview with rfl | hview
  · exact h
  · exact (h.2 _ hview).group

/-- A child that is a group, or an item. -/
def Child.Admits (Q : TypeTree → Option TypeTree → Prop) : Child View → Prop
  | .raw tree options => Q tree options.contextualTypeArgument
  | .made _ => True

theorem Child.Fits.admits {Q : TypeTree → Option TypeTree → Prop} {c : Child View}
    (h : c.Fits Q root s) : c.Admits Q := by
  cases c with
  | raw tree options => exact h
  | made view => trivial

theorem ViewResult.Keeps.mono {R : Regime retriever} {result : ViewResult} (h : result.Keeps R s)
    {G : Root → Prop} (hst : Grows G s t) : result.Keeps R t := by
  cases result with
  | failure failure => exact h
  | view view =>
    obtain ⟨root, hroot, hfits⟩ := h
    exact ⟨root, hroot, hfits.1.mono hst, fun child hchild => (hfits.2 child hchild).mono hst⟩

namespace Resolve

theorem view_of_error {tree : TypeTree} {options : ChildOptions} {error : ViewError}
    (h : (Unwrapped.start tree root).resolve retriever maxReferenceHops = .error error) :
    view retriever tree root options s = (.error error, s) := by
  unfold Unwrapped.start at h
  unfold view
  simp only [h]
  rfl

theorem view_of_resolve {tree : TypeTree} {options : ChildOptions} {u : Unwrapped}
    {cs : List (Child View)}
    (hu : (Unwrapped.start tree root).resolve retriever maxReferenceHops = .ok u)
    (hcs : (describe u.root u.node options (allocate ⟨some u.node, u.root⟩ s).2).1 = .ok cs) :
    view retriever tree root options s =
      (.ok (assemble u options (allocate ⟨some u.node, u.root⟩ s).1 cs),
        (describe u.root u.node options (allocate ⟨some u.node, u.root⟩ s).2).2) := by
  unfold Unwrapped.start at hu
  unfold view
  simp only [hu, bind, StateT.bind]
  generalize allocate ⟨some u.node, u.root⟩ s = allocated at hcs ⊢
  obtain ⟨handle, t⟩ := allocated
  dsimp only at hcs ⊢
  generalize describe u.root u.node options t = described at hcs ⊢
  obtain ⟨answer, t'⟩ := described
  dsimp only at hcs
  rw [hcs]
  rfl

section

variable (R : Regime retriever) (hroot : R.IsRoot root)

include hroot

/-- The view of an item fits the root that unwrapping leads to. -/
theorem view_keeps {tree : TypeTree} (options : ChildOptions)
    (hitem : R.IsItem root tree options.contextualTypeArgument) (s : ResolverState) :
    Grows R.IsRoot s (view retriever tree root options s).2 ∧
      (resultOf tree (view retriever tree root options s).1).Keeps R
        (view retriever tree root options s).2 := by
  cases hu : (Unwrapped.start tree root).resolve retriever maxReferenceHops with
  | error error =>
    rw [view_of_error hu]
    exact ⟨.refl s, error, R.error hroot hitem hu, rfl⟩
  | ok u =>
    have hroot' := R.root hroot hitem hu
    obtain ⟨cs, hcs, hdescribes⟩ := describe_describes u.root (R.functions hroot')
      (Shape.ne_array_of_isUnwrapped (Unwrapped.isUnwrapped_of_resolve hu))
      (R.child hroot hitem hu) (R.pair hroot hitem hu)
      (fun hshape argument hargument =>
        R.argument hroot ((Option.mem_def.1 hargument) ▸ hitem) hu hshape)
      (allocate ⟨some u.node, u.root⟩ s).2
    have hgrows := (grows_allocate (some u.node) s).trans hdescribes.grows
    rw [view_of_resolve hu hcs]
    exact ⟨hgrows.mono (by rintro _ rfl; exact hroot'), u.root, hroot',
      (holds_allocate _ s).mono hdescribes.grows, fun child hchild => hdescribes.fits hchild⟩

theorem grows_child {c : Child View} (hc : c.Admits (R.IsItem root)) (s : ResolverState) :
    Grows R.IsRoot s (child retriever root c s).2 := by
  cases c with
  | made group => exact .refl s
  | raw tree options => exact (view_keeps R hroot options hc s).1

theorem grows_mapM_child : ∀ {cs : List (Child View)}, (∀ c ∈ cs, c.Admits (R.IsItem root)) →
    ∀ s : ResolverState, Grows R.IsRoot s (cs.mapM (child retriever root) s).2
  | [], _, s => .refl s
  | c :: cs, h, s => by
    rw [List.forall_mem_cons] at h
    rw [List.mapM_cons]
    exact (grows_child R hroot h.1 s).trans (grows_mapM_child h.2 _)

theorem child_keeps {c : Child View} (s : ResolverState) (hc : c.Fits (R.IsItem root) root s) :
    (child retriever root c s).1.Keeps R (child retriever root c s).2 := by
  cases c with
  | made group => exact ⟨root, hroot, hc.group⟩
  | raw tree options => exact (view_keeps R hroot options hc s).2

/-- Children are viewed one after the other: what is remembered for those to come stays. -/
theorem mapM_child_keeps : ∀ (cs : List (Child View)) (s : ResolverState),
    (∀ c ∈ cs, c.Fits (R.IsItem root) root s) →
      ∀ result ∈ (cs.mapM (child retriever root) s).1,
        result.Keeps R (cs.mapM (child retriever root) s).2
  | [], s, _ => List.forall_mem_nil _
  | c :: cs, s, h => by
    rw [List.forall_mem_cons] at h
    rw [List.mapM_cons]
    have hgrows := grows_child R hroot h.1.admits s
    have hrest := fun c' hc' => (h.2 c' hc').mono hgrows
    have hgrows' := grows_mapM_child R hroot (fun c' hc' => (hrest c' hc').admits)
      (child retriever root c s).2
    exact List.forall_mem_cons.2
      ⟨(child_keeps R hroot s h.1).mono hgrows', mapM_child_keeps cs _ hrest⟩

end

/-- The children of a view that are shown. -/
def shown (parent : View) (typeLists : Bool) : List (Child View) :=
  parent.children.filter fun child => typeLists || !child.purpose.any Purpose.isTypeList

theorem children_of_origin {parent : View} {origin : Origin}
    (h : s.origin? parent.handle = some origin) (typeLists : Bool) :
    children retriever parent typeLists s =
      (.ok ((shown parent typeLists).mapM (child retriever origin.root) s).1,
        ((shown parent typeLists).mapM (child retriever origin.root) s).2) := by
  simp only [children, bind, StateT.bind, get, getThe, MonadStateOf.get, StateT.get, pure, h]
  rfl

theorem children_of_unknown {parent : View} (h : s.origin? parent.handle = none)
    (typeLists : Bool) :
    children retriever parent typeLists s = (.error (.unknownNode parent.handle), s) := by
  simp only [children, bind, StateT.bind, get, getThe, MonadStateOf.get, StateT.get, pure, h]
  rfl

/-- Whatever is asked for, the state only grows. -/
theorem grows_children (parent : View) (typeLists : Bool) (s : ResolverState) :
    Grows (fun _ => True) s (children retriever parent typeLists s).2 := by
  cases horigin : s.origin? parent.handle with
  | none => exact children_of_unknown horigin typeLists ▸ .refl s
  | some origin =>
    rw [children_of_origin horigin]
    refine grows_mapM_child (.any retriever) trivial (fun c _ => ?_) s
    cases c <;> trivial

end Resolve

/-! ## Handles -/

/-- Each handle leads back to the root that its view was made with, if this is a root with a
property. -/
def ResolverState.Finds (G : Root → Prop) (state : ResolverState) : Prop :=
  ∀ {root handle}, G root → state.Holds root handle →
    ∃ raw, state.origin? handle = some ⟨raw, root⟩

theorem ResolverState.Holds.isSome_origin? {handle : ViewId} (h : s.Holds root handle) :
    ∃ origin, s.origin? handle = some origin := by
  obtain ⟨raw, hmem⟩ := h
  rw [← Option.isSome_iff_exists, origin?, List.lookup_isSome_iff]
  exact ⟨_, hmem, by simp⟩

theorem ResolverState.mem_of_origin? {handle : ViewId} {origin : Origin}
    (h : s.origin? handle = some origin) : (handle, origin) ∈ s.origins := by
  obtain ⟨before, after, hsplit, -⟩ := List.lookup_eq_some_iff.1 h
  exact hsplit ▸ List.mem_append_right _ List.mem_cons_self

/-- Handles may be given twice, but if all that is remembered comes from one root, then whichever
entry is found leads to that root. -/
theorem ResolverState.finds_of_unique {G : Root → Prop} (hunique : ∀ {a b}, G a → G b → a = b)
    (hs : ∀ entry ∈ s.origins, G entry.2.root) : s.Finds G := by
  intro root handle hroot hholds
  obtain ⟨⟨raw, other⟩, horigin⟩ := hholds.isSome_origin?
  exact ⟨raw, hunique (hs _ (mem_of_origin? horigin)) hroot ▸ horigin⟩

/-- No handle is given twice as long as there are handles for all views, by induction on the views
made so far. -/
theorem ResolverState.Numbered.nodup_handles (hs : s.Numbered)
    (hsize : s.origins.length ≤ UInt32.size) : (s.origins.map Prod.fst).Nodup := by
  have hpart : ∀ older newer, s.origins = newer ++ older → (older.map Prod.fst).Nodup := by
    intro older
    induction older with
    | nil => exact fun _ _ => List.nodup_nil
    | cons entry older ih =>
      intro newer hsplit
      rw [List.map_cons, List.nodup_cons]
      refine ⟨fun hmem => ?_, ih (newer ++ [entry]) (by rw [hsplit, List.append_assoc]; rfl)⟩
      obtain ⟨other, hother, heq⟩ := List.mem_map.1 hmem
      obtain ⟨between, oldest, rfl⟩ := List.append_of_mem hother
      have hsplit' : s.origins = (newer ++ entry :: between) ++ other :: oldest := by
        rw [hsplit, List.append_assoc, List.cons_append]
      have hlength := congrArg List.length hsplit
      rw [List.length_append, List.length_cons] at hlength
      have holder : (between ++ other :: oldest).length < UInt32.size := by omega
      have holdest : oldest.length < (between ++ other :: oldest).length := by
        rw [List.length_append, List.length_cons]
        omega
      have hnumber := ViewId.mk.inj ((hs.handle hsplit).symm.trans (heq.symm.trans
        (hs.handle hsplit')))
      rw [← UInt32.toNat_inj, UInt32.toNat_ofNat', UInt32.toNat_ofNat', Nat.mod_eq_of_lt holder,
        Nat.mod_eq_of_lt (Nat.lt_trans holdest holder)] at hnumber
      exact absurd hnumber.symm (Nat.ne_of_lt holdest)
  exact hpart s.origins [] rfl

/-- So each handle leads to what was remembered for it. -/
theorem ResolverState.Numbered.origin?_eq (hs : s.Numbered)
    (hsize : s.origins.length ≤ UInt32.size) {handle : ViewId} {origin : Origin}
    (hmem : (handle, origin) ∈ s.origins) : s.origin? handle = some origin := by
  have hnodup := hs.nodup_handles hsize
  obtain ⟨newer, older, hsplit⟩ := List.append_of_mem hmem
  rw [hsplit, List.map_append, List.map_cons, List.nodup_append] at hnodup
  refine List.lookup_eq_some_iff.2 ⟨newer, older, hsplit, fun entry hentry => ?_⟩
  have hne := hnodup.2.2 _ (List.mem_map_of_mem hentry) handle List.mem_cons_self
  exact bne_iff_ne.2 hne.symm

theorem ResolverState.Numbered.finds (hs : s.Numbered) (hsize : s.origins.length ≤ UInt32.size)
    (G : Root → Prop) : s.Finds G := by
  rintro root handle - ⟨raw, hmem⟩
  exact ⟨raw, hs.origin?_eq hsize hmem⟩

/-! ## Sessions -/

/-- What holds in a session that keeps to a regime. -/
structure Kept (R : Regime retriever) (state : ResolverState) (answers : List Answer) : Prop where
  origins : ∀ entry ∈ state.origins, R.IsRoot entry.2.root
  numbered : state.Numbered
  results : ∀ answer ∈ answers, ∃ results, answer = .ok results ∧
    ∀ result ∈ results, result.Keeps R state

variable {R : Regime retriever} {answers : List Answer}

theorem Kept.append {results : List ViewResult} (h : Kept R s answers) (hst : Grows R.IsRoot s t)
    (hresults : ∀ result ∈ results, result.Keeps R t) :
    Kept R t (answers ++ [.ok results]) where
  origins := by
    obtain ⟨new, ht, hnew⟩ := hst.origins
    rw [ht, List.forall_mem_append]
    exact ⟨hnew, h.origins⟩
  numbered := hst.numbered h.numbered
  results := by
    rw [List.forall_mem_append, List.forall_mem_singleton]
    refine ⟨fun answer hanswer => ?_, _, rfl, hresults⟩
    obtain ⟨before, rfl, hbefore⟩ := h.results answer hanswer
    exact ⟨before, rfl, fun result hresult => (hbefore result hresult).mono hst⟩

theorem Kept.offered (h : Kept R s answers) {view : View} (hview : Offered answers view) :
    ∃ root, R.IsRoot root ∧ view.Fits (R.IsItem root) root s := by
  obtain ⟨results, hresults, given, hgiven, hview⟩ := hview
  obtain ⟨_, ⟨⟩, hkeeps⟩ := h.results _ hresults
  obtain ⟨root, hroot, hfits⟩ := hkeeps _ hgiven
  exact ⟨root, hroot, hfits.offered hview⟩

/-- One more root is viewed. -/
theorem Kept.localize (h : Kept R s answers) (hroot : R.IsRoot root) :
    Kept R (Resolve.localize retriever root s).2
      (answers ++ [.ok [(Resolve.localize retriever root s).1]]) :=
  have hview := view_keeps R hroot {} (R.tree hroot) s
  h.append hview.1 (List.forall_mem_singleton.2 hview.2)

/-- The children of one more view are viewed. -/
theorem Kept.children (h : Kept R s answers) (hfinds : s.Finds R.IsRoot) {parent : View}
    (hparent : Offered answers parent) (typeLists : Bool) :
    Kept R (Resolve.children retriever parent typeLists s).2
      (answers ++ [(Resolve.children retriever parent typeLists s).1]) := by
  obtain ⟨root, hroot, hholds, hchildren⟩ := h.offered hparent
  obtain ⟨raw, horigin⟩ := hfinds hroot hholds
  have hshown : ∀ c ∈ shown parent typeLists, c.Fits (R.IsItem root) root s :=
    fun c hc => hchildren c (List.mem_filter.1 hc).1
  rw [children_of_origin horigin]
  exact h.append (grows_mapM_child R hroot (fun c hc => (hshown c hc).admits) s)
    (mapM_child_keeps R hroot _ s hshown)

/-- A session keeps to a regime, by induction on the calls. Each handle must lead back to its root:
either there is only one root, or no handle was given twice. -/
theorem Session.keeps {P : Root → Prop} (R : Regime retriever)
    (hP : ∀ {root}, P root → R.IsRoot root) (h : Session retriever P s answers)
    (hhandles : (∀ {a b}, R.IsRoot a → R.IsRoot b → a = b) ∨ s.origins.length ≤ UInt32.size) :
    Kept R s answers := by
  induction h with
  | new =>
    refine ⟨List.forall_mem_nil _, ⟨rfl, fun hsplit => ?_⟩, List.forall_mem_nil _⟩
    cases List.append_eq_nil_iff.1 hsplit.symm |>.2
  | @localize s answers root before hroot ih =>
    have hgrows := (view_keeps R (hP hroot) {} (R.tree (hP hroot)) s).1
    exact (ih (hhandles.imp_right (Nat.le_trans hgrows.length_le))).localize (hP hroot)
  | @children s answers parent before hparent typeLists ih =>
    have hbefore := hhandles.imp_right (Nat.le_trans (grows_children parent typeLists s).length_le)
    have hkept := ih hbefore
    refine hkept.children ?_ hparent typeLists
    rcases hbefore with hunique | hsize
    · exact finds_of_unique hunique hkept.origins
    · exact hkept.numbered.finds hsize R.IsRoot

end

end TypeAtlas
