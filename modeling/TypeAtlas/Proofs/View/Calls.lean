import Mathlib.Logic.Relation
import TypeAtlas.Proofs.View.Ledger
/-!
# Calls to a resolver

A resolver is called any number of times, with any trees and with retrievers that answer whatever
they like. Each call keeps what a resolver remembers and adds the views that it makes
(`Resolver.Call.cases`). So whatever is called in between, what was given out stays known, and no
handle is given to two views (`Resolver.Reaches.keeps_views`).
-/

namespace TypeAtlas

open Resolve ResolverState

namespace Answer

/-- The views that were made for an answer. -/
def localized : Answer → List View
  | .ok results => results.flatMap ViewResult.localized
  | .error _ => []

/-- An answer with sound results, or the refusal of a view that was made elsewhere. -/
def Sound (state : ResolverState) : Answer → Prop
  | .ok results => ∀ result ∈ results, result.Sound state
  | .error error => ∃ handle, error = .unknownNode handle

variable {answer : Answer} {s t : ResolverState} {taken : List ViewId}

theorem Sound.mono (h : Sound s answer) (hst : s.Takes taken t) : Sound t answer := by
  cases answer with
  | error error => exact h
  | ok results => exact fun result hresult => (h result hresult).mono hst

end Answer

/-- A resolver with what it has answered so far. -/
structure Resolver where
  state : ResolverState := {}
  answers : List Answer := []

namespace Resolver

/-- The handles of the views that were made, and of the groups in them. -/
def handles (x : Resolver) : List ViewId :=
  (x.answers.flatMap Answer.localized).flatMap View.handles

/-- The resolver with one more answer, in another state. -/
def answer (x : Resolver) (answer : Answer) (t : ResolverState) : Resolver :=
  ⟨t, x.answers ++ [answer]⟩

theorem handles_answer (x : Resolver) (answer : Answer) (t : ResolverState) :
    (x.answer answer t).handles =
      x.handles ++ (Answer.localized answer).flatMap View.handles := by
  simp only [handles, Resolver.answer, List.flatMap_append, List.flatMap_cons, List.flatMap_nil,
    List.append_nil]

/-- After the root of a tree was viewed. -/
def localize (x : Resolver) (retriever : Option Retriever) (root : Root) : Resolver :=
  let (result, state) := Resolve.localize retriever root x.state
  x.answer (.ok [result]) state

/-- After the children of a view were viewed. -/
def children (x : Resolver) (retriever : Option Retriever) (parent : View) (typeLists : Bool) :
    Resolver :=
  let (answer, state) := Resolve.children retriever parent typeLists x.state
  x.answer answer state

/-- One call to a resolver: for a root, or for the children of a view that it gave or of one that it
does not know. It runs at once, or its tasks take turns with answers that may change each time. -/
inductive Call (x : Resolver) : Resolver → Prop
  | localize (retriever : Option Retriever) (root : Root) : Call x (x.localize retriever root)
  | children (retriever : Option Retriever) {parent : View}
      (hparent : x.state.knows parent = true → Offered x.answers parent) (typeLists : Bool) :
      Call x (x.children retriever parent typeLists)
  | localizeInTurns {root : Root} {results : List ViewResult} {t : ResolverState}
      (h : Interleaved (fun _ => True) root [.waiting (.raw root.tree {})] x.state
        (results.map .done) t) :
      Call x (x.answer (.ok results) t)
  | childrenInTurns {parent : View} {origin : Origin} (hparent : Offered x.answers parent)
      (horigin : x.state.origin? parent.handle = some origin) (typeLists : Bool)
      {results : List ViewResult} {t : ResolverState}
      (h : Interleaved (fun _ => True) origin.root ((shown parent typeLists).map .waiting) x.state
        (results.map .done) t) :
      Call x (x.answer (.ok results) t)

/-- Any number of calls. -/
def Reaches : Resolver → Resolver → Prop :=
  Relation.ReflTransGen Call

/-- What holds of a resolver at any time. -/
structure Sound (x : Resolver) : Prop where
  numbered : x.state.Numbered
  /-- What is remembered are the views that were made, and the groups in them. -/
  handles : x.handles.Perm (x.state.origins.map Prod.fst)
  answers : ∀ answer ∈ x.answers, answer.Sound x.state

variable {x y : Resolver} {results : List ViewResult} {t : ResolverState} {parent group : View}

theorem sound_new : Sound {} where
  numbered := by
    refine ⟨rfl, fun hsplit => ?_⟩
    cases (List.append_eq_nil_iff.1 hsplit.symm).2
  handles := .nil
  answers := List.forall_mem_nil _

/-- What was offered is a group, or a view that was made for an answer. -/
theorem Sound.offered (h : x.Sound) (hparent : Offered x.answers parent) :
    parent.IsGroup x.state ∨
      parent.IsNode x.state ∧ parent ∈ x.answers.flatMap Answer.localized := by
  obtain ⟨results, hresults, given, hgiven, hparent⟩ := hparent
  rcases (h.answers _ hresults _ hgiven : given.IsNode x.state ∨ given.IsGroup x.state) with
    hnode | hgroup
  · rcases hparent with rfl | hparent
    · have hlocalized : parent ∈ (ViewResult.view parent).localized :=
        hnode.localized ▸ List.mem_singleton_self parent
      exact Or.inr ⟨hnode, List.mem_flatMap.2
        ⟨_, hresults, List.mem_flatMap.2 ⟨_, hgiven, hlocalized⟩⟩⟩
    · exact Or.inl (hnode.groups hparent)
  · rcases hparent with rfl | hparent
    · exact Or.inl hgroup
    · exact absurd hparent (hgroup.made_notMem parent)

theorem Sound.isGroup_shown (h : x.Sound) (hparent : Offered x.answers parent) {typeLists : Bool}
    (hgroup : .made group ∈ shown parent typeLists) : group.IsGroup x.state := by
  have hmem := (List.mem_filter.1 hgroup).1
  rcases h.offered hparent with hparent | ⟨hparent, -⟩
  · exact absurd hmem (hparent.made_notMem group)
  · exact hparent.groups hmem

theorem Sound.exists_origin (h : x.Sound) (hparent : Offered x.answers parent) :
    ∃ origin, x.state.origin? parent.handle = some origin := by
  obtain ⟨origin, hmem⟩ : ∃ origin, (parent.handle, origin) ∈ x.state.origins := by
    have hself := View.mem_preorder_self parent
    rcases h.offered hparent with hparent | ⟨hparent, -⟩
    · exact hparent.mem_origins hself
    · exact hparent.mem_origins hself
  have hholds : x.state.Holds origin.root parent.handle := ⟨origin.raw, hmem⟩
  exact hholds.isSome_origin?

/-- A call either refuses a view, or views some children that are items or known groups. -/
theorem Call.cases (h : Call x y) (hx : x.Sound) :
    (∃ handle, y = x.answer (.error (.unknownNode handle)) x.state) ∨
      ∃ (root : Root) (cs : List (Child View)) (results : List ViewResult) (t : ResolverState),
        (∀ group, .made group ∈ cs → group.IsGroup x.state) ∧
        Interleaved (fun _ => True) root (cs.map .waiting) x.state (results.map .done) t ∧
          y = x.answer (.ok results) t := by
  have hitem : ∀ root : Root, ∀ group : View, .made group ∈ [Child.raw root.tree {}] →
      group.IsGroup x.state := fun _ _ hgroup => by cases List.mem_singleton.1 hgroup
  cases h with
  | localize retriever root =>
    exact Or.inr ⟨root, _, [_], _, hitem root,
      Interleaved.child retriever trivial [] [] (.raw root.tree {}) x.state, rfl⟩
  | @children retriever parent hparent typeLists =>
    cases horigin : x.state.origin? parent.handle with
    | none =>
      refine Or.inl ⟨parent.handle, ?_⟩
      rw [Resolver.children, children_of_unknown horigin]
    | some origin =>
      have hknows : x.state.knows parent = true := by rw [knows, horigin]; rfl
      refine Or.inr ⟨origin.root, shown parent typeLists, _, _,
        fun _ => hx.isGroup_shown (hparent hknows),
        Interleaved.mapM_child retriever trivial [] _ x.state, ?_⟩
      rw [Resolver.children, children_of_origin horigin]
  | @localizeInTurns root results t hrun =>
    exact Or.inr ⟨root, _, results, t, hitem root, hrun, rfl⟩
  | @childrenInTurns parent origin hparent _ _ results t hrun =>
    exact Or.inr ⟨origin.root, _, results, t, fun _ => hx.isGroup_shown hparent, hrun,
      rfl⟩

/-- From one time to another, a resolver takes handles and gives more answers. -/
structure Extends (x y : Resolver) : Prop where
  takes : ∃ taken, x.state.Takes taken y.state
  answers : x.answers ⊆ y.answers

theorem Extends.trans {z : Resolver} (h₁ : x.Extends y) (h₂ : y.Extends z) : x.Extends z where
  takes := by
    obtain ⟨taken₁, htaken₁⟩ := h₁.takes
    obtain ⟨taken₂, htaken₂⟩ := h₂.takes
    exact ⟨_, htaken₁.trans htaken₂⟩
  answers := List.Subset.trans h₁.answers h₂.answers

theorem Sound.answer (hx : x.Sound) {answer : Answer}
    (htakes : x.state.Takes ((Answer.localized answer).flatMap View.handles) t)
    (hanswer : answer.Sound t) : (x.answer answer t).Sound ∧ x.Extends (x.answer answer t) := by
  refine ⟨⟨htakes.numbered hx.numbered, ?_, fun other hother => ?_⟩, ⟨_, htakes⟩,
    List.subset_append_left _ _⟩
  · rw [handles_answer]
    exact htakes.handles_perm hx.handles
  · rcases List.mem_append.1 hother with hother | hother
    · exact (hx.answers other hother).mono htakes
    · exact List.mem_singleton.1 hother ▸ hanswer

/-- Children are viewed in any order. -/
theorem Sound.interleaved (hx : x.Sound) {P : Option Retriever → Prop} {root : Root}
    {cs : List (Child View)} (hgroups : ∀ group, .made group ∈ cs → group.IsGroup x.state)
    (h : Interleaved P root (cs.map .waiting) x.state (results.map .done) t) :
    (x.answer (.ok results) t).Sound ∧ x.Extends (x.answer (.ok results) t) := by
  obtain ⟨htakes, hresults⟩ := h.takes hgroups
  exact hx.answer htakes hresults

/-- What holds of a resolver still holds after a call. -/
theorem Call.sound (h : Call x y) (hx : x.Sound) : y.Sound ∧ x.Extends y := by
  obtain ⟨handle, rfl⟩ | ⟨root, cs, results, t, hgroups, hrun, rfl⟩ := h.cases hx
  · exact hx.answer (.refl x.state) ⟨handle, rfl⟩
  · exact hx.interleaved hgroups hrun

/-- What holds of a resolver still holds after any number of calls, by induction on the calls. -/
theorem Reaches.sound (h : x.Reaches y) (hx : x.Sound) : y.Sound ∧ x.Extends y := by
  induction h with
  | refl => exact ⟨hx, ⟨_, .refl x.state⟩, List.Subset.refl _⟩
  | tail _ hcall ih =>
    obtain ⟨hy, hextends⟩ := ih
    obtain ⟨hz, hcall⟩ := hcall.sound hy
    exact ⟨hz, hextends.trans hcall⟩

/-! ## What stays -/

/-- What a resolver `y` says of the views that it gave, some of them when it was still `x`. -/
structure Keeps (x y : Resolver) : Prop where
  /-- What is remembered is neither removed nor changed. -/
  origin : ∀ {handle origin}, x.state.origin? handle = some origin →
    y.state.origin? handle = some origin
  /-- Each view that was given is known from then on, and so is each group in it. -/
  knows : ∀ {results view inner}, .ok results ∈ x.answers → .view view ∈ results →
    inner ∈ view.preorder → y.state.knows inner = true
  /-- No handle is given to two views that are made, or to two groups in them. -/
  nodup : y.handles.Nodup
  /-- A handle is only taken for a view that is given, or for a group in it. -/
  known : ∀ {handle}, (y.state.origin? handle).isSome = true ↔ handle ∈ y.handles
  /-- The view of a node has the kind and the type of the node, and this is neither an array nor a
  reference. The other views are groups, which have no node. -/
  raw : ∀ {results view}, .ok results ∈ y.answers → .view view ∈ results →
    match y.state.raw? view with
    | some raw => view.layer.kind = some raw.shape.kind ∧ view.layer.typeId = some raw.id ∧
        raw.shape.kind ≠ .array ∧ raw.shape.kind ≠ .reference
    | none => view.layer.kind = none ∧ view.layer.typeId = none
  /-- No failure is due to an array that was not unwrapped. -/
  failure : ∀ {results f}, .ok results ∈ y.answers → .failure f ∈ results →
    f.error.name ≠ ViewError.unexpectedArray.name
  /-- A call fails as a whole only for a view that was made elsewhere. -/
  error : ∀ {error}, .error error ∈ y.answers → ∃ handle, error = .unknownNode handle

theorem Sound.origin?_eq (hx : x.Sound) (hsize : x.state.origins.length ≤ UInt32.size)
    {handle : ViewId} {origin : Origin} (hmem : (handle, origin) ∈ x.state.origins) :
    x.state.origin? handle = some origin :=
  hx.numbered.origin?_eq hsize hmem

theorem Sound.knows (hx : x.Sound) (hsize : x.state.origins.length ≤ UInt32.size) {view : View}
    (h : ∃ origin, (view.handle, origin) ∈ x.state.origins) : x.state.knows view = true := by
  obtain ⟨origin, hmem⟩ := h
  rw [ResolverState.knows, hx.origin?_eq hsize hmem]
  rfl

theorem Sound.nodup (hx : x.Sound) (hsize : x.state.origins.length ≤ UInt32.size) :
    x.handles.Nodup :=
  hx.handles.nodup_iff.2 (hx.numbered.nodup_handles hsize)

theorem Sound.known (hx : x.Sound) {handle : ViewId} :
    (x.state.origin? handle).isSome = true ↔ handle ∈ x.handles := by
  rw [origin?, List.lookup_isSome_iff, hx.handles.mem_iff, List.mem_map]
  exact exists_congr fun _ => and_congr_right fun _ => beq_iff_eq.trans eq_comm

theorem Sound.raw (hx : x.Sound) (hsize : x.state.origins.length ≤ UInt32.size)
    (hresults : .ok results ∈ x.answers) {view : View} (hview : .view view ∈ results) :
    match x.state.raw? view with
    | some raw => view.layer.kind = some raw.shape.kind ∧ view.layer.typeId = some raw.id ∧
        raw.shape.kind ≠ .array ∧ raw.shape.kind ≠ .reference
    | none => view.layer.kind = none ∧ view.layer.typeId = none := by
  rcases (hx.answers _ hresults _ hview : view.IsNode x.state ∨ view.IsGroup x.state) with
    hnode | hgroup
  · obtain ⟨raw, root, hmem, hend, hkind, htypeId⟩ := hnode.known
    rw [raw?, hx.origin?_eq hsize hmem]
    exact ⟨hkind, htypeId, Shape.kind_ne_of_isUnwrapped hend⟩
  · obtain ⟨root, hmem⟩ := hgroup.known
    rw [raw?, hx.origin?_eq hsize hmem]
    exact ⟨hgroup.kind, hgroup.typeId⟩

theorem Sound.failure (hx : x.Sound) (hresults : .ok results ∈ x.answers) {f : ViewFailure}
    (hf : .failure f ∈ results) : f.error.name ≠ ViewError.unexpectedArray.name := by
  obtain ⟨error, hne, heq⟩ := hx.answers _ hresults _ hf
  rw [heq]
  cases error with
  | unexpectedArray => exact absurd rfl hne
  | _ => simp [ViewError.details, ViewError.name]

/-- Whatever is called, and however long the retriever takes, a resolver keeps to what it gave, as
long as there are handles for all views. -/
theorem Reaches.keeps_views (hx : Reaches {} x) (hxy : x.Reaches y)
    (hsize : y.state.origins.length ≤ UInt32.size) : x.Keeps y := by
  obtain ⟨hx, -⟩ := hx.sound sound_new
  obtain ⟨hy, ⟨taken, htakes⟩, hanswers⟩ := hxy.sound hx
  exact
    { origin horigin := hy.origin?_eq hsize (htakes.mem (mem_of_origin? horigin))
      knows hresults hview hinner :=
        hy.knows hsize ((hy.answers _ (hanswers hresults) _ hview).mem_origins hinner)
      nodup := hy.nodup hsize
      known := hy.known
      raw hresults hview := hy.raw hsize hresults hview
      failure hresults hf := hy.failure hresults hf
      error herror := hy.answers _ herror }

/-- An object with an index signature, a property that is a list of numbers, and one that refers to
nothing. -/
def sample : TypeTree :=
  .node
    { id := ⟨1⟩
      shape := .object
        [.node
            { id := ⟨2⟩, shape := .array (.node { id := ⟨3⟩, shape := .primitive .number }) false },
          .node { id := ⟨9⟩, shape := .reference none }]
        [{ keyType := some (.node { id := ⟨4⟩, shape := .primitive .string }) }] none }

/-- The view of the root of a tree, if there is one. -/
def rootView (root : Root) : View :=
  match (Resolve.localize none root {}).1 with
  | .view view => view
  | .failure _ => default

theorem offered_rootView {root : Root} (h : (Resolve.localize none root {}).1.isFailure = false) :
    Offered (localize {} none root).answers (rootView root) := by
  refine ⟨_, List.mem_singleton_self _, _, List.mem_singleton.2 ?_, Or.inl rfl⟩
  unfold rootView
  cases hresult : (Resolve.localize none root {}).1 with
  | failure f =>
    rw [hresult] at h
    cases h
  | view view => exact hresult.symm

/-- After the root of a tree and its children were viewed. -/
def explored (root : Root) : Resolver :=
  (localize {} none root).children none (rootView root) true

theorem reaches_explored {root : Root} (h : (Resolve.localize none root {}).1.isFailure = false) :
    (localize {} none root).Reaches (explored root) :=
  .single (.children none (fun _ => offered_rootView h) true)

/-- The children are a group, a view and a failure. -/
theorem Reaches.keeps_views_sample :
    (localize {} none (.ofTree sample)).Keeps (explored (.ofTree sample)) ∧
      (explored (.ofTree sample)).handles = [⟨0⟩, ⟨1⟩, ⟨2⟩] :=
  ⟨Reaches.keeps_views (.single (.localize none _)) (reaches_explored (by decide +kernel))
    (by decide +kernel), by decide +kernel⟩

end Resolver

end TypeAtlas
