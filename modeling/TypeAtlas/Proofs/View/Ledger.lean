import TypeAtlas.Proofs.View.Handles
import TypeAtlas.Proofs.View.Task
/-!
# Which handles are taken

Making a view takes the handles of the view and of the groups in it, each once, and nothing else
takes a handle: an error is found before (`Task.Step.takes`). So however tasks take turns, what is
remembered in the end are exactly the handles of the views that were made, those of nodes with their
nodes and those of groups as groups (`Interleaved.takes`).
-/

namespace TypeAtlas

/-- A group of items that is remembered as such. -/
structure View.IsGroup (state : ResolverState) (view : View) : Prop where
  known : ∃ root, (view.handle, ⟨none, root⟩) ∈ state.origins
  kind : view.layer.kind = none
  typeId : view.layer.typeId = none
  items : ∀ c ∈ view.children, ∃ tree options, c = .raw tree options

/-- A view of a node that is remembered with the node, and with the groups in it. -/
structure View.IsNode (state : ResolverState) (view : View) : Prop where
  known : ∃ raw root, (view.handle, ⟨some raw, root⟩) ∈ state.origins ∧
    raw.shape.isUnwrapped = true ∧ view.layer.kind = some raw.shape.kind ∧
      view.layer.typeId = some raw.id
  groups : ∀ {group}, .made group ∈ view.children → group.IsGroup state

/-- A result that is a remembered view, or an error that can be shown. -/
def ViewResult.Sound (state : ResolverState) : ViewResult → Prop
  | .failure f => ∃ error : ViewError, error ≠ .unexpectedArray ∧ f.error = error.details
  | .view v => v.IsNode state ∨ v.IsGroup state

/-- The view that was made for a result. A group was made with the view that it is in. -/
def ViewResult.localized : ViewResult → List View
  | .failure _ => []
  | .view v => if v.layer.kind.isSome then [v] else []

namespace ResolverState

/-- Between two states exactly the given handles were taken. -/
structure Takes (s : ResolverState) (handles : List ViewId) (t : ResolverState) : Prop where
  origins : ∃ new, t.origins = new ++ s.origins ∧ (new.map Prod.fst).Perm handles
  numbered : s.Numbered → t.Numbered

variable {s t u : ResolverState} {handles handles' : List ViewId}

theorem Takes.refl (s : ResolverState) : s.Takes [] s :=
  ⟨⟨[], rfl, .nil⟩, id⟩

theorem Takes.trans (h₁ : s.Takes handles t) (h₂ : t.Takes handles' u) :
    s.Takes (handles ++ handles') u := by
  obtain ⟨⟨new₁, ht, hnew₁⟩, hnumbered₁⟩ := h₁
  obtain ⟨⟨new₂, hu, hnew₂⟩, hnumbered₂⟩ := h₂
  refine ⟨⟨new₂ ++ new₁, by rw [hu, ht, List.append_assoc], ?_⟩, hnumbered₂ ∘ hnumbered₁⟩
  rw [List.map_append]
  exact (hnew₂.append hnew₁).trans List.perm_append_comm

theorem Takes.perm (h : s.Takes handles t) (hperm : handles.Perm handles') :
    s.Takes handles' t := by
  obtain ⟨⟨new, ht, hnew⟩, hnumbered⟩ := h
  exact ⟨⟨new, ht, hnew.trans hperm⟩, hnumbered⟩

theorem Takes.mem (h : s.Takes handles t) {entry : ViewId × Origin} (hentry : entry ∈ s.origins) :
    entry ∈ t.origins := by
  obtain ⟨⟨new, ht, -⟩, -⟩ := h
  exact ht ▸ List.mem_append_right new hentry

theorem Takes.length_le (h : s.Takes handles t) : s.origins.length ≤ t.origins.length := by
  obtain ⟨⟨new, ht, -⟩, -⟩ := h
  rw [ht, List.length_append]
  exact Nat.le_add_left _ _

/-- All handles that are remembered, after some more were taken. -/
theorem Takes.handles_perm (h : s.Takes handles t) {known : List ViewId}
    (hknown : known.Perm (s.origins.map Prod.fst)) :
    (known ++ handles).Perm (t.origins.map Prod.fst) := by
  obtain ⟨⟨new, ht, hnew⟩, -⟩ := h
  rw [ht, List.map_append]
  exact (hknown.append hnew.symm).trans List.perm_append_comm

theorem takes_allocate (origin : Origin) (s : ResolverState) :
    s.Takes [(Resolve.allocate origin s).1] (Resolve.allocate origin s).2 :=
  ⟨⟨[_], rfl, .refl _⟩, Resolve.numbered_allocate origin⟩

end ResolverState

open Resolve ResolverState

variable {s t : ResolverState} {taken : List ViewId}

theorem View.IsGroup.mono {view : View} (h : view.IsGroup s) (hst : s.Takes taken t) :
    view.IsGroup t where
  known := h.known.imp fun _ hmem => hst.mem hmem
  kind := h.kind
  typeId := h.typeId
  items := h.items

/-- There are no groups in a group. -/
theorem View.IsGroup.made_notMem {view : View} (h : view.IsGroup s) (inner : View) :
    .made inner ∉ view.children := by
  intro hinner
  obtain ⟨_, _, hraw⟩ := h.items _ hinner
  cases hraw

theorem View.IsGroup.parts_children {α : Type} {view : View} (h : view.IsGroup s)
    (f : View → List α) : view.children.flatMap (Child.parts f) = [] := by
  refine List.flatMap_eq_nil_iff.2 fun c hc => ?_
  obtain ⟨tree, options, rfl⟩ := h.items c hc
  rfl

theorem View.IsGroup.localized {view : View} (h : view.IsGroup s) :
    (ViewResult.view view).localized = [] := by
  rw [ViewResult.localized, h.kind]
  rfl

theorem View.IsNode.localized {view : View} (h : view.IsNode s) :
    (ViewResult.view view).localized = [view] := by
  obtain ⟨raw, root, -, -, hkind, -⟩ := h.known
  rw [ViewResult.localized, hkind]
  rfl

theorem View.IsNode.mono {view : View} (h : view.IsNode s) (hst : s.Takes taken t) :
    view.IsNode t where
  known := by
    obtain ⟨raw, root, hmem, hraw⟩ := h.known
    exact ⟨raw, root, hst.mem hmem, hraw⟩
  groups hgroup := (h.groups hgroup).mono hst

theorem ViewResult.Sound.mono {result : ViewResult} (h : result.Sound s)
    (hst : s.Takes taken t) : result.Sound t := by
  cases result with
  | failure f => exact h
  | view v => exact h.imp (fun h => h.mono hst) fun h => h.mono hst

/-- A remembered view is known, and so are the groups in it. -/
theorem View.IsGroup.mem_origins {view : View} (h : view.IsGroup s) {inner : View}
    (hinner : inner ∈ view.preorder) : ∃ origin, (inner.handle, origin) ∈ s.origins := by
  have hnone := h.parts_children preorder
  obtain ⟨l⟩ := view
  rw [preorder_node, show l.children.flatMap (Child.parts preorder) = [] from hnone,
    List.mem_singleton] at hinner
  rw [hinner]
  exact h.known.imp' _ fun _ hmem => hmem

theorem View.IsNode.mem_origins {view : View} (h : view.IsNode s) {inner : View}
    (hinner : inner ∈ view.preorder) : ∃ origin, (inner.handle, origin) ∈ s.origins := by
  obtain ⟨l⟩ := view
  rw [preorder_node, List.mem_cons, List.mem_flatMap] at hinner
  rcases hinner with rfl | ⟨c, hc, hinner⟩
  · obtain ⟨raw, root, hmem, -⟩ := h.known
    exact ⟨_, hmem⟩
  · cases c with
    | raw tree options => cases hinner
    | made group => exact (h.groups hc).mem_origins hinner

theorem ViewResult.Sound.mem_origins {view : View} (h : (ViewResult.view view).Sound s)
    {inner : View} (hinner : inner ∈ view.preorder) :
    ∃ origin, (inner.handle, origin) ∈ s.origins :=
  h.elim (fun hnode => hnode.mem_origins hinner) fun hgroup => hgroup.mem_origins hinner

/-! ## Descriptions and views -/

namespace Piece

variable (root : Root)

theorem parts_items {α : Type} (f : View → List α) (items : List Item) :
    (items.map Item.child).flatMap (Child.parts f) = [] :=
  List.flatMap_eq_nil_iff.2 (List.forall_mem_map.2 fun _ _ => rfl)

theorem takes_make (p : Piece) (s : ResolverState) :
    s.Takes ((p.make root s).1.parts View.handles) (p.make root s).2 := by
  cases p with
  | item i => exact .refl s
  | group purpose kindText items name readonly =>
    rw [make_group, Child.parts, groupView, View.handles_node, parts_items]
    exact takes_allocate ⟨none, root⟩ s

theorem isGroup_make {p : Piece} {group : View} (h : (p.make root s).1 = .made group) :
    group.IsGroup (p.make root s).2 := by
  cases p with
  | item i => cases h
  | group purpose kindText items name readonly =>
    obtain rfl := Child.made.inj h
    exact ⟨⟨root, List.mem_cons_self⟩, rfl, rfl, List.forall_mem_map.2 fun i _ => ⟨_, _, rfl⟩⟩

theorem takes_mapM_make (ps : List Piece) (s : ResolverState) :
    s.Takes ((ps.mapM (make root) s).1.flatMap (Child.parts View.handles))
      (ps.mapM (make root) s).2 := by
  induction ps generalizing s with
  | nil => exact .refl s
  | cons p ps ih =>
    rw [List.mapM_cons]
    exact (takes_make root p s).trans (ih (p.make root s).2)

theorem isGroup_mapM_make {ps : List Piece} {group : View}
    (h : .made group ∈ (ps.mapM (make root) s).1) : group.IsGroup (ps.mapM (make root) s).2 := by
  induction ps generalizing s with
  | nil => cases h
  | cons p ps ih =>
    rw [List.mapM_cons] at h ⊢
    rcases List.mem_cons.1 h with h | h
    · exact (isGroup_make root h.symm).mono (takes_mapM_make root ps _)
    · exact ih h

end Piece

namespace Resolve

variable (options : ChildOptions) (u : Unwrapped)

theorem takes_viewAt (s : ResolverState) :
    s.Takes (viewAt options u s).1.handles (viewAt options u s).2 := by
  change s.Takes (View.handles (.node _)) _
  rw [View.handles_node]
  exact (takes_allocate ⟨some u.node, u.root⟩ s).trans (Piece.takes_mapM_make u.root _ _)

theorem isNode_viewAt (hend : u.node.shape.isUnwrapped = true) (s : ResolverState) :
    (viewAt options u s).1.IsNode (viewAt options u s).2 where
  known := ⟨u.node, u.root, (Piece.takes_mapM_make u.root _ _).mem List.mem_cons_self, hend, rfl,
    rfl⟩
  groups hgroup := Piece.isGroup_mapM_make u.root hgroup

end Resolve

theorem Unwrapped.follow_ne_unexpectedArray (retriever : Option Retriever) (u : Unwrapped)
    (location : Option Location) : u.follow retriever location ≠ .error .unexpectedArray := by
  intro h
  unfold follow at h
  repeat' split at h
  all_goals cases h

/-! ## Tasks -/

namespace Task

/-- The handles that a task has taken. -/
def handles : Task → List ViewId
  | done result => result.localized.flatMap View.handles
  | waiting _ | unwrapping .. => []

/-- A task for a remembered group or for an item, with a sound result in the end. -/
def Sound (state : ResolverState) : Task → Prop
  | waiting child => ∀ {group}, child = .made group → group.IsGroup state
  | unwrapping .. => True
  | done result => result.Sound state

variable {retriever : Option Retriever} {root : Root} {task task' : Task} {s' : ResolverState}

theorem Sound.mono (h : task.Sound s) (hst : s.Takes taken t) : task.Sound t := by
  cases task with
  | waiting child => exact fun hgroup => (h hgroup).mono hst
  | unwrapping tree options hops u => trivial
  | done result => exact ViewResult.Sound.mono h hst

/-- Only the last step of a task takes handles: those of the view that it makes. -/
theorem Step.takes (h : Step retriever root task s task' s') (hsound : task.Sound s) :
    task.handles = [] ∧ s.Takes task'.handles s' := by
  cases h with
  | @group view s =>
    rw [handles, View.IsGroup.localized (hsound rfl)]
    exact ⟨rfl, Takes.refl s⟩
  | view hend =>
    refine ⟨rfl, (takes_viewAt _ _ s).perm ?_⟩
    exact .of_eq (List.flatMap_singleton View.handles _).symm
  | start | follow | fail | giveUp => exact ⟨rfl, Takes.refl s⟩

theorem Step.sound (h : Step retriever root task s task' s') (hsound : task.Sound s) :
    task'.Sound s' := by
  cases h with
  | group => exact Or.inr (hsound rfl)
  | view hend => exact Or.inl (isNode_viewAt _ _ hend s)
  | start | follow => trivial
  | fail hshape hfollow =>
    refine ⟨_, ?_, rfl⟩
    rintro rfl
    exact Unwrapped.follow_ne_unexpectedArray _ _ _ hfollow
  | giveUp hshape => exact ⟨.referenceChainTooLong maxReferenceHops, nofun, rfl⟩

end Task

namespace Interleaved

variable {P : Option Retriever → Prop} {root : Root} {tasks tasks' : List Task}

/-- Tasks take the handles of the views that are made for them, and their results are sound, by
induction on the steps. -/
theorem takes_sound (h : Interleaved P root tasks s tasks' t)
    (hhandles : tasks.flatMap Task.handles = []) (hsound : ∀ task ∈ tasks, task.Sound s) :
    s.Takes (tasks'.flatMap Task.handles) t ∧ ∀ task ∈ tasks', task.Sound t := by
  induction h with
  | refl => exact ⟨hhandles ▸ Takes.refl s, hsound⟩
  | @step before after task task' t t' _ _ _ hstep ih =>
    obtain ⟨htakes, hsounds⟩ := ih
    have htask := hsounds task (List.mem_append_right _ List.mem_cons_self)
    obtain ⟨hnone, htaken⟩ := hstep.takes htask
    refine ⟨(htakes.trans htaken).perm ?_, fun other hother => ?_⟩
    · simp only [List.flatMap_append, List.flatMap_cons, hnone, List.nil_append, List.append_assoc]
      exact List.perm_append_comm.append_left _
    · rcases List.mem_append.1 hother with hbefore | hrest
      · exact (hsounds other (List.mem_append_left _ hbefore)).mono htaken
      · rcases List.mem_cons.1 hrest with rfl | hafter
        · exact hstep.sound htask
        · exact (hsounds other (List.mem_append_right _ (List.mem_cons_of_mem _ hafter))).mono
            htaken

variable {cs : List (Child View)} {results : List ViewResult}

/-- The children of a view are viewed: the handles of the views that are made are taken. -/
theorem takes (h : Interleaved P root (cs.map .waiting) s (results.map .done) t)
    (hgroups : ∀ group, .made group ∈ cs → group.IsGroup s) :
    s.Takes ((results.flatMap ViewResult.localized).flatMap View.handles) t ∧
      ∀ result ∈ results, result.Sound t := by
  have hstart : (cs.map Task.waiting).flatMap Task.handles = [] :=
    List.flatMap_eq_nil_iff.2 (List.forall_mem_map.2 fun _ _ => rfl)
  obtain ⟨htakes, hsound⟩ := h.takes_sound hstart
    (List.forall_mem_map.2 fun c hc _ hgroup => hgroups _ (hgroup ▸ hc))
  rw [List.flatMap_map] at htakes
  rw [List.flatMap_assoc]
  exact ⟨htakes, fun result hresult => hsound _ (List.mem_map_of_mem hresult)⟩

end Interleaved

end TypeAtlas
