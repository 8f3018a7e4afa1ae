import Mathlib.Logic.Equiv.Fintype
import TypeAtlas.View.Basic
/-!
# Handles in views

A view has its own handle, and so has each group in it. Views are the same up to their handles if
one is the other with its handles renamed. If the views of two lists are the same one by one, and no
handle is used twice in either list, then a single renaming takes the one list to the other
(`ViewResult.exists_rename`).
-/

namespace TypeAtlas

theorem attach_map_eq_map {α β : Type} {xs : List α} {f : { a // a ∈ xs } → β} {g : α → β}
    (h : ∀ a, f a = g a.1) : xs.attach.map f = xs.map g := by
  rw [← List.attach_map_val (f := g)]
  exact List.map_congr_left fun a _ => h a

/-- What a child has of something that views have. -/
def Child.parts {α : Type} (f : View → List α) : Child View → List α
  | raw .. => []
  | made view => f view

namespace View

/-- A view and the groups in it, at any depth. -/
def preorder (view : View) : List View :=
  view :: view.children.attach.flatMap fun
    | ⟨.raw .., _⟩ => []
    | ⟨.made inner, _⟩ => preorder inner
termination_by sizeOf view
decreasing_by exact sizeOf_lt_of_mem_children ‹_›

theorem preorder_node (l : ViewLayer View) :
    (node l).preorder = node l :: l.children.flatMap (Child.parts preorder) := by
  rw [preorder, List.flatMap_def, List.flatMap_def]
  refine congrArg (fun parts => node l :: List.flatten parts) (attach_map_eq_map ?_)
  rintro ⟨_ | _, _⟩ <;> rfl

theorem mem_preorder_self (view : View) : view ∈ view.preorder := by
  obtain ⟨l⟩ := view
  rw [preorder_node]
  exact List.mem_cons_self

/-- The handle of a view and those of the groups in it. -/
def handles (view : View) : List ViewId :=
  view.preorder.map handle

theorem handles_node (l : ViewLayer View) :
    (node l).handles = l.handle :: l.children.flatMap (Child.parts handles) := by
  rw [handles, preorder_node, List.map_cons, List.map_flatMap]
  refine congrArg (l.handle :: ·) (congrArg (l.children.flatMap ·) (funext fun c => ?_))
  cases c <;> rfl

/-- The view with other handles. -/
def rename (ρ : ViewId → ViewId) (view : View) : View :=
  .node
    { view.layer with
      handle := ρ view.handle
      children := view.children.attach.map fun
        | ⟨.raw tree options, _⟩ => .raw tree options
        | ⟨.made inner, _⟩ => .made (rename ρ inner) }
termination_by sizeOf view
decreasing_by exact sizeOf_lt_of_mem_children ‹_›

variable {ρ σ : ViewId → ViewId}

theorem rename_node (l : ViewLayer View) :
    (node l).rename ρ =
      .node { l with handle := ρ l.handle, children := l.children.map (Child.map (rename ρ)) } := by
  rw [rename]
  refine congrArg (fun children => node { l with handle := ρ l.handle, children })
    (attach_map_eq_map fun ⟨c, _⟩ => ?_)
  cases c <;> rfl

/-- A property of all views: it holds of a view if it holds of the groups among its children. -/
theorem inside_out {motive : View → Prop}
    (node : ∀ l, (∀ inner, .made inner ∈ l.children → motive inner) → motive (node l))
    (view : View) : motive view := by
  obtain ⟨l⟩ := view
  exact node l fun inner hinner => inside_out node inner
termination_by sizeOf view
decreasing_by exact sizeOf_lt_of_mem_children hinner

theorem handles_rename (view : View) : (view.rename ρ).handles = view.handles.map ρ := by
  induction view using inside_out with
  | node l ih =>
    rw [rename_node, handles_node, handles_node, List.map_cons, List.map_flatMap, List.flatMap_map]
    refine congrArg (ρ l.handle :: ·) (List.flatMap_congr fun c hc => ?_)
    cases c with
    | raw tree options => rfl
    | made inner => exact ih inner hc

theorem rename_congr {view : View} (h : ∀ handle ∈ view.handles, ρ handle = σ handle) :
    view.rename ρ = view.rename σ := by
  induction view using inside_out with
  | node l ih =>
    rw [handles_node, List.forall_mem_cons, List.forall_mem_flatMap] at h
    have hchildren : l.children.map (Child.map (rename ρ)) =
        l.children.map (Child.map (rename σ)) := by
      refine List.map_congr_left fun c hc => ?_
      cases c with
      | raw tree options => rfl
      | made inner => exact congrArg Child.made (ih inner hc (h.2 _ hc))
    rw [rename_node, rename_node, h.1, hchildren]

theorem rename_id (view : View) : view.rename id = view := by
  induction view using inside_out with
  | node l ih =>
    have hchildren : l.children.map (Child.map (rename id)) = l.children := by
      refine (List.map_congr_left fun c hc => ?_).trans (List.map_id _)
      cases c with
      | raw tree options => rfl
      | made inner => exact congrArg Child.made (ih inner hc)
    rw [rename_node, hchildren]
    rfl

end View

namespace ViewResult

variable {ρ σ : ViewId → ViewId}

/-- The result with other handles. -/
def rename (ρ : ViewId → ViewId) : ViewResult → ViewResult
  | failure f => .failure f
  | view v => .view (v.rename ρ)

/-- The handles in a result. -/
def handles : ViewResult → List ViewId
  | failure _ => []
  | view v => v.handles

theorem handles_rename (result : ViewResult) :
    (result.rename ρ).handles = result.handles.map ρ := by
  cases result with
  | failure f => rfl
  | view v => exact v.handles_rename

theorem rename_congr {result : ViewResult} (h : ∀ handle ∈ result.handles, ρ handle = σ handle) :
    result.rename ρ = result.rename σ := by
  cases result with
  | failure f => rfl
  | view v => exact congrArg view (View.rename_congr h)

theorem rename_id (result : ViewResult) : result.rename id = result := by
  cases result with
  | failure f => rfl
  | view v => exact congrArg view v.rename_id

/-- Results that are the same up to their handles. -/
def Similar (result other : ViewResult) : Prop :=
  ∃ ρ : Equiv.Perm ViewId, other = result.rename ρ

variable {results others : List ViewResult}

theorem length_handles_eq (h : List.Forall₂ Similar results others) :
    (results.flatMap handles).length = (others.flatMap handles).length := by
  induction h with
  | nil => rfl
  | cons hfirst _ ih =>
    obtain ⟨ρ, rfl⟩ := hfirst
    rw [List.flatMap_cons, List.flatMap_cons, List.length_append, List.length_append, ih,
      handles_rename, List.length_map]

/-- A renaming that agrees on the handles agrees on the results. -/
theorem eq_map_rename (h : List.Forall₂ Similar results others)
    (hρ : (results.flatMap handles).map ρ = others.flatMap handles) :
    others = results.map (rename ρ) := by
  induction h with
  | nil => rfl
  | @cons result other results others hfirst _ ih =>
    obtain ⟨σ, rfl⟩ := hfirst
    rw [List.flatMap_cons, List.flatMap_cons, List.map_append, handles_rename] at hρ
    obtain ⟨hhead, htail⟩ := List.append_inj hρ (by rw [List.length_map, List.length_map])
    rw [List.map_cons, ← ih htail, rename_congr (List.map_inj_left.1 hhead)]

/-- Handles that are used once can be renamed at once. -/
theorem exists_rename (h : List.Forall₂ Similar results others)
    (hresults : (results.flatMap handles).Nodup) (hothers : (others.flatMap handles).Nodup) :
    ∃ ρ : Equiv.Perm ViewId, others = results.map (rename ρ) := by
  have hlength := length_handles_eq h
  obtain ⟨ρ, hρ⟩ := Equiv.Perm.exists_extending_pair (results.flatMap handles).get
    (fun n => (others.flatMap handles).get (n.cast hlength)) hresults.injective_get
    (hothers.injective_get.comp (Fin.cast_injective hlength))
  refine ⟨ρ, eq_map_rename h (List.ext_get (by rw [List.length_map, hlength]) fun n hn _ => ?_)⟩
  rw [List.length_map] at hn
  rw [List.get_eq_getElem, List.getElem_map]
  exact hρ ⟨n, hn⟩

end ViewResult

end TypeAtlas
