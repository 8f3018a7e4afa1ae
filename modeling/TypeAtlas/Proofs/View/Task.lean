import TypeAtlas.Proofs.View.Session
/-!
# Children that are viewed side by side

A retriever may take its time, and the children of a view need not wait for each other: while one
waits for a tree, another goes on. A `Task` is a child on its way to a result, and `Interleaved` is
any way in which several tasks may take turns. Viewing the children one after the other is one of
them (`Interleaved.mapM_child`). The state is only touched by the last step of a task, in which a
view is made at once, so whatever the others do a task ends with what viewing its child alone gives
in some state (`Interleaved.alone`).
-/

namespace TypeAtlas

namespace Resolve

/-- The view of an unwrapped node: it takes a handle, and so does each group of its children. -/
def viewAt (options : ChildOptions) (u : Unwrapped) : Resolve View := do
  let handle ← allocate ⟨some u.node, u.root⟩
  return assemble u options handle (← (u.node.pieces options).mapM (Piece.make u.root))

/-- The view of what unwrapping leads to. -/
def viewOf (options : ChildOptions) : Except ViewError Unwrapped → Resolve (Except ViewError View)
  | .error error => return .error error
  | .ok u => do return .ok (← viewAt options u)

/-- Unwrapping comes first, and only then the state is touched. -/
theorem view_eq (retriever : Option Retriever) (tree : TypeTree) (root : Root)
    (options : ChildOptions) :
    view retriever tree root options =
      viewOf options ((Unwrapped.start tree root).resolve retriever maxReferenceHops) := by
  funext s
  cases hu : (Unwrapped.start tree root).resolve retriever maxReferenceHops with
  | error error => exact view_of_error hu
  | ok u =>
    have harray := Shape.ne_array_of_isUnwrapped (Unwrapped.isUnwrapped_of_resolve hu)
    have hdescribe := describe_eq u.root harray options
    rw [view_of_resolve hu (by rw [hdescribe]; rfl), hdescribe]
    rfl

end Resolve

open Resolve

/-- A child on its way to a result. -/
inductive Task where
  | waiting (child : Child View)
  | unwrapping (tree : TypeTree) (options : ChildOptions) (hops : Nat) (u : Unwrapped)
  | done (result : ViewResult)

namespace Task

/-- One step of a task in the scope of a root: up to the next tree that is looked up, or to the
end. -/
inductive Step (retriever : Option Retriever) (root : Root) :
    Task → ResolverState → Task → ResolverState → Prop
  | group {view : View} {s : ResolverState} :
      Step retriever root (waiting (.made view)) s (done (.view view)) s
  | start {tree : TypeTree} {options : ChildOptions} {s : ResolverState} :
      Step retriever root (waiting (.raw tree options)) s
        (unwrapping tree options maxReferenceHops (.start tree root)) s
  | follow {tree : TypeTree} {options : ChildOptions} {hops : Nat} {u next : Unwrapped}
      {location : Option Location} {s : ResolverState}
      (hshape : u.peel.node.shape = .reference location)
      (hfollow : u.peel.follow retriever location = .ok next) :
      Step retriever root (unwrapping tree options (hops + 1) u) s
        (unwrapping tree options hops next) s
  | fail {tree : TypeTree} {options : ChildOptions} {hops : Nat} {u : Unwrapped}
      {location : Option Location} {error : ViewError} {s : ResolverState}
      (hshape : u.peel.node.shape = .reference location)
      (hfollow : u.peel.follow retriever location = .error error) :
      Step retriever root (unwrapping tree options (hops + 1) u) s
        (done (resultOf tree (.error error))) s
  | giveUp {tree : TypeTree} {options : ChildOptions} {u : Unwrapped}
      {location : Option Location} {s : ResolverState}
      (hshape : u.peel.node.shape = .reference location) :
      Step retriever root (unwrapping tree options 0 u) s
        (done (resultOf tree (.error (.referenceChainTooLong maxReferenceHops)))) s
  | view {tree : TypeTree} {options : ChildOptions} {hops : Nat} {u : Unwrapped}
      {s : ResolverState} (hend : u.peel.node.shape.isUnwrapped = true) :
      Step retriever root (unwrapping tree options hops u) s
        (done (.view (viewAt options u.peel s).1)) (viewAt options u.peel s).2

/-- Where a task for a child can be, if a retriever always answers the same. -/
def Leads (retriever : Option Retriever) (root : Root) (c : Child View) : Task → Prop
  | waiting child => c = child
  | unwrapping tree options hops u =>
    c = .raw tree options ∧
      (Unwrapped.start tree root).resolve retriever maxReferenceHops = u.resolve retriever hops
  | done result => ∃ s, result = (child retriever root c s).1

variable {retriever : Option Retriever} {root : Root} {c : Child View} {task task' : Task}
  {s s' : ResolverState}

theorem child_raw_eq {tree : TypeTree} {options : ChildOptions}
    {resolved : Except ViewError Unwrapped}
    (h : (Unwrapped.start tree root).resolve retriever maxReferenceHops = resolved)
    (s : ResolverState) :
    child retriever root (.raw tree options) s =
      (resultOf tree (viewOf options resolved s).1, (viewOf options resolved s).2) := by
  rw [← h, ← view_eq]
  rfl

/-- A task stays on the way to the result that its child has alone. -/
theorem Leads.step (h : Leads retriever root c task) (hstep : Step retriever root task s task' s') :
    Leads retriever root c task' := by
  cases hstep with
  | group =>
    obtain rfl : c = _ := h
    exact ⟨s, rfl⟩
  | start =>
    obtain rfl : c = _ := h
    exact ⟨rfl, rfl⟩
  | follow hshape hfollow =>
    obtain ⟨rfl, hresolve⟩ := h
    rw [Unwrapped.resolve_succ hshape, hfollow] at hresolve
    exact ⟨rfl, hresolve⟩
  | fail hshape hfollow =>
    obtain ⟨rfl, hresolve⟩ := h
    rw [Unwrapped.resolve_succ hshape, hfollow] at hresolve
    exact ⟨s, by rw [child_raw_eq hresolve]; rfl⟩
  | giveUp hshape =>
    obtain ⟨rfl, hresolve⟩ := h
    rw [Unwrapped.resolve_zero hshape] at hresolve
    exact ⟨s, by rw [child_raw_eq hresolve]; rfl⟩
  | view hend =>
    obtain ⟨rfl, hresolve⟩ := h
    rw [Unwrapped.resolve_of_peel (Shape.isReference_of_isUnwrapped hend)] at hresolve
    exact ⟨s, by rw [child_raw_eq hresolve]; rfl⟩

end Task

/-- Tasks take turns, in any order, while each answer comes from some retriever with a property. -/
inductive Interleaved (P : Option Retriever → Prop) (root : Root) (tasks : List Task)
    (s : ResolverState) : List Task → ResolverState → Prop
  | refl : Interleaved P root tasks s tasks s
  | step {before after : List Task} {task task' : Task} {t t' : ResolverState}
      {retriever : Option Retriever} (h : Interleaved P root tasks s (before ++ task :: after) t)
      (hretriever : P retriever) (hstep : task.Step retriever root t task' t') :
      Interleaved P root tasks s (before ++ task' :: after) t'

namespace Interleaved

variable {P : Option Retriever → Prop} {root : Root} {tasks tasks' tasks'' : List Task}
  {s t u : ResolverState}

theorem trans (h₁ : Interleaved P root tasks s tasks' t)
    (h₂ : Interleaved P root tasks' t tasks'' u) : Interleaved P root tasks s tasks'' u := by
  induction h₂ with
  | refl => exact h₁
  | step _ hretriever hstep ih => exact ih.step hretriever hstep

/-! ## One after the other -/

variable (retriever : Option Retriever) (hretriever : P retriever) (before after : List Task)

include hretriever

/-- A task goes on until it is done, by induction on the references that may be followed. -/
theorem unwrapping (tree : TypeTree) (options : ChildOptions) (hops : Nat) (u : Unwrapped)
    (s : ResolverState) :
    Interleaved P root (before ++ .unwrapping tree options hops u :: after) s
      (before ++
        .done (resultOf tree (viewOf options (u.resolve retriever hops) s).1) :: after)
      (viewOf options (u.resolve retriever hops) s).2 := by
  induction hops generalizing u with
  | zero =>
    rcases u.resolve_cases retriever 0 with
      ⟨hend, heq⟩ | ⟨location, hshape, ⟨-, heq⟩ | ⟨below, hbelow, -⟩⟩
    · rw [heq]
      exact Interleaved.refl.step hretriever (.view hend)
    · rw [heq]
      exact Interleaved.refl.step hretriever (.giveUp hshape)
    · cases hbelow
  | succ hops ih =>
    rcases u.resolve_cases retriever (hops + 1) with
      ⟨hend, heq⟩ | ⟨location, hshape, ⟨hzero, -⟩ | ⟨below, hbelow, heq⟩⟩
    · rw [heq]
      exact Interleaved.refl.step hretriever (.view hend)
    · cases hzero
    · cases hbelow
      rw [heq]
      cases hfollow : u.peel.follow retriever location with
      | error error => exact Interleaved.refl.step hretriever (.fail hshape hfollow)
      | ok next => exact (Interleaved.refl.step hretriever (.follow hshape hfollow)).trans (ih next)

theorem child (c : Child View) (s : ResolverState) :
    Interleaved P root (before ++ .waiting c :: after) s
      (before ++ .done (Resolve.child retriever root c s).1 :: after)
      (Resolve.child retriever root c s).2 := by
  cases c with
  | made view => exact Interleaved.refl.step hretriever .group
  | raw tree options =>
    rw [Task.child_raw_eq rfl]
    exact (Interleaved.refl.step hretriever .start).trans
      (unwrapping retriever hretriever before after tree options maxReferenceHops _ s)

/-- Children that are viewed one after the other take turns in this way. -/
theorem mapM_child (cs : List (Child View)) (s : ResolverState) :
    Interleaved P root (before ++ cs.map .waiting) s
      (before ++ (cs.mapM (Resolve.child retriever root) s).1.map .done)
      (cs.mapM (Resolve.child retriever root) s).2 := by
  induction cs generalizing before s with
  | nil => exact .refl
  | cons c cs ih =>
    have hrest := ih (before ++ [.done (Resolve.child retriever root c s).1])
      (Resolve.child retriever root c s).2
    rw [List.append_assoc, List.append_assoc] at hrest
    rw [List.mapM_cons]
    exact (child retriever hretriever before (cs.map .waiting) c s).trans hrest

end Interleaved

/-! ## Each on its own -/

namespace Interleaved

variable {retriever : Option Retriever} {root : Root} {tasks tasks' : List Task}
  {s t : ResolverState} {cs : List (Child View)} {results : List ViewResult}

theorem leads (h : Interleaved (· = retriever) root tasks s tasks' t)
    (htasks : List.Forall₂ (Task.Leads retriever root) cs tasks) :
    List.Forall₂ (Task.Leads retriever root) cs tasks' := by
  induction h with
  | refl => exact htasks
  | @step before after task task' _ _ _ _ hretriever hstep ih =>
    obtain rfl := hretriever
    have hbefore := List.forall₂_take_append _ _ _ ih
    obtain ⟨c, rest, htask, hafter, hcs⟩ :=
      List.forall₂_cons_right_iff.1 (List.forall₂_drop_append _ _ _ ih)
    rw [← List.take_append_drop before.length cs, hcs]
    exact List.rel_append hbefore (.cons (htask.step hstep) hafter)

/-- In whatever order the tasks take their turns, each child ends with what it has alone. -/
theorem alone (h : Interleaved (· = retriever) root (cs.map .waiting) s (results.map .done) t) :
    List.Forall₂ (fun c result => ∃ s, result = (Resolve.child retriever root c s).1) cs
      results := by
  have hleads := h.leads (List.forall₂_map_right_iff.2 (List.forall₂_same.2 fun c _ => rfl))
  exact List.forall₂_map_right_iff.1 hleads

end Interleaved

end TypeAtlas
