import TypeAtlas.Proofs.View.Session
import TypeAtlas.Proofs.Walk.Closure
/-!
# References and the scopes that they are resolved in

A reference without a location stands for a node of the tree that it is part of, so it has to be
resolved in the scope of this tree. A resolver remembers a root with each view, and describes the
children of the view in its scope. That goes wrong in one place: the argument for a type parameter
is a node of the tree in which the parameter stands, but it is shown below the view of the
parameter, and this view belongs to another tree if the parameter is a reference with a location.
If no argument with references of its own is handed to another tree like this, then every reference
of a closed tree is resolved, in every session (`Session.no_invalidReference`). Otherwise it need
not be (`Session.invalidReference_strayArgument`).
-/

namespace TypeAtlas

open TypeTree

/-- A tree that can be resolved in any scope. -/
def TypeTree.Portable (tree : TypeTree) : Prop :=
  ∀ r ∈ tree.preorder, r.shape ≠ .reference none

/-- Whether a node is a reference without a location. -/
def Shape.isLocal {α : Type} : Shape α → Bool
  | .reference none => true
  | _ => false

theorem Shape.isLocal_iff {α : Type} {s : Shape α} : s.isLocal = true ↔ s = .reference none := by
  cases s with
  | reference location => cases location <;> simp [isLocal]
  | _ => simp [isLocal]

instance {α : Type} (s : Shape α) : Decidable (s = .reference none) :=
  decidable_of_iff _ Shape.isLocal_iff

instance : DecidablePred TypeTree.Closed := fun tree =>
  inferInstanceAs (Decidable (∀ r ∈ tree.preorder, r.shape = .reference none →
    ∃ c ∈ tree.preorder, c.shape.isConcrete = true ∧ c.id = r.id))

instance : DecidablePred TypeTree.Portable := fun tree =>
  inferInstanceAs (Decidable (∀ r ∈ tree.preorder, ¬r.shape = .reference none))

namespace Root

variable (retriever : Option Retriever) (root : Root)

/-- An argument for a type parameter stays in the scope of a root, unless it can be resolved in any
scope. -/
def Keeps (parameter argument : TypeTree) : Prop :=
  argument.Portable ∨ ∀ u : Unwrapped,
    (Unwrapped.start parameter root).resolve retriever maxReferenceHops = .ok u →
      u.node.shape.isTypeParameter = true → u.root = root

/-- A closed tree none of whose arguments is handed to another tree. -/
structure Contained : Prop where
  closed : root.tree.Closed
  keeps : ∀ n ∈ root.tree.preorder, ∀ p ∈ n.pairs, root.Keeps retriever p.1 p.2

/-- A tree that can be explored in the scope of a root. -/
structure Admits (tree : TypeTree) : Prop where
  reference : ∀ r ∈ tree.preorder, r.shape = .reference none →
    ∃ target, root.scope.get? r.id = some target
  keeps : ∀ n ∈ tree.preorder, ∀ p ∈ n.pairs, root.Keeps retriever p.1 p.2

variable {retriever root} {tree : TypeTree}

theorem Admits.node (h : root.Admits retriever tree) {n : TypeTree} (hn : n ∈ tree.preorder) :
    root.Admits retriever n where
  reference r hr := h.reference r (mem_preorder_trans hr tree hn)
  keeps m hm := h.keeps m (mem_preorder_trans hm tree hn)

theorem Admits.child (h : root.Admits retriever tree) {n : TypeTree} (hn : n ∈ tree.children) :
    root.Admits retriever n :=
  h.node (mem_preorder_of_mem_children hn (mem_preorder_self n))

/-- A portable tree can be explored in the scope of each root. -/
theorem admits_of_portable (h : tree.Portable) : root.Admits retriever tree where
  reference r hr hshape := absurd hshape (h r hr)
  keeps _ hn _ hp := Or.inl fun r hr => h r
    (mem_preorder_trans (mem_preorder_of_mem_children (mem_children_of_mem_pairs hp).2 hr) tree hn)

theorem closedUnderFunctions (root : Root) :
    Resolve.ClosedUnderFunctions (root.Admits retriever) := by
  intro id signatures h
  have hchildren : ∀ c ∈ (TypeTree.node { id, shape := .function signatures }).children,
      root.Admits retriever c := fun c hc => h c (Resolve.children_function id signatures ▸ hc)
  refine ⟨fun r hr hshape => ?_, fun n hn p hp => ?_⟩
  · rcases mem_preorder_iff.1 hr with rfl | ⟨c, hc, hr⟩
    · cases hshape
    · exact (hchildren c hc).reference r hr hshape
  · rcases mem_preorder_iff.1 hn with rfl | ⟨c, hc, hn⟩
    · exact absurd hp List.not_mem_nil
    · exact (hchildren c hc).keeps n hn p hp

theorem Contained.admits (h : root.Contained retriever) : root.Admits retriever root.tree where
  reference r hr hshape := by
    obtain ⟨c, hc, hconcrete, hid⟩ := h.closed r hr hshape
    rw [root.scope_eq, Scope.get?_ofTree, ← Option.isSome_iff_exists, List.find?_isSome]
    exact ⟨c, hc, by simp [hconcrete, hid]⟩
  keeps := h.keeps

/-- A reference that is resolved in a scope leads to a node of the tree. -/
theorem Contained.target (h : root.Contained retriever) {id : TypeId} {target : TypeTree}
    (htarget : root.scope.get? id = some target) : root.Admits retriever target := by
  rw [root.scope_eq] at htarget
  exact h.admits.node (Scope.get?_ofTree_eq_some htarget).1

end Root

namespace Unwrapped

variable {retriever : Option Retriever}

/-- A node that can be explored in the scope of the root that it comes with. -/
structure Within (retriever : Option Retriever) (u : Unwrapped) : Prop where
  root : u.root.Contained retriever
  node : u.root.Admits retriever u.node

/-- What unwrapping gives as long as every reference is resolved. -/
def Stays (retriever : Option Retriever) : Except ViewError Unwrapped → Prop
  | .ok u => u.Within retriever
  | .error e => ∀ id, e ≠ .invalidReference id

theorem Within.peel {u : Unwrapped} (hu : u.Within retriever) : u.peel.Within retriever where
  root := u.peel_root.symm ▸ hu.root
  node := u.peel_root.symm ▸ hu.node.node u.peel_node_mem

end Unwrapped

/-- The sort of error that is shown in place of a view. -/
def ViewResult.errorName? : ViewResult → Option String
  | .view _ => none
  | .failure f => some f.error.name

/-- A call succeeded, and each reference was resolved. -/
def Resolved (answer : Answer) : Prop :=
  ∃ results, answer = .ok results ∧
    ∀ result ∈ results, result.errorName? ≠ some "InvalidReference"

instance : DecidablePred Resolved
  | .ok results =>
    decidable_of_iff (∀ result ∈ results, result.errorName? ≠ some "InvalidReference")
      ⟨fun h => ⟨results, rfl, h⟩, fun ⟨_, heq, h⟩ => Except.ok.inj heq ▸ h⟩
  | .error _ => isFalse fun ⟨_, heq, _⟩ => by cases heq

/-- All trees that a retriever finds are contained. -/
def FindsContained (retriever : Option Retriever) : Prop :=
  ∀ retrieve ∈ retriever, ∀ {location tree}, retrieve location = .ok (some tree) →
    (Root.ofTree tree).Contained retriever

section

variable {retriever : Option Retriever} (hretriever : FindsContained retriever)

include hretriever

namespace Unwrapped

/-- A reference is followed within its tree, or to the root of another one. -/
theorem follow_stays {u : Unwrapped} (hu : u.Within retriever) {location : Option Location}
    (hshape : u.node.shape = .reference location) :
    Stays retriever (u.follow retriever location) := by
  unfold follow
  cases location with
  | none =>
    obtain ⟨target, htarget⟩ := hu.node.reference u.node (mem_preorder_self _) hshape
    simp only [htarget]
    exact ⟨hu.root, hu.root.target htarget⟩
  | some location =>
    cases hsome : retriever with
    | none => exact fun _ h => by cases h
    | some retrieve =>
      dsimp only
      cases hretrieved : retrieve location with
      | error failure => exact fun _ h => by cases h
      | ok found =>
        cases found with
        | none => exact fun _ h => by cases h
        | some tree =>
          have hroot := hretriever retrieve hsome hretrieved
          exact hsome ▸ ⟨hroot, hroot.admits⟩

/-- By induction on the references that may be followed. -/
theorem resolve_stays {hops : Nat} {u : Unwrapped} (hu : u.Within retriever) :
    Stays retriever (u.resolve retriever hops) := by
  induction hops generalizing u with
  | zero =>
    rcases u.resolve_cases retriever 0 with
      ⟨-, h⟩ | ⟨location, -, ⟨-, h⟩ | ⟨below, hbelow, -⟩⟩
    · exact h ▸ hu.peel
    · exact h ▸ fun _ h => by cases h
    · cases hbelow
  | succ hops ih =>
    rcases u.resolve_cases retriever (hops + 1) with
      ⟨-, h⟩ | ⟨location, hshape, ⟨hzero, -⟩ | ⟨below, hbelow, h⟩⟩
    · exact h ▸ hu.peel
    · cases hzero
    · cases hbelow
      have hfollow := follow_stays hretriever hu.peel hshape
      rw [h]
      generalize u.peel.follow retriever location = next at hfollow
      cases next with
      | error error => exact hfollow
      | ok next => exact ih hfollow

theorem within_of_resolve {root : Root} {tree : TypeTree} (hroot : root.Contained retriever)
    (htree : root.Admits retriever tree) {u : Unwrapped}
    (hu : (start tree root).resolve retriever maxReferenceHops = .ok u) : u.Within retriever := by
  have hstays : Stays retriever ((start tree root).resolve retriever maxReferenceHops) :=
    resolve_stays hretriever ⟨hroot, htree⟩
  rwa [hu] at hstays

end Unwrapped

/-- Exploring contained trees resolves every reference. -/
def scoping : Regime retriever where
  IsRoot root := root.Contained retriever
  IsItem root tree argument := root.Admits retriever tree ∧
    ∀ a ∈ argument, root.Keeps retriever tree a ∧ root.Admits retriever a
  IsError e := ∀ id, e ≠ .invalidReference id
  tree hroot := ⟨hroot.admits, fun _ h => by cases h⟩
  functions {root} _ id signatures h :=
    ⟨root.closedUnderFunctions id signatures fun tree htree => (h tree htree).1,
      fun _ h => by cases h⟩
  error {root tree _ e} hroot hitem he := by
    have hstays : Unwrapped.Stays retriever
        ((Unwrapped.start tree root).resolve retriever maxReferenceHops) :=
      Unwrapped.resolve_stays hretriever ⟨hroot, hitem.1⟩
    rwa [he] at hstays
  root hroot hitem hu := (Unwrapped.within_of_resolve hretriever hroot hitem.1 hu).root
  child hroot hitem hu child hchild :=
    ⟨(Unwrapped.within_of_resolve hretriever hroot hitem.1 hu).node.child hchild,
      fun _ h => by cases h⟩
  pair hroot hitem hu p hp := by
    have hnode := (Unwrapped.within_of_resolve hretriever hroot hitem.1 hu).node
    obtain ⟨hparameter, hargument⟩ := mem_children_of_mem_pairs hp
    refine ⟨hnode.child hparameter, fun a ha => ?_⟩
    obtain rfl := Option.some.inj ha
    exact ⟨hnode.keeps _ (mem_preorder_self _) p hp, hnode.child hargument⟩
  argument {root tree argument u} hroot hitem hu hshape := by
    obtain ⟨hkeeps, hadmits⟩ := hitem.2 argument rfl
    refine ⟨?_, fun _ h => by cases h⟩
    rcases hkeeps with hportable | hsame
    · exact Root.admits_of_portable hportable
    · rwa [hsame u hu hshape]

omit hretriever in
theorem ViewError.name_ne_invalidReference {e : ViewError} (h : ∀ id, e ≠ .invalidReference id) :
    e.details.name ≠ "InvalidReference" := by
  cases e with
  | invalidReference id => exact absurd rfl (h id)
  | _ => simp [details, name]

/-- Every reference of contained trees is resolved: in no session in which such roots are viewed,
and with a retriever that finds such trees, is there an invalid reference. -/
theorem Session.no_invalidReference {P : Root → Prop}
    (hP : ∀ {root}, P root → root.Contained retriever) {state : ResolverState}
    {answers : List Answer} (h : Session retriever P state answers)
    (hsize : state.origins.length ≤ UInt32.size) : ∀ answer ∈ answers, Resolved answer := by
  have hkept := h.keeps (scoping hretriever) hP (Or.inr hsize)
  intro answer hanswer
  obtain ⟨results, rfl, hresults⟩ := hkept.results answer hanswer
  refine ⟨results, rfl, fun result hresult heq => ?_⟩
  have hkeeps := hresults result hresult
  cases result with
  | view view => cases heq
  | failure failure =>
    obtain ⟨e, he, hfailure⟩ := hkeeps
    refine ViewError.name_ne_invalidReference he ?_
    rw [← hfailure]
    exact Option.some.inj heq

end

/-! ## An argument in the wrong scope -/

/-- The first view of an answer. -/
def firstView? : Answer → Option View
  | .ok results => results.head?.bind ViewResult.view?
  | .error _ => none

/-- A session that goes down into a root: each time the children of the first view of the last
answer are viewed. -/
def descent (retriever : Option Retriever) (root : Root) : Nat → ResolverState × List Answer
  | 0 =>
    let run := Resolve.localize retriever root {}
    (run.2, [.ok [run.1]])
  | n + 1 =>
    let before := descent retriever root n
    match before.2.getLast?.bind firstView? with
    | none => before
    | some view =>
      let run := Resolve.children retriever view true before.1
      (run.2, before.2 ++ [run.1])

theorem firstView?_eq_some {answer : Answer} {view : View} (h : firstView? answer = some view) :
    ∃ results, answer = .ok results ∧ .view view ∈ results := by
  cases answer with
  | error error => cases h
  | ok results =>
    obtain ⟨result, hhead, hview⟩ := Option.bind_eq_some_iff.1 h
    cases result with
    | failure failure => cases hview
    | view first =>
      obtain rfl := Option.some.inj hview
      exact ⟨results, rfl, List.mem_of_head? hhead⟩

theorem session_descent (retriever : Option Retriever) (root : Root) (n : Nat) :
    Session retriever (· = root) (descent retriever root n).1 (descent retriever root n).2 := by
  induction n with
  | zero => exact .localize .new rfl
  | succ n ih =>
    unfold descent
    dsimp only
    split
    · exact ih
    next view hview =>
      obtain ⟨answer, hanswer, hview⟩ := Option.bind_eq_some_iff.1 hview
      obtain ⟨results, rfl, hmem⟩ := firstView?_eq_some hview
      exact ih.children ⟨results, List.mem_of_getLast? hanswer, view, hmem, Or.inl rfl⟩ true

/-- Where a type parameter is declared. -/
def parameterLocation : Location :=
  .point "lib.ts" ⟨0, 0⟩

/-- A type parameter that is declared in a tree of its own. -/
def libraryParameter : TypeTree :=
  .node { id := ⟨7⟩, shape := .typeParameter none none none }

/-- Finds the declaration of the type parameter. -/
def library : Retriever :=
  fun location => .ok (if location = parameterLocation then some libraryParameter else none)

/-- An object with an argument for the type parameter. -/
def applied (property argument : TypeTree) : TypeTree :=
  .node
    { id := ⟨1⟩
      shape := .object [property] [] none
      typeArguments := some [argument]
      typeParameters := some [.node { id := ⟨3⟩, shape := .reference (some parameterLocation) }] }

/-- A reference to the object itself, and an argument without references. -/
def plainArgument : TypeTree :=
  applied (.node { id := ⟨1⟩, shape := .reference none })
    (.node { id := ⟨2⟩, shape := .primitive .string })

/-- The argument is a reference to the type of the property. -/
def strayArgument : TypeTree :=
  applied (.node { id := ⟨2⟩, shape := .primitive .string })
    (.node { id := ⟨2⟩, shape := .reference none })

theorem eq_of_library {location : Location} {tree : TypeTree}
    (h : library location = .ok (some tree)) : tree = libraryParameter := by
  unfold library at h
  split at h
  · exact (Option.some.inj (Except.ok.inj h)).symm
  · cases h

/-- The value of the type parameter is viewed in the end. -/
theorem Session.no_invalidReference_plainArgument :
    ∃ state answers, Session (some library) (· = .ofTree plainArgument) state answers ∧
      answers.length = 4 ∧ ∀ answer ∈ answers, Resolved answer := by
  have hportable : ∀ n ∈ plainArgument.preorder, ∀ p ∈ n.pairs, p.2.Portable := by decide +kernel
  have hroot : (Root.ofTree plainArgument).Contained (some library) :=
    ⟨by decide +kernel, fun n hn p hp => Or.inl (hportable n hn p hp)⟩
  have hlibrary : FindsContained (some library) := by
    intro retrieve hretrieve location tree htree
    obtain rfl := Option.some.inj hretrieve
    obtain rfl := eq_of_library htree
    have hnone : ∀ n ∈ libraryParameter.preorder, n.pairs = [] := by decide +kernel
    exact ⟨by decide +kernel, fun n hn p hp => by rw [hnone n hn] at hp; cases hp⟩
  exact ⟨_, _, session_descent (some library) (.ofTree plainArgument) 3, by decide +kernel,
    Session.no_invalidReference hlibrary (by rintro _ rfl; exact hroot) (session_descent _ _ 3)
      (by decide +kernel)⟩

/-- All trees are closed, but the argument is resolved in the scope of the tree of the parameter,
where there is no type with its id. -/
theorem Session.invalidReference_strayArgument :
    strayArgument.Closed ∧
      (∀ location tree, library location = .ok (some tree) → tree.Closed) ∧
      ∃ state answers, Session (some library) (· = .ofTree strayArgument) state answers ∧
        state.origins.length ≤ UInt32.size ∧ ¬∀ answer ∈ answers, Resolved answer := by
  refine ⟨by decide +kernel, fun location tree h => ?_, _, _,
    session_descent (some library) (.ofTree strayArgument) 3, by decide +kernel,
    by decide +kernel⟩
  rw [eq_of_library h]
  decide +kernel

end TypeAtlas
