import Mathlib.Data.List.TakeDrop
import Mathlib.Data.List.TakeWhile
import TypeAtlas.Merge
/-!
# What one step of merging does

Merging a list of types looks the list up, gives up at the lowest level, or goes on by what the
constituents are (`Merge.mergeWithin_cases`): a union among them is distributed over the others
(`Merge.classified_cases`), and without one there are as many cases as there are ways to have
objects and other types (`Merge.intersect_cases`).
-/

namespace TypeAtlas

namespace MergeContext

/-- The handle of the next type. -/
def nextType (s : MergeContext) : TypeId :=
  .ofIndex s.graph.types.size

/-- The type that is known to be made of several types. -/
def known? (s : MergeContext) : List TypeId → Option TypeId
  | [single] => s.made.lookup single
  | _ => none

theorem lookup_of_known? {s : MergeContext} {key : List TypeId} {made : TypeId}
    (h : s.known? key = some made) : ∃ id, key = [id] ∧ s.made.lookup id = some made := by
  unfold known? at h
  split at h
  · exact ⟨_, rfl, h⟩
  · cases h

/-- The state in which the properties of several objects are merged: the object made of them is
there, but has no members. -/
def opened (s : MergeContext) (key : List TypeId) : MergeContext :=
  (Merge.note key s.nextType
    { s with graph := (Build.newObjectType ObjectFlags.anonymous none s.graph).2 }).2

theorem graph_opened (s : MergeContext) (key : List TypeId) :
    (s.opened key).graph = (Build.newObjectType ObjectFlags.anonymous none s.graph).2 := by
  unfold opened Merge.note
  split <;> rfl

end MergeContext

namespace TypeGraph

variable (g : TypeGraph)

/-- The members of a type that is distributed as a union. -/
def unionMembers (id : TypeId) : List TypeId :=
  match g.data? id with
  | some (.union members) => members
  | _ => []

/-- The constituents among several types that are merged into an object. -/
def plainOf (types : List TypeId) : List TypeId :=
  (Build.distinct types).filter g.isPlainObject

/-- The constituents among several types that are left as they are. -/
def othersOf (types : List TypeId) : List TypeId :=
  (Build.distinct types).filter fun type => !g.isPlainObject type

/-- The members of the object made of several objects. -/
def mergedMembers (objects : List TypeId) (properties : List SymbolId) : ObjectMembers where
  properties
  callSignatures := objects.flatMap g.callSignatures
  constructSignatures := objects.flatMap g.constructSignatures
  indexInfos := objects.flatMap g.indexInfos

end TypeGraph

namespace Merge

variable (merge : List TypeId → Merge TypeId)

/-- The properties of several objects, merged name by name. -/
def mergeProperties (groups : List (String × List SymbolId)) : Merge (List SymbolId) :=
  groups.mapM fun group => property merge group.1 group.2

theorem objects_eq (objs key : List TypeId) (s : MergeContext) :
    objects merge objs key s =
      let g := (s.opened key).graph
      let run := mergeProperties merge (g.groupByName (objs.flatMap g.properties)) (s.opened key)
      let members := g.mergedMembers objs run.1
      (s.nextType,
        { run.2 with graph := (Build.setObjectMembers s.nextType members run.2.graph).2 }) :=
  rfl

/-- The union of what the members of a union become among other constituents. -/
def distributed (before after members : List TypeId) : Merge TypeId := do
  let merged ← members.mapM fun member => merge (before ++ [member] ++ after)
  build (Build.union merged)

theorem distribute_eq (before after members key : List TypeId) (s : MergeContext) :
    distribute merge before after members key s =
      let run := distributed merge before after members s
      (run.1, (note key run.1 run.2).2) :=
  rfl

/-- Merging objects and other types, which are apart already. -/
def combine (plain others key : List TypeId) : Merge TypeId :=
  match plain, others with
  | [], [] => return .unknown
  | [], [single] => build (Build.cloneWithoutAlias single)
  | [], _ => build (Build.intersection others)
  | _, [] => objects merge plain key
  | _, _ => do
    let made ← objects merge plain key
    build (Build.intersection (made :: others))

theorem intersect_eq (constituents key : List TypeId) (s : MergeContext) :
    intersect merge constituents key s =
      combine merge (s.graph.plainOf constituents) (s.graph.othersOf constituents) key s := by
  simp only [intersect, TypeGraph.plainOf, TypeGraph.othersOf, bind, StateT.bind, get, getThe,
    MonadStateOf.get, StateT.get, pure, List.partition_eq_filter_filter]
  rfl

/-- The five ways to merge types without a union among them. -/
theorem intersect_cases (constituents key : List TypeId) (s : MergeContext) :
    (s.graph.plainOf constituents = [] ∧ s.graph.othersOf constituents = [] ∧
      intersect merge constituents key s = (.unknown, s)) ∨
    (∃ single, s.graph.plainOf constituents = [] ∧ s.graph.othersOf constituents = [single] ∧
      intersect merge constituents key s = build (Build.cloneWithoutAlias single) s) ∨
    (s.graph.plainOf constituents = [] ∧ 2 ≤ (s.graph.othersOf constituents).length ∧
      intersect merge constituents key s =
        build (Build.intersection (s.graph.othersOf constituents)) s) ∨
    (s.graph.plainOf constituents ≠ [] ∧ s.graph.othersOf constituents = [] ∧
      intersect merge constituents key s =
        objects merge (s.graph.plainOf constituents) key s) ∨
    (s.graph.plainOf constituents ≠ [] ∧ s.graph.othersOf constituents ≠ [] ∧
      intersect merge constituents key s =
        (do
          let made ← objects merge (s.graph.plainOf constituents) key
          build (Build.intersection (made :: s.graph.othersOf constituents))) s) := by
  rw [intersect_eq]
  rcases s.graph.plainOf constituents with _ | ⟨plain, plains⟩ <;>
    rcases s.graph.othersOf constituents with _ | ⟨single, _ | ⟨second, others⟩⟩
  · exact Or.inl ⟨rfl, rfl, rfl⟩
  · exact Or.inr (Or.inl ⟨single, rfl, rfl, rfl⟩)
  · exact Or.inr (Or.inr (Or.inl ⟨rfl, by simp, rfl⟩))
  · exact Or.inr (Or.inr (Or.inr (Or.inl ⟨by simp, rfl, rfl⟩)))
  · exact Or.inr (Or.inr (Or.inr (Or.inr ⟨by simp, by simp, rfl⟩)))
  · exact Or.inr (Or.inr (Or.inr (Or.inr ⟨by simp, by simp, rfl⟩)))

section

variable {types : List TypeId} {s : MergeContext}

/-- The constituents before the first union, and those from there on. -/
theorem span_of_union {before after : List TypeId} {union : TypeId}
    (hsplit : types.flatMap s.graph.flatten = before ++ union :: after)
    (hbefore : ∀ type ∈ before, s.graph.isDistributableUnion type = false)
    (hunion : s.graph.isDistributableUnion union = true) :
    (types.flatMap s.graph.flatten).span (!s.graph.isDistributableUnion ·) =
      (before, union :: after) := by
  have hpass : ∀ type ∈ before, (!s.graph.isDistributableUnion type) = true := fun type htype => by
    rw [hbefore type htype]
    rfl
  rw [List.span_eq_takeWhile_dropWhile, hsplit, List.takeWhile_append_of_pos hpass,
    List.dropWhile_append_of_pos hpass]
  simp [hunion]

/-- The first union among the constituents is distributed. -/
theorem classified_of_union {before after : List TypeId} {union : TypeId}
    (hsplit : types.flatMap s.graph.flatten = before ++ union :: after)
    (hbefore : ∀ type ∈ before, s.graph.isDistributableUnion type = false)
    (hunion : s.graph.isDistributableUnion union = true) :
    classified merge types s =
      distribute merge before after (s.graph.unionMembers union) types s := by
  simp only [classified, bind, StateT.bind, get, getThe, MonadStateOf.get, StateT.get, pure,
    span_of_union hsplit hbefore hunion]
  rfl

theorem classified_of_no_union
    (h : ∀ type ∈ types.flatMap s.graph.flatten, s.graph.isDistributableUnion type = false) :
    classified merge types s = intersect merge (types.flatMap s.graph.flatten) types s := by
  have hpass : ∀ type ∈ types.flatMap s.graph.flatten,
      (!s.graph.isDistributableUnion type) = true := fun type htype => by
    rw [h type htype]
    rfl
  have hspan : (types.flatMap s.graph.flatten).span (!s.graph.isDistributableUnion ·) =
      (types.flatMap s.graph.flatten, []) := by
    rw [List.span_eq_takeWhile_dropWhile, List.takeWhile_eq_self_iff.2 hpass,
      List.dropWhile_eq_nil_iff.2 hpass]
  simp only [classified, bind, StateT.bind, get, getThe, MonadStateOf.get, StateT.get, pure, hspan]

end

/-- Types are merged with the first union among their constituents distributed, if there is one. -/
theorem classified_cases (types : List TypeId) (s : MergeContext) :
    (∃ before union after, types.flatMap s.graph.flatten = before ++ union :: after ∧
      (∀ type ∈ before, s.graph.isDistributableUnion type = false) ∧
      s.graph.isDistributableUnion union = true ∧
      classified merge types s =
        distribute merge before after (s.graph.unionMembers union) types s) ∨
    (∀ type ∈ types.flatMap s.graph.flatten, s.graph.isDistributableUnion type = false) ∧
      classified merge types s = intersect merge (types.flatMap s.graph.flatten) types s := by
  cases hfind : (types.flatMap s.graph.flatten).find? s.graph.isDistributableUnion with
  | none =>
    have hno : ∀ type ∈ types.flatMap s.graph.flatten,
        s.graph.isDistributableUnion type = false := fun type htype =>
      eq_false_of_ne_true (List.find?_eq_none.1 hfind type htype)
    exact Or.inr ⟨hno, classified_of_no_union merge hno⟩
  | some union =>
    obtain ⟨hunion, before, after, hsplit, hpass⟩ := List.find?_eq_some_iff_append.1 hfind
    have hbefore : ∀ type ∈ before, s.graph.isDistributableUnion type = false :=
      fun type htype => by
      simpa using hpass type htype
    exact Or.inl ⟨before, union, after, hsplit, hbefore, hunion,
      classified_of_union merge hsplit hbefore hunion⟩

/-- Merging types of which it is known whether something was made of them. -/
def afterLookup (known : Option TypeId) (levels : Nat) (types : List TypeId) : Merge TypeId :=
  match known with
  | some made => return made
  | none =>
    match levels, types with
    | 0, [single] => return single
    | 0, _ => build (Build.intersection types)
    | levels + 1, _ => classified (mergeWithin levels) types

theorem mergeWithin_eq (levels : Nat) (types : List TypeId) (s : MergeContext) :
    mergeWithin levels types s = afterLookup (s.known? types) levels types s := by
  -- the patterns overlap, so there is no equation to rewrite with
  delta afterLookup mergeWithin
  rcases levels with _ | below <;> rcases types with _ | ⟨single, _ | ⟨second, rest⟩⟩ <;> rfl

theorem mergeWithin_of_known {levels : Nat} {types : List TypeId} {s : MergeContext} {made : TypeId}
    (h : s.known? types = some made) : mergeWithin levels types s = (made, s) := by
  rw [mergeWithin_eq, h]
  rfl

theorem mergeWithin_zero {id : TypeId} {s : MergeContext} (h : s.known? [id] = none) :
    mergeWithin 0 [id] s = (id, s) := by
  rw [mergeWithin_eq, h]
  rfl

theorem mergeWithin_succ {levels : Nat} {types : List TypeId} {s : MergeContext}
    (h : s.known? types = none) :
    mergeWithin (levels + 1) types s = classified (mergeWithin levels) types s := by
  rw [mergeWithin_eq, h]
  rfl

/-- Merging looks its types up, or stops at the lowest level, or goes on one level further down. -/
theorem mergeWithin_cases (levels : Nat) (types : List TypeId) (s : MergeContext) :
    (∃ made, s.known? types = some made ∧ mergeWithin levels types s = (made, s)) ∨
    (s.known? types = none ∧ levels = 0 ∧ ∃ single, types = [single] ∧
      mergeWithin levels types s = (single, s)) ∨
    (s.known? types = none ∧ levels = 0 ∧ (∀ single, types ≠ [single]) ∧
      mergeWithin levels types s = build (Build.intersection types) s) ∨
    (s.known? types = none ∧ ∃ below, levels = below + 1 ∧
      mergeWithin levels types s = classified (mergeWithin below) types s) := by
  rw [mergeWithin_eq]
  cases hknown : s.known? types with
  | some made => exact Or.inl ⟨made, rfl, rfl⟩
  | none =>
    rcases levels with _ | below
    · rcases types with _ | ⟨single, _ | ⟨second, rest⟩⟩
      · exact Or.inr (Or.inr (Or.inl ⟨rfl, rfl, by simp, rfl⟩))
      · exact Or.inr (Or.inl ⟨rfl, rfl, single, rfl, rfl⟩)
      · exact Or.inr (Or.inr (Or.inl ⟨rfl, rfl, by simp, rfl⟩))
    · exact Or.inr (Or.inr (Or.inr ⟨rfl, below, rfl, rfl⟩))

end Merge

end TypeAtlas
