import TypeAtlas.Proofs.Merge.Leads
/-!
# Merging only adds to the graph

All that merging does to a graph is to add records, but for one thing: the members of the object
made of several objects are set after its properties were merged. This is a record made by the same
call (`Merge.grows_objects`), so no record that was there before is touched, on graphs with cycles
and at any depth (`Build.expand_extends`).
-/

namespace TypeAtlas

open TypeGraph

theorem accumulates_appends : Accumulates Appends where
  refl := .refl
  trans := .trans
  addType g record := .of_extends (.addType g record)

namespace Build

variable {g : TypeGraph}

theorem newPropertySymbol_appends (name : String) (flags : SymbolFlags) (checkFlags : CheckFlags)
    (type : TypeId) (declarations : List Declaration) :
    g.Appends (newPropertySymbol name flags checkFlags type declarations g).2 :=
  .of_extends (.addSymbol g _)

theorem union_appends (types : List TypeId) : g.Appends (union types g).2 :=
  accumulates_appends.union types

theorem intersection_appends (types : List TypeId) : g.Appends (intersection types g).2 :=
  accumulates_appends.intersection types

theorem cloneWithoutAlias_appends (id : TypeId) : g.Appends (cloneWithoutAlias id g).2 :=
  accumulates_appends.cloneWithoutAlias id

end Build

namespace Merge

variable {α β : Type}

/-- A step of merging by which the graph grows. -/
def Grows (x : Merge α) : Prop :=
  ∀ s : MergeContext, s.graph.Appends (x s).2.graph

theorem grows_pure (a : α) : Grows (pure a) :=
  fun s => .refl s.graph

theorem Grows.bind {x : Merge α} {k : α → Merge β} (hx : Grows x) (hk : ∀ a, Grows (k a)) :
    Grows (x >>= k) :=
  fun s => (hx s).trans (hk (x s).1 (x s).2)

/-- What a step leads to is followed by what follows the step. -/
theorem Grows.extends_of_extends {x : Merge α} (hx : Grows x) {s : MergeContext} {k : TypeGraph}
    (hk : (x s).2.graph.Extends k) (hsize : k.types.size ≤ UInt32.size) : s.graph.Extends k :=
  ((hx s).extends_of_le (hk.types_size.trans hsize)).trans hk

/-- A step that begins by reading the state. -/
theorem grows_read {k : MergeContext → Merge α}
    (hk : ∀ s : MergeContext, s.graph.Appends (k s s).2.graph) :
    Grows (get >>= k) :=
  hk

theorem grows_build {x : Build α} (h : ∀ g : TypeGraph, g.Appends (x g).2) : Grows (build x) :=
  fun s => h s.graph

theorem grows_mapM {k : α → Merge β} (hk : ∀ a, Grows (k a)) (as : List α) : Grows (as.mapM k) :=
  leads_mapM accumulates_appends hk as

section

variable {merge : List TypeId → Merge TypeId} (hmerge : ∀ types, Grows (merge types))

include hmerge

theorem grows_property (name : String) (symbols : List SymbolId) :
    Grows (property merge name symbols) :=
  grows_read fun s => (hmerge _).bind
    (fun _ => grows_build fun _ => Build.newPropertySymbol_appends _ _ _ _ _) s

theorem grows_mergeProperties (groups : List (String × List SymbolId)) :
    Grows (mergeProperties merge groups) :=
  grows_mapM (fun _ => grows_property hmerge _ _) groups

/-- The record that is written in the end is the one that was added in the beginning. -/
theorem grows_objects (objs key : List TypeId) : Grows (objects merge objs key) := by
  intro s
  rw [objects_eq]
  dsimp only
  have hopened : s.graph.Extends (s.opened key).graph := s.graph_opened key ▸ .addType _ _
  have hsize : (s.opened key).graph.types.size = s.graph.types.size + 1 := by
    rw [s.graph_opened]
    exact Array.size_push _
  set groups := (s.opened key).graph.groupByName (objs.flatMap (s.opened key).graph.properties)
  have hrun := grows_mergeProperties hmerge groups (s.opened key)
  set run := mergeProperties merge groups (s.opened key)
  refine ⟨?_, fun hle => ?_⟩
  · rw [Build.setObjectMembers, Build.modifyObject, types_size_modifyType]
    exact hopened.types_size.trans hrun.size_le
  · rw [Build.setObjectMembers, Build.modifyObject, types_size_modifyType] at hle
    refine (hopened.trans (hrun.extends_of_le hle)).modifyType ?_ _
    have hlt := hrun.size_le.trans hle
    rw [MergeContext.nextType, TypeId.index_ofIndex (by omega)]

end

theorem grows_mergeWithin (levels : Nat) (types : List TypeId) :
    Grows (mergeWithin levels types) :=
  leads_mergeWithin accumulates_appends (fun _ hmerge => grows_objects hmerge) levels types

end Merge

namespace Build

variable (type : TypeId) (config : TreeConfig) (g : TypeGraph)

theorem expand_appends : g.Appends (expand type config g).2 :=
  Merge.grows_mergeWithin config.maxDepth.toNat [type] { graph := g }

/-- Expanding a type, or printing its expansion, only appends: all records that were there before
are unchanged at their places, the array interfaces are the same, and all other records come after.
-/
theorem expand_extends (h : (expand type config g).2.types.size ≤ UInt32.size) :
    g.Extends (expand type config g).2 ∧ g.Extends (expandToText type config g).2 :=
  ⟨(expand_appends type config g).extends_of_le h, (expand_appends type config g).extends_of_le h⟩

/-- Two properties of the same type, which is an intersection of an object and a primitive type. -/
def sharedProperty : Build TypeId := do
  let constituent ← object [← property "a" .string]
  let shared ← intersection [constituent, .string]
  object [← property "p" shared, ← property "q" shared]

/-- The graph of `sharedProperty`, and nothing else. -/
def sharedGraph : TypeGraph :=
  (sharedProperty .initial).2

/-- The object with the two properties. -/
def sharedObject : TypeId :=
  (sharedProperty .initial).1

theorem expand_sharedObject_extends :
    (expand sharedObject {} sharedGraph).2.types.size ≤ UInt32.size ∧
      sharedGraph.Extends (expand sharedObject {} sharedGraph).2 ∧
      sharedGraph.Extends (expandToText sharedObject {} sharedGraph).2 :=
  have h : (expand sharedObject {} sharedGraph).2.types.size ≤ UInt32.size := by decide +kernel
  ⟨h, expand_extends sharedObject {} sharedGraph h⟩

end Build

end TypeAtlas
