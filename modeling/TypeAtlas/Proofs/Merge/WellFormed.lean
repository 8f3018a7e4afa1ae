import TypeAtlas.Proofs.Graph.Builders
import TypeAtlas.Proofs.Merge.Memo
import TypeAtlas.Proofs.Walk.Held
/-!
# Merging keeps graphs well-formed

Merging makes records by the builders, and asks the graph for nothing but types and symbols that are
there. So each of its steps leads from a well-formed graph to a well-formed graph, with notes of
types of the graph (`MergeContext.WellFormed`); by induction on the levels, so does the whole of it
(`Build.yields_expand`).
-/

namespace TypeAtlas

open TypeGraph

namespace MergeContext

/-- The graph is well-formed, and each type that was noted is in it. -/
structure WellFormed (s : MergeContext) : Prop where
  graph : s.graph.WellFormed
  made : ∀ {id type : TypeId}, s.made.lookup id = some type → s.graph.HasType type

/-- A state of merging whose graph has at least as many records. -/
def Grows (s t : MergeContext) : Prop :=
  s.graph.Grows t.graph

instance : IsPreorder MergeContext Grows where
  refl s := refl_of TypeGraph.Grows s.graph
  trans _ _ _ h₁ h₂ := trans_of TypeGraph.Grows h₁ h₂

theorem WellFormed.hasType_of_known? {s : MergeContext} (hs : s.WellFormed) {key : List TypeId}
    {type : TypeId} (hknown : s.known? key = some type) : s.graph.HasType type := by
  obtain ⟨id, -, hmade⟩ := lookup_of_known? hknown
  exact hs.made hmade

end MergeContext

namespace Merge

/-- What a step of merging gives from any well-formed state with at least as many records. -/
abbrev Yields {α : Type} (x : Merge α) (s : MergeContext) (Q : TypeGraph → α → Prop) : Prop :=
  TypeAtlas.Yields MergeContext.WellFormed MergeContext.Grows x s fun t => Q t.graph

variable {α : Type} {s : MergeContext} {Q : TypeGraph → α → Prop}

theorem yields_build {x : Build α} (hx : Build.Yields x s.graph Q) : Yields (build x) s Q := by
  intro t hst ht
  obtain ⟨hgraph, hgrows, ha⟩ := hx t.graph hst ht.graph
  exact ⟨⟨hgraph, fun hmade => hgrows.type (ht.made hmade)⟩, hgrows, ha⟩

theorem yields_type {type : TypeId} (htype : s.graph.HasType type) :
    Yields (pure type) s HasType :=
  .pure fun _ hst => hst.type htype

theorem yields_note (key : List TypeId) {made : TypeId} (hmade : s.graph.HasType made) :
    Yields (note key made) s fun _ _ => True := by
  intro t hst ht
  rw [MergeContext.Grows, graph_note]
  refine ⟨⟨graph_note key made t ▸ ht.graph, fun h => ?_⟩, refl_of TypeGraph.Grows _, trivial⟩
  rw [graph_note]
  rw [lookup_note] at h
  split at h
  · obtain rfl := Option.some.inj h
    exact hst.type hmade
  · exact ht.made h

section

variable {merge : List TypeId → Merge TypeId}
  (hmerge : ∀ {s types}, (∀ type ∈ types, s.graph.HasType type) → Yields (merge types) s HasType)

include hmerge

/-- The types and the declarations of a new property are those of properties of the graph. -/
theorem yields_property (name : String) (symbols : List SymbolId) :
    Yields (property merge name symbols) s HasSymbol := by
  refine .read fun t hst ht => ?_
  have htypes : ∀ type ∈ symbols.map t.graph.typeOf, t.graph.HasType type :=
    List.forall_mem_map.2 fun symbol _ => ht.graph.closed.inBounds.typeOf symbol
  refine (hmerge htypes).bind fun u type htu htype => ?_
  refine yields_build (Build.yields_newPropertySymbol _ _ _ htype fun declaration hmem id hid => ?_)
  obtain ⟨record, hrecord, hmem⟩ := List.mem_flatMap.1 hmem
  obtain ⟨symbol, -, hsymbol⟩ := List.mem_filterMap.1 hrecord
  exact htu.type (ht.graph.closed.symbol hsymbol (.typeAtDeclaration hmem hid))

/-- Signatures and index signatures of whichever objects are all of the graph. -/
theorem yields_objects (objs key : List TypeId) : Yields (objects merge objs key) s HasType := by
  refine (yields_build (Build.yields_newObjectType _ (by simp))).bind fun t made hst hmade => ?_
  refine (yields_note key hmade).andThen (.read fun u htu hu => ?_)
  have hproperties : Yields
      (mergeProperties merge (u.graph.groupByName (objs.flatMap u.graph.properties))) u
      fun g symbols => ∀ symbol ∈ symbols, g.HasSymbol symbol :=
    .mapM (fun hgh => hgh.symbol) fun group _ => yields_property hmerge group.1 group.2
  refine hproperties.bind fun v properties huv hsymbols => ?_
  refine (yields_build (Build.yields_setObjectMembers made (holdsAll_object.2 ?_))).andThen
    (yields_type (huv.type (htu.type hmade)))
  have hu := hu.graph.closed
  refine { ObjectType.heldIn_empty v.graph with
    properties := hsymbols, callSignatures := ?_, constructSignatures := ?_, indexInfos := ?_ }
  · intro signature hmem role handle hstores
    obtain ⟨object, -, hmem⟩ := List.mem_flatMap.1 hmem
    exact huv.holds (hu.callSignatures hmem hstores)
  · intro signature hmem role handle hstores
    obtain ⟨object, -, hmem⟩ := List.mem_flatMap.1 hmem
    exact huv.holds (hu.constructSignatures hmem hstores)
  · intro info hmem role handle hstores
    obtain ⟨object, -, hmem⟩ := List.mem_flatMap.1 hmem
    exact huv.holds (hu.indexInfos hmem hstores)

theorem yields_distribute {before after members : List TypeId}
    (hbefore : ∀ type ∈ before, s.graph.HasType type)
    (hafter : ∀ type ∈ after, s.graph.HasType type)
    (hmembers : ∀ type ∈ members, s.graph.HasType type) (key : List TypeId) :
    Yields (distribute merge before after members key) s HasType := by
  have hmerged : Yields (members.mapM fun member => merge (before ++ [member] ++ after)) s
      fun g types => ∀ type ∈ types, g.HasType type :=
    .mapM (fun hgh => hgh.type) fun member hmember => hmerge (List.forall_mem_append.2
      ⟨List.forall_mem_append.2 ⟨hbefore, List.forall_mem_singleton.2 (hmembers member hmember)⟩,
        hafter⟩)
  refine hmerged.bind fun t merged hst htypes => ?_
  refine (yields_build (Build.yields_union htypes)).bind fun u union htu hunion => ?_
  exact (yields_note key hunion).andThen (yields_type hunion)

theorem yields_combine {plain others : List TypeId}
    (hothers : ∀ type ∈ others, s.graph.HasType type) (hunknown : s.graph.HasType .unknown)
    (key : List TypeId) : Yields (combine merge plain others key) s HasType := by
  unfold combine
  split
  · exact yields_type hunknown
  · exact yields_build (Build.yields_cloneWithoutAlias (hothers _ List.mem_cons_self))
  · exact yields_build (Build.yields_intersection hothers)
  · exact yields_objects hmerge _ key
  · refine (yields_objects hmerge _ key).bind fun t made hst hmade => ?_
    exact yields_build (Build.yields_intersection (List.forall_mem_cons.2
      ⟨hmade, fun type htype => hst.type (hothers type htype)⟩))

theorem yields_intersect {constituents : List TypeId}
    (hconstituents : ∀ type ∈ constituents, s.graph.HasType type) (key : List TypeId) :
    Yields (intersect merge constituents key) s HasType := by
  refine .of_eq (intersect_eq merge constituents key) fun t hst ht => ?_
  refine yields_combine hmerge (fun type htype => ?_) ?_ key
  · exact hst.type (hconstituents type (Build.mem_distinct.1 (List.mem_filter.1 htype).1))
  · exact ht.graph.closed.inBounds.intrinsic (by decide)

theorem yields_classified {types : List TypeId} (htypes : ∀ type ∈ types, s.graph.HasType type) :
    Yields (classified merge types) s HasType := by
  intro t hst ht
  have hg := ht.graph.closed.inBounds
  have hconstituents := hg.constituents fun type htype => hst.type (htypes type htype)
  have hrefl := refl_of MergeContext.Grows t
  rcases classified_cases merge types t with
    ⟨before, union, after, hsplit, -, -, h⟩ | ⟨-, h⟩ <;> rw [h]
  · rw [hsplit, List.forall_mem_append, List.forall_mem_cons] at hconstituents
    obtain ⟨hbefore, -, hafter⟩ := hconstituents
    exact yields_distribute hmerge hbefore hafter (hg.unionMembers union) types t hrefl ht
  · exact yields_intersect hmerge hconstituents types t hrefl ht

end

/-- By induction on the levels. -/
theorem yields_mergeWithin (levels : Nat) {types : List TypeId}
    (htypes : ∀ type ∈ types, s.graph.HasType type) :
    Yields (mergeWithin levels types) s HasType := by
  induction levels generalizing s types with
  | zero =>
    refine .of_eq (mergeWithin_eq 0 types) fun t hst ht => ?_
    cases hknown : t.known? types with
    | some made => exact yields_type (ht.hasType_of_known? hknown)
    | none =>
      have htypes := fun type htype => hst.type (htypes type htype)
      rcases types with _ | ⟨single, _ | ⟨second, rest⟩⟩
      · exact yields_build (Build.yields_intersection htypes)
      · exact yields_type (htypes single List.mem_cons_self)
      · exact yields_build (Build.yields_intersection htypes)
  | succ levels ih =>
    refine .of_eq (mergeWithin_eq (levels + 1) types) fun t hst ht => ?_
    cases hknown : t.known? types with
    | some made => exact yields_type (ht.hasType_of_known? hknown)
    | none => exact yields_classified ih fun type htype => hst.type (htypes type htype)

end Merge

/-- Expanding a type of a well-formed graph gives a type of a well-formed graph. -/
theorem Build.yields_expand {g : TypeGraph} {type : TypeId} (htype : g.HasType type)
    (config : TreeConfig) : Yields (expand type config) g HasType := by
  intro h hgh hh
  let start : MergeContext := { graph := h }
  have htypes : ∀ id ∈ [type], start.graph.HasType id :=
    List.forall_mem_singleton.2 (hgh.type htype)
  obtain ⟨hwellFormed, hgrows, hmade⟩ := Merge.yields_mergeWithin config.maxDepth.toNat htypes
    start (refl_of MergeContext.Grows start) ⟨hh, fun hmade => by cases hmade⟩
  exact ⟨hwellFormed.graph, hgrows, hmade⟩

end TypeAtlas
