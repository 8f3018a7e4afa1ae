import TypeAtlas.Proofs.Merge.Meaning
import TypeAtlas.Proofs.Merge.NameByName
import TypeAtlas.Proofs.Merge.WellFormed
/-!
# What merging makes has no alias

A type that was merged has no alias, whatever names the types have that it is made of
(`Build.expand_unaliased`). New records have none (`TypeGraph.AddsNoAlias`), so it is only types
that were there before that have to be kept from being the answer: a single constituent, of which
there is a copy then, and the only type that a union or an intersection is left with. At the lowest
level such a type keeps its alias, but only if it is all that was to be merged. A union whose members
become the same type at this level would be a union of a single type, and there is none in the graph
(`TypeGraph.Branching`).
-/

namespace TypeAtlas

open TypeGraph

/-- No union of a single type, and no intersection of nothing. -/
def TypeData.Branches : TypeData → Prop
  | .union members => ∀ member ∈ members, ∃ other ∈ members, other ≠ member
  | .intersection types => types ≠ []
  | _ => True

instance : DecidablePred TypeData.Branches
  | .union members =>
    inferInstanceAs (Decidable (∀ member ∈ members, ∃ other ∈ members, other ≠ member))
  | .intersection types => inferInstanceAs (Decidable (types ≠ []))
  | .intrinsic _ | .literal _ | .object _ | .typeParameter .. | .index _ | .indexedAccess ..
  | .conditional .. | .substitution .. | .templateLiteral .. | .stringMapping _ => .isTrue trivial

namespace TypeGraph

/-- All unions are of several types or of none, and all intersections of at least one. -/
def Branching (g : TypeGraph) : Prop :=
  ∀ record ∈ g.types, record.data.Branches

instance {g : TypeGraph} : Decidable g.Branching :=
  inferInstanceAs (Decidable (∀ record ∈ g.types, record.data.Branches))

/-- The type at a handle has no alias, if no handle was given twice. -/
def Unaliased (g : TypeGraph) (id : TypeId) : Prop :=
  g.types.size ≤ UInt32.size → ∀ record, g.type? id = some record → record.aliasSymbol = none

/-- A later graph, in which no handle leads to an alias that did not lead to one before. -/
structure AddsNoAlias (g h : TypeGraph) : Prop where
  types : g.types.size ≤ h.types.size
  unaliased : ∀ {id : TypeId}, g.Unaliased id → h.Unaliased id

instance : IsPreorder TypeGraph AddsNoAlias where
  refl _ := ⟨le_rfl, id⟩
  trans _ _ _ h₁ h₂ := ⟨h₁.types.trans h₂.types, h₂.unaliased ∘ h₁.unaliased⟩

variable {g : TypeGraph}

theorem Branching.of_data? (hg : g.Branching) {id : TypeId} {data : TypeData}
    (hdata : g.data? id = some data) : data.Branches := by
  obtain ⟨record, hrecord, rfl⟩ := Option.map_eq_some_iff.1 hdata
  exact hg record (Array.mem_of_getElem? hrecord)

/-- By induction on the levels: an intersection has a constituent. -/
theorem Branching.flattenWithin_ne_nil (hg : g.Branching) (levels : Nat) (id : TypeId) :
    g.flattenWithin levels id ≠ [] := by
  induction levels generalizing id with
  | zero => exact List.cons_ne_nil id []
  | succ levels ih =>
    unfold flattenWithin
    split
    next types hdata =>
      obtain ⟨type, htype⟩ := List.exists_mem_of_ne_nil _ (hg.of_data? hdata)
      obtain ⟨constituent, hconstituent⟩ := List.exists_mem_of_ne_nil _ (ih type)
      exact List.ne_nil_of_mem (List.mem_flatMap.2 ⟨type, htype, hconstituent⟩)
    next => exact List.cons_ne_nil id []

theorem Branching.constituents_ne_nil (hg : g.Branching) {types : List TypeId} (hne : types ≠ []) :
    types.flatMap g.flatten ≠ [] := by
  obtain ⟨type, htype⟩ := List.exists_mem_of_ne_nil _ hne
  obtain ⟨constituent, hconstituent⟩ :=
    List.exists_mem_of_ne_nil _ (hg.flattenWithin_ne_nil (g.types.size + 1) type)
  exact List.ne_nil_of_mem (List.mem_flatMap.2 ⟨type, htype, hconstituent⟩)

theorem Branching.branches_unionMembers (hg : g.Branching) (id : TypeId) :
    (TypeData.union (g.unionMembers id)).Branches := by
  unfold unionMembers
  split
  next members hdata => exact hg.of_data? hdata
  next => exact List.forall_mem_nil _

end TypeGraph

/-! ## Builders -/

namespace Build

variable {α : Type} {g : TypeGraph}

/-- What a builder gives on later graphs, and that it adds no alias to them. -/
abbrev Clears (x : Build α) (g : TypeGraph) (Q : TypeGraph → α → Prop) : Prop :=
  TypeAtlas.Yields Branching AddsNoAlias x g Q

theorem clears_addType {record : TypeRecord} (hdata : record.data.Branches)
    (halias : record.aliasSymbol = none) : Clears (addType record) g Unaliased := by
  intro h hgh hh
  refine ⟨fun r hr => ?_, ⟨?_, fun {id} hid hfits r hr => ?_⟩, fun hfits r hr => ?_⟩
  · rcases Array.mem_push.1 hr with hold | rfl
    · exact hh r hold
    · exact hdata
  · rw [types_size_addType]
    exact Nat.le_succ _
  · rw [types_size_addType] at hfits
    rw [type?, addType, Array.getElem?_push] at hr
    split at hr
    · exact Option.some.inj hr ▸ halias
    · exact hid (Nat.le_of_succ_le hfits) r hr
  · rw [types_size_addType] at hfits
    rw [type?_addType record hfits] at hr
    exact Option.some.inj hr ▸ halias

theorem clears_modifyType (id : TypeId) {f : TypeRecord → TypeRecord}
    (hdata : ∀ record, record.data.Branches → (f record).data.Branches)
    (halias : ∀ record, (f record).aliasSymbol = record.aliasSymbol) :
    Clears (modifyType id f) g fun _ _ => True := by
  intro h hgh hh
  refine ⟨fun r hr => ?_, ⟨(types_size_modifyType id f h).ge, fun {other} hother hfits r hr => ?_⟩,
    trivial⟩
  · unfold modifyType at hr
    split at hr
    next record hrecord =>
      rcases Array.mem_or_eq_of_mem_setIfInBounds hr with hold | rfl
      · exact hh r hold
      · exact hdata record (hh record (Array.mem_of_getElem? hrecord))
    next => exact hh r hr
  · rw [types_size_modifyType] at hfits
    rcases eq_or_ne other id with rfl | hne
    · cases hrecord : h.type? other with
      | none =>
        rw [modifyType, hrecord] at hr
        exact hother hfits r hr
      | some record =>
        rw [type?_modifyType_self hrecord] at hr
        obtain rfl := Option.some.inj hr
        rw [halias, hother hfits record hrecord]
    · rw [type?_modifyType_of_ne hne] at hr
      exact hother hfits r hr

theorem clears_setObjectMembers (id : TypeId) (members : ObjectMembers) :
    Clears (setObjectMembers id members) g fun _ _ => True := by
  refine clears_modifyType id (fun record hrecord => ?_) fun record => ?_ <;> split
  · trivial
  · exact hrecord
  · rfl
  · rfl

theorem clears_newObjectType (flags : ObjectFlags) (symbol : Option SymbolId) :
    Clears (newObjectType flags symbol) g Unaliased :=
  clears_addType trivial rfl

theorem clears_newPropertySymbol (name : String) (flags : SymbolFlags) (checkFlags : CheckFlags)
    (type : TypeId) (declarations : List Declaration) :
    Clears (newPropertySymbol name flags checkFlags type declarations) g fun _ _ => True :=
  fun _ _ hh => ⟨hh, ⟨le_rfl, id⟩, trivial⟩

/-- What is made of several types is new, or it is the only one of them. -/
theorem clears_collapse {types : List TypeId} {record : TypeRecord}
    (hdata : (∀ single, distinct types ≠ [single]) → record.data.Branches)
    (halias : record.aliasSymbol = none) {x : Build TypeId}
    (hx : (∃ single, distinct types = [single] ∧ x = pure single) ∨
      (∀ single, distinct types ≠ [single]) ∧ x = addType record) :
    Clears x g fun h made => h.Unaliased made ∨ distinct types = [made] := by
  rcases hx with ⟨single, hsingle, rfl⟩ | ⟨hne, rfl⟩
  · exact .pure fun _ _ => Or.inr hsingle
  · intro h hgh hh
    obtain ⟨hbranching, hadds, hmade⟩ := clears_addType (hdata hne) halias h hgh hh
    exact ⟨hbranching, hadds, Or.inl hmade⟩

theorem clears_union (types : List TypeId) :
    Clears (union types) g fun h made => h.Unaliased made ∨ distinct types = [made] := by
  refine clears_collapse ?_ rfl (union_cases types)
  intro hne member hmember
  by_contra hnone
  push Not at hnone
  refine hne member (distinct_of_forall_eq ?_ fun other hother => ?_)
  · exact List.ne_nil_of_mem (mem_distinct.1 hmember)
  · exact hnone other (mem_distinct.2 hother)

theorem clears_intersection {types : List TypeId} (hne : types ≠ []) :
    Clears (intersection types) g fun h made => h.Unaliased made ∨ distinct types = [made] := by
  refine clears_collapse ?_ rfl (intersection_cases types)
  intro _
  obtain ⟨type, htype⟩ := List.exists_mem_of_ne_nil _ hne
  exact List.ne_nil_of_mem (mem_distinct.2 htype)

theorem clears_cloneWithoutAlias (id : TypeId) : Clears (cloneWithoutAlias id) g Unaliased := by
  intro h hgh hh
  cases hrecord : h.type? id with
  | none =>
    rw [cloneWithoutAlias_of_type?_eq_none hrecord]
    exact ⟨hh, refl_of AddsNoAlias h, fun _ r hr => absurd (hrecord.symm.trans hr) nofun⟩
  | some record =>
    rw [cloneWithoutAlias_eq hrecord]
    split
    next halias =>
      refine ⟨hh, refl_of AddsNoAlias h, fun _ r hr => ?_⟩
      rw [← Option.some.inj (hrecord.symm.trans hr)]
      exact Option.isNone_iff_eq_none.1 halias
    next =>
      have hdata := hh record (Array.mem_of_getElem? hrecord)
      have hnew : Clears (addType { record with aliasSymbol := none, aliasTypeArguments := [] }) h
          Unaliased := clears_addType hdata rfl
      exact hnew h (refl_of AddsNoAlias h) hh

end Build

/-! ## Merging -/

namespace MergeContext

/-- No type that was noted has an alias. -/
structure Cleared (s : MergeContext) : Prop where
  graph : s.graph.Branching
  made : ∀ {id type : TypeId}, s.made.lookup id = some type → s.graph.Unaliased type

/-- A state of merging with a later graph. -/
def AddsNoAlias (s t : MergeContext) : Prop :=
  s.graph.AddsNoAlias t.graph

instance : IsPreorder MergeContext AddsNoAlias where
  refl s := refl_of TypeGraph.AddsNoAlias s.graph
  trans _ _ _ h₁ h₂ := trans_of TypeGraph.AddsNoAlias h₁ h₂

theorem Cleared.unaliased_of_known? {s : MergeContext} (hs : s.Cleared) {key : List TypeId}
    {type : TypeId} (hknown : s.known? key = some type) : s.graph.Unaliased type := by
  obtain ⟨id, -, hmade⟩ := lookup_of_known? hknown
  exact hs.made hmade

end MergeContext

namespace Merge

/-- What a step of merging gives in later states, and that it adds no alias to them. -/
abbrev Clears {α : Type} (x : Merge α) (s : MergeContext) (Q : TypeGraph → α → Prop) : Prop :=
  TypeAtlas.Yields MergeContext.Cleared MergeContext.AddsNoAlias x s fun t => Q t.graph

variable {α : Type} {s : MergeContext} {Q : TypeGraph → α → Prop}

theorem clears_build {x : Build α} (hx : Build.Clears x s.graph Q) : Clears (build x) s Q := by
  intro t hst ht
  obtain ⟨hgraph, hadds, ha⟩ := hx t.graph hst ht.graph
  exact ⟨⟨hgraph, fun hmade => hadds.unaliased (ht.made hmade)⟩, hadds, ha⟩

theorem clears_note (key : List TypeId) {made : TypeId} (hmade : s.graph.Unaliased made) :
    Clears (note key made) s fun _ _ => True := by
  intro t hst ht
  rw [MergeContext.AddsNoAlias, graph_note]
  refine ⟨⟨graph_note key made t ▸ ht.graph, fun h => ?_⟩, refl_of TypeGraph.AddsNoAlias _, trivial⟩
  rw [graph_note]
  rw [lookup_note] at h
  split at h
  · obtain rfl := Option.some.inj h
    exact hst.unaliased hmade
  · exact ht.made h

/-- What merging several types with a number of levels left gives: a type without an alias, or at
the lowest level the only one of them. -/
def Merged (levels : Nat) (types : List TypeId) (g : TypeGraph) (made : TypeId) : Prop :=
  g.Unaliased made ∨ levels = 0 ∧ ∀ type ∈ types, type = made

theorem Merged.later {levels : Nat} {types : List TypeId} {g h : TypeGraph} {made : TypeId}
    (hgh : g.AddsNoAlias h) (hmade : Merged levels types g made) : Merged levels types h made :=
  hmade.imp_left hgh.unaliased

/-- If all members become one type with an alias, then they are this type: such a union is of a
single type. -/
theorem unaliased_of_branches {levels : Nat} {g : TypeGraph}
    {before after members merged : List TypeId} {made : TypeId}
    (hmembers : (TypeData.union members).Branches) (hsingle : Build.distinct merged = [made])
    (hmerged : List.Forall₂ (fun member => Merged levels (before ++ [member] ++ after) g) members
      merged) :
    g.Unaliased made := by
  obtain ⟨hmade, hall⟩ := eq_of_distinct_eq hsingle
  obtain ⟨hto, hfrom⟩ := mem_of_forall₂ hmerged
  by_contra haliased
  have hsame : ∀ member ∈ members, member = made := by
    intro member hmember
    obtain ⟨answer, hanswer, hcase⟩ := hto member hmember
    rw [hall answer hanswer] at hcase
    obtain ⟨-, hkey⟩ := hcase.resolve_left haliased
    exact hkey member (List.mem_append_left after (List.mem_append_right before List.mem_cons_self))
  obtain ⟨member, hmember, -⟩ := hfrom made hmade
  obtain ⟨other, hother, hne⟩ := hmembers member hmember
  exact hne ((hsame other hother).trans (hsame member hmember).symm)

section

variable {levels : Nat} {merge : List TypeId → Merge TypeId}
  (hmerge : ∀ {s types}, types ≠ [] → Clears (merge types) s (Merged levels types))

include hmerge

theorem clears_property (name : String) {symbols : List SymbolId} (hne : symbols ≠ []) :
    Clears (property merge name symbols) s fun _ _ => True :=
  .read fun _ _ _ => (hmerge (mt List.map_eq_nil_iff.1 hne)).bind fun _ _ _ _ =>
    clears_build (Build.clears_newPropertySymbol _ _ _ _ _)

theorem clears_objects (objs key : List TypeId) : Clears (objects merge objs key) s Unaliased := by
  refine (clears_build (Build.clears_newObjectType _ _)).bind fun t made hst hmade => ?_
  refine (clears_note key hmade).andThen (.read fun u htu hu => ?_)
  have hproperties : Clears
      (mergeProperties merge (u.graph.groupByName (objs.flatMap u.graph.properties))) u
      fun _ symbols => ∀ symbol ∈ symbols, True :=
    .mapM (fun _ h => h) fun group hgroup =>
      clears_property hmerge group.1 (isGroup_groupByName _ group hgroup).1
  refine hproperties.bind fun v properties huv _ => ?_
  refine (clears_build (Build.clears_setObjectMembers made _)).andThen (.pure fun w hvw => ?_)
  have htw := trans_of TypeGraph.AddsNoAlias htu (trans_of TypeGraph.AddsNoAlias huv hvw)
  exact htw.unaliased hmade

theorem clears_distribute {before after members : List TypeId}
    (hmembers : (TypeData.union members).Branches) (key : List TypeId) :
    Clears (distribute merge before after members key) s Unaliased := by
  have hmerged : Clears (members.mapM fun member => merge (before ++ [member] ++ after)) s
      fun g => List.Forall₂ (fun member => Merged levels (before ++ [member] ++ after) g) members :=
    .mapM_forall₂ (R := fun (t : MergeContext) member =>
        Merged levels (before ++ [member] ++ after) t.graph)
      (fun hst => Merged.later hst) fun member _ => hmerge (by simp)
  refine hmerged.bind fun t merged hst hforall => ?_
  refine (clears_build (Build.clears_union merged)).bind fun u union htu hunion => ?_
  have hunaliased : u.graph.Unaliased union := hunion.elim id fun hsingle =>
    htu.unaliased (unaliased_of_branches hmembers hsingle hforall)
  exact (clears_note key hunaliased).andThen (.pure fun v huv => huv.unaliased hunaliased)

/-- If the new object is the only type in an intersection, it is the answer. -/
theorem clears_combine {plain others : List TypeId} (hne : plain ++ others ≠ [])
    (hnodup : others.Nodup) (key : List TypeId) :
    Clears (combine merge plain others key) s Unaliased := by
  unfold combine
  split
  · exact absurd rfl hne
  · exact clears_build (Build.clears_cloneWithoutAlias _)
  next hseveral =>
    refine (clears_build (Build.clears_intersection hne)).imp fun t made _ hmade => ?_
    exact hmade.resolve_right fun hsingle =>
      hseveral made ((Build.distinct_of_nodup hnodup).symm.trans hsingle)
  · exact clears_objects hmerge _ key
  · refine (clears_objects hmerge _ key).bind fun t made _ hmade => ?_
    refine (clears_build (Build.clears_intersection (List.cons_ne_nil made others))).imp
      fun u intersection htu hcase => hcase.elim id fun hsingle => ?_
    rw [← (eq_of_distinct_eq hsingle).2 made List.mem_cons_self]
    exact htu.unaliased hmade

theorem clears_intersect {constituents : List TypeId} (hne : constituents ≠ [])
    (key : List TypeId) :
    Clears (intersect merge constituents key) s Unaliased := by
  refine .of_eq (intersect_eq merge constituents key) fun t _ _ => clears_combine hmerge ?_ ?_ key
  · obtain ⟨type, htype⟩ := List.exists_mem_of_ne_nil _ hne
    refine List.ne_nil_of_mem (a := type) (List.mem_append.2 ?_)
    have hdistinct := Build.mem_distinct.2 htype
    cases hplain : t.graph.isPlainObject type with
    | true => exact Or.inl (List.mem_filter.2 ⟨hdistinct, hplain⟩)
    | false => exact Or.inr (List.mem_filter.2 ⟨hdistinct, by rw [hplain]; rfl⟩)
  · exact (Build.nodup_distinct constituents).filter _

theorem clears_classified {types : List TypeId} (hne : types ≠ []) :
    Clears (classified merge types) s Unaliased := by
  intro t hst ht
  have hrefl := refl_of MergeContext.AddsNoAlias t
  rcases classified_cases merge types t with
    ⟨before, union, after, -, -, -, h⟩ | ⟨-, h⟩ <;> rw [h]
  · exact clears_distribute hmerge (ht.graph.branches_unionMembers union) types t hrefl ht
  · exact clears_intersect hmerge (ht.graph.constituents_ne_nil hne) types t hrefl ht

end

/-- By induction on the levels. -/
theorem clears_mergeWithin (levels : Nat) {types : List TypeId} (hne : types ≠ []) :
    Clears (mergeWithin levels types) s (Merged levels types) := by
  induction levels generalizing s types with
  | zero =>
    refine .of_eq (mergeWithin_eq 0 types) fun t _ ht => ?_
    cases hknown : t.known? types with
    | some made => exact .pure fun u htu => Or.inl (htu.unaliased (ht.unaliased_of_known? hknown))
    | none =>
      rcases types with _ | ⟨single, _ | ⟨second, rest⟩⟩
      · exact absurd rfl hne
      · exact .pure fun _ _ => Or.inr ⟨rfl, List.forall_mem_singleton.2 rfl⟩
      · exact (clears_build (Build.clears_intersection hne)).imp fun u made _ hmade =>
          hmade.imp_right fun hsingle => ⟨rfl, (eq_of_distinct_eq hsingle).2⟩
  | succ levels ih =>
    refine .of_eq (mergeWithin_eq (levels + 1) types) fun t _ ht => ?_
    cases hknown : t.known? types with
    | some made => exact .pure fun u htu => Or.inl (htu.unaliased (ht.unaliased_of_known? hknown))
    | none => exact (clears_classified ih hne).imp fun u made _ hmade => Or.inl hmade

end Merge

namespace Build

/-- The type that expanding gives has no alias, if there is at least one level and no union is of a
single type and no intersection of none. In a well-formed graph there is a record of it. -/
theorem expand_unaliased {g : TypeGraph} (hg : g.Branching) {type : TypeId} (htype : g.HasType type)
    {config : TreeConfig} (hdepth : 0 < config.maxDepth)
    (hfits : (expand type config g).2.types.size ≤ UInt32.size) :
    (∀ record, (expand type config g).2.type? (expand type config g).1 = some record →
      record.aliasSymbol = none) ∧
      (g.WellFormed → (expand type config g).2.HasType (expand type config g).1) := by
  constructor
  · let start : MergeContext := { graph := g }
    have hmade := Merge.clears_mergeWithin config.maxDepth.toNat (List.cons_ne_nil type []) start
      (refl_of MergeContext.AddsNoAlias start) ⟨hg, fun hmade => by cases hmade⟩
    refine hmade.2.2.elim (fun hunaliased => hunaliased hfits) fun hzero => ?_
    exact absurd hzero.1 (UInt32.lt_iff_toNat_lt.1 hdepth).ne'
  · exact fun hwellFormed => (yields_expand htype config g (refl_of Grows g) hwellFormed).2.2

/-- A union of two objects and one of the objects, all three with aliases, in a graph of its own. -/
def aliasedTypes : TypeId × TypeGraph :=
  (do
    let first ← typeAlias "A" (← object []) []
    let second ← typeAlias "B" (← object []) []
    let either ← typeAlias "Either" (← union [first, second]) []
    typeAlias "Both" (← intersection [either, first]) []) .initial

/-- At the lowest level there is one of the objects with its alias, but not as the answer. -/
theorem expand_aliasedTypes_unaliased :
    let g := aliasedTypes.2
    let made := (expand aliasedTypes.1 { maxDepth := 1 } g).1
    let h := (expand aliasedTypes.1 { maxDepth := 1 } g).2
    (g.Branching ∧ g.WellFormed ∧ h.types.size ≤ UInt32.size) ∧
      (g.typeText aliasedTypes.1 = "Both" ∧ h.typeText made = "A | (B & A)") ∧
      (∀ record, h.type? made = some record → record.aliasSymbol = none) ∧ h.HasType made :=
  have hg : aliasedTypes.2.Branching := by decide +kernel
  have hwellFormed : aliasedTypes.2.WellFormed := by decide +kernel
  have htype : aliasedTypes.2.HasType aliasedTypes.1 := by decide +kernel
  have hfits : (expand aliasedTypes.1 { maxDepth := 1 } aliasedTypes.2).2.types.size ≤
      UInt32.size := by decide +kernel
  have hmade := expand_unaliased hg htype (by decide) hfits
  ⟨⟨hg, hwellFormed, hfits⟩, by decide +kernel, hmade.1, hmade.2 hwellFormed⟩

end Build

end TypeAtlas
