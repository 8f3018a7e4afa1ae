import TypeAtlas.Proofs.Graph.WellFormed
import TypeAtlas.Proofs.Merge.Expansion
import TypeAtlas.Proofs.Merge.Synthesis
/-!
# Objects merged name by name

An intersection of objects becomes one object (`TypeGraph.MergedObject`). It has a property for each
name that one of them has a property of, in the order in which the names first occur, and what it is
made of the properties of its name is said by `TypeGraph.MergedProperty`. The other members are
those of all objects, one after the other. If a type is the type of all properties of a name, and
merging would not change it, then it is the type of the merged property: such a type is never noted,
and a list of its copies becomes the type itself at each level (`Merge.mergeWithin_kept`).

Whether a type is a union is asked before whether it is an object, by its flags alone. An object
with the flags of both is distributed like a union without members
(`Build.mergedFlagged_not_mergedObject`).
-/

namespace TypeAtlas

open TypeGraph

namespace TypeGraph

/-- A type that merging does not change: it has no alias, and it is neither an intersection nor a
plain object nor a distributable union. -/
structure Kept (g : TypeGraph) (id : TypeId) : Prop where
  noAlias : ∀ record, g.type? id = some record → record.aliasSymbol = none
  notIntersection : ∀ types, g.data? id ≠ some (.intersection types)
  notPlain : g.isPlainObject id = false
  notUnion : g.isDistributableUnion id = false

/-- A property made of several symbols. It is optional if all of them are and read-only if one of
them is, it has their declarations in order, and if they all have the same type, which merging does
not change, it has this type. -/
structure MergedProperty (g : TypeGraph) (sources : List SymbolId) (record : SymbolRecord) :
    Prop where
  optional : record.flags.has SymbolFlags.optional = true ↔
    ∀ source ∈ sources.filterMap g.symbol?, source.flags.has SymbolFlags.optional = true
  readonly : record.checkFlags.has CheckFlags.readonly = true ↔
    ∃ source ∈ sources.filterMap g.symbol?, source.checkFlags.has CheckFlags.readonly = true
  declarations : record.declarations = (sources.filterMap g.symbol?).flatMap (·.declarations)
  valueType : ∀ type, g.Kept type → (∀ source ∈ sources, g.typeOf source = type) →
    record.valueType = some type

/-- A new object, without a symbol and an alias, made of several objects. -/
structure MergedObject (g h : TypeGraph) (objs : List TypeId) (made : TypeId) : Prop where
  new : ¬g.HasType made
  record : h.type? made = some (mergedRecord
    { properties := h.properties made
      constructSignatures := objs.flatMap g.constructSignatures
      indexInfos := objs.flatMap g.indexInfos })
  names : (h.properties made).map h.symbolName? =
    (g.firstNames (objs.flatMap g.properties)).map some
  property : ∀ symbol ∈ h.properties made, ∃ record, h.symbol? symbol = some record ∧
    g.MergedProperty (g.named (objs.flatMap g.properties) record.name) record

theorem Kept.flatten_eq {g : TypeGraph} {id : TypeId} (h : g.Kept id) : g.flatten id = [id] :=
  flatten_of_not_intersection h.notIntersection

theorem Kept.not_noted {g : TypeGraph} {id : TypeId} (h : g.Kept id) : ¬g.Noted id := by
  rintro ⟨type, htype, hnoted⟩
  rw [h.flatten_eq, List.mem_singleton] at htype
  rw [htype, h.notUnion, h.notPlain] at hnoted
  simp at hnoted

end TypeGraph

/-- Copies of one type are one type. -/
theorem Build.distinct_of_forall_eq {types : List TypeId} {type : TypeId} (hne : types ≠ [])
    (h : ∀ other ∈ types, other = type) : distinct types = [type] := by
  obtain ⟨first, types, rfl⟩ := List.exists_cons_of_ne_nil hne
  rw [List.forall_mem_cons] at h
  obtain ⟨rfl, h⟩ := h
  rw [distinct, List.foldl_cons]
  refine List.foldlRecOn (motive := (· = [first])) types _ rfl fun found hfound other hother => ?_
  rw [hfound, h other hother]
  exact if_pos (List.contains_iff_mem.2 (List.mem_singleton_self first))

namespace Merge

section

variable {g : TypeGraph} (hg : g.InBounds) {s : MergeContext} (hs : s.From g)

include hg hs

/-- Merging copies of a type that it does not change gives the type, at each level. -/
theorem mergeWithin_kept (levels : Nat) {type : TypeId} (hkept : g.Kept type) (hid : g.HasType type)
    {types : List TypeId} (hne : types ≠ []) (hall : ∀ other ∈ types, other = type) :
    mergeWithin levels types s = (type, s) := by
  have hdata : ∀ members, s.graph.data? type ≠ some (.intersection members) := by
    rw [hs.graph.data?_eq hid]
    exact hkept.notIntersection
  have hunion : ∀ other ∈ types, s.graph.isDistributableUnion other = false := by
    intro other hother
    rw [hall other hother, hs.graph.isDistributableUnion_eq hid, hkept.notUnion]
  have hdistinct := Build.distinct_of_forall_eq hne hall
  have hflat : types.flatMap s.graph.flatten = types := by
    have hsole : ∀ other ∈ types, s.graph.flatten other = [other] := fun other hother =>
      flatten_of_not_intersection (hall other hother ▸ hdata)
    rw [List.flatMap_congr hsole, List.flatMap_singleton']
  have hplain : ∀ other ∈ types, s.graph.isPlainObject other = false := by
    intro other hother
    rw [hall other hother, hs.graph.isPlainObject_eq hg hid, hkept.notPlain]
  have hnone : s.known? types = none := Option.eq_none_iff_forall_ne_some.2 fun made hmade => by
    obtain ⟨other, rfl, hlookup⟩ := MergeContext.lookup_of_known? hmade
    exact hkept.not_noted (hall other List.mem_cons_self ▸ hs.noted hlookup)
  rcases mergeWithin_cases levels types s with
    ⟨made, hknown, -⟩ | ⟨-, -, single, rfl, h⟩ | ⟨-, -, -, h⟩ | ⟨-, below, -, h⟩
  · rw [hnone] at hknown
    cases hknown
  · rw [h, hall single List.mem_cons_self]
  · rw [h]
    rcases Build.intersection_cases types with ⟨single, hsingle, hbuild⟩ | ⟨hnot, -⟩
    · obtain rfl := List.singleton_inj.1 (hdistinct.symm.trans hsingle)
      rw [hbuild]
      rfl
    · exact absurd hdistinct (hnot type)
  · rw [h, classified_of_no_union _ (hflat.symm ▸ hunion), hflat, intersect_eq]
    obtain ⟨record, hrecord⟩ := hid.type?
    have hclone := Build.cloneWithoutAlias_eq ((hs.graph.type?_eq hid).trans hrecord)
    rw [hkept.noAlias record hrecord] at hclone
    obtain ⟨hplainOf, hothersOf⟩ := plainOf_of_no_objects hplain
    rw [hplainOf, hothersOf, hdistinct]
    change build (Build.cloneWithoutAlias type) s = _
    unfold build
    rw [hclone]
    rfl

/-- The property that is made of the properties of one name. -/
theorem mergedProperty_property (levels : Nat) {group : String × List SymbolId}
    (hgroup : g.IsGroup group) (hsymbols : ∀ symbol ∈ group.2, g.HasSymbol symbol) :
    g.MergedProperty group.2 (mergedProperty group.1 (group.2.filterMap s.graph.symbol?)
      (mergeWithin levels (group.2.map s.graph.typeOf) s).1) := by
  have hrecords : group.2.filterMap s.graph.symbol? = group.2.filterMap g.symbol? :=
    List.filterMap_congr fun symbol hsymbol => hs.graph.symbol?_eq (hsymbols symbol hsymbol)
  rw [hrecords]
  refine ⟨?_, ?_, rfl, fun type hkept htypes => ?_⟩
  · rw [← List.all_eq_true, mergedProperty]
    dsimp only
    cases (group.2.filterMap g.symbol?).all (·.flags.has SymbolFlags.optional) <;> decide
  · rw [← List.any_eq_true, mergedProperty]
    dsimp only
    cases (group.2.filterMap g.symbol?).any (·.checkFlags.has CheckFlags.readonly) <;> decide
  · obtain ⟨first, hfirst⟩ := List.exists_mem_of_ne_nil _ hgroup.1
    have hcopies : ∀ other ∈ group.2.map s.graph.typeOf, other = type := by
      refine List.forall_mem_map.2 fun symbol hsymbol => ?_
      rw [hs.graph.typeOf_eq (hsymbols symbol hsymbol), htypes symbol hsymbol]
    rw [mergedProperty, mergeWithin_kept hg hs levels hkept (htypes first hfirst ▸ hg.typeOf first)
      (mt List.map_eq_nil_iff.1 hgroup.1) hcopies]

end

section

variable {g : TypeGraph} (hg : g.InBounds) (hacyclic : g.AcyclicIntersections)

include hg hacyclic

/-- By induction on the groups: each of the properties is made of one of them, and a later graph
has the same record for it. -/
theorem group_of_mem_mergeProperties {levels : Nat} {k : TypeGraph} (hfits : k.Fits) :
    ∀ {groups : List (String × List SymbolId)} {s : MergeContext}, s.From g →
      (∀ group ∈ groups, g.IsGroup group ∧ ∀ symbol ∈ group.2, g.HasSymbol symbol) →
      (mergeProperties (mergeWithin levels) groups s).2.graph.Extends k →
        ∀ symbol ∈ (mergeProperties (mergeWithin levels) groups s).1, ∃ group ∈ groups,
          ∃ record, k.symbol? symbol = some record ∧ record.name = group.1 ∧
            g.MergedProperty group.2 record
  | [], _, _, _, _ => List.forall_mem_nil _
  | group :: groups, s, hs, hgroups, hk => by
    rw [List.forall_mem_cons] at hgroups
    obtain ⟨⟨hgroup, hsymbols⟩, hrest⟩ := hgroups
    rw [mergeProperties_cons] at hk ⊢
    dsimp only at hk ⊢
    have hextends := (grows_mergeProperties (grows_mergeWithin levels) groups).extends_of_extends hk
      hfits.types
    refine List.forall_mem_cons.2 ⟨⟨group, List.mem_cons_self, _, ?_, rfl,
      mergedProperty_property hg hs levels hgroup hsymbols⟩, ?_⟩
    · have hrecord := symbol?_property (mergeWithin levels) group.1 group.2 s
        (hextends.symbols_size.trans hfits.symbols)
      exact (hextends.symbol?_eq (hasSymbol_of_symbol? hrecord)).trans hrecord
    · have hfirst := (sound_property hg (fun types => sound_mergeWithin hg hacyclic levels)
        (grows_mergeWithin levels) group.1 hsymbols).sound hs
          (hextends.types_size.trans hfits.types)
      intro symbol hsymbol
      obtain ⟨other, hother, h⟩ := group_of_mem_mergeProperties hfits hfirst.1 hrest hk symbol hsymbol
      exact ⟨other, List.mem_cons_of_mem _ hother, h⟩

end

/-- Merging the properties of several objects of a graph, after an object was added for them. -/
def objectRun (g : TypeGraph) (levels : Nat) (objs key : List TypeId) (s : MergeContext) :
    List SymbolId × MergeContext :=
  mergeProperties (mergeWithin levels) (g.groupByName (objs.flatMap g.properties)) (s.opened key)

section

variable {g : TypeGraph} (hg : g.InBounds) {levels : Nat} {s : MergeContext} (hs : s.From g)
  {objs key : List TypeId} (hobjs : ∀ type ∈ objs, g.HasType type ∧ g.callSignatures type = [])

include hg hs hobjs

theorem objects_eq_objectRun :
    objects (mergeWithin levels) objs key s =
      let run := objectRun g levels objs key s
      (s.nextType, { run.2 with graph := (Build.setObjectMembers s.nextType
        (g.mergedMembers objs run.1) run.2.graph).2 }) :=
  objects_of_extends hg hs.graph (fun type htype => (hobjs type htype).1) _ key

theorem symbol?_objects (symbol : SymbolId) :
    (objects (mergeWithin levels) objs key s).2.graph.symbol? symbol =
      (objectRun g levels objs key s).2.graph.symbol? symbol := by
  rw [objects_eq_objectRun hg hs hobjs]
  exact symbol?_modifyType _ _ _ symbol

variable (hfits : (objects (mergeWithin levels) objs key s).2.graph.Fits)

include hfits

theorem fits_objectRun : (objectRun g levels objs key s).2.graph.Fits := by
  rw [objects_eq_objectRun hg hs hobjs] at hfits
  exact fits_modifyType.1 hfits

/-- There is a property for each name. -/
theorem names_objectRun :
    (objectRun g levels objs key s).1.map
        (objects (mergeWithin levels) objs key s).2.graph.symbolName? =
      (g.firstNames (objs.flatMap g.properties)).map some := by
  have hrun := fits_objectRun hg hs hobjs hfits
  have hnames := names_mergeProperties (grows_mergeWithin levels) hrun.types hrun.symbols
    (g.groupByName (objs.flatMap g.properties)) (s.opened key) (.refl _)
  have hmap : (g.groupByName (objs.flatMap g.properties)).map (fun group => some group.1) =
      (g.firstNames (objs.flatMap g.properties)).map some := by
    rw [groupByName_eq_map, List.map_map]
    rfl
  rw [← hmap, ← hnames]
  exact List.map_congr_left fun symbol _ => congrArg _ (symbol?_objects hg hs hobjs symbol)

theorem type?_objectRun :
    (objects (mergeWithin levels) objs key s).2.graph.type? s.nextType = some (mergedRecord
      { properties := (objectRun g levels objs key s).1
        constructSignatures := objs.flatMap g.constructSignatures
        indexInfos := objs.flatMap g.indexInfos }) := by
  have hcalls : objs.flatMap g.callSignatures = [] :=
    List.flatMap_eq_nil_iff.2 fun type htype => (hobjs type htype).2
  rw [type?_objects (grows_mergeWithin levels) hg hs.graph (fun type h => (hobjs type h).1) key
    hfits.types, mergedMembers, hcalls]
  rfl

theorem properties_objectRun :
    (objects (mergeWithin levels) objs key s).2.graph.properties s.nextType =
      (objectRun g levels objs key s).1 := by
  refine properties_of_merged (type?_objectRun hg hs hobjs hfits) ?_
  dsimp only
  rw [DistinctNames, ← List.pairwise_map, names_objectRun hg hs hobjs hfits]
  exact (nodup_firstNames _).map (Option.some_injective _)

/-- Several objects are merged name by name. -/
theorem mergedObject_objects (hacyclic : g.AcyclicIntersections) (hopened : (s.opened key).From g) :
    MergedObject g (objects (mergeWithin levels) objs key s).2.graph objs
      (objects (mergeWithin levels) objs key s).1 := by
  rw [congrArg Prod.fst (objects_eq (mergeWithin levels) objs key s)]
  have hproperties := properties_objectRun hg hs hobjs hfits
  have hlt := (types_size_lt_objects (grows_mergeWithin levels) objs key s).trans_le hfits.types
  refine ⟨fun hold => ?_, ?_, ?_, ?_⟩
  · rw [HasType, MergeContext.nextType, TypeId.index_ofIndex hlt] at hold
    exact hold.not_ge hs.graph.types_size
  · rw [hproperties]
    exact type?_objectRun hg hs hobjs hfits
  · rw [hproperties]
    exact names_objectRun hg hs hobjs hfits
  · rw [hproperties]
    intro symbol hsymbol
    obtain ⟨group, hgroup, record, hrecord, hname, hmerged⟩ :=
      group_of_mem_mergeProperties hg hacyclic (fits_objectRun hg hs hobjs hfits) hopened
        (fun group hgroup => ⟨isGroup_groupByName _ group hgroup,
          forall_mem_groupByName (hg.flatMap_properties objs) group hgroup⟩) (.refl _) symbol hsymbol
    rw [groupByName_eq_map] at hgroup
    obtain ⟨name, -, rfl⟩ := List.mem_map.1 hgroup
    exact ⟨record, (symbol?_objects hg hs hobjs symbol).trans hrecord, hname ▸ hmerged⟩

end

end Merge

namespace Build

theorem expand_eq (type : TypeId) (config : TreeConfig) (g : TypeGraph) :
    expand type config g =
      let run := Merge.mergeWithin config.maxDepth.toNat [type] { graph := g }
      (run.1, run.2.graph) :=
  rfl

/-- Expanding an intersection of plain objects, none of which has the flags of a union, merges the
objects name by name. -/
theorem expand_mergedObject {g : TypeGraph} (hg : g.InBounds) (hacyclic : g.AcyclicIntersections)
    {type : TypeId} (hne : g.flatten type ≠ [])
    (hplain : ∀ id ∈ g.flatten type, g.isPlainObject id = true)
    (hno : ∀ id ∈ g.flatten type, g.isDistributableUnion id = false) {config : TreeConfig}
    (hlevels : 1 ≤ config.maxDepth.toNat) (hfits : (expand type config g).2.Fits) :
    MergedObject g (expand type config g).2 (distinct (g.flatten type))
      (expand type config g).1 := by
  obtain ⟨levels, hlevels⟩ := Nat.exists_eq_add_of_le' hlevels
  have hrun : Merge.mergeWithin (levels + 1) [type] { graph := g } =
      Merge.objects (Merge.mergeWithin levels) (distinct (g.flatten type)) [type]
        { graph := g } :=
    Merge.mergeWithin_of_objects rfl rfl hne hplain hno
  have hobjs : ∀ id ∈ distinct (g.flatten type), g.HasType id ∧ g.callSignatures id = [] := by
    intro id hid
    have hobject := hplain id (mem_distinct.1 hid)
    exact ⟨hasType_of_isPlainObject hobject, callSignatures_of_isPlainObject hobject⟩
  have hnoted : g.Noted type := (noted_iff_of_no_union hno).2 fun hnil => by
    obtain ⟨id, hid⟩ := List.exists_mem_of_ne_nil _ hne
    exact List.ne_nil_of_mem (mem_plainOf.2 ⟨hid, hplain id hid⟩) hnil
  have hstart : MergeContext.From g { graph := g } := ⟨.refl g, fun h => by cases h⟩
  have hopened := Merge.from_opened hstart rfl fun _ => Merge.noted_of_sole hnoted
  rw [expand_eq, hlevels, hrun] at hfits ⊢
  dsimp only at hfits ⊢
  exact Merge.mergedObject_objects hg hstart hobjs hfits hacyclic hopened.1

/-- An intersection with another one in it, in which the first object occurs once more. Both
objects have a property that is optional in both. -/
def overlap : Build TypeId := do
  let first ← object [← property "a" .string, ← optionalProperty "b" .number]
  let second ← object [← optionalProperty "b" .number, ← readonlyProperty "a" .boolean]
  intersection [first, ← intersection [second, first]]

/-- The intersection in a graph of its own. -/
def overlapGraph : TypeId × TypeGraph :=
  overlap .initial

/-- Merging the two objects that overlap. -/
theorem expand_overlap_mergedObject :
    let g := overlapGraph.2
    let type := overlapGraph.1
    let h := (expand type {} g).2
    g.InBounds ∧ g.AcyclicIntersections ∧ (distinct (g.flatten type)).length = 2 ∧ h.Fits ∧
      MergedObject g h (distinct (g.flatten type)) (expand type {} g).1 ∧
      h.typeText (expand type {} g).1 = "{ readonly a: string & boolean; b?: number; }" :=
  have hg : overlapGraph.2.InBounds := (inBounds_iff_validate _).2 (by decide +kernel)
  have hacyclic := acyclicIntersections_of_bottomUp (g := overlapGraph.2) (by decide +kernel)
  have hfits : (expand overlapGraph.1 {} overlapGraph.2).2.Fits := by decide +kernel
  ⟨hg, hacyclic, by decide +kernel, hfits,
    expand_mergedObject hg hacyclic (by decide +kernel) (by decide +kernel) (by decide +kernel)
      (by decide) hfits, by decide +kernel⟩

/-- An object type that has the flag of a union as well. -/
def flagged : Build TypeId :=
  addType { flags := TypeFlags.object ||| TypeFlags.union, data := .object {} }

/-- The object type in a graph of its own. -/
def flaggedGraph : TypeId × TypeGraph :=
  flagged .initial

/-- The object type is a plain object, but it is not merged as one: it becomes a union without
members. -/
theorem mergedFlagged_not_mergedObject :
    let g := flaggedGraph.2
    let type := flaggedGraph.1
    let h := (expand type {} g).2
    g.InBounds ∧ g.AcyclicIntersections ∧ g.flatten type ≠ [] ∧
      (∀ id ∈ g.flatten type, g.isPlainObject id = true) ∧ h.Fits ∧
      ¬MergedObject g h (distinct (g.flatten type)) (expand type {} g).1 ∧
      h.data? (expand type {} g).1 = some (.union []) := by
  have hdata : (expand flaggedGraph.1 {} flaggedGraph.2).2.data?
      (expand flaggedGraph.1 {} flaggedGraph.2).1 = some (.union []) := by decide +kernel
  refine ⟨(inBounds_iff_validate _).2 (by decide +kernel),
    acyclicIntersections_of_bottomUp (by decide +kernel), by decide +kernel, by decide +kernel,
    by decide +kernel, fun hmerged => ?_, hdata⟩
  rw [data?, hmerged.record] at hdata
  cases hdata

end Build

end TypeAtlas
