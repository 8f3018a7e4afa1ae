import TypeAtlas.Proofs.Merge.Outcome
import TypeAtlas.Proofs.Merge.Parallel
/-!
# The steps of merging in parallel

Each step of merging is mirrored by the same step from a parallel state, as all that it asks about
are types of the graph that both states extend: their constituents, their members, and the records
of their properties. By induction on the levels so is the whole of merging
(`Merge.mirrored_mergeWithin`). What is made has the same text in both runs
(`Build.expandToText_eq`).
-/

namespace TypeAtlas

open Handle (Role)
open TypeGraph
open MergeContext (Parallel)

namespace Merge

variable {g h : TypeGraph} (hgh : g.Extends h) {s t : MergeContext} (hst : Parallel g h s t)

/-! ## Single types -/

section

include hgh hst

theorem mirrored_union {types : List TypeId} (htypes : ∀ type ∈ types, s.graph.HasType type) :
    MirroredType g h s t (build (Build.union types))
      (build (Build.union (types.map (g.shift h).type))) := by
  refine mirrored_collapse hgh hst
    (fun types => { flags := TypeFlags.union, data := .union types }) Build.union_cases
    (fun _ => rfl) (fun hrecord => ?_) htypes
  cases hrecord with
  | data hdata => cases hdata with | union hmem => exact ⟨_, hmem, rfl⟩
  | _ => simp_all

theorem mirrored_intersection {types : List TypeId}
    (htypes : ∀ type ∈ types, s.graph.HasType type) :
    MirroredType g h s t (build (Build.intersection types))
      (build (Build.intersection (types.map (g.shift h).type))) := by
  refine mirrored_collapse hgh hst intersectionRecord Build.intersection_cases (fun _ => rfl)
    (fun hrecord => ?_) htypes
  cases hrecord with
  | data hdata => cases hdata with | intersection hmem => exact ⟨_, hmem, rfl⟩
  | _ => simp_all [intersectionRecord]

/-- An intersection of types of the graph that both states extend. -/
theorem mirrored_intersection_old {types : List TypeId} (htypes : ∀ type ∈ types, g.HasType type) :
    MirroredType g h s t (build (Build.intersection types)) (build (Build.intersection types)) := by
  have hrun := mirrored_intersection hgh hst fun type htype =>
    hst.graph.hasType (htypes type htype)
  rwa [map_shift_type htypes] at hrun

theorem mirrored_cloneWithoutAlias (hg : g.Closed) {id : TypeId} (hid : g.HasType id) :
    MirroredType g h s t (build (Build.cloneWithoutAlias id))
      (build (Build.cloneWithoutAlias id)) := by
  obtain ⟨record, hrecord⟩ := hid.type?
  have hs := Build.cloneWithoutAlias_eq ((hst.graph.type?_eq hid).trans hrecord)
  have ht := Build.cloneWithoutAlias_eq ((hst.graph'.type?_eq hid).trans hrecord)
  have hold : ∀ {role : Role} {handle : Handle},
      TypeRecord.Stores { record with aliasSymbol := none, aliasTypeArguments := [] } role handle →
        g.Holds handle := by
    intro role handle hstores
    cases hstores with
    | symbol hsymbol => exact hg.type hrecord (.symbol hsymbol)
    | aliasSymbol halias => cases halias
    | aliasTypeArgument hargument => cases hargument
    | data hdata => exact hg.type hrecord (.data hdata)
  have hadd := mirrored_addType hgh hst _ fun hstores => hst.graph.holds (hold hstores)
  rw [TypeRecord.rename_eq_self fun hstores => shift_fixes (hold hstores)] at hadd
  unfold MirroredType Mirrored build at hadd ⊢
  rw [hs, ht]
  by_cases halias : record.aliasSymbol.isNone
  · rw [if_pos halias, if_pos halias]
    exact mirrored_pure_old hst hid
  · rw [if_neg halias, if_neg halias]
    exact hadd

end

/-! ## Properties -/

/-- The property made of the properties of one name, which are of a given graph. -/
def propertyOf (g : TypeGraph) (merge : List TypeId → Merge TypeId) (name : String)
    (symbols : List SymbolId) : Merge SymbolId := do
  let records := symbols.filterMap g.symbol?
  let optional := records.all (·.flags.has SymbolFlags.optional)
  let readonly := records.any (·.checkFlags.has CheckFlags.readonly)
  let type ← merge (symbols.map g.typeOf)
  build (Build.newPropertySymbol name (if optional then SymbolFlags.optional else Flags.empty)
    (if readonly then CheckFlags.syntheticProperty ||| CheckFlags.readonly
      else CheckFlags.syntheticProperty)
    type (records.flatMap (·.declarations)))

theorem property_eq_propertyOf (merge : List TypeId → Merge TypeId) (name : String)
    (symbols : List SymbolId) (s : MergeContext) :
    property merge name symbols s = propertyOf s.graph merge name symbols s :=
  rfl

theorem propertyOf_eq {k : TypeGraph} (hgk : g.Extends k) (merge : List TypeId → Merge TypeId)
    (name : String) {symbols : List SymbolId} (hsymbols : ∀ symbol ∈ symbols, g.HasSymbol symbol) :
    propertyOf k merge name symbols = propertyOf g merge name symbols := by
  have hrecords : symbols.filterMap k.symbol? = symbols.filterMap g.symbol? :=
    List.filterMap_congr fun symbol hmem => hgk.symbol?_eq (hsymbols symbol hmem)
  have htypes : symbols.map k.typeOf = symbols.map g.typeOf :=
    List.map_congr_left fun symbol hmem => hgk.typeOf_eq (hsymbols symbol hmem)
  unfold propertyOf
  rw [hrecords, htypes]

section

include hgh hst

theorem mirrored_newPropertySymbol (name : String) (flags : SymbolFlags) (checkFlags : CheckFlags)
    {type : TypeId} (htype : s.graph.HasType type) {declarations : List Declaration}
    (hdeclarations : ∀ declaration ∈ declarations, ∀ id,
      declaration.typeAtLocation = some id → g.HasType id) :
    MirroredSymbol g h s t
      (build (Build.newPropertySymbol name flags checkFlags type declarations))
      (build (Build.newPropertySymbol name flags checkFlags ((g.shift h).type type)
        declarations)) := by
  have hsame : declarations.map (Declaration.rename (g.shift h)) = declarations :=
    map_eq_self fun declaration hmem => Declaration.rename_eq_self fun id hid =>
      shift_type_of_hasType (hdeclarations declaration hmem id hid)
  have hadd := mirrored_addSymbol hgh hst
    { name
      flags := flags ||| (SymbolFlags.property ||| SymbolFlags.transient)
      checkFlags
      declarations
      valueDeclaration := if declarations.isEmpty then none else some 0
      valueType := some type } fun {role handle} hstores => ?_
  · rw [SymbolRecord.rename] at hadd
    dsimp only at hadd
    rw [hsame] at hadd
    exact hadd
  · cases hstores with
    | typeAtDeclaration hmem hid =>
      exact hst.graph.hasType (hdeclarations _ hmem _ hid)
    | valueType hvalue =>
      cases hvalue
      exact htype
    | parent hparent => cases hparent
    | declaredType hdeclared => cases hdeclared
    | typeParameter hparameter => cases hparameter

end

/-! ## Objects -/

/-- The members of an object made of old objects are its own properties, and old types and symbols.
-/
theorem stores_mergedMembers (hg : g.Closed) {objs : List TypeId} {properties : List SymbolId}
    {role : Role} {handle : Handle}
    (hstores : (mergedRecord (g.mergedMembers objs properties)).Stores role handle) :
    (∃ property ∈ properties, handle = .symbol property) ∨ g.Holds handle := by
  cases hstores with
  | data hdata =>
    cases hdata with
    | object hobject =>
      cases hobject with
      | property hmem => exact Or.inl ⟨_, hmem, rfl⟩
      | callSignature hmem hs =>
        obtain ⟨_, -, hmem⟩ := List.mem_flatMap.1 hmem
        exact Or.inr (hg.callSignatures hmem hs)
      | constructSignature hmem hs =>
        obtain ⟨_, -, hmem⟩ := List.mem_flatMap.1 hmem
        exact Or.inr (hg.constructSignatures hmem hs)
      | indexInfo hmem hi =>
        obtain ⟨_, -, hmem⟩ := List.mem_flatMap.1 hmem
        exact Or.inr (hg.indexInfos hmem hi)
      | target htarget => cases htarget
      | typeArgument hmem | typeParameter hmem | baseType hmem | implementsType hmem => cases hmem
  | symbol hsymbol => cases hsymbol
  | aliasSymbol halias => cases halias
  | aliasTypeArgument hmem => cases hmem

theorem rename_mergedMembers (hg : g.Closed) (objs : List TypeId) (properties : List SymbolId) :
    (mergedRecord (g.mergedMembers objs properties)).rename (g.shift h) =
      mergedRecord (g.mergedMembers objs (properties.map (g.shift h).symbol)) := by
  -- all but the properties is what an object without properties has
  have hsame := (mergedRecord (g.mergedMembers objs [])).rename_eq_self fun hstores =>
    shift_fixes (h := h) ((stores_mergedMembers hg hstores).resolve_left (by simp))
  simp only [mergedRecord, TypeRecord.rename, TypeData.rename, ObjectType.rename,
    ObjectMembers.rename, mergedMembers, TypeRecord.mk.injEq, TypeData.object.injEq,
    ObjectType.mk.injEq, ObjectMembers.mk.injEq] at hsame ⊢
  simp [hsame]

include hgh hst in
theorem parallel_opened (key : List TypeId) (hfits : (t.opened key).graph.Fits) :
    Parallel g h (s.opened key) (t.opened key) := by
  rw [t.graph_opened] at hfits
  have hadd := mirrored_addType hgh hst (mergedRecord {}) (fun hstores => ?_) hfits
  · have hnote := hadd.parallel.note key hadd.holds
    rw [← hadd.answer] at hnote
    exact hnote
  · cases hstores with
    | data hdata => cases hdata with | object hobject => cases hobject <;> simp_all
    | _ => simp_all [mergedRecord]

section

variable (hg : g.Closed) {merge : List TypeId → Merge TypeId}
  (hgrows : ∀ types, Grows (merge types))
  (hmerge : ∀ types, (∀ type ∈ types, g.HasType type) → ∀ {s t : MergeContext}, Parallel g h s t →
    MirroredType g h s t (merge types) (merge types))

include hgh hst hg hmerge

theorem mirrored_property (name : String) {symbols : List SymbolId}
    (hsymbols : ∀ symbol ∈ symbols, g.HasSymbol symbol) :
    MirroredSymbol g h s t (property merge name symbols) (property merge name symbols) := by
  have htypes : ∀ type ∈ symbols.map g.typeOf, g.HasType type := by
    intro type htype
    obtain ⟨symbol, -, rfl⟩ := List.mem_map.1 htype
    exact hg.inBounds.typeOf symbol
  have hdeclarations : ∀ declaration ∈ (symbols.filterMap g.symbol?).flatMap (·.declarations),
      ∀ id, declaration.typeAtLocation = some id → g.HasType id := by
    intro declaration hmem id hid
    obtain ⟨record, hrecord, hmem⟩ := List.mem_flatMap.1 hmem
    obtain ⟨symbol, -, hsymbol⟩ := List.mem_filterMap.1 hrecord
    exact hg.symbol hsymbol (.typeAtDeclaration hmem hid)
  unfold MirroredSymbol Mirrored
  rw [property_eq_propertyOf, property_eq_propertyOf, propertyOf_eq hst.graph merge name hsymbols,
    propertyOf_eq hst.graph' merge name hsymbols]
  exact (hmerge _ htypes hst).bind
    (fun _ => grows_build fun _ => Build.newPropertySymbol_appends _ _ _ _ _)
    fun hst' htype => mirrored_newPropertySymbol hgh hst' name _ _ htype hdeclarations

include hgrows

theorem mirrored_mergeProperties {groups : List (String × List SymbolId)}
    (hgroups : ∀ group ∈ groups, ∀ symbol ∈ group.2, g.HasSymbol symbol) :
    Mirrored g h (fun k symbols => ∀ symbol ∈ symbols, k.HasSymbol symbol)
      (List.map (g.shift h).symbol) s t (mergeProperties merge groups)
      (mergeProperties merge groups) :=
  mirrored_mapM hgh Extends.hasSymbol (fun _ => grows_property hgrows _ _) hst
    fun group hgroup _ _ hst' =>
      mirrored_property hgh hst' hg hmerge group.1 (hgroups group hgroup)

theorem mirrored_objects {objs : List TypeId} (hobjs : ∀ type ∈ objs, g.HasType type)
    (key : List TypeId) :
    MirroredType g h s t (objects merge objs key) (objects merge objs key) := by
  unfold MirroredType Mirrored
  rw [objects_of_extends hg.inBounds hst.graph hobjs,
    objects_of_extends hg.inBounds hst.graph' hobjs]
  intro hfits
  dsimp only at hfits ⊢
  have hgrown := grows_mergeProperties hgrows (g.groupByName (objs.flatMap g.properties))
  have hroom := fits_modifyType.1 hfits
  have hst' := parallel_opened hgh hst key ((hgrown _).fits hroom)
  obtain ⟨hrun, hsymbols, hanswer⟩ := mirrored_mergeProperties hgh hst' hg hgrows hmerge
    (forall_mem_groupByName (hg.inBounds.flatMap_properties objs)) hroom
  have hextends := (hgrown (s.opened key)).extends_of_fits (hrun.fits hgh hroom)
  have hsize' : t.graph.types.size < UInt32.size := by
    have := (hgrown (t.opened key)).size_le.trans hroom.types
    rwa [types_size_opened] at this
  have hopened := type?_opened s key (hst.carries.types_size.trans_lt hsize')
  rw [← hextends.type?_eq (hasType_of_type? hopened)] at hopened
  have hnext := hst.shift_nextType hgh hsize'
  rw [← hnext, hanswer]
  have hindex : s.nextType.index = s.graph.types.size :=
    TypeId.index_ofIndex (hst.carries.types_size.trans_lt hsize')
  refine ⟨hrun.modifyType hopened (hst.graph.types_size.trans hindex.ge) ?_ ?_, ?_, rfl⟩
  · exact (rename_mergedMembers hg objs _).symm
  · intro role handle hstores
    rcases stores_mergedMembers hg hstores with ⟨property, hmem, rfl⟩ | hold
    · exact hsymbols property hmem
    · exact hrun.graph.holds hold
  · rw [HasType, Build.setObjectMembers, Build.modifyObject, types_size_modifyType]
    exact hasType_of_type? hopened

/-! ## Constituents -/

omit hg in
theorem mirrored_distribute {before after members : List TypeId}
    (hbefore : ∀ type ∈ before, g.HasType type)
    (hafter : ∀ type ∈ after, g.HasType type) (hmembers : ∀ type ∈ members, g.HasType type)
    (key : List TypeId) :
    MirroredType g h s t (distribute merge before after members key)
      (distribute merge before after members key) := by
  have hconstituents : ∀ member ∈ members, ∀ type ∈ before ++ [member] ++ after,
      g.HasType type := fun member hmember =>
    List.forall_mem_append.2 ⟨List.forall_mem_append.2
      ⟨hbefore, List.forall_mem_singleton.2 (hmembers member hmember)⟩, hafter⟩
  have hmade := mirrored_mapM hgh Extends.hasType (fun _ => hgrows _) hst
    fun member hmember _ _ hst' => hmerge _ (hconstituents member hmember) hst'
  have hdistributed : MirroredType g h s t (distributed merge before after members)
      (distributed merge before after members) :=
    hmade.bind (fun _ => grows_build fun _ => Build.union_appends _)
      fun hst' htypes => mirrored_union hgh hst' htypes
  unfold MirroredType Mirrored
  rw [distribute_eq, distribute_eq]
  intro hfits
  dsimp only at hfits ⊢
  rw [graph_note] at hfits
  obtain ⟨hrun, hunion, hanswer⟩ := hdistributed hfits
  rw [hanswer]
  refine ⟨hrun.note key hunion, ?_, rfl⟩
  rwa [graph_note]

theorem mirrored_combine {plain others : List TypeId} (hplain : ∀ type ∈ plain, g.HasType type)
    (hothers : ∀ type ∈ others, g.HasType type) (key : List TypeId) :
    MirroredType g h s t (combine merge plain others key) (combine merge plain others key) := by
  have hobjects := mirrored_objects hgh hst hg hgrows hmerge hplain key
  unfold combine
  split
  · exact mirrored_pure_old hst (hg.inBounds.intrinsic (by decide))
  · exact mirrored_cloneWithoutAlias hgh hst hg (hothers _ List.mem_cons_self)
  · exact mirrored_intersection_old hgh hst hothers
  · exact hobjects
  · refine hobjects.bind (fun _ => grows_build fun _ => Build.intersection_appends _)
      fun hst' hmade => ?_
    have hall := mirrored_intersection hgh hst' (List.forall_mem_cons.2
      ⟨hmade, fun type htype => hst'.graph.hasType (hothers type htype)⟩)
    rwa [List.map_cons, map_shift_type hothers] at hall

theorem mirrored_intersect {constituents : List TypeId}
    (hconstituents : ∀ type ∈ constituents, g.HasType type) (key : List TypeId) :
    MirroredType g h s t (intersect merge constituents key) (intersect merge constituents key) := by
  have hmem : ∀ {p : TypeId → Bool}, ∀ type ∈ (Build.distinct constituents).filter p,
      g.HasType type := fun type htype =>
    hconstituents type (Build.mem_distinct.1 (List.mem_filter.1 htype).1)
  unfold MirroredType Mirrored
  rw [intersect_eq, intersect_eq, hst.graph.plainOf_eq hg.inBounds hconstituents,
    hst.graph.othersOf_eq hg.inBounds hconstituents,
    hst.graph'.plainOf_eq hg.inBounds hconstituents,
    hst.graph'.othersOf_eq hg.inBounds hconstituents]
  exact mirrored_combine hgh hst hg hgrows hmerge hmem hmem key

/-- The same union is distributed in both runs, if there is one. -/
theorem mirrored_classified (hacyclic : g.AcyclicIntersections) {types : List TypeId}
    (htypes : ∀ type ∈ types, g.HasType type) :
    MirroredType g h s t (classified merge types) (classified merge types) := by
  have hold := hg.inBounds.constituents htypes
  have hs := hst.graph.constituents_eq hg.inBounds (fun type _ => hacyclic.below type) htypes
  have ht := hst.graph'.constituents_eq hg.inBounds (fun type _ => hacyclic.below type) htypes
  have hunions : ∀ type ∈ types.flatMap g.flatten,
      t.graph.isDistributableUnion type = s.graph.isDistributableUnion type := fun type htype => by
    rw [hst.graph.isDistributableUnion_eq (hold type htype),
      hst.graph'.isDistributableUnion_eq (hold type htype)]
  unfold MirroredType Mirrored
  rcases classified_cases merge types s with
    ⟨before, union, after, hsplit, hbefore, hunion, heq⟩ | ⟨hno, heq⟩
  · rw [hs] at hsplit
    rw [hsplit] at hold hunions ht
    obtain ⟨hbeforeOld, hrest⟩ := List.forall_mem_append.1 hold
    obtain ⟨hunionOld, hafterOld⟩ := List.forall_mem_cons.1 hrest
    have hmid : union ∈ before ++ union :: after := List.mem_append_right _ List.mem_cons_self
    have heq' := classified_of_union merge ht
      (fun type htype => (hunions type (List.mem_append_left _ htype)).trans (hbefore type htype))
      ((hunions union hmid).trans hunion)
    rw [heq, heq', hst.graph.unionMembers_eq hunionOld, hst.graph'.unionMembers_eq hunionOld]
    exact mirrored_distribute hgh hst hgrows hmerge hbeforeOld hafterOld
      (hg.inBounds.unionMembers union) types
  · have hno' : ∀ type ∈ types.flatMap t.graph.flatten,
        t.graph.isDistributableUnion type = false := fun type htype => by
      rw [ht] at htype
      rw [hunions type htype]
      exact hno type (hs ▸ htype)
    rw [heq, classified_of_no_union merge hno', hs, ht]
    exact mirrored_intersect hgh hst hg hgrows hmerge hold types

end

/-! ## Levels -/

/-- By induction on the levels. -/
theorem mirrored_mergeWithin (hgh : g.Extends h) (hg : g.Closed) (hacyclic : g.AcyclicIntersections)
    (levels : Nat) {types : List TypeId} (htypes : ∀ type ∈ types, g.HasType type)
    {s t : MergeContext} (hst : Parallel g h s t) :
    MirroredType g h s t (mergeWithin levels types) (mergeWithin levels types) := by
  induction levels generalizing types s t with
  | zero =>
    unfold MirroredType Mirrored
    rw [mergeWithin_eq, mergeWithin_eq, hst.known?_eq]
    cases hknown : s.known? types with
    | some made => exact fun _ => ⟨hst, hst.hasType_of_known? hknown, rfl⟩
    | none =>
      rcases types with _ | ⟨single, _ | ⟨second, rest⟩⟩
      · exact mirrored_intersection_old hgh hst htypes
      · exact mirrored_pure_old hst (htypes single List.mem_cons_self)
      · exact mirrored_intersection_old hgh hst htypes
  | succ levels ih =>
    unfold MirroredType Mirrored
    rw [mergeWithin_eq, mergeWithin_eq, hst.known?_eq]
    cases hknown : s.known? types with
    | some made => exact fun _ => ⟨hst, hst.hasType_of_known? hknown, rfl⟩
    | none =>
      exact mirrored_classified hgh hst hg (grows_mergeWithin levels) (fun _ => ih) hacyclic htypes

end Merge

namespace Build

/-- The type that is made of a type of a graph has the same text in each graph that extends it, if
it has a text at all and there are handles for all that is added. -/
theorem expandToText_eq {g h : TypeGraph} (hg : g.Closed) (hacyclic : g.AcyclicIntersections)
    (hgh : g.Extends h) {type : TypeId} (htype : g.HasType type) (config : TreeConfig)
    (hfits : (expand type config h).2.Fits)
    (htext : (expand type config g).2.typeText? (expand type config g).1 ≠ none) :
    (expandToText type config h).1 = (expandToText type config g).1 := by
  obtain ⟨text, htext⟩ := Option.ne_none_iff_exists'.1 htext
  obtain ⟨hrun, hmade, hanswer⟩ := Merge.mirrored_mergeWithin hgh hg hacyclic config.maxDepth.toNat
    (List.forall_mem_singleton.2 htype) (.start hg hgh) hfits
  have htext' : (expand type config h).2.typeText? (expand type config h).1 = some text := by
    have hsame := hrun.carries.typeText?_eq_some hmade htext
    rwa [← hanswer] at hsame
  change (expand type config h).2.typeText (expand type config h).1 =
    (expand type config g).2.typeText (expand type config g).1
  rw [typeText, typeText, htext, htext']

end Build

end TypeAtlas
