import TypeAtlas.Proofs.Graph.Positions
import TypeAtlas.Proofs.Merge.Constituents
import TypeAtlas.Proofs.Merge.Members
/-!
# Properties made by merging

The symbols that merging adds are properties, each made of properties of its name that were there
before (`Build.expand_synthesizes`). Such a property has the merged type as a value. It also has the
declarations of the properties it is made of, and a tree prefers the type that is recorded at the
first of them. So trees, and merging once more, see the merged type just when this declaration does
not record another one (`Build.typeOf_synthesized_iff`).
-/

namespace TypeAtlas

open TypeGraph

/-! ## Where properties come from -/

namespace SymbolRecord

/-- The declarations of a symbol are those of symbols of its name, which are among several ones. -/
def StemsFrom (record : SymbolRecord) (old : List SymbolRecord) : Prop :=
  ∃ sources, sources ≠ [] ∧ (∀ source ∈ sources, source ∈ old ∧ source.name = record.name) ∧
    record.declarations = sources.flatMap (·.declarations)

/-- A property made of properties among several symbols: the first declaration is the primary one,
and there is a type as a value, but no declared type. -/
structure MergedFrom (record : SymbolRecord) (old : List SymbolRecord) : Prop where
  stems : record.StemsFrom old
  primary : record.primaryDeclaration? = record.declarations.head?
  declaredType : record.declaredType = none
  valueType : record.valueType.isSome

/-- The type that is recorded at the first declaration. The error type says nothing. -/
def recordedType? (record : SymbolRecord) : Option TypeId :=
  (record.declarations.head?.bind (·.typeAtLocation)).filter (· != .error)

variable {record : SymbolRecord} {old mid : List SymbolRecord}

theorem stemsFrom_of_mem (h : record ∈ old) : record.StemsFrom old :=
  ⟨[record], List.cons_ne_nil _ _, List.forall_mem_singleton.2 ⟨h, rfl⟩,
    (List.flatMap_singleton ..).symm⟩

/-- The sources of all sources, in order. -/
theorem StemsFrom.trans (h : record.StemsFrom mid) (hmid : ∀ source ∈ mid, source.StemsFrom old) :
    record.StemsFrom old := by
  obtain ⟨sources, hne, hsources, hdeclarations⟩ := h
  have hall : ∀ sources : List SymbolRecord,
      (∀ source ∈ sources, source ∈ mid ∧ source.name = record.name) →
      ∃ older : List SymbolRecord, (older = [] → sources = []) ∧
        (∀ source ∈ older, source ∈ old ∧ source.name = record.name) ∧
        sources.flatMap (·.declarations) = older.flatMap (·.declarations) := by
    intro sources
    induction sources with
    | nil => exact fun _ => ⟨[], id, List.forall_mem_nil _, rfl⟩
    | cons source sources ih =>
      intro h
      rw [List.forall_mem_cons] at h
      obtain ⟨first, hfirst, hmem, heq⟩ := hmid source h.1.1
      obtain ⟨rest, -, hrest, hflat⟩ := ih h.2
      refine ⟨first ++ rest, fun hnil => absurd (List.append_eq_nil_iff.1 hnil).1 hfirst,
        List.forall_mem_append.2 ⟨fun o ho => ?_, hrest⟩, ?_⟩
      · exact ⟨(hmem o ho).1, (hmem o ho).2.trans h.1.2⟩
      · rw [List.flatMap_cons, List.flatMap_append, heq, hflat]
  obtain ⟨older, hnil, holder, hflat⟩ := hall sources hsources
  exact ⟨older, hne ∘ hnil, holder, hdeclarations.trans hflat⟩

theorem MergedFrom.trans (h : record.MergedFrom mid)
    (hmid : ∀ source ∈ mid, source.StemsFrom old) : record.MergedFrom old :=
  { h with stems := h.stems.trans hmid }

end SymbolRecord

namespace TypeGraph

variable {g h k : TypeGraph}

/-- The symbols of the second graph are those of the first one and properties made of them. -/
def Synthesizes (g h : TypeGraph) : Prop :=
  ∃ new, h.symbols.toList = g.symbols.toList ++ new ∧
    ∀ record ∈ new, record.MergedFrom g.symbols.toList

theorem synthesizes_of_symbols_eq (hsymbols : h.symbols = g.symbols) : g.Synthesizes h :=
  ⟨[], by rw [hsymbols, List.append_nil], List.forall_mem_nil _⟩

theorem synthesizes_addSymbol {record : SymbolRecord} (h : record.MergedFrom g.symbols.toList) :
    g.Synthesizes (Build.addSymbol record g).2 :=
  ⟨[record], Array.toList_push, List.forall_mem_singleton.2 h⟩

theorem Synthesizes.trans (hgh : g.Synthesizes h) (hhk : h.Synthesizes k) : g.Synthesizes k := by
  obtain ⟨new₁, hnew₁, hmerged₁⟩ := hgh
  obtain ⟨new₂, hnew₂, hmerged₂⟩ := hhk
  have hstems : ∀ record ∈ h.symbols.toList, record.StemsFrom g.symbols.toList := by
    rw [hnew₁]
    exact List.forall_mem_append.2
      ⟨fun _ => SymbolRecord.stemsFrom_of_mem, fun record hrecord => (hmerged₁ record hrecord).stems⟩
  refine ⟨new₁ ++ new₂, by rw [hnew₂, hnew₁, List.append_assoc], List.forall_mem_append.2
    ⟨hmerged₁, fun record hrecord => (hmerged₂ record hrecord).trans hstems⟩⟩

theorem accumulates_synthesizes : Accumulates Synthesizes where
  refl _ := synthesizes_of_symbols_eq rfl
  trans := .trans
  addType _ _ := synthesizes_of_symbols_eq rfl

/-- What new symbols declare, the symbols that they are made of declare already. -/
theorem Synthesizes.redeclares (hgh : g.Synthesizes h) : g.Redeclares h := by
  obtain ⟨new, hnew, hmerged⟩ := hgh
  rintro declaration ⟨record, hrecord, hdeclaration⟩
  rw [← Array.mem_toList_iff, hnew, List.mem_append] at hrecord
  rcases hrecord with hold | hmem
  · exact ⟨record, Array.mem_toList_iff.1 hold, hdeclaration⟩
  · obtain ⟨sources, -, hsources, hdeclarations⟩ := (hmerged record hmem).stems
    rw [hdeclarations] at hdeclaration
    obtain ⟨source, hsource, hdeclaration⟩ := List.mem_flatMap.1 hdeclaration
    exact ⟨source, Array.mem_toList_iff.1 (hsources source hsource).1, hdeclaration⟩

/-- Old symbols stay where they are. -/
theorem Synthesizes.symbol?_eq (hgh : g.Synthesizes h) {symbol : SymbolId} {record : SymbolRecord}
    (hrecord : g.symbol? symbol = some record) : h.symbol? symbol = some record := by
  obtain ⟨new, hnew, -⟩ := hgh
  rw [symbol?, ← Array.getElem?_toList] at hrecord ⊢
  obtain ⟨hlt, -⟩ := List.getElem?_eq_some_iff.1 hrecord
  rw [hnew, List.getElem?_append_left hlt, hrecord]

/-- New symbols are made of old ones. -/
theorem Synthesizes.mergedFrom (hgh : g.Synthesizes h) {symbol : SymbolId} {record : SymbolRecord}
    (hnew : g.symbol? symbol = none) (hrecord : h.symbol? symbol = some record) :
    record.MergedFrom g.symbols.toList := by
  obtain ⟨new, hsymbols, hmerged⟩ := hgh
  rw [symbol?, ← Array.getElem?_toList] at hnew hrecord
  rw [hsymbols, List.getElem?_append_right (List.getElem?_eq_none_iff.1 hnew)] at hrecord
  exact hmerged record (List.mem_of_getElem? hrecord)

/-! ## Groups of properties -/

/-- A name with symbols of this name. -/
def IsGroup (g : TypeGraph) (group : String × List SymbolId) : Prop :=
  group.2 ≠ [] ∧ ∀ symbol ∈ group.2, g.symbolName? symbol = some group.1

theorem Synthesizes.isGroup (hgh : g.Synthesizes h) {group : String × List SymbolId}
    (hgroup : g.IsGroup group) : h.IsGroup group := by
  refine ⟨hgroup.1, fun symbol hsymbol => ?_⟩
  obtain ⟨record, hrecord, hname⟩ := Option.map_eq_some_iff.1 (hgroup.2 symbol hsymbol)
  exact Option.map_eq_some_iff.2 ⟨record, hgh.symbol?_eq hrecord, hname⟩

theorem isGroup_groupByName (properties : List SymbolId) :
    ∀ group ∈ g.groupByName properties, g.IsGroup group := by
  rw [groupByName_eq_map, List.forall_mem_map]
  intro name hname
  obtain ⟨symbol, hsymbol⟩ := mem_firstNames.1 hname
  exact ⟨List.ne_nil_of_mem (mem_named.2 hsymbol), fun other hother => (mem_named.1 hother).2⟩

/-- The records of a group. -/
theorem IsGroup.records {group : String × List SymbolId} (hgroup : g.IsGroup group) :
    group.2.filterMap g.symbol? ≠ [] ∧ ∀ source ∈ group.2.filterMap g.symbol?,
      source ∈ g.symbols.toList ∧ source.name = group.1 := by
  have hrecords : ∀ symbol ∈ group.2, ∃ record, g.symbol? symbol = some record ∧
      record.name = group.1 :=
    fun symbol hsymbol => Option.map_eq_some_iff.1 (hgroup.2 symbol hsymbol)
  constructor
  · obtain ⟨symbol, hsymbol⟩ := List.exists_mem_of_ne_nil _ hgroup.1
    obtain ⟨record, hrecord, -⟩ := hrecords symbol hsymbol
    exact List.ne_nil_of_mem (List.mem_filterMap.2 ⟨symbol, hsymbol, hrecord⟩)
  · intro source hsource
    obtain ⟨symbol, hsymbol, heq⟩ := List.mem_filterMap.1 hsource
    obtain ⟨record, hrecord, hname⟩ := hrecords symbol hsymbol
    obtain rfl := Option.some.inj (hrecord.symm.trans heq)
    exact ⟨Array.mem_toList_iff.2 (Array.mem_of_getElem? hrecord), hname⟩

end TypeGraph

/-! ## What merging adds -/

namespace Merge

variable {merge : List TypeId → Merge TypeId} (hmerge : ∀ types, Leads Synthesizes (merge types))

include hmerge

theorem synthesizes_property {group : String × List SymbolId} {s : MergeContext}
    (hgroup : s.graph.IsGroup group) :
    s.graph.Synthesizes (property merge group.1 group.2 s).2.graph := by
  have htypes := hmerge (group.2.map s.graph.typeOf) s
  obtain ⟨hne, hsources⟩ := hgroup.records
  refine htypes.trans (synthesizes_addSymbol
    { stems := ⟨group.2.filterMap s.graph.symbol?, hne, fun source hsource => ?_, rfl⟩
      primary := ?_
      declaredType := rfl
      valueType := rfl })
  · obtain ⟨hmem, hname⟩ := hsources source hsource
    obtain ⟨new, hnew, -⟩ := htypes
    exact ⟨hnew ▸ List.mem_append_left new hmem, hname⟩
  · rw [SymbolRecord.primaryDeclaration?]
    dsimp only
    cases (group.2.filterMap s.graph.symbol?).flatMap (·.declarations) <;> rfl

/-- By induction on the groups: a group of the graph is one of every later graph. -/
theorem synthesizes_mergeProperties : ∀ {groups : List (String × List SymbolId)} {s : MergeContext},
    (∀ group ∈ groups, s.graph.IsGroup group) →
      s.graph.Synthesizes (mergeProperties merge groups s).2.graph
  | [], _, _ => synthesizes_of_symbols_eq rfl
  | group :: groups, s, h => by
    rw [List.forall_mem_cons] at h
    rw [mergeProperties_cons]
    have hfirst := synthesizes_property hmerge h.1
    exact hfirst.trans (synthesizes_mergeProperties fun group hgroup =>
      hfirst.isGroup (h.2 group hgroup))

theorem synthesizes_objects (objs key : List TypeId) :
    Leads Synthesizes (objects merge objs key) := by
  intro s
  rw [objects_eq]
  dsimp only
  have hopened : s.graph.Synthesizes (s.opened key).graph :=
    s.graph_opened key ▸ accumulates_synthesizes.addType s.graph _
  have hrun := synthesizes_mergeProperties hmerge
    (isGroup_groupByName (g := (s.opened key).graph) (objs.flatMap (s.opened key).graph.properties))
  exact (hopened.trans hrun).trans (synthesizes_of_symbols_eq (symbols_modifyType _ _ _))

end Merge

namespace Build

theorem expand_synthesizes (type : TypeId) (config : TreeConfig) (g : TypeGraph) :
    g.Synthesizes (expand type config g).2 :=
  Merge.leads_mergeWithin accumulates_synthesizes (fun _ => Merge.synthesizes_objects)
    config.maxDepth.toNat [type] { graph := g }

/-- All declarations of a graph after a type was expanded are old ones. -/
theorem expand_redeclares (type : TypeId) (config : TreeConfig) (g : TypeGraph) :
    g.Redeclares (expand type config g).2 :=
  (expand_synthesizes type config g).redeclares

end Build

/-! ## The type of a merged property -/

namespace TypeGraph

variable {g : TypeGraph} {symbol : SymbolId} {record : SymbolRecord} {old : List SymbolRecord}

/-- The value type comes last, behind a declared type that there is none of. -/
theorem find?_value (type : TypeId) :
    ([.error, type].find? (· != .error)).getD .error = type := by
  by_cases h : type = .error <;> simp [h]

/-- A type that the first declaration records comes before the merged type. -/
theorem typeOf_of_mergedFrom (hrecord : g.symbol? symbol = some record)
    (hmerged : record.MergedFrom old) :
    g.typeOf symbol = record.recordedType?.getD (g.valueTypeOf symbol) := by
  obtain ⟨type, htype⟩ := Option.isSome_iff_exists.1 hmerged.valueType
  have hvalue : g.valueTypeOf symbol = type := by
    rw [valueTypeOf, hrecord, Option.bind_some, htype]
    rfl
  have hdeclared : g.declaredTypeOf symbol = .error := by
    rw [declaredTypeOf, hrecord, Option.bind_some, hmerged.declaredType]
    rfl
  rw [typeOf, hrecord, Option.bind_some, hmerged.primary, hdeclared, hvalue,
    SymbolRecord.recordedType?]
  cases record.declarations.head? with
  | none => exact find?_value type
  | some declaration =>
    have hfirst : g.typeAtDeclaration symbol declaration =
        declaration.typeAtLocation.getD type := by
      rw [typeAtDeclaration, hrecord, Option.bind_some, htype]
      cases declaration.typeAtLocation <;> rfl
    rw [Option.map_some, hfirst, Option.toList_some, List.singleton_append, Option.bind_some]
    cases declaration.typeAtLocation with
    | none => by_cases herror : type = .error <;> simp [herror]
    | some recorded =>
      rw [Option.getD_some, Option.filter_some]
      by_cases herror : recorded = .error
      · rw [herror]
        exact find?_value type
      · simp [herror]

end TypeGraph

namespace Build

/-- A property that merging adds is made of properties of its name, and trees see its merged type
just when no other type is recorded at the first of their declarations. -/
theorem typeOf_synthesized_iff {type : TypeId} {config : TreeConfig} {g : TypeGraph}
    {symbol : SymbolId} {record : SymbolRecord} (hnew : g.symbol? symbol = none)
    (hrecord : (expand type config g).2.symbol? symbol = some record) :
    record.MergedFrom g.symbols.toList ∧
      ((expand type config g).2.typeOf symbol = (expand type config g).2.valueTypeOf symbol ↔
        ∀ recorded, record.recordedType? = some recorded →
          recorded = (expand type config g).2.valueTypeOf symbol) := by
  have hmerged := (expand_synthesizes type config g).mergedFrom hnew hrecord
  refine ⟨hmerged, ?_⟩
  rw [typeOf_of_mergedFrom hrecord hmerged]
  cases record.recordedType? with
  | none => exact ⟨fun _ _ h => absurd h nofun, fun _ => rfl⟩
  | some recorded => exact ⟨fun h _ hrecorded => Option.some.inj hrecorded ▸ h, fun h => h _ rfl⟩

/-- An intersection of two objects with a property of the same name. The declaration of the first
one may record a type. -/
def clash (recorded : Option TypeId) : Build TypeId := do
  let declared ← property "a" .string
  declare declared
    { kind := .property, location := .point "main.ts" ⟨0, 0⟩, typeAtLocation := recorded }
  intersection [← object [declared], ← object [← property "a" .number]]

/-- The intersection in a graph of its own. -/
def clashGraph (recorded : Option TypeId) : TypeId × TypeGraph :=
  clash recorded .initial

/-- What merging the intersection gives. -/
def mergedClash (recorded : Option TypeId) : TypeId × TypeGraph :=
  expand (clashGraph recorded).1 {} (clashGraph recorded).2

/-- The property that merging makes. -/
def clashingProperty : SymbolId :=
  .ofIndex (clashGraph none).2.symbols.size

/-- The declaration of the first object records nothing. -/
theorem typeOf_clashingProperty_of_unrecorded :
    (mergedClash none).2.typeOf clashingProperty =
        (mergedClash none).2.valueTypeOf clashingProperty ∧
      (mergedClash none).2.typeText ((mergedClash none).2.typeOf clashingProperty) =
        "string & number" := by
  have hsome : ((mergedClash none).2.symbol? clashingProperty).isSome := by decide +kernel
  have hnone : ((mergedClash none).2.symbol? clashingProperty).bind (·.recordedType?) = none := by
    decide +kernel
  obtain ⟨record, hrecord⟩ := Option.isSome_iff_exists.1 hsome
  rw [hrecord, Option.bind_some] at hnone
  refine ⟨(typeOf_synthesized_iff (by decide +kernel) hrecord).2.2 fun _ h => ?_,
    by decide +kernel⟩
  rw [hnone] at h
  cases h

/-- The type that the declaration of the first object records hides the merged type, so that merging
what was merged loses it. -/
theorem typeOf_clashingProperty_of_recorded :
    let h := (mergedClash (some .string)).2
    let merged := (mergedClash (some .string)).1
    (clashGraph (some .string)).2.symbol? clashingProperty = none ∧
      h.properties merged = [clashingProperty] ∧
      h.typeOf clashingProperty ≠ h.valueTypeOf clashingProperty ∧
      h.typeText merged = "{ a: string & number; }" ∧
      (expandToText merged {} h).1 = "{ a: string; }" := by
  decide +kernel

end Build

end TypeAtlas
