import TypeAtlas.Graph.Snapshot
import TypeAtlas.Proofs.Graph.Growth
/-!
# Graphs without dangling handles

A graph is in bounds if its intrinsic types are there and every handle that loading checks leads to
one of its records (`TypeGraph.inBounds_iff_validate`). A question to such a graph about one of its
types leads to its types and symbols again, and when the graph is extended the answer stays the
same, since it never depends on records that are not there.
-/

namespace TypeAtlas

namespace TypeGraph

variable (g : TypeGraph)

/-- A handle of one of the types of a graph. -/
def HasType (id : TypeId) : Prop :=
  id.index < g.types.size

/-- A handle of one of the symbols of a graph. -/
def HasSymbol (id : SymbolId) : Prop :=
  id.index < g.symbols.size

/-- A handle of one of the records of a graph. -/
def Holds : Handle → Prop
  | .type id => g.HasType id
  | .symbol id => g.HasSymbol id

/-- The intrinsic types are there and no handle dangles. -/
structure InBounds : Prop where
  intrinsics : TypeId.intrinsicCount ≤ g.types.size
  mentions : ∀ mention ∈ g.mentions, g.Holds mention.2

theorem dangling?_eq_none_iff (mention : Owner × Handle) :
    g.dangling? mention = none ↔ g.Holds mention.2 := by
  obtain ⟨owner, id | id⟩ := mention <;> simp [dangling?, Holds, HasType, HasSymbol]

/-- The graphs that can be loaded are those in bounds. -/
theorem inBounds_iff_validate : g.InBounds ↔ g.validate = .ok () := by
  have hmentions : g.mentions.findSome? g.dangling? = none ↔
      ∀ mention ∈ g.mentions, g.Holds mention.2 := by
    simp only [List.findSome?_eq_none_iff, dangling?_eq_none_iff]
  unfold validate
  by_cases hsize : g.types.size < TypeId.intrinsicCount
  · rw [if_pos hsize]
    exact ⟨fun h => absurd h.intrinsics hsize.not_ge, fun h => by cases h⟩
  · rw [if_neg hsize]
    cases hfound : g.mentions.findSome? g.dangling? with
    | none => exact ⟨fun _ => rfl, fun _ => ⟨not_lt.1 hsize, hmentions.1 hfound⟩⟩
    | some error =>
      refine ⟨fun h => ?_, fun h => by cases h⟩
      rw [hmentions.2 h.mentions] at hfound
      cases hfound

variable {g}

theorem hasType_of_type? {id : TypeId} {record : TypeRecord} (h : g.type? id = some record) :
    g.HasType id :=
  (Array.getElem?_eq_some_iff.1 h).1

theorem HasType.type? {id : TypeId} (h : g.HasType id) : ∃ record, g.type? id = some record :=
  ⟨_, Array.getElem?_eq_getElem h⟩

theorem hasSymbol_of_symbol? {id : SymbolId} {record : SymbolRecord}
    (h : g.symbol? id = some record) : g.HasSymbol id :=
  (Array.getElem?_eq_some_iff.1 h).1

theorem HasSymbol.symbol? {id : SymbolId} (h : g.HasSymbol id) :
    ∃ record, g.symbol? id = some record :=
  ⟨_, Array.getElem?_eq_getElem h⟩

/-! ## Object types -/

theorem data?_of_object? {id : TypeId} {object : ObjectType} (h : g.object? id = some object) :
    g.data? id = some (.object object) := by
  obtain ⟨record, hrecord, hobject⟩ := Option.bind_eq_some_iff.1 h
  refine Option.map_eq_some_iff.2 ⟨record, hrecord, ?_⟩
  unfold TypeRecord.object? at hobject
  split at hobject
  · next hdata => rw [hdata, Option.some.inj hobject]
  · cases hobject

/-- Members are resolved in the type itself or in its target. -/
theorem resolvedObject?_cases {id : TypeId} {object : ObjectType}
    (h : g.resolvedObject? id = some object) :
    g.object? id = some object ∨ ∃ own target, g.object? id = some own ∧
      own.target = some target ∧ g.object? target = some object := by
  obtain ⟨own, hown, hobject⟩ := Option.map_eq_some_iff.1 h
  split at hobject
  next target htarget =>
    split at hobject
    · exact Or.inl (hobject ▸ hown)
    · cases hfound : g.object? target with
      | none =>
        rw [hfound] at hobject
        exact Or.inl (hobject ▸ hown)
      | some found =>
        rw [hfound] at hobject
        exact Or.inr ⟨own, target, hown, htarget, hobject ▸ hfound⟩
  · exact Or.inl (hobject ▸ hown)

/-- A list of members of the resolved object has a member only if there is such an object. -/
theorem mem_resolved {α : Type} {f : ObjectType → List α} {id : TypeId} {a : α}
    (h : a ∈ ((g.resolvedObject? id).map f).getD []) :
    ∃ object, g.resolvedObject? id = some object ∧ a ∈ f object := by
  cases hobject : g.resolvedObject? id with
  | none => rw [hobject] at h; exact absurd h List.not_mem_nil
  | some object => rw [hobject] at h; exact ⟨object, rfl, h⟩

/-- The handles of an object type are all of a graph. -/
def HoldsObject (g : TypeGraph) (object : ObjectType) : Prop :=
  ∀ handle ∈ object.handles, g.Holds handle

namespace HoldsObject

variable {object : ObjectType} (h : g.HoldsObject object)

include h

theorem target {target : TypeId} (htarget : object.target = some target) : g.HasType target :=
  h (.type target) (by simp [ObjectType.handles, htarget])

theorem properties {property : SymbolId} (hproperty : property ∈ object.properties) :
    g.HasSymbol property :=
  h (.symbol property) (by simp [ObjectType.handles, hproperty])

theorem baseTypes {base : TypeId} (hbase : base ∈ object.baseTypes) : g.HasType base :=
  h (.type base) (by simp [ObjectType.handles, hbase])

theorem typeArguments {argument : TypeId} (hargument : argument ∈ object.typeArguments) :
    g.HasType argument :=
  h (.type argument) (by simp [ObjectType.handles, hargument])

theorem signature {s : Signature} (hs : s ∈ object.callSignatures ++ object.constructSignatures) :
    (∀ p ∈ s.parameters, g.HasSymbol p) ∧ g.HasType s.returnType := by
  have hmem : ∀ handle ∈ s.handles, g.Holds handle := by
    intro handle hhandle
    apply h handle
    rw [ObjectType.handles, List.mem_append, List.mem_append]
    exact Or.inl (Or.inr (List.mem_flatMap.2 ⟨s, hs, hhandle⟩))
  exact ⟨fun p hp => hmem (.symbol p) (by simp [Signature.handles, hp]),
    hmem (.type s.returnType) (by simp [Signature.handles])⟩

theorem indexInfo {info : IndexInfo} (hinfo : info ∈ object.indexInfos) :
    g.HasType info.keyType ∧ g.HasType info.valueType := by
  have hmem : ∀ type ∈ [info.keyType, info.valueType], .type type ∈ object.handles := by
    intro type htype
    simp only [ObjectType.handles, List.mem_append, List.mem_map, List.mem_flatMap, or_assoc]
    exact Or.inr (Or.inr ⟨type, Or.inl ⟨info, hinfo, htype⟩, rfl⟩)
  exact ⟨h _ (hmem _ (by simp)), h _ (hmem _ (by simp))⟩

end HoldsObject

/-! ## What the records of a graph in bounds lead to -/

namespace InBounds

variable {id : TypeId}

theorem type (hg : g.InBounds) {record : TypeRecord} (h : g.type? id = some record)
    {handle : Handle} (hhandle : handle ∈ record.handles) : g.Holds handle := by
  apply hg.mentions (.type id.index, handle)
  simp only [TypeGraph.mentions, List.mem_append, List.mem_flatMap, List.mem_map]
  refine Or.inl (Or.inr ⟨(record, id.index), ?_, handle, hhandle, rfl⟩)
  rw [List.mem_zipIdx_iff_getElem?, Array.getElem?_toList]
  exact h

theorem symbol (hg : g.InBounds) {id : SymbolId} {record : SymbolRecord}
    (h : g.symbol? id = some record) {handle : Handle} (hhandle : handle ∈ record.handles) :
    g.Holds handle := by
  apply hg.mentions (.symbol id.index record.name, handle)
  simp only [TypeGraph.mentions, List.mem_append, List.mem_flatMap, List.mem_map]
  refine Or.inr ⟨(record, id.index), ?_, handle, hhandle, rfl⟩
  rw [List.mem_zipIdx_iff_getElem?, Array.getElem?_toList]
  exact h

theorem intrinsic (hg : g.InBounds) {id : TypeId} (h : id.index < TypeId.intrinsicCount) :
    g.HasType id :=
  h.trans_le hg.intrinsics

theorem data (hg : g.InBounds) {data : TypeData} (h : g.data? id = some data) {handle : Handle}
    (hhandle : handle ∈ data.handles) : g.Holds handle := by
  obtain ⟨record, hrecord, rfl⟩ := Option.map_eq_some_iff.1 h
  exact hg.type hrecord (List.mem_append_right _ hhandle)

/-- The members of a union or an intersection. -/
theorem members (hg : g.InBounds) {types : List TypeId}
    (h : g.data? id = some (.union types) ∨ g.data? id = some (.intersection types)) {type : TypeId}
    (htype : type ∈ types) : g.HasType type := by
  have hmem : .type type ∈ types.map Handle.type := List.mem_map_of_mem htype
  exact h.elim (fun h => hg.data h hmem) fun h => hg.data h hmem

theorem object (hg : g.InBounds) {object : ObjectType} (h : g.object? id = some object) :
    g.HoldsObject object :=
  fun _ => hg.data (data?_of_object? h)

theorem resolvedObject (hg : g.InBounds) {object : ObjectType}
    (h : g.resolvedObject? id = some object) : g.HoldsObject object := by
  rcases resolvedObject?_cases h with hown | ⟨_, target, _, _, htarget⟩
  · exact hg.object hown
  · exact hg.object htarget

/-- A type that the record of a symbol mentions; without one, the error type. -/
theorem symbolType (hg : g.InBounds) {f : SymbolRecord → Option TypeId}
    (hf : ∀ record type, f record = some type → .type type ∈ record.handles) (symbol : SymbolId) :
    g.HasType (((g.symbol? symbol).bind f).getD .error) := by
  cases h : (g.symbol? symbol).bind f with
  | none => exact hg.intrinsic (by decide)
  | some type =>
    obtain ⟨record, hrecord, htype⟩ := Option.bind_eq_some_iff.1 h
    exact hg.symbol hrecord (hf record type htype)

theorem valueTypeOf (hg : g.InBounds) (symbol : SymbolId) : g.HasType (g.valueTypeOf symbol) :=
  hg.symbolType (fun _ _ h => by simp [SymbolRecord.handles, h]) symbol

theorem declaredTypeOf (hg : g.InBounds) (symbol : SymbolId) :
    g.HasType (g.declaredTypeOf symbol) :=
  hg.symbolType (fun _ _ h => by simp [SymbolRecord.handles, h]) symbol

end InBounds

theorem mem_declarations_of_primaryDeclaration? {record : SymbolRecord} {declaration : Declaration}
    (h : record.primaryDeclaration? = some declaration) : declaration ∈ record.declarations := by
  rcases Option.or_eq_some_iff.1 h with h | ⟨-, h⟩
  · obtain ⟨n, -, h⟩ := Option.bind_eq_some_iff.1 h
    exact List.mem_of_getElem? h
  · exact List.mem_of_head? h

namespace InBounds

/-- Whichever of the candidates it is, the type of a symbol is a type of the graph. -/
theorem typeOf (hg : g.InBounds) (symbol : SymbolId) : g.HasType (g.typeOf symbol) := by
  unfold TypeGraph.typeOf
  dsimp only
  generalize hfound : List.find? _ _ = found
  cases found with
  | none => exact hg.intrinsic (by decide)
  | some type =>
    rcases List.mem_append.1 (List.mem_of_find?_eq_some hfound) with h | h
    · obtain ⟨declaration, hdeclaration, rfl⟩ := Option.map_eq_some_iff.1 (Option.mem_toList.1 h)
      obtain ⟨record, hrecord, hprimary⟩ := Option.bind_eq_some_iff.1 hdeclaration
      cases hat : declaration.typeAtLocation with
      | none =>
        have hvalue := hg.valueTypeOf symbol
        simpa [typeAtDeclaration, hat, TypeGraph.valueTypeOf] using hvalue
      | some type =>
        have hmem : .type type ∈ record.handles := by
          simp only [SymbolRecord.handles, List.mem_append, List.mem_map, List.mem_filterMap]
          exact Or.inl ⟨type, Or.inr ⟨declaration,
            mem_declarations_of_primaryDeclaration? hprimary, hat⟩, rfl⟩
        have htype : g.HasType type := hg.symbol hrecord hmem
        simpa [typeAtDeclaration, hat] using htype
    · rw [List.mem_cons, List.mem_singleton] at h
      rcases h with rfl | rfl
      · exact hg.declaredTypeOf symbol
      · exact hg.valueTypeOf symbol

end InBounds

/-! ## Questions to an extended graph -/

namespace Extends

variable {h : TypeGraph} {id : TypeId}

theorem type?_eq (hgh : g.Extends h) (hid : g.HasType id) : h.type? id = g.type? id :=
  hgh.types _ hid

theorem symbol?_eq (hgh : g.Extends h) {id : SymbolId} (hid : g.HasSymbol id) :
    h.symbol? id = g.symbol? id :=
  hgh.symbols _ hid

theorem data?_eq (hgh : g.Extends h) (hid : g.HasType id) : h.data? id = g.data? id :=
  congrArg _ (hgh.type?_eq hid)

theorem object?_eq (hgh : g.Extends h) (hid : g.HasType id) : h.object? id = g.object? id :=
  congrArg (Option.bind · _) (hgh.type?_eq hid)

theorem typeFlags_eq (hgh : g.Extends h) (hid : g.HasType id) : h.typeFlags id = g.typeFlags id :=
  congrArg (fun record => (Option.map _ record).getD _) (hgh.type?_eq hid)

theorem objectFlags_eq (hgh : g.Extends h) (hid : g.HasType id) :
    h.objectFlags id = g.objectFlags id :=
  congrArg (fun record => (Option.map _ record).getD _) (hgh.type?_eq hid)

theorem symbolName?_eq (hgh : g.Extends h) {id : SymbolId} (hid : g.HasSymbol id) :
    h.symbolName? id = g.symbolName? id :=
  congrArg _ (hgh.symbol?_eq hid)

theorem valueTypeOf_eq (hgh : g.Extends h) {symbol : SymbolId} (hsymbol : g.HasSymbol symbol) :
    h.valueTypeOf symbol = g.valueTypeOf symbol :=
  congrArg (fun record => (Option.bind record _).getD _) (hgh.symbol?_eq hsymbol)

theorem typeOf_eq (hgh : g.Extends h) {symbol : SymbolId} (hsymbol : g.HasSymbol symbol) :
    h.typeOf symbol = g.typeOf symbol := by
  unfold typeOf typeAtDeclaration declaredTypeOf valueTypeOf
  simp only [hgh.symbol?_eq hsymbol]

theorem isArray_eq (hgh : g.Extends h) (hid : g.HasType id) : h.isArray id = g.isArray id := by
  unfold isArray
  rw [hgh.object?_eq hid, hgh.globalArray, hgh.globalReadonlyArray]

theorem isTuple_eq (hgh : g.Extends h) (hid : g.HasType id) : h.isTuple id = g.isTuple id :=
  congrArg (Flags.has · _) (hgh.objectFlags_eq hid)

theorem resolvedObject?_eq (hgh : g.Extends h) (hg : g.InBounds) (hid : g.HasType id) :
    h.resolvedObject? id = g.resolvedObject? id := by
  unfold resolvedObject?
  rw [hgh.object?_eq hid]
  apply Option.map_congr
  intro object hobject
  split
  · next target htarget => rw [hgh.object?_eq ((hg.object hobject).target htarget)]
  · rfl

theorem callSignatures_eq (hgh : g.Extends h) (hg : g.InBounds) (hid : g.HasType id) :
    h.callSignatures id = g.callSignatures id :=
  congrArg (fun object => (Option.map _ object).getD _) (hgh.resolvedObject?_eq hg hid)

theorem constructSignatures_eq (hgh : g.Extends h) (hg : g.InBounds) (hid : g.HasType id) :
    h.constructSignatures id = g.constructSignatures id :=
  congrArg (fun object => (Option.map _ object).getD _) (hgh.resolvedObject?_eq hg hid)

theorem indexInfos_eq (hgh : g.Extends h) (hg : g.InBounds) (hid : g.HasType id) :
    h.indexInfos id = g.indexInfos id :=
  congrArg (fun object => (Option.map _ object).getD _) (hgh.resolvedObject?_eq hg hid)

theorem isPlainObject_eq (hgh : g.Extends h) (hg : g.InBounds) (hid : g.HasType id) :
    h.isPlainObject id = g.isPlainObject id := by
  unfold isPlainObject
  rw [hgh.typeFlags_eq hid, hgh.callSignatures_eq hg hid, hgh.isArray_eq hid, hgh.isTuple_eq hid]

end Extends

end TypeGraph

end TypeAtlas
