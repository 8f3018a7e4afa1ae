import TypeAtlas.Proofs.Graph.Handles
/-!
# The handles stored in a graph

Where a graph holds handles is said here field by field (`TypeGraph.Stores`), apart from the lists
that loading goes through. A graph is loaded from a text just if all handles that are parts of its
records lead to records (`TypeGraph.loadText_eq_ok_iff`). Loading does not look at two sorts of
handles that stand beside the structure of a type, the symbol of a signature and the parameter of an
index signature, so these may dangle in a graph that was loaded. A graph without any dangling
handle is closed (`TypeGraph.Closed`).
-/

namespace TypeAtlas

/-- What a record holds a handle for. -/
inductive Handle.Role where
  /-- Something that the record consists of. -/
  | part
  /-- The symbol of a signature, or the parameter of an index signature. -/
  | note
  deriving DecidableEq

open Handle (Role)

/-- The handles in a signature. -/
inductive Signature.Stores (s : Signature) : Role → Handle → Prop
  | symbol {id : SymbolId} (h : s.symbol = some id) : Stores s .note (.symbol id)
  | typeParameter {id : TypeId} (h : id ∈ s.typeParameters) : Stores s .part (.type id)
  | parameter {id : SymbolId} (h : id ∈ s.parameters) : Stores s .part (.symbol id)
  | returnType : Stores s .part (.type s.returnType)

/-- The handles in an index signature. -/
inductive IndexInfo.Stores (i : IndexInfo) : Role → Handle → Prop
  | keyType : Stores i .part (.type i.keyType)
  | valueType : Stores i .part (.type i.valueType)
  | parameter {id : SymbolId} (h : i.parameter = some id) : Stores i .note (.symbol id)

/-- The handles in an object type. -/
inductive ObjectType.Stores (o : ObjectType) : Role → Handle → Prop
  | property {id : SymbolId} (h : id ∈ o.properties) : Stores o .part (.symbol id)
  | callSignature {s : Signature} {role : Role} {handle : Handle} (hs : s ∈ o.callSignatures)
    (h : s.Stores role handle) : Stores o role handle
  | constructSignature {s : Signature} {role : Role} {handle : Handle}
    (hs : s ∈ o.constructSignatures) (h : s.Stores role handle) : Stores o role handle
  | indexInfo {i : IndexInfo} {role : Role} {handle : Handle} (hi : i ∈ o.indexInfos)
    (h : i.Stores role handle) : Stores o role handle
  | target {id : TypeId} (h : o.target = some id) : Stores o .part (.type id)
  | typeArgument {id : TypeId} (h : id ∈ o.typeArguments) : Stores o .part (.type id)
  | typeParameter {id : TypeId} (h : id ∈ o.typeParameters) : Stores o .part (.type id)
  | baseType {id : TypeId} (h : id ∈ o.baseTypes) : Stores o .part (.type id)
  | implementsType {id : TypeId} (h : id ∈ o.implementsTypes) : Stores o .part (.type id)

/-- The handles in the structure of a type. -/
inductive TypeData.Stores : TypeData → Role → Handle → Prop
  | object {o : ObjectType} {role : Role} {handle : Handle} (h : o.Stores role handle) :
    Stores (.object o) role handle
  | union {types : List TypeId} {id : TypeId} (h : id ∈ types) :
    Stores (.union types) .part (.type id)
  | intersection {types : List TypeId} {id : TypeId} (h : id ∈ types) :
    Stores (.intersection types) .part (.type id)
  | constraint {default : Option TypeId} {id : TypeId} :
    Stores (.typeParameter (some id) default) .part (.type id)
  | default {constraint : Option TypeId} {id : TypeId} :
    Stores (.typeParameter constraint (some id)) .part (.type id)
  | index {target : TypeId} : Stores (.index target) .part (.type target)
  | indexedObject {objectType indexType : TypeId} :
    Stores (.indexedAccess objectType indexType) .part (.type objectType)
  | indexType {objectType indexType : TypeId} :
    Stores (.indexedAccess objectType indexType) .part (.type indexType)
  | checkType {checkType extendsType : TypeId} {trueType falseType : Option TypeId} :
    Stores (.conditional checkType extendsType trueType falseType) .part (.type checkType)
  | extendsType {checkType extendsType : TypeId} {trueType falseType : Option TypeId} :
    Stores (.conditional checkType extendsType trueType falseType) .part (.type extendsType)
  | trueType {checkType extendsType id : TypeId} {falseType : Option TypeId} :
    Stores (.conditional checkType extendsType (some id) falseType) .part (.type id)
  | falseType {checkType extendsType id : TypeId} {trueType : Option TypeId} :
    Stores (.conditional checkType extendsType trueType (some id)) .part (.type id)
  | baseType {baseType constraint : TypeId} :
    Stores (.substitution baseType constraint) .part (.type baseType)
  | substitute {baseType constraint : TypeId} :
    Stores (.substitution baseType constraint) .part (.type constraint)
  | templateLiteral {texts : List String} {types : List TypeId} {id : TypeId} (h : id ∈ types) :
    Stores (.templateLiteral texts types) .part (.type id)
  | stringMapping {target : TypeId} : Stores (.stringMapping target) .part (.type target)

/-- The handles in a type. -/
inductive TypeRecord.Stores (t : TypeRecord) : Role → Handle → Prop
  | symbol {id : SymbolId} (h : t.symbol = some id) : Stores t .part (.symbol id)
  | aliasSymbol {id : SymbolId} (h : t.aliasSymbol = some id) : Stores t .part (.symbol id)
  | aliasTypeArgument {id : TypeId} (h : id ∈ t.aliasTypeArguments) : Stores t .part (.type id)
  | data {role : Role} {handle : Handle} (h : t.data.Stores role handle) : Stores t role handle

/-- The handles in a symbol. -/
inductive SymbolRecord.Stores (s : SymbolRecord) : Role → Handle → Prop
  | typeAtDeclaration {declaration : Declaration} {id : TypeId}
    (hdeclaration : declaration ∈ s.declarations) (h : declaration.typeAtLocation = some id) :
    Stores s .part (.type id)
  | parent {id : SymbolId} (h : s.parent = some id) : Stores s .part (.symbol id)
  | valueType {id : TypeId} (h : s.valueType = some id) : Stores s .part (.type id)
  | declaredType {id : TypeId} (h : s.declaredType = some id) : Stores s .part (.type id)
  | typeParameter {id : TypeId} (h : id ∈ s.typeParameters) : Stores s .part (.type id)

/-- The handles in a graph. -/
inductive TypeGraph.Stores (g : TypeGraph) : Role → Handle → Prop
  | globalArray : Stores g .part (.type g.globalArray)
  | globalReadonlyArray : Stores g .part (.type g.globalReadonlyArray)
  | type {record : TypeRecord} {role : Role} {handle : Handle} (hrecord : record ∈ g.types)
    (h : record.Stores role handle) : Stores g role handle
  | symbol {record : SymbolRecord} {role : Role} {handle : Handle} (hrecord : record ∈ g.symbols)
    (h : record.Stores role handle) : Stores g role handle

/-! ## What loading checks -/

theorem Signature.mem_handles {s : Signature} {handle : Handle} :
    handle ∈ s.handles ↔ s.Stores .part handle := by
  constructor
  · simp only [handles, List.mem_append, List.mem_map, List.mem_singleton]
    rintro ((⟨id, hid, rfl⟩ | ⟨id, hid, rfl⟩) | rfl)
    exacts [.parameter hid, .typeParameter hid, .returnType]
  · intro h
    cases h <;> simp [handles, *]

theorem ObjectType.mem_handles {o : ObjectType} {handle : Handle} :
    handle ∈ o.handles ↔ o.Stores .part handle := by
  constructor
  · simp only [handles, List.mem_append, List.mem_map, List.mem_flatMap, Option.mem_toList,
      List.mem_cons, List.not_mem_nil, or_false, Signature.mem_handles]
    rintro ((⟨id, hid, rfl⟩ | ⟨s, hs | hs, h⟩) |
      ⟨id, ((((⟨i, hi, rfl | rfl⟩ | hid) | hid) | hid) | hid) | hid, rfl⟩)
    exacts [.property hid, .callSignature hs h, .constructSignature hs h, .indexInfo hi .keyType,
      .indexInfo hi .valueType, .target hid, .typeArgument hid, .typeParameter hid, .baseType hid,
      .implementsType hid]
  · intro h
    cases h with
    | callSignature hs h =>
      rw [← Signature.mem_handles] at h
      exact List.mem_append_left _ (List.mem_append_right _
        (List.mem_flatMap.2 ⟨_, List.mem_append_left _ hs, h⟩))
    | constructSignature hs h =>
      rw [← Signature.mem_handles] at h
      exact List.mem_append_left _ (List.mem_append_right _
        (List.mem_flatMap.2 ⟨_, List.mem_append_right _ hs, h⟩))
    | @indexInfo i _ _ hi h =>
      have hinfo : ∀ type ∈ [i.keyType, i.valueType], .type type ∈ o.handles := by
        intro type htype
        simp only [handles, List.mem_append, List.mem_map, List.mem_flatMap, or_assoc]
        exact Or.inr (Or.inr ⟨type, Or.inl ⟨i, hi, htype⟩, rfl⟩)
      cases h with
      | keyType => exact hinfo _ (by simp)
      | valueType => exact hinfo _ (by simp)
    | _ => simp [handles, *]

theorem TypeData.mem_handles {data : TypeData} {handle : Handle} :
    handle ∈ data.handles ↔ data.Stores .part handle := by
  constructor
  · cases data with
    | object o => exact fun h => .object (ObjectType.mem_handles.1 h)
    | intrinsic | literal => exact fun h => absurd h List.not_mem_nil
    | union types | intersection types | templateLiteral texts types =>
      intro h
      obtain ⟨id, hid, rfl⟩ := List.mem_map.1 h
      constructor
      exact hid
    | index target | stringMapping target =>
      intro h
      rw [List.mem_singleton.1 h]
      constructor
    | indexedAccess objectType indexType =>
      simp only [handles, List.mem_cons, List.not_mem_nil, or_false]
      rintro (rfl | rfl)
      exacts [.indexedObject, .indexType]
    | substitution baseType constraint =>
      simp only [handles, List.mem_cons, List.not_mem_nil, or_false]
      rintro (rfl | rfl)
      exacts [.baseType, .substitute]
    | typeParameter constraint default =>
      simp only [handles, List.mem_map, List.mem_append, Option.mem_toList]
      rintro ⟨id, rfl | rfl, rfl⟩
      exacts [.constraint, .default]
    | conditional checkType extendsType trueType falseType =>
      simp only [handles, List.mem_map, List.mem_append, Option.mem_toList, List.mem_cons,
        List.not_mem_nil, or_false]
      rintro ⟨id, ((rfl | rfl) | rfl) | rfl, rfl⟩
      exacts [.checkType, .extendsType, .trueType, .falseType]
  · intro h
    cases h with
    | object h => exact ObjectType.mem_handles.2 h
    | _ => simp [handles, *]

theorem TypeRecord.mem_handles {t : TypeRecord} {handle : Handle} :
    handle ∈ t.handles ↔ t.Stores .part handle := by
  constructor
  · simp only [handles, List.mem_append, List.mem_map, Option.mem_toList, TypeData.mem_handles]
    rintro ((⟨id, hid | hid, rfl⟩ | ⟨id, hid, rfl⟩) | h)
    exacts [.symbol hid, .aliasSymbol hid, .aliasTypeArgument hid, .data h]
  · intro h
    cases h with
    | data h => exact List.mem_append_right _ (TypeData.mem_handles.2 h)
    | _ => simp [handles, *]

theorem SymbolRecord.mem_handles {s : SymbolRecord} {handle : Handle} :
    handle ∈ s.handles ↔ s.Stores .part handle := by
  constructor
  · simp only [handles, List.mem_append, List.mem_map, Option.mem_toList, List.mem_filterMap]
    rintro (⟨id, ((hid | hid) | hid) | ⟨declaration, hdeclaration, hid⟩, rfl⟩ | ⟨id, hid, rfl⟩)
    exacts [.valueType hid, .declaredType hid, .typeParameter hid,
      .typeAtDeclaration hdeclaration hid, .parent hid]
  · intro h
    cases h with
    | typeAtDeclaration hdeclaration hid =>
      exact List.mem_append_left _ (List.mem_map_of_mem
        (List.mem_append_right _ (List.mem_filterMap.2 ⟨_, hdeclaration, hid⟩)))
    | _ => simp [handles, *]

namespace TypeGraph

variable {g : TypeGraph}

/-- The handles that loading goes through are the parts of the records. -/
theorem exists_mem_mentions {handle : Handle} :
    (∃ owner, (owner, handle) ∈ g.mentions) ↔ g.Stores .part handle := by
  constructor
  · rintro ⟨owner, h⟩
    simp only [mentions, List.mem_append, List.mem_cons, List.not_mem_nil, or_false,
      List.mem_flatMap, List.mem_map, Prod.mk.injEq] at h
    rcases h with ((⟨-, rfl⟩ | ⟨-, rfl⟩) | ⟨⟨record, n⟩, hrecord, _, h, -, rfl⟩) |
      ⟨⟨record, n⟩, hrecord, _, h, -, rfl⟩
    · exact .globalArray
    · exact .globalReadonlyArray
    · exact .type (Array.mem_toList_iff.1 (List.fst_mem_of_mem_zipIdx hrecord))
        (TypeRecord.mem_handles.1 h)
    · exact .symbol (Array.mem_toList_iff.1 (List.fst_mem_of_mem_zipIdx hrecord))
        (SymbolRecord.mem_handles.1 h)
  · intro h
    cases h with
    | globalArray => exact ⟨.globalArray, by simp [mentions]⟩
    | globalReadonlyArray => exact ⟨.globalReadonlyArray, by simp [mentions]⟩
    | type hrecord h =>
      obtain ⟨n, hn⟩ := Array.mem_iff_getElem?.1 hrecord
      refine ⟨.type n, List.mem_append_left _ (List.mem_append_right _ (List.mem_flatMap.2 ?_))⟩
      exact ⟨(_, n), List.mem_zipIdx_iff_getElem?.2 (Array.getElem?_toList.trans hn),
        List.mem_map_of_mem (TypeRecord.mem_handles.2 h)⟩
    | @symbol record _ _ hrecord h =>
      obtain ⟨n, hn⟩ := Array.mem_iff_getElem?.1 hrecord
      refine ⟨.symbol n record.name, List.mem_append_right _ (List.mem_flatMap.2 ?_)⟩
      exact ⟨(record, n), List.mem_zipIdx_iff_getElem?.2 (Array.getElem?_toList.trans hn),
        List.mem_map_of_mem (SymbolRecord.mem_handles.2 h)⟩

theorem inBounds_iff_stores :
    g.InBounds ↔ TypeId.intrinsicCount ≤ g.types.size ∧
      ∀ handle, g.Stores .part handle → g.Holds handle := by
  constructor
  · intro hg
    refine ⟨hg.intrinsics, fun handle hhandle => ?_⟩
    obtain ⟨owner, howner⟩ := exists_mem_mentions.2 hhandle
    exact hg.mentions _ howner
  · rintro ⟨hsize, hholds⟩
    exact ⟨hsize, fun mention hmention => hholds _ (exists_mem_mentions.1 ⟨_, hmention⟩)⟩

/-- A text is loaded just if it describes a graph that has its intrinsic types and whose records
have parts that are all there. Whether the symbols that are only noted are there does not matter. -/
theorem loadText_eq_ok_iff (text : String) (g : TypeGraph) :
    loadText text = .ok g ↔
      (Json.ofText? text).bind ofJson? = some g ∧ TypeId.intrinsicCount ≤ g.types.size ∧
        ∀ handle, g.Stores .part handle → g.Holds handle := by
  rw [← inBounds_iff_stores, inBounds_iff_validate, loadText]
  cases Json.ofText? text with
  | none => simp
  | some json =>
    simp only [load, Option.bind_some]
    cases hjson : ofJson? json with
    | none => simp
    | some k =>
      dsimp only
      cases hvalid : k.validate with
      | error error =>
        simp only [Except.map, Option.some.injEq, reduceCtorEq, false_iff]
        rintro ⟨rfl, h⟩
        rw [hvalid] at h
        cases h
      | ok =>
        simp only [Except.map, Except.ok.injEq, Option.some.injEq]
        constructor
        · rintro rfl
          exact ⟨rfl, hvalid⟩
        · exact fun h => h.1

/-- A graph with a signature whose symbol is not there. -/
def danglingNote : TypeGraph :=
  (Build.addType
    { flags := TypeFlags.object
      data := .object { callSignatures :=
        [{ symbol := some ⟨999⟩, parameters := [], returnType := .any }] } } initial).2

/-- A handle that is only noted may dangle in a graph that is accepted. -/
theorem danglingNote_accepted :
    danglingNote.validate = .ok () ∧ danglingNote.Stores .note (.symbol ⟨999⟩) ∧
      ¬danglingNote.Holds (.symbol ⟨999⟩) := by
  refine ⟨by decide +kernel, ?_, by unfold Holds HasSymbol; decide +kernel⟩
  exact .type (Array.mem_push_self) (.data (.object (.callSignature List.mem_cons_self
    (.symbol rfl))))

end TypeGraph

/-! ## Graphs without dangling handles -/

/-- The symbols that an object type only notes. -/
def ObjectType.notes (o : ObjectType) : List SymbolId :=
  (o.callSignatures ++ o.constructSignatures).filterMap (·.symbol) ++
    o.indexInfos.filterMap (·.parameter)

theorem ObjectType.mem_notes {o : ObjectType} {handle : Handle} :
    o.Stores .note handle ↔ ∃ id ∈ o.notes, handle = .symbol id := by
  simp only [notes, List.mem_append, List.mem_filterMap]
  constructor
  · intro h
    cases h with
    | @callSignature s _ _ hs h =>
      cases h with | symbol h => exact ⟨_, Or.inl ⟨s, Or.inl hs, h⟩, rfl⟩
    | @constructSignature s _ _ hs h =>
      cases h with | symbol h => exact ⟨_, Or.inl ⟨s, Or.inr hs, h⟩, rfl⟩
    | @indexInfo i _ _ hi h => cases h with | parameter h => exact ⟨_, Or.inr ⟨i, hi, h⟩, rfl⟩
  · rintro ⟨id, ⟨s, hs | hs, h⟩ | ⟨i, hi, h⟩, rfl⟩
    exacts [.callSignature hs (.symbol h), .constructSignature hs (.symbol h),
      .indexInfo hi (.parameter h)]

namespace TypeGraph

variable {g : TypeGraph}

/-- The symbols that a graph only notes. -/
def notes (g : TypeGraph) : List SymbolId :=
  g.types.toList.flatMap fun record => ((record.object?).map (·.notes)).getD []

theorem mem_notes {handle : Handle} :
    g.Stores .note handle ↔ ∃ id ∈ g.notes, handle = .symbol id := by
  simp only [notes, List.mem_flatMap, Array.mem_toList_iff]
  constructor
  · intro h
    cases h with
    | @type record _ _ hrecord h =>
      cases h with | data h =>
      generalize hdata : record.data = data at h
      cases h with | object h =>
      obtain ⟨id, hid, rfl⟩ := ObjectType.mem_notes.1 h
      exact ⟨id, ⟨record, hrecord, by rw [TypeRecord.object?, hdata]; exact hid⟩, rfl⟩
    | symbol _ h => cases h
  · rintro ⟨id, ⟨record, hrecord, hid⟩, rfl⟩
    refine .type hrecord (.data ?_)
    unfold TypeRecord.object? at hid
    split at hid
    next o hdata => exact hdata ▸ .object (ObjectType.mem_notes.2 ⟨id, hid, rfl⟩)
    next => exact absurd hid List.not_mem_nil

/-- The intrinsic types are there, and every handle that is stored anywhere leads to a record. -/
structure Closed (g : TypeGraph) : Prop where
  intrinsics : TypeId.intrinsicCount ≤ g.types.size
  holds : ∀ {role : Role} {handle : Handle}, g.Stores role handle → g.Holds handle

theorem closed_iff :
    g.Closed ↔ g.validate = .ok () ∧ ∀ id ∈ g.notes, id.index < g.symbols.size := by
  rw [← inBounds_iff_validate, inBounds_iff_stores]
  constructor
  · intro hg
    exact ⟨⟨hg.intrinsics, fun _ => hg.holds⟩,
      fun id hid => hg.holds (mem_notes.2 ⟨id, hid, rfl⟩)⟩
  · rintro ⟨⟨hsize, hparts⟩, hnotes⟩
    refine ⟨hsize, fun {role handle} h => ?_⟩
    cases role with
    | part => exact hparts handle h
    | note =>
      obtain ⟨id, hid, rfl⟩ := mem_notes.1 h
      exact hnotes id hid

instance : Decidable g.Closed :=
  decidable_of_iff _ closed_iff.symm

namespace Closed

variable (hg : g.Closed)

include hg

theorem inBounds : g.InBounds :=
  inBounds_iff_stores.2 ⟨hg.intrinsics, fun _ => hg.holds⟩

theorem type {id : TypeId} {record : TypeRecord} (h : g.type? id = some record) {role : Role}
    {handle : Handle} (hhandle : record.Stores role handle) : g.Holds handle :=
  hg.holds (.type (Array.mem_of_getElem? h) hhandle)

theorem symbol {id : SymbolId} {record : SymbolRecord} (h : g.symbol? id = some record)
    {role : Role}
    {handle : Handle} (hhandle : record.Stores role handle) : g.Holds handle :=
  hg.holds (.symbol (Array.mem_of_getElem? h) hhandle)

end Closed

end TypeGraph

end TypeAtlas
