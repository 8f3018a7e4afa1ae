import Mathlib.Data.List.Basic
import TypeAtlas.Proofs.Graph.Properties
import TypeAtlas.Proofs.Graph.Stored
import TypeAtlas.Proofs.Walk.Plan
/-!
# A walk stays in its graph

In a closed graph, the answers to questions about one of its types or symbols lead to types and
symbols of the graph again. So do the occurrences in the plan of a type
(`TypeGraph.Closed.hasPlace_of_mem_plan`), and a walk that starts in the graph never leaves it.
-/

namespace TypeAtlas

open Handle (Role)

namespace TypeGraph

variable {g : TypeGraph}

/-- The type and the symbol of an occurrence are a type and a symbol of the graph. -/
structure HasPlace (g : TypeGraph) (place : Occurrence) : Prop where
  type : g.HasType place.type
  symbol : ∀ {symbol}, place.symbol = some symbol → g.HasSymbol symbol

theorem HasType.place {type : TypeId} (h : g.HasType type) : g.HasPlace (.ofType type) :=
  ⟨h, fun h => by cases h⟩

theorem hasPlace_types {types : List TypeId} (h : ∀ type ∈ types, g.HasType type) :
    ∀ place ∈ types.map .ofType, g.HasPlace place :=
  List.forall_mem_map.2 fun type htype => (h type htype).place

theorem hasPlace_type? {type : Option TypeId} (h : ∀ id, type = some id → g.HasType id) :
    ∀ place ∈ (type.map .ofType).toList, g.HasPlace place := by
  cases type with
  | none => exact List.forall_mem_nil _
  | some id => exact List.forall_mem_singleton.2 (h id rfl).place

theorem listed_getD (types : List TypeId) : (listed types).getD [] = types.map .ofType := by
  unfold listed
  split
  · next h => rw [List.isEmpty_iff.1 h]; rfl
  · rfl

theorem propertiesOfAll_hasSymbol (objects : List TypeId) :
    ∀ property ∈ g.propertiesOfAll objects, g.HasSymbol property := by
  unfold propertiesOfAll
  suffices h : ∀ (candidates found : List SymbolId), (∀ c ∈ found, g.HasSymbol c) →
      ∀ c ∈ candidates.foldl (fun found property =>
        if (g.symbol? property).isSome then g.pushUnique found property else found) found,
        g.HasSymbol c from h _ [] (List.forall_mem_nil _)
  intro candidates
  induction candidates with
  | nil => exact fun _ h => h
  | cons candidate candidates ih =>
    intro found hfound
    refine ih _ ?_
    dsimp only
    split
    · next hsome =>
      obtain ⟨record, hrecord⟩ := Option.isSome_iff_exists.1 hsome
      exact forall_mem_pushUnique hfound (hasSymbol_of_symbol? hrecord)
    · exact hfound

/-! ## Answers of a closed graph -/

namespace Closed

variable (hg : g.Closed) {id : TypeId} {role : Role} {handle : Handle}

include hg

theorem data {data : TypeData} (h : g.data? id = some data) (hhandle : data.Stores role handle) :
    g.Holds handle := by
  obtain ⟨record, hrecord, rfl⟩ := Option.map_eq_some_iff.1 h
  exact hg.type hrecord (.data hhandle)

theorem typeInData {record : TypeRecord} (h : g.type? id = some record) {data : TypeData}
    (hdata : record.data = data) {type : TypeId} (htype : data.Stores role (.type type)) :
    g.HasType type := by
  have hholds : g.Holds (.type type) := hg.type h (.data (hdata ▸ htype))
  exact hholds

theorem object {object : ObjectType} (h : g.object? id = some object)
    (hhandle : object.Stores role handle) : g.Holds handle :=
  hg.data (data?_of_object? h) (.object hhandle)

theorem resolvedObject {object : ObjectType} (h : g.resolvedObject? id = some object)
    (hhandle : object.Stores role handle) : g.Holds handle := by
  rcases resolvedObject?_cases h with hown | ⟨_, _, _, _, htarget⟩
  · exact hg.object hown hhandle
  · exact hg.object htarget hhandle

theorem callSignatures {s : Signature} (hs : s ∈ g.callSignatures id)
    (hhandle : s.Stores role handle) : g.Holds handle := by
  obtain ⟨object, hobject, hmem⟩ := mem_resolved hs
  exact hg.resolvedObject hobject (.callSignature hmem hhandle)

theorem constructSignatures {s : Signature} (hs : s ∈ g.constructSignatures id)
    (hhandle : s.Stores role handle) : g.Holds handle := by
  obtain ⟨object, hobject, hmem⟩ := mem_resolved hs
  exact hg.resolvedObject hobject (.constructSignature hmem hhandle)

theorem indexInfos {i : IndexInfo} (hi : i ∈ g.indexInfos id) (hhandle : i.Stores role handle) :
    g.Holds handle := by
  obtain ⟨object, hobject, hmem⟩ := mem_resolved hi
  exact hg.resolvedObject hobject (.indexInfo hmem hhandle)

theorem baseTypes {base : TypeId} (h : base ∈ g.baseTypes id) : g.HasType base := by
  obtain ⟨object, hobject, hmem⟩ := mem_resolved h
  exact hg.resolvedObject hobject (.baseType hmem)

theorem implementsTypes {type : TypeId} (h : type ∈ g.implementsTypes id) : g.HasType type := by
  obtain ⟨object, hobject, hmem⟩ := mem_resolved h
  exact hg.resolvedObject hobject (.implementsType hmem)

theorem typeArguments {argument : TypeId} (h : argument ∈ g.typeArguments id) :
    g.HasType argument := by
  unfold TypeGraph.typeArguments at h
  cases hobject : g.object? id with
  | none => rw [hobject] at h; exact absurd h List.not_mem_nil
  | some object => rw [hobject] at h; exact hg.object hobject (.typeArgument h)

theorem baseConstraint {constraint : TypeId} (h : g.baseConstraint? id = some constraint) :
    g.HasType constraint := by
  unfold baseConstraint? at h
  split at h
  next default hdata => exact hg.data (h ▸ hdata) .constraint
  next => cases h

theorem defaultType {default : TypeId} (h : g.defaultType? id = some default) :
    g.HasType default := by
  unfold defaultType? at h
  split at h
  next constraint _ hdata => exact hg.data (h ▸ hdata) .default
  next => cases h

theorem elementOf : g.HasType (g.elementOf id) := by
  unfold TypeGraph.elementOf
  cases h : (g.typeArguments id).head? with
  | none => exact hg.inBounds.intrinsic (by decide)
  | some element => exact hg.typeArguments (List.mem_of_head? h)

theorem functionSignatures {record : TypeRecord} {s : Signature}
    (hs : s ∈ g.functionSignatures id record) (hhandle : s.Stores role handle) :
    g.Holds handle := by
  rcases List.mem_append.1 hs with hs | hs
  · exact hg.callSignatures hs hhandle
  · split at hs
    · exact absurd hs List.not_mem_nil
    · exact hg.constructSignatures hs hhandle

theorem constructorsOf {symbol : Option SymbolId} {isClass : Bool} {s : Signature}
    (hs : s ∈ g.constructorsOf symbol isClass) (hhandle : s.Stores role handle) :
    g.Holds handle := by
  unfold TypeGraph.constructorsOf at hs
  split at hs
  · split at hs
    · exact hg.constructSignatures hs hhandle
    · exact absurd hs List.not_mem_nil
  · exact absurd hs List.not_mem_nil

theorem flattenedOnce {types : List TypeId} (h : ∀ type ∈ types, g.HasType type) :
    ∀ type ∈ g.flattenedOnce types, g.HasType type := by
  intro type htype
  obtain ⟨member, hmember, hmem⟩ := List.mem_flatMap.1 htype
  split at hmem
  next nested hdata => exact hg.data hdata (.intersection hmem)
  next => exact List.mem_singleton.1 hmem ▸ h member hmember

theorem generics (hid : g.HasType id) (kind : NodeKind) :
    (∀ type ∈ (g.generics id kind).1, g.HasType type) ∧
      ∀ type ∈ (g.generics id kind).2, g.HasType type := by
  obtain ⟨record, hrecord⟩ := hid.type?
  unfold TypeGraph.generics
  rw [hrecord]
  dsimp only
  split
  next aliasSymbol halias =>
    refine ⟨fun type htype => hg.type hrecord (.aliasTypeArgument htype), ?_⟩
    cases hsymbol : g.symbol? aliasSymbol with
    | none => exact List.forall_mem_nil _
    | some symbol => exact fun type htype => hg.symbol hsymbol (.typeParameter htype)
  split
  · exact ⟨List.forall_mem_nil _, List.forall_mem_nil _⟩
  split
  · exact ⟨List.forall_mem_nil _, List.forall_mem_nil _⟩
  next object hobject =>
    have hown : g.object? id = some object := by rw [object?, hrecord]; exact hobject
    split
    next target htarget =>
      refine ⟨fun type htype => hg.object hown (.typeArgument htype), ?_⟩
      cases hgeneric : g.object? target with
      | none => exact List.forall_mem_nil _
      | some generic => exact fun type htype => hg.object hgeneric (.typeParameter htype)
    next =>
      exact ⟨List.forall_mem_nil _, fun type htype => hg.object hown (.typeParameter htype)⟩

/-! ## Occurrences in plans -/

theorem member {symbol : SymbolId} (hsymbol : g.HasSymbol symbol) (inside : Bool) :
    g.HasPlace (g.member inside symbol) :=
  ⟨hg.inBounds.typeOf symbol, fun h => Option.some.inj h ▸ hsymbol⟩

theorem members {symbols : List SymbolId} (h : ∀ symbol ∈ symbols, g.HasSymbol symbol)
    (inside : Bool) : ∀ place ∈ symbols.map (g.member inside), g.HasPlace place :=
  List.forall_mem_map.2 fun symbol hsymbol => hg.member (h symbol hsymbol) inside

theorem parameterOf {parameter : SymbolId} (hparameter : g.HasSymbol parameter) :
    g.HasPlace (g.parameterOf parameter) :=
  ⟨hg.inBounds.typeOf parameter, fun h => Option.some.inj h ▸ hparameter⟩

theorem planSignature {s : Signature}
    (hs : ∀ {role : Role} {handle : Handle}, s.Stores role handle → g.Holds handle) :
    ∀ place ∈ (g.planSignature s).children, g.HasPlace place := by
  unfold SignatureLayer.children TypeGraph.planSignature
  simp only [List.forall_mem_append, listed_getD]
  refine ⟨⟨List.forall_mem_map.2 fun p hp => hg.parameterOf (hs (.parameter hp)), ?_⟩, ?_⟩
  · exact List.forall_mem_singleton.2 (HasType.place (hs .returnType))
  · exact hasPlace_types fun type htype => hs (.typeParameter htype)

theorem planSignatures {ss : List Signature}
    (hss : ∀ s ∈ ss, ∀ {role : Role} {handle : Handle}, s.Stores role handle → g.Holds handle) :
    ∀ place ∈ (ss.map g.planSignature).flatMap SignatureLayer.children, g.HasPlace place := by
  intro place hplace
  obtain ⟨_, hlayer, hmem⟩ := List.mem_flatMap.1 hplace
  obtain ⟨s, hs, rfl⟩ := List.mem_map.1 hlayer
  exact hg.planSignature (hss s hs) place hmem

omit hg in
theorem planIndexInfos {infos : List IndexInfo}
    (hinfos : ∀ i ∈ infos, ∀ {role : Role} {handle : Handle}, i.Stores role handle →
      g.Holds handle) :
    ∀ place ∈ (infos.map g.planIndexInfo).flatMap IndexLayer.children, g.HasPlace place := by
  intro place hplace
  obtain ⟨_, hlayer, hmem⟩ := List.mem_flatMap.1 hplace
  obtain ⟨i, hi, rfl⟩ := List.mem_map.1 hlayer
  rcases List.mem_append.1 hmem with h | h
  · rw [List.mem_singleton.1 h]
    exact HasType.place (hinfos i hi .keyType)
  · rw [List.mem_singleton.1 h]
    exact HasType.place (hinfos i hi .valueType)

theorem planClassLike (symbol : Option SymbolId) (isClass : Bool) :
    ∀ place ∈ (g.planClassLike id symbol isClass).children, g.HasPlace place := by
  unfold ClassLayer.children TypeGraph.planClassLike
  simp only [List.forall_mem_append]
  refine ⟨⟨⟨⟨?_, ?_⟩, ?_⟩, ?_⟩, ?_⟩
  · exact hg.members (fun _ => hg.inBounds.properties) true
  · exact planIndexInfos fun _ hi _ _ => hg.indexInfos hi
  · exact hasPlace_type? fun _ hbase => hg.baseTypes (List.mem_of_head? hbase)
  · exact hasPlace_types fun _ => hg.implementsTypes
  · exact hg.planSignatures fun _ hs _ _ => hg.constructorsOf hs

theorem planObject (record : TypeRecord) :
    ∀ place ∈ (g.planObject id record).children, g.HasPlace place := by
  unfold TypeGraph.planObject
  dsimp only
  split
  · exact hg.planSignatures fun _ hs _ _ => hg.functionSignatures hs
  split
  · exact List.forall_mem_singleton.2 hg.elementOf.place
  split
  · exact hasPlace_types fun _ => hg.typeArguments
  split
  · exact hg.planClassLike record.symbol true
  split
  · exact hg.planClassLike record.symbol false
  · simp only [Shape.children, List.forall_mem_append]
    refine ⟨⟨hg.members (fun _ => hg.inBounds.properties) false,
      planIndexInfos fun _ hi _ _ => hg.indexInfos hi⟩, hasPlace_type? fun type htype => ?_⟩
    split at htype
    · obtain ⟨symbol, -, rfl⟩ := Option.map_eq_some_iff.1 htype
      exact hg.inBounds.declaredTypeOf symbol
    · cases htype

theorem planIntersection {types : List TypeId} (h : ∀ type ∈ types, g.HasType type) :
    ∀ place ∈ (g.planIntersection types).children, g.HasPlace place := by
  have hflat := hg.flattenedOnce h
  have hproperties := fun objects => hg.members (propertiesOfAll_hasSymbol objects) false
  have hinfos : ∀ objects : List TypeId,
      ∀ place ∈ ((objects.flatMap g.indexInfos).map g.planIndexInfo).flatMap IndexLayer.children,
        g.HasPlace place := by
    intro objects
    refine planIndexInfos fun i hi _ _ => ?_
    obtain ⟨_, -, hmem⟩ := List.mem_flatMap.1 hi
    exact hg.indexInfos hmem
  unfold TypeGraph.planIntersection
  rw [List.partition_eq_filter_filter]
  dsimp only
  split
  · simp only [Shape.children, List.forall_mem_append]
    exact ⟨⟨hproperties _, hinfos _⟩, fun _ h => by cases h⟩
  · simp only [Shape.children, List.forall_mem_append]
    exact ⟨⟨hasPlace_types fun type htype => hflat type (List.mem_filter.1 htype).1,
      hproperties _⟩, hinfos _⟩

theorem planOperator {record : TypeRecord} (h : g.type? id = some record) :
    ∀ place ∈ (g.planOperator record).children, g.HasPlace place := by
  have hdata : ∀ {data : TypeData}, record.data = data → ∀ {type : TypeId},
      data.Stores .part (.type type) → g.HasType type := hg.typeInData h
  have hotherwise : ∀ place ∈ (if record.flags.has TypeFlags.nonPrimitive then .nonPrimitive
      else .primitive .unknown : Shape Occurrence).children, g.HasPlace place := by
    split <;> exact List.forall_mem_nil _
  unfold TypeGraph.planOperator
  cases heq : record.data with
  | union members =>
    dsimp only
    split
    · exact hasPlace_types fun _ hmem => hdata heq (.union hmem)
    · exact hotherwise
  | intersection members =>
    dsimp only
    split
    · exact hg.planIntersection fun _ hmem => hdata heq (.intersection hmem)
    · exact hotherwise
  | index target => exact List.forall_mem_singleton.2 (HasType.place (hdata heq .index))
  | indexedAccess objectType indexType =>
    exact List.forall_mem_cons.2 ⟨HasType.place (hdata heq .indexedObject),
      List.forall_mem_singleton.2 (HasType.place (hdata heq .indexType))⟩
  | conditional checkType extendsType trueType falseType =>
    simp only [Shape.children, List.forall_mem_append]
    refine ⟨⟨List.forall_mem_cons.2 ⟨HasType.place (hdata heq .checkType),
      List.forall_mem_singleton.2 (HasType.place (hdata heq .extendsType))⟩, ?_⟩, ?_⟩
    · refine hasPlace_type? fun type htype => ?_
      subst htype
      exact hdata heq .trueType
    · refine hasPlace_type? fun type htype => ?_
      subst htype
      exact hdata heq .falseType
  | substitution baseType constraint =>
    exact List.forall_mem_cons.2 ⟨HasType.place (hdata heq .baseType),
      List.forall_mem_singleton.2 (HasType.place (hdata heq .substitute))⟩
  | templateLiteral texts types =>
    exact hasPlace_types fun _ hmem => hdata heq (.templateLiteral hmem)
  | stringMapping target =>
    exact List.forall_mem_singleton.2 (HasType.place (hdata heq .stringMapping))
  | intrinsic | literal | object | typeParameter => exact hotherwise

theorem planEnum {record : TypeRecord} (h : g.type? id = some record) :
    ∀ place ∈ (g.planEnum record).children, g.HasPlace place := by
  unfold TypeGraph.planEnum
  dsimp only
  split
  · split
    next members hdata =>
      exact hasPlace_types fun _ hmem => hg.typeInData h hdata (.union hmem)
    next => exact List.forall_mem_nil _
  · split <;> exact List.forall_mem_nil _

theorem planShape : ∀ place ∈ (g.planShape id).children, g.HasPlace place := by
  unfold TypeGraph.planShape
  cases hrecord : g.type? id with
  | none => exact List.forall_mem_nil _
  | some record =>
    dsimp only
    split
    · simp only [Shape.children, List.forall_mem_append]
      exact ⟨hasPlace_type? fun _ => hg.baseConstraint, hasPlace_type? fun _ => hg.defaultType⟩
    split
    · split <;> exact List.forall_mem_nil _
    split
    · exact List.forall_mem_nil _
    split
    · exact hg.planEnum hrecord
    split
    · exact List.forall_mem_nil _
    split
    · split
      · next value _ => cases value <;> exact List.forall_mem_nil _
      · exact List.forall_mem_nil _
    split
    · exact hg.planObject record
    · exact hg.planOperator hrecord

/-- All occurrences in the plan of a type are types and symbols of the graph. -/
theorem hasPlace_of_mem_plan (hid : g.HasType id) (symbolMeta : Option SymbolMeta) :
    ∀ place ∈ (g.plan id symbolMeta).children, g.HasPlace place := by
  obtain ⟨harguments, hparameters⟩ := hg.generics hid (g.planShape id).kind
  unfold Layer.children plan
  simp only [List.forall_mem_append, listed_getD]
  exact ⟨⟨hg.planShape, hasPlace_types harguments⟩, hasPlace_types hparameters⟩

end Closed

end TypeGraph

end TypeAtlas
