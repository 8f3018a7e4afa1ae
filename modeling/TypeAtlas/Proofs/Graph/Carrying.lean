import TypeAtlas.Proofs.Graph.Levels
import TypeAtlas.Proofs.Graph.Search
import TypeAtlas.Proofs.Walk.Held
/-!
# One graph inside another

A renaming carries a graph to another one if the records at the new handles are the renamed records
(`Renaming.Carries`). Every question to the other graph about a new handle then has the renamed
answer, the search for properties included, and what printing reads is the same. So a type has the
same text under its new handle (`Renaming.Carries.typeText?_eq_some`).
-/

namespace TypeAtlas

open Handle (Role)
open TypeGraph

/-- The first graph is closed, and its records are found in the second one under their new handles,
renamed. -/
structure Renaming.Carries (ρ : Renaming) (g h : TypeGraph) : Prop where
  closed : g.Closed
  type? : ∀ {id}, g.HasType id → h.type? (ρ.type id) = (g.type? id).map (·.rename ρ)
  symbol? : ∀ {id}, g.HasSymbol id → h.symbol? (ρ.symbol id) = (g.symbol? id).map (·.rename ρ)
  injective : ∀ {a b}, g.HasType a → g.HasType b → ρ.type a = ρ.type b → a = b
  intrinsic : ∀ {id : TypeId}, id.index < TypeId.intrinsicCount → ρ.type id = id
  globalArray : h.globalArray = ρ.type g.globalArray
  globalReadonlyArray : h.globalReadonlyArray = ρ.type g.globalReadonlyArray
  types_size : g.types.size ≤ h.types.size

section Records

variable (ρ : Renaming)

theorem TypeRecord.object?_rename (t : TypeRecord) :
    (t.rename ρ).object? = t.object?.map (ObjectType.rename ρ) := by
  unfold object?
  rw [rename]
  cases t.data <;> rfl

theorem SymbolRecord.primaryDeclaration?_rename (s : SymbolRecord) :
    (s.rename ρ).primaryDeclaration? = s.primaryDeclaration?.map (Declaration.rename ρ) := by
  unfold primaryDeclaration?
  rw [rename, List.head?_map, Option.map_or]
  dsimp only
  cases s.valueDeclaration with
  | none => rfl
  | some n => rw [Option.bind_some, Option.bind_some, List.getElem?_map]

end Records

namespace Renaming.Carries

variable {ρ : Renaming} {g h : TypeGraph} (hc : ρ.Carries g h) {id : TypeId}

include hc

/-! ## Answers about types -/

theorem type?_eq_some (hid : g.HasType id) :
    ∃ record, g.type? id = some record ∧ h.type? (ρ.type id) = some (record.rename ρ) := by
  obtain ⟨record, hrecord⟩ := hid.type?
  exact ⟨record, hrecord, by rw [hc.type? hid, hrecord]; rfl⟩

theorem data?_eq (hid : g.HasType id) :
    h.data? (ρ.type id) = (g.data? id).map (TypeData.rename ρ) := by
  obtain ⟨record, hrecord, hrenamed⟩ := hc.type?_eq_some hid
  rw [data?, data?, hrecord, hrenamed]
  rfl

theorem objectFlags_eq (hid : g.HasType id) : h.objectFlags (ρ.type id) = g.objectFlags id := by
  obtain ⟨record, hrecord, hrenamed⟩ := hc.type?_eq_some hid
  rw [objectFlags, objectFlags, hrecord, hrenamed]
  rfl

theorem object?_eq (hid : g.HasType id) :
    h.object? (ρ.type id) = (g.object? id).map (ObjectType.rename ρ) := by
  obtain ⟨record, hrecord, hrenamed⟩ := hc.type?_eq_some hid
  rw [object?, object?, hrecord, hrenamed]
  exact record.object?_rename ρ

theorem type_inj {a b : TypeId} (ha : g.HasType a) (hb : g.HasType b) :
    ρ.type a = ρ.type b ↔ a = b :=
  ⟨hc.injective ha hb, congrArg ρ.type⟩

theorem resolvedObject?_eq (hid : g.HasType id) :
    h.resolvedObject? (ρ.type id) = (g.resolvedObject? id).map (ObjectType.rename ρ) := by
  unfold resolvedObject?
  rw [hc.object?_eq hid]
  cases hobject : g.object? id with
  | none => rfl
  | some object =>
    have hrenamed : (object.rename ρ).target = object.target.map ρ.type := rfl
    cases htarget : object.target with
    | none =>
      rw [htarget, Option.map_none] at hrenamed
      simp only [Option.map_some, hrenamed, htarget]
    | some target =>
      have hhas : g.HasType target := hc.closed.object hobject (.target htarget)
      rw [htarget, Option.map_some] at hrenamed
      simp only [Option.map_some, hrenamed, htarget, hc.type_inj hhas hid, hc.object?_eq hhas,
        Option.getD_map]
      split <;> rfl

theorem callSignatures_eq (hid : g.HasType id) :
    h.callSignatures (ρ.type id) = (g.callSignatures id).map (Signature.rename ρ) := by
  rw [callSignatures, callSignatures, hc.resolvedObject?_eq hid]
  cases g.resolvedObject? id <;> rfl

theorem constructSignatures_eq (hid : g.HasType id) :
    h.constructSignatures (ρ.type id) = (g.constructSignatures id).map (Signature.rename ρ) := by
  rw [constructSignatures, constructSignatures, hc.resolvedObject?_eq hid]
  cases g.resolvedObject? id <;> rfl

theorem indexInfos_eq (hid : g.HasType id) :
    h.indexInfos (ρ.type id) = (g.indexInfos id).map (IndexInfo.rename ρ) := by
  rw [indexInfos, indexInfos, hc.resolvedObject?_eq hid]
  cases g.resolvedObject? id <;> rfl

theorem typeArguments_eq (hid : g.HasType id) :
    h.typeArguments (ρ.type id) = (g.typeArguments id).map ρ.type := by
  rw [typeArguments, typeArguments, hc.object?_eq hid]
  cases g.object? id <;> rfl

theorem tupleShape_eq (hid : g.HasType id) : h.tupleShape (ρ.type id) = g.tupleShape id := by
  rw [tupleShape, tupleShape, hc.object?_eq hid]
  cases g.object? id <;> rfl

/-- A target is renamed to the target of the other graph just if it is the target of this one. -/
theorem target_beq {object : ObjectType} (hobject : g.object? id = some object) {target : TypeId}
    (htarget : g.HasType target) :
    ((object.rename ρ).target == some (ρ.type target)) = (object.target == some target) := by
  have hrenamed : (object.rename ρ).target = object.target.map ρ.type := rfl
  rw [hrenamed, Bool.eq_iff_iff, beq_iff_eq, beq_iff_eq]
  cases hown : object.target with
  | none => simp
  | some own =>
    have hhas : g.HasType own := hc.closed.object hobject (.target hown)
    rw [Option.map_some, Option.some.injEq, Option.some.injEq, hc.type_inj hhas htarget]

theorem isReadonlyArray_eq (hid : g.HasType id) :
    h.isReadonlyArray (ρ.type id) = g.isReadonlyArray id := by
  have hreadonly : g.HasType g.globalReadonlyArray := hc.closed.holds .globalReadonlyArray
  rw [isReadonlyArray, isReadonlyArray, hc.object?_eq hid, hc.globalReadonlyArray]
  cases hobject : g.object? id with
  | none => rfl
  | some object => exact hc.target_beq hobject hreadonly

theorem isArray_eq (hid : g.HasType id) : h.isArray (ρ.type id) = g.isArray id := by
  have harray : g.HasType g.globalArray := hc.closed.holds .globalArray
  have hreadonly : g.HasType g.globalReadonlyArray := hc.closed.holds .globalReadonlyArray
  rw [isArray, isArray, hc.object?_eq hid, hc.globalArray, hc.globalReadonlyArray]
  cases hobject : g.object? id with
  | none => rfl
  | some object =>
    exact congrArg₂ or (hc.target_beq hobject harray) (hc.target_beq hobject hreadonly)

/-! ## Answers about symbols -/

section Symbols

variable {symbol : SymbolId} (hsymbol : g.HasSymbol symbol)

include hsymbol

theorem symbol?_eq_some :
    ∃ record, g.symbol? symbol = some record ∧
      h.symbol? (ρ.symbol symbol) = some (record.rename ρ) := by
  obtain ⟨record, hrecord⟩ := hsymbol.symbol?
  exact ⟨record, hrecord, by rw [hc.symbol? hsymbol, hrecord]; rfl⟩

theorem symbolName?_eq : h.symbolName? (ρ.symbol symbol) = g.symbolName? symbol := by
  obtain ⟨record, hrecord, hrenamed⟩ := hc.symbol?_eq_some hsymbol
  rw [symbolName?, symbolName?, hrecord, hrenamed]
  rfl

theorem valueTypeOf_eq : h.valueTypeOf (ρ.symbol symbol) = ρ.type (g.valueTypeOf symbol) := by
  obtain ⟨record, hrecord, hrenamed⟩ := hc.symbol?_eq_some hsymbol
  have herror : ρ.type .error = .error := hc.intrinsic (by decide)
  rw [valueTypeOf, valueTypeOf, hrecord, hrenamed, Option.bind_some, Option.bind_some,
    SymbolRecord.rename]
  dsimp only
  cases record.valueType with
  | none => exact herror.symm
  | some type => rfl

theorem isRestParameter_eq : h.isRestParameter (ρ.symbol symbol) = g.isRestParameter symbol := by
  obtain ⟨record, hrecord, hrenamed⟩ := hc.symbol?_eq_some hsymbol
  rw [isRestParameter, isRestParameter, hrecord, hrenamed, Option.map_some, Option.map_some,
    record.primaryDeclaration?_rename]
  cases record.primaryDeclaration? <;> rfl

theorem isOptionalParameter_eq :
    h.isOptionalParameter (ρ.symbol symbol) = g.isOptionalParameter symbol := by
  obtain ⟨record, hrecord, hrenamed⟩ := hc.symbol?_eq_some hsymbol
  rw [isOptionalParameter, isOptionalParameter, hrecord, hrenamed, Option.map_some,
    Option.map_some, record.primaryDeclaration?_rename]
  cases record.primaryDeclaration? <;> rfl

end Symbols

theorem nameOf?_eq {symbol : Option SymbolId} (hsymbol : ∀ s, symbol = some s → g.HasSymbol s) :
    h.nameOf? (symbol.map ρ.symbol) = g.nameOf? symbol := by
  cases symbol with
  | none => rfl
  | some s => exact hc.symbolName?_eq (hsymbol s rfl)

end Renaming.Carries

namespace Renaming.Carries

variable {ρ : Renaming} {g h : TypeGraph} (hc : ρ.Carries g h)

include hc

theorem searches : ρ.Searches g h where
  inBounds := hc.closed.inBounds
  data? := hc.data?_eq
  resolvedObject? := hc.resolvedObject?_eq
  symbolName? := hc.symbolName?_eq
  injective := hc.injective
  types_size := hc.types_size

/-- The properties of a type are those of its new handle. -/
theorem properties_eq {id : TypeId} (hid : g.HasType id) :
    h.properties (ρ.type id) = (g.properties id).map ρ.symbol :=
  hc.searches.properties_eq hid

end Renaming.Carries

/-! ## Printing -/

section Printing

variable {ρ : Renaming} {g h : TypeGraph} (hc : ρ.Carries g h) {id : TypeId}

/-- A type of the first graph and its new handle. -/
def Renaming.Relates (ρ : Renaming) (g : TypeGraph) (a b : TypeId) : Prop :=
  g.HasType a ∧ b = ρ.type a

theorem forall₂_map_right {α β : Type} {R : α → β → Prop} {f : α → β} :
    ∀ {as : List α}, (∀ a ∈ as, R a (f a)) → List.Forall₂ R as (as.map f)
  | [], _ => List.Forall₂.nil
  | a :: as, h => by
    rw [List.forall_mem_cons] at h
    exact List.Forall₂.cons h.1 (forall₂_map_right h.2)

theorem rel_map_right {α β : Type} {R : α → β → Prop} {f : α → β} {a : Option α}
    (h : ∀ b, a = some b → R b (f b)) : Option.Rel R a (a.map f) := by
  cases a with
  | none => exact Option.Rel.none
  | some b => exact Option.Rel.some (h b rfl)

namespace Renaming.Carries

include hc

theorem symbol_matches {p : SymbolId} (hp : g.HasSymbol p) :
    p.Matches g h (ρ.Relates g) (ρ.symbol p) where
  face := by
    obtain ⟨record, hrecord, hrenamed⟩ := hc.symbol?_eq_some hp
    rw [hrecord, hrenamed]
    rfl
  rest := (hc.isRestParameter_eq hp).symm
  optional := (hc.isOptionalParameter_eq hp).symm
  valueType := ⟨hc.closed.inBounds.valueTypeOf p, hc.valueTypeOf_eq hp⟩

theorem signature_matches {s : Signature}
    (hs : ∀ {role : Role} {handle : Handle}, s.Stores role handle → g.Holds handle) :
    s.Matches g h (ρ.Relates g) (s.rename ρ) where
  parameters := forall₂_map_right fun _ hp => hc.symbol_matches (hs (.parameter hp))
  returnType := ⟨hs .returnType, rfl⟩

theorem indexInfo_matches {i : IndexInfo}
    (hi : ∀ {role : Role} {handle : Handle}, i.Stores role handle → g.Holds handle) :
    i.Matches g h (ρ.Relates g) (i.rename ρ) where
  readonly := rfl
  name := (hc.nameOf?_eq fun _ hid => hi (.parameter hid)).symm
  keyType := ⟨hi .keyType, rfl⟩
  valueType := ⟨hi .valueType, rfl⟩

omit hc in
theorem data_matches {data : TypeData}
    (hdata : ∀ {role : Role} {handle : Handle}, data.Stores role handle → g.Holds handle) :
    data.Matches (ρ.Relates g) (data.rename ρ) := by
  cases data with
  | intrinsic name => exact .intrinsic name
  | literal value => exact .literal value
  | object o => exact .object o _
  | union types => exact .union (forall₂_map_right fun _ hid => ⟨hdata (.union hid), rfl⟩)
  | intersection types =>
    exact .intersection (forall₂_map_right fun _ hid => ⟨hdata (.intersection hid), rfl⟩)
  | typeParameter constraint default => exact .typeParameter constraint default _ _
  | index target => exact .index ⟨hdata .index, rfl⟩
  | indexedAccess objectType indexType =>
    exact .indexedAccess ⟨hdata .indexedObject, rfl⟩ ⟨hdata .indexType, rfl⟩
  | conditional checkType extendsType trueType falseType =>
    refine .conditional ⟨hdata .checkType, rfl⟩ ⟨hdata .extendsType, rfl⟩ (rel_map_right ?_)
      (rel_map_right ?_)
    · rintro id rfl
      exact ⟨hdata .trueType, rfl⟩
    · rintro id rfl
      exact ⟨hdata .falseType, rfl⟩
  | substitution baseType constraint =>
    exact .substitution ⟨hdata .baseType, rfl⟩ constraint _
  | templateLiteral texts types =>
    exact .templateLiteral texts
      (forall₂_map_right fun _ hid => ⟨hdata (.templateLiteral hid), rfl⟩)
  | stringMapping target => exact .stringMapping ⟨hdata .stringMapping, rfl⟩

theorem enumMemberName?_eq {record : TypeRecord} (hrecord : g.type? id = some record) :
    Print.enumMemberName? h (record.rename ρ) = Print.enumMemberName? g record := by
  have hsymbol : (record.symbol.map ρ.symbol).bind h.symbol? =
      (record.symbol.bind g.symbol?).map (SymbolRecord.rename ρ) := by
    cases hsome : record.symbol with
    | none => rfl
    | some symbol => exact hc.symbol? (hc.closed.type hrecord (.symbol hsome))
  unfold Print.enumMemberName?
  rw [TypeRecord.rename]
  dsimp only
  rw [hsymbol, Option.map_map]
  split
  · refine Option.map_congr fun member hmember => ?_
    obtain ⟨_, _, hsome⟩ := Option.bind_eq_some_iff.1 hmember
    have hparent : h.nameOf? (member.parent.map ρ.symbol) = g.nameOf? member.parent :=
      hc.nameOf?_eq fun _ hid => hc.closed.symbol hsome (.parent hid)
    rw [Function.comp_apply, SymbolRecord.rename]
    dsimp only
    rw [hparent]
  · rfl

theorem enumName?_eq {record : TypeRecord} (hrecord : g.type? id = some record) :
    Print.enumName? h (record.rename ρ) = Print.enumName? g record := by
  have hname : h.nameOf? (record.symbol.map ρ.symbol) = g.nameOf? record.symbol :=
    hc.nameOf?_eq fun _ hid => hc.closed.type hrecord (.symbol hid)
  unfold Print.enumName?
  rw [TypeRecord.rename]
  dsimp only
  rw [hname]

theorem record_matches {record : TypeRecord} (hrecord : g.type? id = some record) :
    record.Matches g h (ρ.Relates g) (record.rename ρ) where
  aliasName := (hc.nameOf?_eq fun _ hid => hc.closed.type hrecord (.aliasSymbol hid)).symm
  aliasArguments :=
    forall₂_map_right fun _ hid => ⟨hc.closed.type hrecord (.aliasTypeArgument hid), rfl⟩
  boolean := rfl
  enumMember := (hc.enumMemberName?_eq hrecord).symm
  enum := (hc.enumName?_eq hrecord).symm
  name := (hc.nameOf?_eq fun _ hid => hc.closed.type hrecord (.symbol hid)).symm
  data := data_matches fun hstores => hc.closed.type hrecord (.data hstores)

theorem type_matches (hid : g.HasType id) : id.Matches g h (ρ.Relates g) (ρ.type id) where
  flags := (hc.objectFlags_eq hid).symm
  name := by
    obtain ⟨record, hrecord, hrenamed⟩ := hc.type?_eq_some hid
    rw [hrecord, hrenamed]
    exact (hc.nameOf?_eq fun _ hsome => hc.closed.type hrecord (.symbol hsome)).symm
  constructorSide := by
    obtain ⟨record, hrecord, hrenamed⟩ := hc.type?_eq_some hid
    rw [hrecord, hrenamed, Option.bind_some, Option.bind_some, TypeRecord.rename]
    dsimp only
    cases hsome : record.symbol with
    | none => rfl
    | some symbol =>
      obtain ⟨s, hs, hsrenamed⟩ := hc.symbol?_eq_some (hc.closed.type hrecord (.symbol hsome))
      rw [Option.bind_some, Option.map_some, Option.bind_some, hs, hsrenamed]
      rfl
  array := (hc.isArray_eq hid).symm
  readonlyArray := (hc.isReadonlyArray_eq hid).symm
  shape := (hc.tupleShape_eq hid).symm
  typeArguments := by
    rw [hc.typeArguments_eq hid]
    exact forall₂_map_right fun _ hmem => ⟨hc.closed.typeArguments hmem, rfl⟩
  properties := by
    rw [hc.properties_eq hid]
    exact forall₂_map_right fun _ hmem => hc.symbol_matches (hc.closed.inBounds.properties hmem)
  calls := by
    rw [hc.callSignatures_eq hid]
    exact forall₂_map_right fun _ hmem =>
      hc.signature_matches fun hstores => hc.closed.callSignatures hmem hstores
  constructs := by
    rw [hc.constructSignatures_eq hid]
    exact forall₂_map_right fun _ hmem =>
      hc.signature_matches fun hstores => hc.closed.constructSignatures hmem hstores
  infos := by
    rw [hc.indexInfos_eq hid]
    exact forall₂_map_right fun _ hmem =>
      hc.indexInfo_matches fun hstores => hc.closed.indexInfos hmem hstores

/-- Types correspond to the types at their new handles. -/
theorem corresponds : g.Corresponds h (ρ.Relates g) where
  unique := by
    rintro a _ b _ ⟨ha, rfl⟩ ⟨hb, rfl⟩
    exact (hc.type_inj ha hb).symm
  unknown := ⟨hc.closed.inBounds.intrinsic (by decide), (hc.intrinsic (by decide)).symm⟩
  type := by
    rintro a _ ⟨ha, rfl⟩
    obtain ⟨record, hrecord, hrenamed⟩ := hc.type?_eq_some ha
    rw [hrecord, hrenamed]
    exact Option.Rel.some (hc.record_matches hrecord)
  members := by
    rintro a _ ⟨ha, rfl⟩
    exact hc.type_matches ha

/-- A type that has a text has this text under its new handle. -/
theorem typeText?_eq_some (hid : g.HasType id) {text : String}
    (htext : g.typeText? id = some text) : h.typeText? (ρ.type id) = some text :=
  hc.corresponds.typeText?_eq_some ⟨hid, rfl⟩ htext

end Renaming.Carries

end Printing

end TypeAtlas
