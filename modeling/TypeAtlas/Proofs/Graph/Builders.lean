import TypeAtlas.Proofs.Graph.WellFormed
import TypeAtlas.Proofs.Merge.Constituents
import TypeAtlas.Proofs.Merge.Leads
/-!
# Builders keep graphs well-formed

A builder whose arguments are handles of a graph leads from any well-formed graph with these records
to a well-formed graph, and its answer is one of the records there. There is one lemma for each
builder, put together from what adding and changing a record does. Nothing is asked about the number
of records: a handle that wraps is one of an older record, and there is no step that turns an
intrinsic type into another one.
-/

namespace TypeAtlas

/-! ## Computations on states that grow -/

section

variable {σ α β : Type} {Valid : σ → Prop} {Grows : σ → σ → Prop}

/-- From any valid state later than `s`, the computation leads to a valid state that is later still,
with an answer of which `Q` holds there. -/
def Yields (Valid : σ → Prop) (Grows : σ → σ → Prop) (x : StateM σ α) (s : σ) (Q : σ → α → Prop) :
    Prop :=
  ∀ t, Grows s t → Valid t → Valid (x t).2 ∧ Grows t (x t).2 ∧ Q (x t).2 (x t).1

namespace Yields

variable [IsPreorder σ Grows] {x : StateM σ α} {s t : σ} {Q : σ → α → Prop} {R : σ → β → Prop}

theorem pure {a : α} (ha : ∀ t, Grows s t → Q t a) : Yields Valid Grows (pure a) s Q :=
  fun t hst ht => ⟨ht, refl_of Grows t, ha t hst⟩

/-- A computation that begins by reading the state. -/
theorem read {k : σ → StateM σ α}
    (hk : ∀ t, Grows s t → Valid t → Yields Valid Grows (k t) t Q) :
    Yields Valid Grows (get >>= k) s Q :=
  fun t hst ht => hk t hst ht t (refl_of Grows t) ht

/-- A computation that is another one in each state. -/
theorem of_eq {y : σ → StateM σ α} (h : ∀ t, x t = y t t)
    (hy : ∀ t, Grows s t → Valid t → Yields Valid Grows (y t) t Q) : Yields Valid Grows x s Q := by
  intro t hst ht
  rw [h t]
  exact hy t hst ht t (refl_of Grows t) ht

theorem later (hx : Yields Valid Grows x s Q) (hst : Grows s t) : Yields Valid Grows x t Q :=
  fun u htu hu => hx u (trans_of Grows hst htu) hu

theorem imp {P : σ → α → Prop} (hx : Yields Valid Grows x s Q)
    (h : ∀ t a, Grows s t → Q t a → P t a) : Yields Valid Grows x s P := by
  intro t hst ht
  obtain ⟨hvalid, hgrows, ha⟩ := hx t hst ht
  exact ⟨hvalid, hgrows, h _ _ (trans_of Grows hst hgrows) ha⟩

theorem bind {k : α → StateM σ β} (hx : Yields Valid Grows x s Q)
    (hk : ∀ t a, Grows s t → Q t a → Yields Valid Grows (k a) t R) :
    Yields Valid Grows (x >>= k) s R := by
  intro t hst ht
  obtain ⟨hvalid, hgrows, ha⟩ := hx t hst ht
  obtain ⟨hvalid', hgrows', hb⟩ :=
    hk _ _ (trans_of Grows hst hgrows) ha _ (refl_of Grows _) hvalid
  exact ⟨hvalid', trans_of Grows hgrows hgrows', hb⟩

/-- A step whose answer is not used. -/
theorem andThen {y : StateM σ β} (hx : Yields Valid Grows x s Q) (hy : Yields Valid Grows y s R) :
    Yields Valid Grows (x >>= fun _ => y) s R :=
  hx.bind fun _ _ hst _ => hy.later hst

/-- What holds of each answer and what it was given for when it is given holds of all of them in the
end. -/
theorem mapM_forall₂ {R : σ → α → β → Prop} {k : α → StateM σ β}
    (hR : ∀ {t u a b}, Grows t u → R t a b → R u a b) {as : List α}
    (has : ∀ a ∈ as, Yields Valid Grows (k a) s fun t => R t a) :
    Yields Valid Grows (as.mapM k) s fun t => List.Forall₂ (R t) as := by
  induction as generalizing s with
  | nil => exact pure fun _ _ => List.Forall₂.nil
  | cons a as ih =>
    rw [List.forall_mem_cons] at has
    rw [List.mapM_cons]
    refine has.1.bind fun t b hst hb => ?_
    refine (ih fun a ha => (has.2 a ha).later hst).bind fun u bs htu hbs => ?_
    exact pure fun v huv => List.Forall₂.cons (hR (trans_of Grows htu huv) hb)
      (hbs.imp fun _ _ h => hR huv h)

theorem mapM {k : α → StateM σ β} (hR : ∀ {t u b}, Grows t u → R t b → R u b) {as : List α}
    (has : ∀ a ∈ as, Yields Valid Grows (k a) s R) :
    Yields Valid Grows (as.mapM k) s fun t bs => ∀ b ∈ bs, R t b := by
  refine (mapM_forall₂ (R := fun t _ b => R t b) hR has).imp fun t bs _ hall => ?_
  clear has
  induction hall with
  | nil => exact List.forall_mem_nil _
  | cons hb _ ih => exact List.forall_mem_cons.2 ⟨hb, ih⟩

end Yields

end

theorem TypeId.index_ofIndex_le (n : Nat) : (ofIndex n).index ≤ n := by
  rw [ofIndex, index, UInt32.toNat_ofNat']
  exact Nat.mod_le _ _

theorem SymbolId.index_ofIndex_le (n : Nat) : (ofIndex n).index ≤ n := by
  rw [ofIndex, index, UInt32.toNat_ofNat']
  exact Nat.mod_le _ _

theorem forall_mem_some {α : Type} {P : α → Prop} {a : α} (ha : P a) : ∀ b ∈ some a, P b := by
  rintro b ⟨⟩
  exact ha

open TypeGraph

namespace Build

variable {g : TypeGraph}

/-- What a builder gives on any well-formed graph with at least as many records as `g`. -/
abbrev Yields {α : Type} (x : Build α) (g : TypeGraph) (Q : TypeGraph → α → Prop) : Prop :=
  TypeAtlas.Yields WellFormed Grows x g Q

/-! ## Records -/

theorem yields_type {type : TypeId} (htype : g.HasType type) : Yields (pure type) g HasType :=
  .pure fun _ hgh => hgh.type htype

theorem yields_symbol {symbol : SymbolId} (hsymbol : g.HasSymbol symbol) :
    Yields (pure symbol) g HasSymbol :=
  .pure fun _ hgh => hgh.symbol hsymbol

theorem yields_addType {record : TypeRecord} (hrecord : g.HoldsAll record.Stores) :
    Yields (addType record) g HasType := by
  intro h hgh hh
  have hsize : h.types.size ≤ (addType record h).2.types.size :=
    (types_size_addType record h).ge.trans' (Nat.le_succ _)
  refine ⟨hh.withTypes hsize (fun r hr => ?_) fun n hn => ?_, ⟨hsize, le_rfl⟩, ?_⟩
  · rcases Array.mem_push.1 hr with hold | rfl
    · exact Or.inl hold
    · exact Or.inr (hgh.holdsAll hrecord)
  · rw [Array.getElem?_push_lt (hn.trans_le hh.intrinsicCount_le), Array.getElem?_eq_getElem]
  · rw [HasType, types_size_addType]
    exact Nat.lt_succ_of_le (TypeId.index_ofIndex_le _)

theorem yields_addSymbol {record : SymbolRecord} (hrecord : record.HeldIn g)
    (hvalue : record.DeclaresValue) : Yields (addSymbol record) g HasSymbol := by
  intro h hgh hh
  have hsize : h.symbols.size ≤ (addSymbol record h).2.symbols.size :=
    (symbols_size_addSymbol record h).ge.trans' (Nat.le_succ _)
  refine ⟨hh.withSymbols hsize fun r hr => ?_, ⟨le_rfl, hsize⟩, ?_⟩
  · rcases Array.mem_push.1 hr with hold | rfl
    · exact Or.inl hold
    · exact Or.inr ⟨hgh.holdsAll (holdsAll_symbol.2 hrecord), hvalue⟩
  · rw [HasSymbol, symbols_size_addSymbol]
    exact Nat.lt_succ_of_le (SymbolId.index_ofIndex_le _)

/-- An intrinsic type may be changed, but not in what makes it the type that it is. -/
theorem yields_modifyType {id : TypeId} {f : TypeRecord → TypeRecord}
    (hf : ∀ h record, g.Grows h → record.HeldIn h → (f record).HeldIn h)
    (hnature : ∀ (h : TypeGraph) record, h.WellFormed → h.type? id = some record →
      id.index < TypeId.intrinsicCount → (f record).nature = record.nature) :
    Yields (modifyType id f) g fun _ _ => True := by
  intro h hgh hh
  unfold modifyType
  split
  next record hrecord =>
    refine ⟨hh.withTypes Array.size_setIfInBounds.ge (fun r hr => ?_) fun n hn => ?_,
      ⟨Array.size_setIfInBounds.ge, le_rfl⟩, trivial⟩
    · rcases Array.mem_or_eq_of_mem_setIfInBounds hr with hold | rfl
      · exact Or.inl hold
      · exact Or.inr (holdsAll_type.2 (hf h record hgh (holdsAll_type.1 (hh.type hrecord))))
    · rcases eq_or_ne id.index n with rfl | hne
      · rw [Array.getElem?_setIfInBounds_self_of_lt (hasType_of_type? hrecord), ← type?, hrecord,
          Option.map_some, Option.map_some, hnature h record hh hrecord hn]
      · rw [Array.getElem?_setIfInBounds_ne hne]
  next => exact ⟨hh, refl_of Grows h, trivial⟩

theorem yields_modifySymbol {symbol : SymbolId} {f : SymbolRecord → SymbolRecord}
    (hf : ∀ h record, g.Grows h → record.HeldIn h → (f record).HeldIn h)
    (hvalue : ∀ record : SymbolRecord, record.DeclaresValue → (f record).DeclaresValue) :
    Yields (modifySymbol symbol f) g fun _ _ => True := by
  intro h hgh hh
  unfold modifySymbol
  split
  next record hrecord =>
    refine ⟨hh.withSymbols Array.size_setIfInBounds.ge fun r hr => ?_,
      ⟨le_rfl, Array.size_setIfInBounds.ge⟩, trivial⟩
    rcases Array.mem_or_eq_of_mem_setIfInBounds hr with hold | rfl
    · exact Or.inl hold
    · exact Or.inr ⟨holdsAll_symbol.2 (hf h record hgh (holdsAll_symbol.1 (hh.symbol hrecord))),
        hvalue record (hh.declaresValue record (Array.mem_of_getElem? hrecord))⟩
  next => exact ⟨hh, refl_of Grows h, trivial⟩

/-- As no intrinsic type is an object, only other types are changed. -/
theorem yields_modifyObject {id : TypeId} {f : ObjectType → ObjectType}
    (hf : ∀ h object, g.Grows h → object.HeldIn h → (f object).HeldIn h) :
    Yields (modifyObject id f) g fun _ _ => True := by
  refine yields_modifyType (fun h record hgh hrecord => ?_) fun h record hh hrecord hid => ?_
  · split
    next object hdata =>
      have hobject := hrecord.data
      rw [hdata, holdsAll_data_object, holdsAll_object] at hobject
      have hobject := hf h object hgh hobject
      exact { hrecord with data := holdsAll_data_object.2 (holdsAll_object.2 hobject) }
    next => exact hrecord
  · have hobject := hh.object?_eq_none hid
    rw [object?, hrecord, Option.bind_some, TypeRecord.object?] at hobject
    split
    next object hdata =>
      rw [hdata] at hobject
      cases hobject
    next => rfl

/-! ## Symbols -/

theorem yields_createSymbol (name : String) (flags : SymbolFlags) :
    Yields (createSymbol name flags) g HasSymbol :=
  yields_addSymbol (SymbolRecord.heldIn_new name flags g) (by simp [SymbolRecord.DeclaresValue])

/-- The first of the declarations that can be the value declaration is in the list by then. -/
theorem yields_declare (symbol : SymbolId) {declaration : Declaration}
    (htype : ∀ id ∈ declaration.typeAtLocation, g.HasType id) :
    Yields (declare symbol declaration) g fun _ _ => True := by
  refine yields_modifySymbol (fun h record hgh hrecord => ?_) fun record hvalue n hn => ?_
  · have hnew : ∀ id ∈ declaration.typeAtLocation, h.HasType id := fun id hid =>
      hgh.type (htype id hid)
    exact { hrecord with
      declarations := List.forall_mem_append.2
        ⟨hrecord.declarations, List.forall_mem_singleton.2 hnew⟩ }
  · rw [List.length_append]
    dsimp only at hn
    split at hn
    · obtain rfl := Option.some.inj hn
      rw [UInt64.toNat_ofNat']
      exact Nat.lt_succ_of_le (Nat.mod_le _ _)
    · exact (hvalue n hn).trans (Nat.lt_succ_self _)

theorem yields_setSymbolType (symbol : SymbolId) {type : TypeId} (htype : g.HasType type) :
    Yields (setSymbolType symbol type) g fun _ _ => True :=
  yields_modifySymbol
    (fun _ _ hgh hrecord => { hrecord with valueType := forall_mem_some (hgh.type htype) })
    fun _ => id

theorem yields_setDeclaredType (symbol : SymbolId) {type : TypeId} (htype : g.HasType type) :
    Yields (setDeclaredType symbol type) g fun _ _ => True :=
  yields_modifySymbol
    (fun _ _ hgh hrecord => { hrecord with declaredType := forall_mem_some (hgh.type htype) })
    fun _ => id

/-- A new symbol that is given a type. -/
theorem yields_typedSymbol (name : String) (flags : SymbolFlags) {type : TypeId}
    (htype : g.HasType type) :
    Yields (do
      let symbol ← createSymbol name flags
      setSymbolType symbol type
      return symbol) g HasSymbol :=
  (yields_createSymbol name flags).bind fun _ symbol hgh hsymbol =>
    (yields_setSymbolType symbol (hgh.type htype)).andThen (yields_symbol hsymbol)

theorem yields_variableAt (name : String) {type : TypeId} (htype : g.HasType type)
    (location : Location) : Yields (variableAt name type location) g HasSymbol := by
  refine (yields_createSymbol name _).bind fun h symbol hgh hsymbol => ?_
  have htype := hgh.type htype
  refine (yields_declare symbol (forall_mem_some htype)).andThen ?_
  exact (yields_setSymbolType symbol htype).andThen (yields_symbol hsymbol)

theorem yields_property (name : String) {type : TypeId} (htype : g.HasType type) :
    Yields (property name type) g HasSymbol :=
  yields_typedSymbol name _ htype

theorem yields_optionalProperty (name : String) {type : TypeId} (htype : g.HasType type) :
    Yields (optionalProperty name type) g HasSymbol :=
  yields_typedSymbol name _ htype

theorem yields_readonlyProperty (name : String) {type : TypeId} (htype : g.HasType type) :
    Yields (readonlyProperty name type) g HasSymbol := by
  refine (yields_property name htype).bind fun h symbol hgh hsymbol => ?_
  refine (yields_modifySymbol ?_ ?_).andThen (yields_symbol hsymbol)
  · exact fun k record hhk hrecord => { hrecord with }
  · exact fun record hvalue => hvalue

theorem yields_parameter (name : String) {type : TypeId} (htype : g.HasType type) :
    Yields (parameter name type) g HasSymbol :=
  yields_typedSymbol name _ htype

theorem yields_newPropertySymbol (name : String) (flags : SymbolFlags) (checkFlags : CheckFlags)
    {type : TypeId} (htype : g.HasType type) {declarations : List Declaration}
    (hdeclarations : ∀ declaration ∈ declarations, ∀ id ∈ declaration.typeAtLocation,
      g.HasType id) :
    Yields (newPropertySymbol name flags checkFlags type declarations) g HasSymbol := by
  refine yields_addSymbol
    { SymbolRecord.heldIn_new name flags g with
      declarations := hdeclarations
      valueType := forall_mem_some htype } fun n hn => ?_
  dsimp only at hn ⊢
  split at hn
  · cases hn
  next hne =>
    obtain rfl := Option.some.inj hn
    exact List.length_pos_iff.2 fun heq => hne (List.isEmpty_iff.2 heq)

/-! ## Types without members -/

theorem yields_literalString (value : String) : Yields (literalString value) g HasType :=
  yields_addType (holdsAll_of_handles rfl (List.forall_mem_nil _))

theorem yields_literalNumber (value : Double) : Yields (literalNumber value) g HasType :=
  yields_addType (holdsAll_of_handles rfl (List.forall_mem_nil _))

theorem yields_literalBigInt (value : BigInt) : Yields (literalBigInt value) g HasType :=
  yields_addType (holdsAll_of_handles rfl (List.forall_mem_nil _))

theorem yields_uniqueSymbol {symbol : SymbolId} (hsymbol : g.HasSymbol symbol) :
    Yields (uniqueSymbol symbol) g HasType :=
  yields_addType (holdsAll_of_handles rfl (List.forall_mem_singleton.2 hsymbol))

theorem yields_keyof {target : TypeId} (htarget : g.HasType target) :
    Yields (keyof target) g HasType :=
  yields_addType (holdsAll_of_handles rfl (List.forall_mem_singleton.2 htarget))

theorem yields_indexedAccess {objectType indexType : TypeId} (hobjectType : g.HasType objectType)
    (hindexType : g.HasType indexType) : Yields (indexedAccess objectType indexType) g HasType :=
  yields_addType (holdsAll_of_handles rfl
    (List.forall_mem_cons.2 ⟨hobjectType, List.forall_mem_singleton.2 hindexType⟩))

theorem yields_conditional {checkType extendsType : TypeId} {trueType falseType : Option TypeId}
    (hcheckType : g.HasType checkType) (hextendsType : g.HasType extendsType)
    (htrueType : ∀ id ∈ trueType, g.HasType id) (hfalseType : ∀ id ∈ falseType, g.HasType id) :
    Yields (conditional checkType extendsType trueType falseType) g HasType := by
  refine yields_addType (holdsAll_of_handles rfl (List.forall_mem_map.2 ?_))
  simp only [List.forall_mem_append, List.forall_mem_cons, Option.mem_toList]
  exact ⟨⟨⟨hcheckType, hextendsType, List.forall_mem_nil _⟩, htrueType⟩, hfalseType⟩

theorem yields_substitution {baseType constraint : TypeId} (hbaseType : g.HasType baseType)
    (hconstraint : g.HasType constraint) : Yields (substitution baseType constraint) g HasType :=
  yields_addType (holdsAll_of_handles rfl
    (List.forall_mem_cons.2 ⟨hbaseType, List.forall_mem_singleton.2 hconstraint⟩))

theorem yields_templateLiteral (texts : List String) {types : List TypeId}
    (htypes : ∀ id ∈ types, g.HasType id) : Yields (templateLiteral texts types) g HasType :=
  yields_addType (holdsAll_of_handles rfl (List.forall_mem_map.2 htypes))

theorem yields_stringMapping (name : String) {target : TypeId} (htarget : g.HasType target) :
    Yields (stringMapping name target) g HasType :=
  (yields_createSymbol name _).bind fun _ _ hgh hsymbol =>
    yields_addType (holdsAll_of_handles rfl
      (List.forall_mem_cons.2 ⟨hsymbol, List.forall_mem_singleton.2 (hgh.type htarget)⟩))

/-- A type made of distinct types, or the only one of them. -/
theorem yields_collapse {types : List TypeId} (htypes : ∀ id ∈ types, g.HasType id)
    {record : TypeRecord} (hobject : record.object? = none)
    (hhandles : record.handles = (distinct types).map .type) {x : Build TypeId} {p : Prop}
    (hx : (∃ single, distinct types = [single] ∧ x = pure single) ∨ p ∧ x = addType record) :
    Yields x g HasType := by
  have hdistinct : ∀ id ∈ distinct types, g.HasType id := fun id hid =>
    htypes id (mem_distinct.1 hid)
  rcases hx with ⟨single, hsingle, rfl⟩ | ⟨-, rfl⟩
  · rw [hsingle, List.forall_mem_singleton] at hdistinct
    exact yields_type hdistinct
  · refine yields_addType (holdsAll_of_handles hobject ?_)
    rw [hhandles]
    exact List.forall_mem_map.2 hdistinct

theorem yields_union {types : List TypeId} (htypes : ∀ id ∈ types, g.HasType id) :
    Yields (union types) g HasType :=
  yields_collapse htypes rfl rfl (union_cases types)

theorem yields_intersection {types : List TypeId} (htypes : ∀ id ∈ types, g.HasType id) :
    Yields (intersection types) g HasType :=
  yields_collapse htypes rfl rfl (intersection_cases types)

/-- A copy has handles of the type it is a copy of. -/
theorem yields_cloneWithoutAlias {id : TypeId} (hid : g.HasType id) :
    Yields (cloneWithoutAlias id) g HasType := by
  refine .read fun h hgh hh => ?_
  split
  next record hrecord =>
    split
    · exact yields_type (hgh.type hid)
    · have hheld := holdsAll_type.1 (hh.type hrecord)
      exact yields_addType (holdsAll_type.2
        { hheld with aliasSymbol := by simp, aliasTypeArguments := by simp })
  next => exact yields_type (hgh.type hid)

/-! ## Object types -/

theorem yields_addObject (objectFlags : ObjectFlags) {symbol : Option SymbolId}
    (hsymbol : ∀ id ∈ symbol, g.HasSymbol id) {object : ObjectType} (hobject : object.HeldIn g) :
    Yields (addType { flags := TypeFlags.object, objectFlags, symbol, data := .object object }) g
      HasType :=
  yields_addType (holdsAll_type.2
    { symbol := hsymbol
      aliasSymbol := by simp
      aliasTypeArguments := by simp
      data := holdsAll_data_object.2 (holdsAll_object.2 hobject) })

theorem yields_newObjectType (objectFlags : ObjectFlags) {symbol : Option SymbolId}
    (hsymbol : ∀ id ∈ symbol, g.HasSymbol id) :
    Yields (newObjectType objectFlags symbol) g HasType :=
  yields_addObject objectFlags hsymbol (ObjectType.heldIn_empty g)

theorem yields_setObjectMembers (id : TypeId) {members : ObjectMembers}
    (hmembers : g.HoldsAll (ObjectType.Stores { toObjectMembers := members })) :
    Yields (setObjectMembers id members) g fun _ _ => True := by
  refine yields_modifyObject fun h object hgh hobject => ?_
  have hmembers := holdsAll_object.1 (hgh.holdsAll hmembers)
  exact { hobject with
    properties := hmembers.properties
    callSignatures := hmembers.callSignatures
    constructSignatures := hmembers.constructSignatures
    indexInfos := hmembers.indexInfos }

theorem yields_setProperties (id : TypeId) {properties : List SymbolId}
    (hproperties : ∀ p ∈ properties, g.HasSymbol p) :
    Yields (setObjectMembers id { properties }) g fun _ _ => True :=
  yields_setObjectMembers id (holdsAll_object.2
    { ObjectType.heldIn_empty g with properties := hproperties })

theorem yields_object {properties : List SymbolId} (hproperties : ∀ p ∈ properties, g.HasSymbol p) :
    Yields (object properties) g HasType := by
  refine (yields_createSymbol _ _).bind fun h symbol hgh hsymbol => ?_
  refine (yields_newObjectType _ (forall_mem_some hsymbol)).bind fun k id hhk hid => ?_
  refine (yields_setProperties id fun p hp => ?_).andThen (yields_type hid)
  exact hhk.symbol (hgh.symbol (hproperties p hp))

theorem yields_objectWithIndex {properties : List SymbolId}
    (hproperties : ∀ p ∈ properties, g.HasSymbol p) {keyType valueType : TypeId}
    (hkeyType : g.HasType keyType) (hvalueType : g.HasType valueType) :
    Yields (objectWithIndex properties keyType valueType) g HasType := by
  refine (yields_object hproperties).bind fun h id hgh hid => ?_
  refine (yields_parameter _ (hgh.type hkeyType)).bind fun k parameter hhk hparameter => ?_
  refine (yields_modifyObject fun l object hkl hobject => ?_).andThen (yields_type (hhk.type hid))
  have hgl : g.Grows l := trans_of Grows (trans_of Grows hgh hhk) hkl
  exact { hobject with
    indexInfos := List.forall_mem_append.2 ⟨hobject.indexInfos, List.forall_mem_singleton.2
      (holdsAll_indexInfo.2 ⟨hgl.type hkeyType, hgl.type hvalueType,
        forall_mem_some (hkl.symbol hparameter)⟩)⟩ }

/-- The symbol of a reference is that of its target. -/
theorem yields_instantiate {target : TypeId} (htarget : g.HasType target)
    {typeArguments : List TypeId} (harguments : ∀ id ∈ typeArguments, g.HasType id) :
    Yields (instantiate target typeArguments) g HasType := by
  refine .read fun h hgh hh => ?_
  refine yields_addObject _ (fun symbol hsymbol => ?_)
    { ObjectType.heldIn_empty h with
      target := forall_mem_some (hgh.type htarget)
      typeArguments := fun id hid => hgh.type (harguments id hid) }
  obtain ⟨record, hrecord, hsymbol⟩ := Option.bind_eq_some_iff.1 hsymbol
  exact (holdsAll_type.1 (hh.type hrecord)).symbol symbol hsymbol

theorem yields_arrayOf {element : TypeId} (helement : g.HasType element) :
    Yields (arrayOf element) g HasType :=
  .read fun _ hgh hh =>
    yields_instantiate (hh.holds .globalArray) (List.forall_mem_singleton.2 (hgh.type helement))

theorem yields_readonlyArrayOf {element : TypeId} (helement : g.HasType element) :
    Yields (readonlyArrayOf element) g HasType :=
  .read fun _ hgh hh => yields_instantiate (hh.holds .globalReadonlyArray)
    (List.forall_mem_singleton.2 (hgh.type helement))

theorem yields_tuple {elements : List TypeId} (helements : ∀ id ∈ elements, g.HasType id)
    (shape : TupleShape) : Yields (tuple elements shape) g HasType :=
  yields_addObject _ (by simp) { ObjectType.heldIn_empty g with typeArguments := helements }

/-! ## Functions -/

theorem yields_signature {parameters : List SymbolId}
    (hparameters : ∀ p ∈ parameters, g.HasSymbol p) {returnType : TypeId}
    (hreturnType : g.HasType returnType) :
    Yields (signature parameters returnType) g fun h s => h.HoldsAll s.Stores :=
  .read fun _ hgh _ => .pure fun _ hhk => holdsAll_signature.2
    { symbol := by simp
      typeParameters := by simp
      parameters := fun p hp => hhk.symbol (hgh.symbol (hparameters p hp))
      returnType := hhk.type (hgh.type hreturnType) }

/-- A signature that is given the symbol it belongs to. -/
theorem holdsAll_signature_with_symbol {s : Signature} (hs : g.HoldsAll s.Stores)
    {symbol : SymbolId} (hsymbol : g.HasSymbol symbol) :
    g.HoldsAll (Signature.Stores { s with symbol := some symbol }) :=
  holdsAll_signature.2 { holdsAll_signature.1 hs with symbol := forall_mem_some hsymbol }

theorem yields_functionWithSignatures {callSignatures : List Signature}
    (hcalls : ∀ s ∈ callSignatures, g.HoldsAll s.Stores) :
    Yields (functionWithSignatures callSignatures) g HasType := by
  refine (yields_createSymbol _ _).bind fun h symbol hgh hsymbol => ?_
  refine (yields_newObjectType _ (forall_mem_some hsymbol)).bind fun k id hhk hid => ?_
  refine (yields_setSymbolType symbol hid).andThen ?_
  refine (yields_setObjectMembers id (holdsAll_object.2 ?_)).andThen (yields_type hid)
  exact { ObjectType.heldIn_empty k with
    callSignatures := fun s hs => hhk.holdsAll (hgh.holdsAll (hcalls s hs)) }

theorem yields_function {parameters : List SymbolId} (hparameters : ∀ p ∈ parameters, g.HasSymbol p)
    {returnType : TypeId} (hreturnType : g.HasType returnType) :
    Yields (function parameters returnType) g HasType :=
  (yields_signature hparameters hreturnType).bind fun _ _ _ hs =>
    yields_functionWithSignatures (List.forall_mem_singleton.2 hs)

theorem yields_functionDeclaration (name : String) {parameters : List SymbolId}
    (hparameters : ∀ p ∈ parameters, g.HasSymbol p) {returnType : TypeId}
    (hreturnType : g.HasType returnType) (location : Location) :
    Yields (functionDeclaration name parameters returnType location) g HasSymbol := by
  refine (yields_createSymbol _ _).bind fun h symbol hgh hsymbol => ?_
  refine (yields_signature (fun p hp => hgh.symbol (hparameters p hp))
    (hgh.type hreturnType)).bind fun k s hhk hs => ?_
  have hsymbol := hhk.symbol hsymbol
  refine (yields_newObjectType _ (forall_mem_some hsymbol)).bind fun l type hkl htype => ?_
  have hsymbol := hkl.symbol hsymbol
  have hs := holdsAll_signature_with_symbol (hkl.holdsAll hs) hsymbol
  refine (yields_setObjectMembers type (holdsAll_object.2 ?_)).andThen ?_
  · exact { ObjectType.heldIn_empty l with callSignatures := List.forall_mem_singleton.2 hs }
  · exact (yields_declare symbol (forall_mem_some htype)).andThen
      ((yields_setSymbolType symbol htype).andThen (yields_symbol hsymbol))

/-! ## Declared types -/

theorem yields_typeParameter (name : String) {constraint default : Option TypeId}
    (hconstraint : ∀ id ∈ constraint, g.HasType id) (hdefault : ∀ id ∈ default, g.HasType id) :
    Yields (typeParameter name constraint default) g HasType := by
  refine (yields_createSymbol _ _).bind fun h symbol hgh hsymbol => ?_
  refine (yields_addType (holdsAll_of_handles rfl (List.forall_mem_append.2 ⟨?_, ?_⟩))).bind
    fun k id hhk hid => (yields_setDeclaredType symbol hid).andThen (yields_type hid)
  · exact List.forall_mem_singleton.2 hsymbol
  · refine List.forall_mem_map.2 (List.forall_mem_append.2 ⟨?_, ?_⟩)
    · exact fun id hid => hgh.type (hconstraint id (Option.mem_toList.1 hid))
    · exact fun id hid => hgh.type (hdefault id (Option.mem_toList.1 hid))

theorem yields_interface (name : String) {properties : List SymbolId}
    (hproperties : ∀ p ∈ properties, g.HasSymbol p) {baseTypes : List TypeId}
    (hbases : ∀ id ∈ baseTypes, g.HasType id) :
    Yields (interface name properties baseTypes) g HasType := by
  refine (yields_createSymbol _ _).bind fun h symbol hgh hsymbol => ?_
  refine (yields_newObjectType _ (forall_mem_some hsymbol)).bind fun k id hhk hid => ?_
  have hgk : g.Grows k := trans_of Grows hgh hhk
  refine (yields_setProperties id fun p hp => hgk.symbol (hproperties p hp)).andThen ?_
  refine (yields_modifyObject fun l object hkl hobject => ?_).andThen
    ((yields_setDeclaredType symbol hid).andThen (yields_type hid))
  exact { hobject with baseTypes := fun id hid => hkl.type (hgk.type (hbases id hid)) }

theorem yields_class (name : String) {properties : List SymbolId}
    (hproperties : ∀ p ∈ properties, g.HasSymbol p) {constructorParameters : List SymbolId}
    (hparameters : ∀ p ∈ constructorParameters, g.HasSymbol p) {baseType : Option TypeId}
    (hbase : ∀ id ∈ baseType, g.HasType id) {implementsTypes : List TypeId}
    (himplements : ∀ id ∈ implementsTypes, g.HasType id) :
    Yields (class' name properties constructorParameters baseType implementsTypes) g HasType := by
  refine (yields_createSymbol _ _).bind fun h symbol hgh hsymbol => ?_
  refine (yields_newObjectType _ (forall_mem_some hsymbol)).bind fun k id hhk hid => ?_
  have hgk : g.Grows k := trans_of Grows hgh hhk
  refine (yields_setProperties id fun p hp => hgk.symbol (hproperties p hp)).andThen ?_
  refine (yields_modifyObject fun l object hkl hobject => ?_).andThen ?_
  · have hgl : g.Grows l := trans_of Grows hgk hkl
    exact { hobject with
      baseTypes := fun id hid => hgl.type (hbase id (Option.mem_toList.1 hid))
      implementsTypes := fun id hid => hgl.type (himplements id hid) }
  -- the constructor side
  · refine (yields_signature (fun p hp => hgk.symbol (hparameters p hp)) hid).bind
      fun l s hkl hs => ?_
    have hsymbol := hkl.symbol (hhk.symbol hsymbol)
    refine (yields_newObjectType _ (forall_mem_some hsymbol)).bind fun m type hlm htype => ?_
    have hid := hlm.type (hkl.type hid)
    have hs := holdsAll_signature_with_symbol (hlm.holdsAll hs) (hlm.symbol hsymbol)
    refine (yields_setObjectMembers type (holdsAll_object.2 ?_)).andThen ?_
    · exact { ObjectType.heldIn_empty m with
        constructSignatures := List.forall_mem_singleton.2 hs }
    · exact (yields_setDeclaredType symbol hid).andThen
        ((yields_setSymbolType symbol htype).andThen (yields_type hid))

theorem yields_enumMember {enumSymbol : SymbolId} (henum : g.HasSymbol enumSymbol) (name : String)
    (value : EnumValue) : Yields (enumMember enumSymbol name value) g HasType := by
  refine (yields_createSymbol _ _).bind fun h symbol hgh hsymbol => ?_
  refine (yields_modifySymbol (fun k record hhk hrecord => ?_) ?_).andThen ?_
  · exact { hrecord with parent := forall_mem_some (hhk.symbol (hgh.symbol henum)) }
  · exact fun record hvalue => hvalue
  · cases value with
    | number value | string value =>
      refine (yields_addType (holdsAll_of_handles rfl ?_)).bind fun k type hhk htype =>
        (yields_setSymbolType symbol htype).andThen
          ((yields_setDeclaredType symbol htype).andThen (yields_type htype))
      exact List.forall_mem_singleton.2 hsymbol

theorem yields_enum (name : String) (members : List (String × EnumValue)) :
    Yields (enum name members) g HasType := by
  refine (yields_createSymbol _ _).bind fun h symbol hgh hsymbol => ?_
  have hmembers : Yields (members.mapM fun member => enumMember symbol member.1 member.2) h
      fun k types => ∀ id ∈ types, k.HasType id :=
    Yields.mapM (fun hgh => hgh.type) fun member _ => yields_enumMember hsymbol member.1 member.2
  refine hmembers.bind fun k types hhk htypes => ?_
  refine (yields_addType (holdsAll_of_handles rfl (List.forall_mem_append.2 ⟨?_, ?_⟩))).bind
    fun l id hkl hid => (yields_setDeclaredType symbol hid).andThen (yields_type hid)
  · exact List.forall_mem_singleton.2 (hhk.symbol hsymbol)
  · exact List.forall_mem_map.2 htypes

/-- The type that is named may be an intrinsic type; then it is the same type under another name. -/
theorem yields_typeAlias (name : String) {type : TypeId} (htype : g.HasType type)
    {typeParameters : List TypeId} (hparameters : ∀ id ∈ typeParameters, g.HasType id) :
    Yields (typeAlias name type typeParameters) g HasType := by
  refine (yields_createSymbol _ _).bind fun h symbol hgh hsymbol => ?_
  have htype := hgh.type htype
  refine (yields_modifySymbol (fun k record hhk hrecord => ?_) ?_).andThen
    ((yields_modifyType (fun k record hhk hrecord => ?_) ?_).andThen (yields_type htype))
  · exact { hrecord with
      declaredType := forall_mem_some (hhk.type htype)
      typeParameters := fun id hid => hhk.type (hgh.type (hparameters id hid)) }
  · exact fun record hvalue => hvalue
  · exact { hrecord with aliasSymbol := forall_mem_some (hhk.symbol hsymbol) }
  · exact fun _ _ _ _ _ => rfl

end Build

end TypeAtlas
