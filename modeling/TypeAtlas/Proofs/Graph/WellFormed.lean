import Mathlib.Order.Defs.Unbundled
import TypeAtlas.Proofs.Graph.Stored
/-!
# Well-formed graphs

A graph is well-formed if no handle in it dangles, each value declaration is one of the declarations
of its symbol, and the types that every graph starts with are what they were in the beginning.
Records may be added to such a graph, and changed, as long as their handles lead to records
(`TypeGraph.WellFormed.withTypes`, `TypeGraph.WellFormed.withSymbols`).
-/

namespace TypeAtlas

open Handle (Role)

/-- What makes an intrinsic type the type that it is; an alias does not. -/
def TypeRecord.nature (record : TypeRecord) : TypeFlags × TypeData :=
  (record.flags, record.data)

/-- The value declaration, if there is one, is one of the declarations. -/
def SymbolRecord.DeclaresValue (symbol : SymbolRecord) : Prop :=
  ∀ n ∈ symbol.valueDeclaration, n.toNat < symbol.declarations.length

-- not by going through all numbers that there are
instance : DecidablePred SymbolRecord.DeclaresValue :=
  fun symbol => Option.decidableForallMem symbol.valueDeclaration

namespace TypeGraph

/-- No handle dangles, no value declaration is missing, and the first types are the intrinsic ones.
-/
structure WellFormed (g : TypeGraph) : Prop where
  holds : ∀ {role : Role} {handle : Handle}, g.Stores role handle → g.Holds handle
  declaresValue : ∀ symbol ∈ g.symbols, symbol.DeclaresValue
  intrinsics : ∀ n < TypeId.intrinsicCount,
    (g.types[n]?).map TypeRecord.nature = (intrinsicTypes[n]?).map TypeRecord.nature

instance {g : TypeGraph} {id : TypeId} : Decidable (g.HasType id) :=
  inferInstanceAs (Decidable (_ < _))

instance {g : TypeGraph} {id : SymbolId} : Decidable (g.HasSymbol id) :=
  inferInstanceAs (Decidable (_ < _))

/-- All handles of some kind lead to records. -/
def HoldsAll (g : TypeGraph) (stores : Role → Handle → Prop) : Prop :=
  ∀ role handle, stores role handle → g.Holds handle

/-- A graph with at least as many records. -/
structure Grows (g h : TypeGraph) : Prop where
  types : g.types.size ≤ h.types.size
  symbols : g.symbols.size ≤ h.symbols.size

namespace Grows

variable {g h : TypeGraph} (hgh : g.Grows h)

instance : IsPreorder TypeGraph Grows where
  refl _ := ⟨le_rfl, le_rfl⟩
  trans _ _ _ h₁ h₂ := ⟨h₁.types.trans h₂.types, h₁.symbols.trans h₂.symbols⟩

include hgh

theorem type {id : TypeId} (hid : g.HasType id) : h.HasType id :=
  hid.trans_le hgh.types

theorem symbol {id : SymbolId} (hid : g.HasSymbol id) : h.HasSymbol id :=
  hid.trans_le hgh.symbols

theorem holds {handle : Handle} (hhandle : g.Holds handle) : h.Holds handle := by
  cases handle with
  | type id => exact hgh.type hhandle
  | symbol id => exact hgh.symbol hhandle

theorem holdsAll {stores : Role → Handle → Prop} (hstores : g.HoldsAll stores) :
    h.HoldsAll stores :=
  fun role handle hhandle => hgh.holds (hstores role handle hhandle)

end Grows

namespace WellFormed

variable {g : TypeGraph} (hg : g.WellFormed)

include hg

theorem intrinsicCount_le : TypeId.intrinsicCount ≤ g.types.size := by
  by_contra hlt
  have hlast := hg.intrinsics g.types.size (not_le.1 hlt)
  rw [Array.getElem?_eq_none le_rfl, Option.map_none, eq_comm, Option.map_eq_none_iff,
    List.getElem?_eq_none_iff] at hlast
  exact hlt hlast

theorem closed : g.Closed :=
  ⟨hg.intrinsicCount_le, hg.holds⟩

omit hg in
instance : Decidable g.WellFormed :=
  decidable_of_iff (g.Closed ∧ (∀ symbol ∈ g.symbols, symbol.DeclaresValue) ∧
      ∀ n < TypeId.intrinsicCount,
        (g.types[n]?).map TypeRecord.nature = (intrinsicTypes[n]?).map TypeRecord.nature)
    ⟨fun h => ⟨h.1.holds, h.2.1, h.2.2⟩, fun h => ⟨h.closed, h.declaresValue, h.intrinsics⟩⟩

theorem type {id : TypeId} {record : TypeRecord} (h : g.type? id = some record) :
    g.HoldsAll record.Stores :=
  fun _ _ => hg.closed.type h

theorem symbol {id : SymbolId} {record : SymbolRecord} (h : g.symbol? id = some record) :
    g.HoldsAll record.Stores :=
  fun _ _ => hg.closed.symbol h

/-- Other types, which are old ones or have only handles that lead to records. -/
theorem withTypes {types : Array TypeRecord} (hsize : g.types.size ≤ types.size)
    (hrecords : ∀ record ∈ types, record ∈ g.types ∨ g.HoldsAll record.Stores)
    (hnature : ∀ n < TypeId.intrinsicCount,
      (types[n]?).map TypeRecord.nature = (g.types[n]?).map TypeRecord.nature) :
    { g with types }.WellFormed where
  holds {role handle} h := by
    have hgrows : g.Grows { g with types } := ⟨hsize, le_rfl⟩
    apply hgrows.holds
    cases h with
    | globalArray => exact hg.holds .globalArray
    | globalReadonlyArray => exact hg.holds .globalReadonlyArray
    | symbol hrecord h => exact hg.holds (.symbol hrecord h)
    | @type record _ _ hrecord h =>
      rcases hrecords record hrecord with hold | hnew
      · exact hg.holds (.type hold h)
      · exact hnew role handle h
  declaresValue := hg.declaresValue
  intrinsics n hn := (hnature n hn).trans (hg.intrinsics n hn)

/-- Other symbols, which are old ones or have only handles that lead to records. -/
theorem withSymbols {symbols : Array SymbolRecord} (hsize : g.symbols.size ≤ symbols.size)
    (hrecords : ∀ record ∈ symbols,
      record ∈ g.symbols ∨ g.HoldsAll record.Stores ∧ record.DeclaresValue) :
    { g with symbols }.WellFormed where
  holds {role handle} h := by
    have hgrows : g.Grows { g with symbols } := ⟨le_rfl, hsize⟩
    apply hgrows.holds
    cases h with
    | globalArray => exact hg.holds .globalArray
    | globalReadonlyArray => exact hg.holds .globalReadonlyArray
    | type hrecord h => exact hg.holds (.type hrecord h)
    | @symbol record _ _ hrecord h =>
      rcases hrecords record hrecord with hold | hnew
      · exact hg.holds (.symbol hold h)
      · exact hnew.1 role handle h
  declaresValue record hrecord := by
    rcases hrecords record hrecord with hold | hnew
    · exact hg.declaresValue record hold
    · exact hnew.2
  intrinsics := hg.intrinsics

/-- No intrinsic type is an object type. -/
theorem object?_eq_none {id : TypeId} (hid : id.index < TypeId.intrinsicCount) :
    g.object? id = none := by
  have hnone : ∀ record ∈ intrinsicTypes, record.object? = none := by decide
  cases hobject : g.object? id with
  | none => rfl
  | some object =>
    obtain ⟨record, hrecord, hobject⟩ := Option.bind_eq_some_iff.1 hobject
    have hnature := hg.intrinsics id.index hid
    rw [← type?, hrecord, Option.map_some, eq_comm, Option.map_eq_some_iff] at hnature
    obtain ⟨original, horiginal, hsame⟩ := hnature
    have hdata : original.data = record.data := congrArg Prod.snd hsame
    have horiginal := hnone original (List.mem_of_getElem? horiginal)
    rw [TypeRecord.object?, hdata] at horiginal
    exact hobject.symm.trans horiginal

end WellFormed

end TypeGraph

/-! ## The handles of a record, field by field -/

/-- A signature all of whose handles lead to records. -/
structure Signature.HeldIn (s : Signature) (g : TypeGraph) : Prop where
  symbol : ∀ id ∈ s.symbol, g.HasSymbol id
  typeParameters : ∀ id ∈ s.typeParameters, g.HasType id
  parameters : ∀ id ∈ s.parameters, g.HasSymbol id
  returnType : g.HasType s.returnType

/-- An index signature all of whose handles lead to records. -/
structure IndexInfo.HeldIn (i : IndexInfo) (g : TypeGraph) : Prop where
  keyType : g.HasType i.keyType
  valueType : g.HasType i.valueType
  parameter : ∀ id ∈ i.parameter, g.HasSymbol id

/-- An object type all of whose handles lead to records. -/
structure ObjectType.HeldIn (o : ObjectType) (g : TypeGraph) : Prop where
  properties : ∀ id ∈ o.properties, g.HasSymbol id
  callSignatures : ∀ s ∈ o.callSignatures, g.HoldsAll s.Stores
  constructSignatures : ∀ s ∈ o.constructSignatures, g.HoldsAll s.Stores
  indexInfos : ∀ i ∈ o.indexInfos, g.HoldsAll i.Stores
  target : ∀ id ∈ o.target, g.HasType id
  typeArguments : ∀ id ∈ o.typeArguments, g.HasType id
  typeParameters : ∀ id ∈ o.typeParameters, g.HasType id
  baseTypes : ∀ id ∈ o.baseTypes, g.HasType id
  implementsTypes : ∀ id ∈ o.implementsTypes, g.HasType id

/-- A type all of whose handles lead to records. -/
structure TypeRecord.HeldIn (t : TypeRecord) (g : TypeGraph) : Prop where
  symbol : ∀ id ∈ t.symbol, g.HasSymbol id
  aliasSymbol : ∀ id ∈ t.aliasSymbol, g.HasSymbol id
  aliasTypeArguments : ∀ id ∈ t.aliasTypeArguments, g.HasType id
  data : g.HoldsAll t.data.Stores

/-- A symbol all of whose handles lead to records. -/
structure SymbolRecord.HeldIn (s : SymbolRecord) (g : TypeGraph) : Prop where
  declarations : ∀ d ∈ s.declarations, ∀ id ∈ d.typeAtLocation, g.HasType id
  parent : ∀ id ∈ s.parent, g.HasSymbol id
  valueType : ∀ id ∈ s.valueType, g.HasType id
  declaredType : ∀ id ∈ s.declaredType, g.HasType id
  typeParameters : ∀ id ∈ s.typeParameters, g.HasType id

/-- A new symbol mentions nothing yet. -/
theorem SymbolRecord.heldIn_new (name : String) (flags : SymbolFlags) (g : TypeGraph) :
    SymbolRecord.HeldIn { name, flags } g := by
  constructor <;> simp

/-- An object type without anything in it. -/
theorem ObjectType.heldIn_empty (g : TypeGraph) : ObjectType.HeldIn {} g := by
  constructor <;> simp

namespace TypeGraph

variable {g : TypeGraph}

theorem holdsAll_signature {s : Signature} : g.HoldsAll s.Stores ↔ s.HeldIn g where
  mp h :=
    { symbol := fun _ hid => h _ _ (.symbol hid)
      typeParameters := fun _ hid => h _ _ (.typeParameter hid)
      parameters := fun _ hid => h _ _ (.parameter hid)
      returnType := h _ _ .returnType }
  mpr h role handle hstores := by
    cases hstores with
    | symbol hid => exact h.symbol _ hid
    | typeParameter hid => exact h.typeParameters _ hid
    | parameter hid => exact h.parameters _ hid
    | returnType => exact h.returnType

theorem holdsAll_indexInfo {i : IndexInfo} : g.HoldsAll i.Stores ↔ i.HeldIn g where
  mp h := ⟨h _ _ .keyType, h _ _ .valueType, fun _ hid => h _ _ (.parameter hid)⟩
  mpr h role handle hstores := by
    cases hstores with
    | keyType => exact h.keyType
    | valueType => exact h.valueType
    | parameter hid => exact h.parameter _ hid

theorem holdsAll_object {o : ObjectType} : g.HoldsAll o.Stores ↔ o.HeldIn g where
  mp h :=
    { properties := fun _ hid => h _ _ (.property hid)
      callSignatures := fun _ hs _ _ hh => h _ _ (.callSignature hs hh)
      constructSignatures := fun _ hs _ _ hh => h _ _ (.constructSignature hs hh)
      indexInfos := fun _ hi _ _ hh => h _ _ (.indexInfo hi hh)
      target := fun _ hid => h _ _ (.target hid)
      typeArguments := fun _ hid => h _ _ (.typeArgument hid)
      typeParameters := fun _ hid => h _ _ (.typeParameter hid)
      baseTypes := fun _ hid => h _ _ (.baseType hid)
      implementsTypes := fun _ hid => h _ _ (.implementsType hid) }
  mpr h role handle hstores := by
    cases hstores with
    | property hid => exact h.properties _ hid
    | callSignature hs hh => exact h.callSignatures _ hs _ _ hh
    | constructSignature hs hh => exact h.constructSignatures _ hs _ _ hh
    | indexInfo hi hh => exact h.indexInfos _ hi _ _ hh
    | target hid => exact h.target _ hid
    | typeArgument hid => exact h.typeArguments _ hid
    | typeParameter hid => exact h.typeParameters _ hid
    | baseType hid => exact h.baseTypes _ hid
    | implementsType hid => exact h.implementsTypes _ hid

theorem holdsAll_data_object {o : ObjectType} :
    g.HoldsAll (TypeData.object o).Stores ↔ g.HoldsAll o.Stores where
  mp h _ _ hh := h _ _ (.object hh)
  mpr h _ _ hh := by cases hh with | object hh => exact h _ _ hh

theorem holdsAll_type {t : TypeRecord} : g.HoldsAll t.Stores ↔ t.HeldIn g where
  mp h :=
    { symbol := fun _ hid => h _ _ (.symbol hid)
      aliasSymbol := fun _ hid => h _ _ (.aliasSymbol hid)
      aliasTypeArguments := fun _ hid => h _ _ (.aliasTypeArgument hid)
      data := fun _ _ hh => h _ _ (.data hh) }
  mpr h role handle hstores := by
    cases hstores with
    | symbol hid => exact h.symbol _ hid
    | aliasSymbol hid => exact h.aliasSymbol _ hid
    | aliasTypeArgument hid => exact h.aliasTypeArguments _ hid
    | data hh => exact h.data _ _ hh

/-- A type that is no object only has handles that are checked. -/
theorem holdsAll_of_handles {t : TypeRecord} (hobject : t.object? = none)
    (h : ∀ handle ∈ t.handles, g.Holds handle) : g.HoldsAll t.Stores := by
  intro role handle hstores
  cases role with
  | part => exact h handle (TypeRecord.mem_handles.2 hstores)
  | note =>
    cases hstores with | data hh =>
    generalize hdata : t.data = data at hh
    cases hh with | object hh =>
    rw [TypeRecord.object?, hdata] at hobject
    cases hobject

theorem holdsAll_symbol {s : SymbolRecord} : g.HoldsAll s.Stores ↔ s.HeldIn g where
  mp h :=
    { declarations := fun _ hd _ hid => h _ _ (.typeAtDeclaration hd hid)
      parent := fun _ hid => h _ _ (.parent hid)
      valueType := fun _ hid => h _ _ (.valueType hid)
      declaredType := fun _ hid => h _ _ (.declaredType hid)
      typeParameters := fun _ hid => h _ _ (.typeParameter hid) }
  mpr h role handle hstores := by
    cases hstores with
    | typeAtDeclaration hd hid => exact h.declarations _ hd _ hid
    | parent hid => exact h.parent _ hid
    | valueType hid => exact h.valueType _ hid
    | declaredType hid => exact h.declaredType _ hid
    | typeParameter hid => exact h.typeParameters _ hid

end TypeGraph

end TypeAtlas
