import TypeAtlas.Proofs.Graph.Builders
import TypeAtlas.Proofs.Graph.Operators
/-!
# Types made by operators

Which types of a graph are made by the operators of a tree (`TypeGraph.Spells`), and that the
builders make them: one lemma for each builder.
-/

namespace TypeAtlas

/-- Whether a type with these flags is printed as a name: `boolean`, an enum or a member of one. -/
def TypeFlags.isNamed (flags : TypeFlags) : Bool :=
  flags.has TypeFlags.boolean || flags.has TypeFlags.enumLiteral || flags.has TypeFlags.enum

/-- A record without an alias and without a name of its own. -/
structure TypeRecord.IsNameless (record : TypeRecord) : Prop where
  noAlias : record.aliasSymbol = none
  notNamed : record.flags.isNamed = false

theorem TypeRecord.IsNameless.of_flags {flags : TypeFlags} (h : flags.isNamed = false)
    (objectFlags : ObjectFlags) (symbol : Option SymbolId) (data : TypeData) :
    IsNameless { flags, objectFlags, symbol, data } :=
  ⟨rfl, h⟩

namespace TypeGraph

/-- A type that is printed by what it is made of. -/
def MadeOf (g : TypeGraph) (id : TypeId) (data : TypeData) : Prop :=
  ∃ record, g.type? id = some record ∧ record.IsNameless ∧ record.data = data

/-- A type that is printed as a name: a keyword, or a type parameter. -/
inductive HasName (g : TypeGraph) (id : TypeId) : String → Prop
  | boolean {record : TypeRecord} : g.type? id = some record → record.aliasSymbol = none →
      record.flags.has TypeFlags.boolean = true → HasName g id "boolean"
  | keyword {word : String} : g.MadeOf id (.intrinsic word) → word ≠ "error" → HasName g id word
  | typeParameter {record : TypeRecord} {constraint default : Option TypeId} {name : String} :
      g.type? id = some record → record.IsNameless →
      record.data = .typeParameter constraint default → g.nameOf? record.symbol = some name →
      HasName g id name

end TypeGraph

namespace TypeGraph

variable {g : TypeGraph} {id : TypeId}

theorem MadeOf.unique {data data' : TypeData} (h : g.MadeOf id data) (h' : g.MadeOf id data') :
    data = data' := by
  obtain ⟨record, hrecord, -, rfl⟩ := h
  obtain ⟨record', hrecord', -, rfl⟩ := h'
  rw [Option.some.inj (hrecord.symm.trans hrecord')]

/-- A type that is printed as a name is not made by an operator. -/
theorem HasName.not_madeOf_index {name : String} {target : TypeId} (hleaf : g.HasName id name) :
    ¬g.MadeOf id (.index target) := by
  intro hid
  cases hleaf with
  | boolean hrecord _ hboolean =>
    obtain ⟨record, hrecord', hnameless, -⟩ := hid
    obtain rfl := Option.some.inj (hrecord.symm.trans hrecord')
    have hnotNamed := hnameless.notNamed
    simp [TypeFlags.isNamed, hboolean] at hnotNamed
  | keyword hword _ => cases hword.unique hid
  | typeParameter hrecord hnameless hdata _ =>
    cases MadeOf.unique ⟨_, hrecord, hnameless, hdata⟩ hid

end TypeGraph

/-- What a union or an intersection is made of. -/
def Connective.data : Connective → List TypeId → TypeData
  | union, types => .union types
  | intersection, types => .intersection types

/-- A type of a graph that is made by the operators of a tree. -/
inductive TypeGraph.Spells (g : TypeGraph) : Operators → TypeId → Prop
  | leaf {name : Identifier} {id : TypeId} : g.HasName id name.text → Spells g (.leaf name) id
  | joined {op : Connective} {first second : Operators} {rest : List Operators} {id : TypeId}
      {types : List TypeId} :
      g.MadeOf id (op.data types) → types.length = rest.length + 2 →
      (∀ pair ∈ (first :: second :: rest).zip types, Spells g pair.1 pair.2) →
      Spells g (.joined op first second rest) id
  | array {readonly : Bool} {element : Operators} {id type : TypeId} {object : ObjectType} :
      g.MadeOf id (.object object) → g.isArray id = true → g.isReadonlyArray id = readonly →
      g.typeArguments id = [type] → Spells g element type → Spells g (.array readonly element) id
  | keyof {target : Operators} {id type : TypeId} :
      g.MadeOf id (.index type) → Spells g target type → Spells g (.keyof target) id
  | access {object index : Operators} {id type indexType : TypeId} :
      g.MadeOf id (.indexedAccess type indexType) → Spells g object type →
      Spells g index indexType → Spells g (.access object index) id

/-! ## Later graphs -/

/-- A later graph, with the same types and names at the old handles. -/
structure TypeGraph.Keeps (g h : TypeGraph) : Prop where
  types_size : g.types.size ≤ h.types.size
  symbols_size : g.symbols.size ≤ h.symbols.size
  type : ∀ {id : TypeId} {record : TypeRecord}, g.type? id = some record → h.type? id = some record
  name : ∀ {id : SymbolId} {name : String}, g.symbolName? id = some name →
    h.symbolName? id = some name
  globalArray : h.globalArray = g.globalArray
  globalReadonlyArray : h.globalReadonlyArray = g.globalReadonlyArray

namespace TypeGraph

variable {g h : TypeGraph}

instance : IsPreorder TypeGraph Keeps where
  refl _ := ⟨le_rfl, le_rfl, id, id, rfl, rfl⟩
  trans _ _ _ h₁ h₂ := ⟨h₁.types_size.trans h₂.types_size, h₁.symbols_size.trans h₂.symbols_size,
    h₂.type ∘ h₁.type, h₂.name ∘ h₁.name, h₂.globalArray.trans h₁.globalArray,
    h₂.globalReadonlyArray.trans h₁.globalReadonlyArray⟩

namespace Keeps

variable (hgh : g.Keeps h) {id : TypeId}

include hgh

theorem fits (hfits : h.Fits) : g.Fits :=
  ⟨hgh.types_size.trans hfits.types, hgh.symbols_size.trans hfits.symbols⟩

theorem madeOf {data : TypeData} (hid : g.MadeOf id data) : h.MadeOf id data :=
  hid.imp fun _ => And.imp_left hgh.type

theorem hasName {name : String} (hid : g.HasName id name) : h.HasName id name := by
  cases hid with
  | boolean hrecord hnoAlias hboolean => exact .boolean (hgh.type hrecord) hnoAlias hboolean
  | keyword hword hne => exact .keyword (hgh.madeOf hword) hne
  | typeParameter hrecord hnameless hdata hname =>
    refine .typeParameter (hgh.type hrecord) hnameless hdata ?_
    obtain ⟨symbol, hsymbol, hname⟩ := Option.bind_eq_some_iff.1 hname
    exact Option.bind_eq_some_iff.2 ⟨symbol, hsymbol, hgh.name hname⟩

theorem object? {object : ObjectType} (hid : g.MadeOf id (.object object)) :
    h.object? id = g.object? id := by
  obtain ⟨record, hrecord, -, -⟩ := hid
  rw [TypeGraph.object?, TypeGraph.object?, hrecord, hgh.type hrecord]

/-- By induction on how a type is made. -/
theorem spells {tree : Operators} (hid : g.Spells tree id) : h.Spells tree id := by
  induction hid with
  | leaf hleaf => exact .leaf (hgh.hasName hleaf)
  | joined hid hlength _ ih => exact .joined (hgh.madeOf hid) hlength ih
  | array hid harray hreadonly harguments _ ih =>
    have hobject := hgh.object? hid
    refine .array (hgh.madeOf hid) ?_ ?_ ?_ ih
    · rwa [isArray, hobject, hgh.globalArray, hgh.globalReadonlyArray]
    · rwa [isReadonlyArray, hobject, hgh.globalReadonlyArray]
    · rwa [typeArguments, hobject]
  | keyof hid _ ih => exact .keyof (hgh.madeOf hid) ih
  | access hid _ _ ih ihIndex => exact .access (hgh.madeOf hid) ih ihIndex

end Keeps

/-- A type that is made by the operators of a tree, if no handle was given twice. -/
def Spelled (g : TypeGraph) (tree : Operators) (id : TypeId) : Prop :=
  g.Fits → g.Spells tree id

theorem Spelled.later {tree : Operators} {id : TypeId} (hid : g.Spelled tree id)
    (hgh : g.Keeps h) : h.Spelled tree id :=
  fun hfits => hgh.spells (hid (hgh.fits hfits))

theorem keeps_addType (record : TypeRecord) (g : TypeGraph) :
    g.Keeps (Build.addType record g).2 where
  types_size := (types_size_addType record g).ge.trans' (Nat.le_succ _)
  symbols_size := le_rfl
  type hrecord := by
    obtain ⟨hlt, -⟩ := Array.getElem?_eq_some_iff.1 hrecord
    exact (Array.getElem?_push_lt hlt).trans ((Array.getElem?_eq_getElem hlt).symm.trans hrecord)
  name := id
  globalArray := rfl
  globalReadonlyArray := rfl

theorem keeps_addSymbol (record : SymbolRecord) (g : TypeGraph) :
    g.Keeps (Build.addSymbol record g).2 where
  types_size := le_rfl
  symbols_size := (symbols_size_addSymbol record g).ge.trans' (Nat.le_succ _)
  type := id
  name hname := by
    obtain ⟨old, hold, rfl⟩ := Option.map_eq_some_iff.1 hname
    obtain ⟨hlt, -⟩ := Array.getElem?_eq_some_iff.1 hold
    refine Option.map_eq_some_iff.2 ⟨old, ?_, rfl⟩
    exact (Array.getElem?_push_lt hlt).trans ((Array.getElem?_eq_getElem hlt).symm.trans hold)
  globalArray := rfl
  globalReadonlyArray := rfl

/-- A change to a symbol that leaves its name. -/
theorem keeps_modifySymbol (symbol : SymbolId) {f : SymbolRecord → SymbolRecord}
    (hf : ∀ record, (f record).name = record.name) (g : TypeGraph) :
    g.Keeps (Build.modifySymbol symbol f g).2 := by
  unfold Build.modifySymbol
  split
  next record hrecord =>
    refine ⟨le_rfl, Array.size_setIfInBounds.ge, id, fun {other name} hname => ?_, rfl, rfl⟩
    obtain ⟨old, hold, rfl⟩ := Option.map_eq_some_iff.1 hname
    rcases eq_or_ne other.index symbol.index with heq | hne
    · rw [symbol?, heq, ← symbol?, hrecord] at hold
      obtain rfl := Option.some.inj hold
      obtain ⟨hlt, -⟩ := Array.getElem?_eq_some_iff.1 hrecord
      refine Option.map_eq_some_iff.2 ⟨f record, ?_, hf record⟩
      rw [symbol?, heq]
      exact Array.getElem?_setIfInBounds_self_of_lt hlt
    · refine Option.map_eq_some_iff.2 ⟨old, ?_, rfl⟩
      rw [symbol?, Array.getElem?_setIfInBounds_ne hne.symm]
      exact hold
  next => exact refl_of Keeps g

end TypeGraph

/-! ## Builders -/

namespace Build

open TypeGraph

variable {α : Type} {g : TypeGraph} {tree : Operators}

/-- What a builder gives on later graphs with two array interfaces. -/
abbrev Keeping (x : Build α) (g : TypeGraph) (Q : TypeGraph → α → Prop) : Prop :=
  TypeAtlas.Yields (fun h => h.globalArray ≠ h.globalReadonlyArray) Keeps x g Q

/-- A builder that makes a type by the operators of a tree. -/
abbrev Makes (x : Build TypeId) (g : TypeGraph) (tree : Operators) : Prop :=
  Keeping x g fun h => h.Spelled tree

theorem makes_addType {record : TypeRecord}
    (hspells : ∀ (h : TypeGraph) (id : TypeId), g.Keeps h → h.Fits →
      h.globalArray ≠ h.globalReadonlyArray → h.type? id = some record → h.Spells tree id) :
    Makes (addType record) g tree := by
  intro h hgh hvalid
  have hkeeps := keeps_addType record h
  refine ⟨hvalid, hkeeps, fun hfits => ?_⟩
  refine hspells _ _ (trans_of Keeps hgh hkeeps) hfits hvalid (type?_addType record ?_)
  exact Nat.lt_of_lt_of_le (Nat.lt_succ_self _) ((types_size_addType record h).ge.trans hfits.types)

theorem makes_keyof {target : TypeId} (htarget : g.Spelled tree target) :
    Makes (keyof target) g (.keyof tree) :=
  makes_addType fun _ _ hgh hfits _ hrecord =>
    .keyof ⟨_, hrecord, .of_flags (by decide) _ _ _, rfl⟩ (htarget.later hgh hfits)

theorem makes_indexedAccess {index : Operators} {objectType indexType : TypeId}
    (hobject : g.Spelled tree objectType) (hindex : g.Spelled index indexType) :
    Makes (indexedAccess objectType indexType) g (.access tree index) :=
  makes_addType fun _ _ hgh hfits _ hrecord =>
    .access ⟨_, hrecord, .of_flags (by decide) _ _ _, rfl⟩ (hobject.later hgh hfits)
      (hindex.later hgh hfits)

/-- A reference to one of the array interfaces. -/
theorem makes_instantiate (readonly : Bool) {element target : TypeId}
    (helement : g.Spelled tree element)
    (htarget : target = if readonly then g.globalReadonlyArray else g.globalArray) :
    Makes (instantiate target [element]) g (.array readonly tree) := by
  refine .read fun h hgh hvalid => makes_addType fun k id hhk hfits hvalid' hrecord => ?_
  have hobject : k.object? id = some { target := some target, typeArguments := [element] } := by
    rw [object?, hrecord]
    rfl
  have hgk := trans_of Keeps hgh hhk
  rw [← hgk.globalArray, ← hgk.globalReadonlyArray] at htarget
  refine .array ⟨_, hrecord, .of_flags (by decide) _ _ _, rfl⟩ ?_ ?_ ?_
    (helement.later hgk hfits)
  · rw [isArray, hobject, htarget]
    cases readonly <;> simp
  · rw [isReadonlyArray, hobject, htarget]
    cases readonly <;> simp [hvalid']
  · rw [typeArguments, hobject]
    rfl

theorem makes_arrayOf {element : TypeId} (helement : g.Spelled tree element) :
    Makes (arrayOf element) g (.array false tree) :=
  .read fun _ hgh _ => makes_instantiate false (helement.later hgh) rfl

theorem makes_readonlyArrayOf {element : TypeId} (helement : g.Spelled tree element) :
    Makes (readonlyArrayOf element) g (.array true tree) :=
  .read fun _ hgh _ => makes_instantiate true (helement.later hgh) rfl

/-- The builder of a union or of an intersection. -/
def connect : Connective → List TypeId → Build TypeId
  | .union => union
  | .intersection => intersection

theorem connect_cases (op : Connective) (types : List TypeId) :
    (∃ single, distinct types = [single] ∧ connect op types = pure single) ∨
      ∃ flags : TypeFlags, flags.isNamed = false ∧
        connect op types = addType { flags, data := op.data (distinct types) } := by
  cases op with
  | union =>
    exact (union_cases types).imp_right fun h => ⟨TypeFlags.union, by decide, h.2⟩
  | intersection =>
    exact (intersection_cases types).imp_right fun h => ⟨TypeFlags.intersection, by decide, h.2⟩

/-- Several types that are different are not one type. -/
theorem makes_connect (op : Connective) {second : Operators} {rest : List Operators}
    {types : List TypeId} (hnodup : g.Fits → types.Nodup) (hlength : types.length = rest.length + 2)
    (hmembers : ∀ pair ∈ (tree :: second :: rest).zip types, g.Spelled pair.1 pair.2) :
    Makes (connect op types) g (.joined op tree second rest) := by
  rcases connect_cases op types with ⟨single, hsingle, heq⟩ | ⟨flags, hflags, heq⟩ <;> rw [heq]
  · refine .pure fun h hgh hfits => ?_
    have htypes := distinct_of_nodup (hnodup (hgh.fits hfits))
    rw [← htypes, hsingle, List.length_singleton] at hlength
    omega
  · refine makes_addType fun h id hgh hfits _ hrecord => ?_
    rw [distinct_of_nodup (hnodup (hgh.fits hfits))] at hrecord
    exact .joined ⟨_, hrecord, .of_flags hflags _ _ _, rfl⟩ hlength fun pair hpair =>
      (hmembers pair hpair).later hgh hfits

theorem keeping_createSymbol (name : String) (flags : SymbolFlags) :
    Keeping (createSymbol name flags) g fun h symbol =>
      h.symbols.size ≤ UInt32.size → h.symbolName? symbol = some name := by
  intro h _ hvalid
  refine ⟨hvalid, keeps_addSymbol _ h, fun hfits => ?_⟩
  rw [createSymbol, symbols_size_addSymbol] at hfits
  rw [createSymbol, symbolName?, symbol?_addSymbol _ hfits]
  rfl

theorem keeping_setDeclaredType (symbol : SymbolId) (type : TypeId) :
    Keeping (setDeclaredType symbol type) g fun _ _ => True := by
  intro h _ hvalid
  have hkeeps : h.Keeps (setDeclaredType symbol type h).2 :=
    keeps_modifySymbol symbol (fun _ => by rfl) h
  rw [← hkeeps.globalArray, ← hkeeps.globalReadonlyArray] at hvalid
  exact ⟨hvalid, hkeeps, trivial⟩

theorem makes_typeParameter (name : Identifier) (constraint default : Option TypeId) :
    Makes (typeParameter name.text constraint default) g (.leaf name) := by
  refine (keeping_createSymbol name.text _).bind fun h symbol _ hsymbol => ?_
  have hmakes : Makes (addType
      { flags := TypeFlags.typeParameter
        symbol := some symbol
        data := .typeParameter constraint default }) h (.leaf name) := by
    refine makes_addType fun k id hhk hfits _ hrecord => ?_
    refine .leaf (.typeParameter hrecord (.of_flags (by decide) _ _ _) rfl (hhk.name (hsymbol ?_)))
    exact (hhk.fits hfits).symbols
  refine hmakes.bind fun k id _ hid => ?_
  exact (keeping_setDeclaredType symbol id).andThen (.pure fun l hkl => hid.later hkl)

end Build

end TypeAtlas
