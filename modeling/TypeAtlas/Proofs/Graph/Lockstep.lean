import TypeAtlas.Proofs.Graph.Carrying
/-!
# Graphs that grow in step

A closed graph stays closed when a record is added or changed, if the new record leads to records
of the graph. A renaming that carries one graph to another one goes on to do so when both get the
next record, renamed in the second one, as long as it takes the next handle of the first graph to
the next handle of the second (`Renaming.Carries.addType`, `Renaming.Carries.addSymbol`), and when
the same record is changed in both (`Renaming.Carries.modifyType`).
-/

namespace TypeAtlas

open Handle (Role)
open TypeGraph

namespace TypeGraph

variable {g h : TypeGraph}

theorem Extends.hasType (hgh : g.Extends h) {id : TypeId} (hid : g.HasType id) : h.HasType id :=
  hid.trans_le hgh.types_size

theorem Extends.hasSymbol (hgh : g.Extends h) {id : SymbolId} (hid : g.HasSymbol id) :
    h.HasSymbol id :=
  hid.trans_le hgh.symbols_size

theorem Extends.holds (hgh : g.Extends h) {handle : Handle} (hholds : g.Holds handle) :
    h.Holds handle := by
  cases handle with
  | type id => exact hgh.hasType hholds
  | symbol id => exact hgh.hasSymbol hholds

theorem hasType_addType {record : TypeRecord} (hsize : g.types.size < UInt32.size) {id : TypeId} :
    (Build.addType record g).2.HasType id ↔ g.HasType id ∨ id = .ofIndex g.types.size := by
  have hindex := TypeId.index_ofIndex hsize
  rw [HasType, types_size_addType, Nat.lt_succ_iff_lt_or_eq]
  refine or_congr Iff.rfl ⟨fun h => TypeId.index_inj (h.trans hindex.symm), ?_⟩
  rintro rfl
  exact hindex

theorem hasSymbol_addSymbol {record : SymbolRecord} (hsize : g.symbols.size < UInt32.size)
    {id : SymbolId} :
    (Build.addSymbol record g).2.HasSymbol id ↔ g.HasSymbol id ∨ id = .ofIndex g.symbols.size := by
  have hindex := SymbolId.index_ofIndex hsize
  rw [HasSymbol, symbols_size_addSymbol, Nat.lt_succ_iff_lt_or_eq]
  refine or_congr Iff.rfl ⟨fun h => ?_, ?_⟩
  · rw [← h, SymbolId.ofIndex_index]
  · rintro rfl
    exact hindex

theorem holds_modifyType (id : TypeId) (f : TypeRecord → TypeRecord) {handle : Handle} :
    (Build.modifyType id f g).2.Holds handle ↔ g.Holds handle := by
  cases handle with
  | type id => rw [Holds, Holds, HasType, HasType, types_size_modifyType]
  | symbol id => rw [Holds, Holds, HasSymbol, HasSymbol, symbols_modifyType]

/-- A graph with the records of a closed graph, and others that lead to records of it. -/
theorem Closed.of_records (hg : g.Closed) (hsize : g.types.size ≤ h.types.size)
    (hholds : ∀ handle, g.Holds handle → h.Holds handle) (harray : h.globalArray = g.globalArray)
    (hreadonly : h.globalReadonlyArray = g.globalReadonlyArray)
    (htypes : ∀ record ∈ h.types, record ∈ g.types ∨
      ∀ {role : Role} {handle : Handle}, record.Stores role handle → h.Holds handle)
    (hsymbols : ∀ record ∈ h.symbols, record ∈ g.symbols ∨
      ∀ {role : Role} {handle : Handle}, record.Stores role handle → h.Holds handle) :
    h.Closed where
  intrinsics := hg.intrinsics.trans hsize
  holds hstores := by
    cases hstores with
    | globalArray => exact harray ▸ hholds _ (hg.holds .globalArray)
    | globalReadonlyArray => exact hreadonly ▸ hholds _ (hg.holds .globalReadonlyArray)
    | type hmem hrecord =>
      rcases htypes _ hmem with hold | hnew
      · exact hholds _ (hg.holds (.type hold hrecord))
      · exact hnew hrecord
    | symbol hmem hrecord =>
      rcases hsymbols _ hmem with hold | hnew
      · exact hholds _ (hg.holds (.symbol hold hrecord))
      · exact hnew hrecord

namespace Closed

variable (hg : g.Closed)

include hg

theorem addType {record : TypeRecord} (hrecord : ∀ {role : Role} {handle : Handle},
      record.Stores role handle → (Build.addType record g).2.Holds handle) :
    (Build.addType record g).2.Closed := by
  refine hg.of_records (Extends.addType g record).types_size
    (fun _ => (Extends.addType g record).holds) rfl rfl (fun other hmem => ?_) fun _ => Or.inl
  rcases Array.mem_push.1 hmem with hold | rfl
  · exact Or.inl hold
  · exact Or.inr hrecord

theorem addSymbol {record : SymbolRecord} (hrecord : ∀ {role : Role} {handle : Handle},
      record.Stores role handle → (Build.addSymbol record g).2.Holds handle) :
    (Build.addSymbol record g).2.Closed := by
  refine hg.of_records le_rfl (fun _ => (Extends.addSymbol g record).holds) rfl rfl
    (fun _ => Or.inl) fun other hmem => ?_
  rcases Array.mem_push.1 hmem with hold | rfl
  · exact Or.inl hold
  · exact Or.inr hrecord

theorem modifyType {id : TypeId} {record : TypeRecord} (hid : g.type? id = some record)
    {f : TypeRecord → TypeRecord} (hrecord : ∀ {role : Role} {handle : Handle},
      (f record).Stores role handle → g.Holds handle) :
    (Build.modifyType id f g).2.Closed := by
  have hholds : ∀ handle, g.Holds handle → (Build.modifyType id f g).2.Holds handle :=
    fun _ => (holds_modifyType id f).2
  refine hg.of_records (types_size_modifyType id f g).ge hholds ?_ ?_ (fun other hmem => ?_)
    fun other hmem => Or.inl (symbols_modifyType id f g ▸ hmem)
  · rw [Build.modifyType, hid]
  · rw [Build.modifyType, hid]
  · rw [Build.modifyType, hid] at hmem
    rcases Array.mem_or_eq_of_mem_setIfInBounds hmem with hold | rfl
    · exact Or.inl hold
    · exact Or.inr fun hstores => hholds _ (hrecord hstores)

end Closed

end TypeGraph

namespace Renaming.Carries

variable {ρ : Renaming} {g h : TypeGraph} (hc : ρ.Carries g h)

include hc

theorem hasType {id : TypeId} (hid : g.HasType id) : h.HasType (ρ.type id) := by
  obtain ⟨_, _, hrenamed⟩ := hc.type?_eq_some hid
  exact hasType_of_type? hrenamed

theorem hasSymbol {id : SymbolId} (hid : g.HasSymbol id) : h.HasSymbol (ρ.symbol id) := by
  obtain ⟨_, _, hrenamed⟩ := hc.symbol?_eq_some hid
  exact hasSymbol_of_symbol? hrenamed

/-- Both graphs get a type. -/
theorem addType (hsize : g.types.size < UInt32.size) (hsize' : h.types.size < UInt32.size)
    (hnext : ρ.type (.ofIndex g.types.size) = .ofIndex h.types.size) {record : TypeRecord}
    (hrecord : ∀ {role : Role} {handle : Handle},
      record.Stores role handle → (Build.addType record g).2.Holds handle) :
    ρ.Carries (Build.addType record g).2 (Build.addType (record.rename ρ) h).2 where
  closed := hc.closed.addType hrecord
  type? := by
    intro id hid
    rcases (hasType_addType hsize).1 hid with hold | rfl
    · rw [(Extends.addType h _).type?_eq (hc.hasType hold), (Extends.addType g _).type?_eq hold]
      exact hc.type? hold
    · rw [hnext]
      exact (type?_addType _ hsize').trans
        (congrArg (Option.map _) (type?_addType record hsize).symm)
  symbol? := hc.symbol?
  injective := by
    -- the next handle of the second graph is not in use yet
    have hfresh : ∀ {id}, g.HasType id → ρ.type id ≠ ρ.type (.ofIndex g.types.size) := by
      intro id hid heq
      have hlt := hc.hasType hid
      rw [heq, hnext, HasType, TypeId.index_ofIndex hsize'] at hlt
      exact Nat.lt_irrefl _ hlt
    intro a b ha hb heq
    rcases (hasType_addType hsize).1 ha with ha | rfl <;>
      rcases (hasType_addType hsize).1 hb with hb | rfl
    · exact hc.injective ha hb heq
    · exact absurd heq (hfresh ha)
    · exact absurd heq.symm (hfresh hb)
    · rfl
  intrinsic := hc.intrinsic
  globalArray := hc.globalArray
  globalReadonlyArray := hc.globalReadonlyArray
  types_size := by
    rw [types_size_addType, types_size_addType]
    exact Nat.succ_le_succ hc.types_size

/-- Both graphs get a symbol. -/
theorem addSymbol (hsize : g.symbols.size < UInt32.size) (hsize' : h.symbols.size < UInt32.size)
    (hnext : ρ.symbol (.ofIndex g.symbols.size) = .ofIndex h.symbols.size) {record : SymbolRecord}
    (hrecord : ∀ {role : Role} {handle : Handle},
      record.Stores role handle → (Build.addSymbol record g).2.Holds handle) :
    ρ.Carries (Build.addSymbol record g).2 (Build.addSymbol (record.rename ρ) h).2 where
  closed := hc.closed.addSymbol hrecord
  type? := hc.type?
  symbol? := by
    intro id hid
    rcases (hasSymbol_addSymbol hsize).1 hid with hold | rfl
    · rw [(Extends.addSymbol h _).symbol?_eq (hc.hasSymbol hold),
        (Extends.addSymbol g _).symbol?_eq hold]
      exact hc.symbol? hold
    · rw [hnext]
      exact (symbol?_addSymbol _ hsize').trans
        (congrArg (Option.map _) (symbol?_addSymbol record hsize).symm)
  injective := hc.injective
  intrinsic := hc.intrinsic
  globalArray := hc.globalArray
  globalReadonlyArray := hc.globalReadonlyArray
  types_size := hc.types_size

/-- A type is changed in both graphs. -/
theorem modifyType {id : TypeId} {record : TypeRecord} (hid : g.type? id = some record)
    {f f' : TypeRecord → TypeRecord} (hf : f' (record.rename ρ) = (f record).rename ρ)
    (hrecord : ∀ {role : Role} {handle : Handle},
      (f record).Stores role handle → g.Holds handle) :
    ρ.Carries (Build.modifyType id f g).2 (Build.modifyType (ρ.type id) f' h).2 := by
  have hhas : g.HasType id := hasType_of_type? hid
  have hid' : h.type? (ρ.type id) = some (record.rename ρ) := by rw [hc.type? hhas, hid]; rfl
  have hhasType : ∀ {other}, (Build.modifyType id f g).2.HasType other → g.HasType other := by
    intro other hother
    rwa [HasType, types_size_modifyType] at hother
  refine ⟨hc.closed.modifyType hid hrecord, fun {other} hother => ?_, fun {other} hother => ?_,
    fun ha hb => hc.injective (hhasType ha) (hhasType hb), hc.intrinsic, ?_, ?_, ?_⟩
  · by_cases heq : other = id
    · rw [heq, type?_modifyType_self hid, type?_modifyType_self hid', hf]
      rfl
    · have hne : ρ.type other ≠ ρ.type id := fun h => heq (hc.injective (hhasType hother) hhas h)
      rw [type?_modifyType_of_ne heq, type?_modifyType_of_ne hne, hc.type? (hhasType hother)]
  · rw [symbol?_modifyType, symbol?_modifyType]
    rw [HasSymbol, symbols_modifyType] at hother
    exact hc.symbol? hother
  · rw [Build.modifyType, Build.modifyType, hid, hid']
    exact hc.globalArray
  · rw [Build.modifyType, Build.modifyType, hid, hid']
    exact hc.globalReadonlyArray
  · rw [types_size_modifyType, types_size_modifyType]
    exact hc.types_size

end Renaming.Carries

end TypeAtlas
