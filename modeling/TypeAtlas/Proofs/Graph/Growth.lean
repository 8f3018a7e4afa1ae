import Mathlib.Order.Nat
import TypeAtlas.Graph.Builder
/-!
# Growth of a graph

A graph extends another if all records of the other are at their places in it
(`TypeGraph.Extends`). Builders that only add records lead to such graphs; so do those that change a
record, as long as it is a new one. New records have a handle of their own while there are no more
than `UInt32.size` types, so growth under this bound is a relation of its own (`TypeGraph.Appends`).
-/

namespace TypeAtlas

namespace TypeId

theorem index_ofIndex {n : Nat} (h : n < UInt32.size) : (ofIndex n).index = n := by
  rw [ofIndex, index, UInt32.toNat_ofNat', Nat.mod_eq_of_lt h]

theorem ofIndex_index (id : TypeId) : ofIndex id.index = id := by
  rw [ofIndex, index, UInt32.ofNat_toNat]

theorem index_inj {a b : TypeId} (h : a.index = b.index) : a = b := by
  rw [← ofIndex_index a, ← ofIndex_index b, h]

end TypeId

namespace SymbolId

theorem index_ofIndex {n : Nat} (h : n < UInt32.size) : (ofIndex n).index = n := by
  rw [ofIndex, index, UInt32.toNat_ofNat', Nat.mod_eq_of_lt h]

theorem ofIndex_index (id : SymbolId) : ofIndex id.index = id := by
  rw [ofIndex, index, UInt32.ofNat_toNat]

end SymbolId

namespace TypeGraph

/-- A graph with the records of another one at their places, and new ones after them. -/
structure Extends (g h : TypeGraph) : Prop where
  types_size : g.types.size ≤ h.types.size
  types : ∀ n < g.types.size, h.types[n]? = g.types[n]?
  symbols_size : g.symbols.size ≤ h.symbols.size
  symbols : ∀ n < g.symbols.size, h.symbols[n]? = g.symbols[n]?
  globalArray : h.globalArray = g.globalArray
  globalReadonlyArray : h.globalReadonlyArray = g.globalReadonlyArray

namespace Extends

variable {g h k : TypeGraph}

theorem refl (g : TypeGraph) : g.Extends g :=
  ⟨le_rfl, fun _ _ => rfl, le_rfl, fun _ _ => rfl, rfl, rfl⟩

theorem trans (h₁ : g.Extends h) (h₂ : h.Extends k) : g.Extends k where
  types_size := h₁.types_size.trans h₂.types_size
  types n hn := (h₂.types n (hn.trans_le h₁.types_size)).trans (h₁.types n hn)
  symbols_size := h₁.symbols_size.trans h₂.symbols_size
  symbols n hn := (h₂.symbols n (hn.trans_le h₁.symbols_size)).trans (h₁.symbols n hn)
  globalArray := h₂.globalArray.trans h₁.globalArray
  globalReadonlyArray := h₂.globalReadonlyArray.trans h₁.globalReadonlyArray

theorem addType (g : TypeGraph) (record : TypeRecord) :
    g.Extends (Build.addType record g).2 where
  types_size := by simp [Build.addType]
  types n hn := by simp [Build.addType, Array.getElem?_push, hn.ne]
  symbols_size := le_rfl
  symbols _ _ := rfl
  globalArray := rfl
  globalReadonlyArray := rfl

theorem addSymbol (g : TypeGraph) (record : SymbolRecord) :
    g.Extends (Build.addSymbol record g).2 where
  types_size := le_rfl
  types _ _ := rfl
  symbols_size := by simp [Build.addSymbol]
  symbols n hn := by simp [Build.addSymbol, Array.getElem?_push, hn.ne]
  globalArray := rfl
  globalReadonlyArray := rfl

end Extends

theorem types_size_modifyType (id : TypeId) (f : TypeRecord → TypeRecord) (g : TypeGraph) :
    (Build.modifyType id f g).2.types.size = g.types.size := by
  unfold Build.modifyType
  split
  · exact Array.size_setIfInBounds
  · rfl

theorem types_size_addType (record : TypeRecord) (g : TypeGraph) :
    (Build.addType record g).2.types.size = g.types.size + 1 :=
  Array.size_push _

theorem index_addType (record : TypeRecord) {g : TypeGraph} (h : g.types.size < UInt32.size) :
    (Build.addType record g).1.index = g.types.size :=
  TypeId.index_ofIndex h

theorem type?_addType (record : TypeRecord) {g : TypeGraph} (h : g.types.size < UInt32.size) :
    (Build.addType record g).2.type? (Build.addType record g).1 = some record := by
  rw [type?, index_addType record h]
  exact Array.getElem?_push_size

theorem symbols_size_addSymbol (record : SymbolRecord) (g : TypeGraph) :
    (Build.addSymbol record g).2.symbols.size = g.symbols.size + 1 :=
  Array.size_push _

theorem symbol?_addSymbol (record : SymbolRecord) {g : TypeGraph}
    (h : g.symbols.size < UInt32.size) :
    (Build.addSymbol record g).2.symbol? (Build.addSymbol record g).1 = some record := by
  have hindex : (Build.addSymbol record g).1.index = g.symbols.size := SymbolId.index_ofIndex h
  rw [symbol?, hindex]
  exact Array.getElem?_push_size

theorem type?_modifyType_self {g : TypeGraph} {id : TypeId} {record : TypeRecord}
    (h : g.type? id = some record) (f : TypeRecord → TypeRecord) :
    (Build.modifyType id f g).2.type? id = some (f record) := by
  obtain ⟨hlt, -⟩ := Array.getElem?_eq_some_iff.1 h
  rw [Build.modifyType, h]
  exact Array.getElem?_setIfInBounds_self_of_lt hlt

theorem type?_modifyType_of_ne {g : TypeGraph} {id other : TypeId} (h : other ≠ id)
    (f : TypeRecord → TypeRecord) : (Build.modifyType id f g).2.type? other = g.type? other := by
  unfold Build.modifyType
  split
  · exact Array.getElem?_setIfInBounds_ne fun heq => h (TypeId.index_inj heq.symm)
  · rfl

theorem symbols_modifyType (id : TypeId) (f : TypeRecord → TypeRecord) (g : TypeGraph) :
    (Build.modifyType id f g).2.symbols = g.symbols := by
  unfold Build.modifyType
  split <;> rfl

theorem symbol?_modifyType (id : TypeId) (f : TypeRecord → TypeRecord) (g : TypeGraph)
    (symbol : SymbolId) :
    (Build.modifyType id f g).2.symbol? symbol = g.symbol? symbol := by
  rw [symbol?, symbols_modifyType, symbol?]

/-- Changing a record that is not one of the old ones. -/
theorem Extends.modifyType {g h : TypeGraph} (hgh : g.Extends h) {id : TypeId}
    (hid : g.types.size ≤ id.index) (f : TypeRecord → TypeRecord) :
    g.Extends (Build.modifyType id f h).2 := by
  unfold Build.modifyType
  split
  · refine ⟨hgh.types_size.trans_eq Array.size_setIfInBounds.symm, fun n hn => ?_,
      hgh.symbols_size, hgh.symbols, hgh.globalArray, hgh.globalReadonlyArray⟩
    rw [Array.getElem?_setIfInBounds_ne (hn.trans_le hid).ne']
    exact hgh.types n hn
  · exact hgh

/-- A graph that has grown, and that extends the one it has grown from if no handle was given
twice. -/
structure Appends (g h : TypeGraph) : Prop where
  size_le : g.types.size ≤ h.types.size
  extends_of_le : h.types.size ≤ UInt32.size → g.Extends h

namespace Appends

variable {g h k : TypeGraph}

theorem of_extends (hgh : g.Extends h) : g.Appends h :=
  ⟨hgh.types_size, fun _ => hgh⟩

theorem refl (g : TypeGraph) : g.Appends g :=
  of_extends (.refl g)

theorem trans (h₁ : g.Appends h) (h₂ : h.Appends k) : g.Appends k where
  size_le := h₁.size_le.trans h₂.size_le
  extends_of_le hk := (h₁.extends_of_le (h₂.size_le.trans hk)).trans (h₂.extends_of_le hk)

end Appends

/-- Few enough records for each to have a handle of its own. -/
structure Fits (g : TypeGraph) : Prop where
  types : g.types.size ≤ UInt32.size
  symbols : g.symbols.size ≤ UInt32.size

instance {g : TypeGraph} : Decidable g.Fits :=
  decidable_of_iff (g.types.size ≤ UInt32.size ∧ g.symbols.size ≤ UInt32.size)
    ⟨fun h => ⟨h.1, h.2⟩, fun h => ⟨h.types, h.symbols⟩⟩

theorem fits_modifyType {g : TypeGraph} {id : TypeId} {f : TypeRecord → TypeRecord} :
    (Build.modifyType id f g).2.Fits ↔ g.Fits := by
  have htypes := types_size_modifyType id f g
  have hsymbols := congrArg Array.size (symbols_modifyType id f g)
  constructor
  · exact fun h => ⟨htypes.ge.trans h.types, hsymbols.ge.trans h.symbols⟩
  · exact fun h => ⟨htypes.trans_le h.types, hsymbols.trans_le h.symbols⟩

namespace Appends

variable {g h : TypeGraph} (hgh : g.Appends h) (hfits : h.Fits)

include hgh hfits

theorem extends_of_fits : g.Extends h :=
  hgh.extends_of_le hfits.types

theorem fits : g.Fits :=
  ⟨hgh.size_le.trans hfits.types, (hgh.extends_of_fits hfits).symbols_size.trans hfits.symbols⟩

end Appends

end TypeGraph

end TypeAtlas
