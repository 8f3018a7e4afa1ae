import TypeAtlas.Ids
import TypeAtlas.Literal
import TypeAtlas.Proofs.Flags.Text
import TypeAtlas.Proofs.Json.Members
import TypeAtlas.Source.Position
/-!
# Small records are read back

Handles, places in a source and literal values on their way through a medium. Records without
numbers arrive unchanged; a literal arrives if its number does.
-/

namespace TypeAtlas

variable (m : Medium)

namespace TypeId

@[simp]
theorem through_toJson (id : TypeId) : id.toJson.through m = id.toJson :=
  Json.through_uint32 m id.val

@[simp]
theorem ofJson?_toJson (id : TypeId) : ofJson? id.toJson = some id :=
  congrArg (Option.map mk) (Json.uint32?_ofNat id.val)

@[simp]
theorem isReadable_toJson (id : TypeId) : id.toJson.isReadable = true :=
  rfl

@[simp]
theorem toJson_ne_null (id : TypeId) : id.toJson ≠ .null :=
  Json.noConfusion

end TypeId

namespace SymbolId

@[simp]
theorem through_toJson (id : SymbolId) : id.toJson.through m = id.toJson :=
  Json.through_uint32 m id.val

@[simp]
theorem ofJson?_toJson (id : SymbolId) : ofJson? id.toJson = some id :=
  congrArg (Option.map mk) (Json.uint32?_ofNat id.val)

@[simp]
theorem isReadable_toJson (id : SymbolId) : id.toJson.isReadable = true :=
  rfl

@[simp]
theorem toJson_ne_null (id : SymbolId) : id.toJson ≠ .null :=
  Json.noConfusion

end SymbolId

namespace Flags

variable {kind : FlagKind}

@[simp]
theorem through_toJson (f : Flags kind) : f.toJson.through m = f.toJson :=
  Json.through_str m f.text

end Flags

namespace Position

@[simp]
theorem through_toJson (p : Position) : p.toJson.through m = p.toJson := by
  simp [toJson]

@[simp]
theorem ofJson?_toJson (p : Position) : ofJson? p.toJson = some p := by
  simp -implicitDefEqProofs [ofJson?, toJson]

end Position

namespace Range

@[simp]
theorem through_toJson (r : Range) : r.toJson.through m = r.toJson := by
  simp [toJson]

@[simp]
theorem ofJson?_toJson (r : Range) : ofJson? r.toJson = some r := by
  simp -implicitDefEqProofs [ofJson?, toJson]

end Range

namespace Location

@[simp]
theorem through_toJson (l : Location) : l.toJson.through m = l.toJson := by
  simp [toJson]

@[simp]
theorem ofJson?_toJson (l : Location) : ofJson? l.toJson = some l := by
  simp -implicitDefEqProofs [ofJson?, toJson]

@[simp]
theorem toJson_ne_null (l : Location) : l.toJson ≠ .null :=
  Json.noConfusion

end Location

namespace BigInt

@[simp]
theorem through_toJson (n : BigInt) : n.toJson.through m = n.toJson := by
  simp [toJson]

@[simp]
theorem ofJson?_toJson (n : BigInt) : ofJson? n.toJson = some n := by
  simp -implicitDefEqProofs [ofJson?, toJson]

@[simp]
theorem isReadable_toJson (n : BigInt) : n.toJson.isReadable = true := by
  simp [toJson]

end BigInt

/-! ## Literals -/

namespace Literal

/-- The literal with its number replaced, if it is one. -/
def renumber? (f : Double → Option Double) : Literal → Option Literal
  | number d => (f d).map number
  | value => some value

theorem ofJson?_toJson (l : Literal) :
    ofJson? (l.toJson.through m) = l.renumber? m.number? := by
  cases l <;> simp -implicitDefEqProofs [ofJson?, toJson, readers, renumber?, Json.innerName?,
    Json.name?, List.lookup_cons, Medium.number?]

end Literal

namespace EnumValue

/-- The value with its number replaced, if it is one. -/
def renumber? (f : Double → Option Double) : EnumValue → Option EnumValue
  | number d => (f d).map number
  | value => some value

theorem ofJson?_of_string?_eq_none {json : Json} (h : json.string? = none) :
    ofJson? json = json.double?.map number := by
  cases json with
  | str s => cases h
  | _ => rfl

theorem ofJson?_toJson (v : EnumValue) :
    ofJson? (v.toJson.through m) = v.renumber? m.number? := by
  cases v with
  | number d => exact ofJson?_of_string?_eq_none (m.string?_through_ofDouble d)
  | string s =>
    rw [toJson, Json.through_str]
    rfl

end EnumValue

/-! ## Properties handed up -/

section Hereditary

variable {P : Json → Prop} (hP : Json.Hereditary P)

include hP

namespace Json.Hereditary

theorem uint32 (n : UInt32) : P (.ofNat n.toNat) := by
  have := n.toNat_lt_size
  rw [UInt32.size] at this
  exact hP.int _ (by omega) (by omega)

theorem uint64 (n : UInt64) : P (.ofNat n.toNat) := by
  have := n.toNat_lt_size
  rw [UInt64.size] at this
  exact hP.int _ (by omega) (by omega)

theorem ofList {α : Type} {encode : α → Json} {xs : List α} (h : ∀ a ∈ xs, P (encode a)) :
    P (.ofList encode xs) :=
  hP.arr _ (List.forall_mem_map.2 h)

end Json.Hereditary

theorem TypeId.hereditary_toJson (id : TypeId) : P id.toJson :=
  hP.uint32 id.val

theorem Flags.hereditary_toJson {kind : FlagKind} (f : Flags kind) : P f.toJson :=
  hP.str f.text

theorem Position.hereditary_toJson (p : Position) : P p.toJson :=
  hP.obj _ (by simp [hP.uint32]) (by simp)

theorem Range.hereditary_toJson (r : Range) : P r.toJson :=
  hP.obj _ (by simp [Position.hereditary_toJson hP]) (by simp)

theorem Location.hereditary_toJson (l : Location) : P l.toJson :=
  hP.obj _ (by simp [Range.hereditary_toJson hP, hP.str]) (by simp)

theorem BigInt.hereditary_toJson (n : BigInt) : P n.toJson :=
  hP.obj _ (by simp [hP.bool, hP.str]) (by simp)

theorem EnumValue.hereditary_toJson (v : EnumValue)
    (hnumber : ∀ d, v = .number d → P (.ofDouble d)) : P v.toJson := by
  cases v with
  | number d => exact hnumber d rfl
  | string s => exact hP.str s

end Hereditary

end TypeAtlas
