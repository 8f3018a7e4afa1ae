import Mathlib.Algebra.Group.Int.Defs
import Mathlib.Algebra.Group.Nat.Defs
import Mathlib.Data.List.Basic
import TypeAtlas.Json.Decode
/-!
# The leaves of a value

A leaf is a value that is neither an array nor an object. A `Medium` says what becomes of the leaves
when a value is handed on: nothing, when it is handed on as it is, or what their texts are read as,
when it is handed on as text. Every medium leaves strings, truth values, `null` and integers of 64
bits alone; of a double it is known only that a number arrives, if anything does
(`Medium.number?`). So what is shown of a decoder for all media holds of values and of texts.
-/

namespace TypeAtlas.Json

/-- What the text of a number can be read as. -/
def isNumeric : Json → Bool
  | .int _ | .double _ | .unreadable => true
  | _ => false

mutual

/-- The value with every leaf changed. -/
def mapLeaves (f : Json → Json) : Json → Json
  | .arr items => .arr (mapLeavesItems f items)
  | .obj members => .obj (mapLeavesMembers f members)
  | leaf => f leaf

/-- The elements of an array, each with its leaves changed. -/
def mapLeavesItems (f : Json → Json) : List Json → List Json
  | [] => []
  | item :: rest => mapLeaves f item :: mapLeavesItems f rest

/-- The members of an object, each with the leaves of its value changed. -/
def mapLeavesMembers (f : Json → Json) : Members → Members
  | [] => []
  | (name, value) :: rest => (name, mapLeaves f value) :: mapLeavesMembers f rest

end

end TypeAtlas.Json

namespace TypeAtlas

/-- A way to hand on values, by what becomes of their leaves. -/
structure Medium where
  leaf : Json → Json
  leaf_null : leaf .null = .null
  leaf_bool : ∀ b, leaf (.bool b) = .bool b
  leaf_str : ∀ s, leaf (.str s) = .str s
  leaf_int : ∀ n : Int, -2 ^ 63 ≤ n → n < 2 ^ 64 → leaf (.int n) = .int n
  isNumeric_leaf_double : ∀ d, (leaf (.double d)).isNumeric = true

namespace Medium

/-- Values handed on as they are. -/
def exact : Medium where
  leaf := id
  leaf_null := rfl
  leaf_bool := fun _ => rfl
  leaf_str := fun _ => rfl
  leaf_int := fun _ _ _ => rfl
  isNumeric_leaf_double := fun _ => rfl

end Medium

/-- What arrives of a value. -/
def Json.through (m : Medium) (json : Json) : Json :=
  json.mapLeaves m.leaf

/-- What arrives of the members of an object. -/
def Members.through (m : Medium) (members : Members) : Members :=
  members.map fun member => (member.1, member.2.through m)

/-- The number that arrives in the place of a number. -/
def Medium.number? (m : Medium) (d : Double) : Option Double :=
  ((Json.ofDouble d).through m).double?

namespace Json

theorem mapLeavesItems_eq_map (f : Json → Json) (items : List Json) :
    mapLeavesItems f items = items.map (mapLeaves f) := by
  induction items with
  | nil => rfl
  | cons item rest ih => rw [mapLeavesItems, ih, List.map_cons]

theorem mapLeavesMembers_eq_map (f : Json → Json) (members : Members) :
    mapLeavesMembers f members = members.map fun member => (member.1, mapLeaves f member.2) := by
  induction members with
  | nil => rfl
  | cons member rest ih => rw [mapLeavesMembers, ih, List.map_cons]

variable (m : Medium)

@[simp]
theorem through_null : null.through m = .null := by
  simp only [through, mapLeaves, m.leaf_null]

@[simp]
theorem through_bool (b : Bool) : (bool b).through m = .bool b := by
  simp only [through, mapLeaves, m.leaf_bool]

@[simp]
theorem through_str (s : String) : (str s).through m = .str s := by
  simp only [through, mapLeaves, m.leaf_str]

theorem through_int {n : Int} (hlow : -2 ^ 63 ≤ n) (hhigh : n < 2 ^ 64) :
    (int n).through m = .int n := by
  simp only [through, mapLeaves, m.leaf_int n hlow hhigh]

theorem through_ofNat {n : ℕ} (h : n < 2 ^ 64) : (ofNat n).through m = .ofNat n :=
  through_int m (by omega) (by omega)

@[simp]
theorem through_uint32 (n : UInt32) : (ofNat n.toNat).through m = .ofNat n.toNat :=
  through_ofNat m (Nat.lt_trans n.toNat_lt_size (by decide))

@[simp]
theorem through_uint64 (n : UInt64) : (ofNat n.toNat).through m = .ofNat n.toNat :=
  through_ofNat m n.toNat_lt_size

theorem isNumeric_through_double (d : Double) : ((double d).through m).isNumeric = true := by
  simp only [through, mapLeaves, m.isNumeric_leaf_double]

@[simp]
theorem through_arr (items : List Json) :
    (arr items).through m = .arr (items.map (through m)) := by
  rw [through, mapLeaves, mapLeavesItems_eq_map]
  rfl

@[simp]
theorem through_obj (members : Members) :
    (obj members).through m = .obj (members.through m) := by
  rw [through, mapLeaves, mapLeavesMembers_eq_map]
  rfl

theorem mapLeaves_id : ∀ json : Json, json.mapLeaves id = json
  | .null | .unreadable | .bool _ | .int _ | .double _ | .str _ => by simp only [mapLeaves, id]
  | .arr items => by
    have hitems : items.map (mapLeaves id) = items :=
      (List.map_congr_left fun item _ => mapLeaves_id item).trans (List.map_id _)
    rw [mapLeaves, mapLeavesItems_eq_map, hitems]
  | .obj members => by
    have hmembers : members.map (fun member => (member.1, mapLeaves id member.2)) = members :=
      (List.map_congr_left fun member _ =>
        show (member.1, mapLeaves id member.2) = id member by rw [mapLeaves_id member.2]; rfl).trans
        (List.map_id _)
    rw [mapLeaves, mapLeavesMembers_eq_map, hmembers]
termination_by json => sizeOf json
decreasing_by
  · have := List.sizeOf_lt_of_mem ‹item ∈ items›
    simp only [arr.sizeOf_spec]
    omega
  · have := List.sizeOf_lt_of_mem ‹member ∈ members›
    have : sizeOf member = 1 + sizeOf member.1 + sizeOf member.2 := rfl
    simp only [obj.sizeOf_spec]
    omega

/-- Nothing happens to a value that is handed on as it is. -/
theorem through_exact (json : Json) : json.through .exact = json :=
  mapLeaves_id json

end Json

namespace Medium

theorem exact_number? (d : Double) : exact.number? d = if d.isFinite then some d else none := by
  rw [number?, Json.through_exact, Json.ofDouble]
  split <;> rfl

/-- No medium carries a number that is not finite. -/
theorem number?_of_not_isFinite (m : Medium) {d : Double} (h : d.isFinite = false) :
    m.number? d = none := by
  rw [number?, Json.ofDouble, h, if_neg Bool.false_ne_true, Json.through_null]
  rfl

/-- A number arrives as a number or not at all, never as a text. -/
theorem string?_through_ofDouble (m : Medium) (d : Double) :
    ((Json.ofDouble d).through m).string? = none := by
  rw [Json.ofDouble]
  split
  · have := Json.isNumeric_through_double m d
    cases h : (Json.double d).through m with
    | str s => rw [h] at this; cases this
    | _ => rfl
  · rw [Json.through_null]
    rfl

end Medium

end TypeAtlas
