import TypeAtlas.Proofs.Json.Members
import TypeAtlas.Proofs.Json.Text
/-!
# Data

The values that programs hand over: integers have 64 bits, other numbers are finite, and no name is
written twice in an object. Such a value comes back from its text if the doubles in it do, and only
then (`Json.Proper.readsBack_iff`).
-/

namespace TypeAtlas.Json

/-- A value as programs have it. -/
inductive Proper : Json → Prop
  | null : Proper .null
  | bool (b : Bool) : Proper (.bool b)
  | int {n : Int} (hlow : -2 ^ 63 ≤ n) (hhigh : n < 2 ^ 64) : Proper (.int n)
  | double {d : Double} (h : d.isFinite = true) : Proper (.double d)
  | str (s : String) : Proper (.str s)
  | arr {items : List Json} (h : ∀ item ∈ items, Proper item) : Proper (.arr items)
  | obj {members : Members} (h : ∀ member ∈ members, Proper member.2)
      (hnames : (members.map Prod.fst).Nodup) : Proper (.obj members)

mutual

/-- The doubles in a value. -/
def doubles : Json → List Double
  | .double d => [d]
  | .arr items => doublesOfItems items
  | .obj members => doublesOfMembers members
  | _ => []

/-- The doubles in the elements of an array. -/
def doublesOfItems : List Json → List Double
  | [] => []
  | item :: rest => doubles item ++ doublesOfItems rest

/-- The doubles in the values of members. -/
def doublesOfMembers : Members → List Double
  | [] => []
  | (_, value) :: rest => doubles value ++ doublesOfMembers rest

end

/-- The text of a value is read as this value. -/
def ReadsBack (json : Json) : Prop :=
  ofText? json.text = some json

theorem readsBack_iff {json : Json} : json.ReadsBack ↔ json.through .text = json := by
  rw [ReadsBack, ofText?_text, Option.some.injEq]

/-- The double that a value is. -/
def asDouble? : Json → Option Double
  | .double d => some d
  | _ => none

theorem asDouble?_eq_some_iff {json : Json} {d : Double} :
    json.asDouble? = some d ↔ json = .double d := by
  cases json <;> simp [asDouble?]

instance (d : Double) : Decidable (double d).ReadsBack :=
  decidable_of_iff ((ofText? (double d).text).bind asDouble? = some d) <| by
    simp only [ReadsBack, Option.bind_eq_some_iff, asDouble?_eq_some_iff, exists_eq_right]

@[simp]
theorem doubles_arr (items : List Json) : (arr items).doubles = items.flatMap doubles := by
  rw [doubles]
  induction items with
  | nil => rfl
  | cons item rest ih => rw [doublesOfItems, ih, List.flatMap_cons]

@[simp]
theorem doubles_obj (members : Members) :
    (obj members).doubles = members.flatMap fun member => member.2.doubles := by
  rw [doubles]
  induction members with
  | nil => rfl
  | cons member rest ih => rw [doublesOfMembers, ih, List.flatMap_cons]

/-! ## Properties of data -/

namespace Proper

variable {P : Json → Prop} {json : Json}

/-- What is handed up holds of data if it holds of the doubles in it. -/
theorem of_hereditary (hP : Hereditary P) (h : json.Proper)
    (hdoubles : ∀ d ∈ json.doubles, P (.double d)) : P json := by
  induction h with
  | null => exact hP.null
  | bool b => exact hP.bool b
  | int hlow hhigh => exact hP.int _ hlow hhigh
  | double _ => exact hdoubles _ List.mem_cons_self
  | str s => exact hP.str s
  | arr _ ih =>
    rw [doubles_arr] at hdoubles
    exact hP.arr _ fun item hitem => ih item hitem fun d hd =>
      hdoubles d (List.mem_flatMap.2 ⟨item, hitem, hd⟩)
  | obj _ hnames ih =>
    rw [doubles_obj] at hdoubles
    exact hP.obj _ (fun member hmember => ih member hmember fun d hd =>
      hdoubles d (List.mem_flatMap.2 ⟨member, hmember, hd⟩)) hnames

/-- What goes down to the parts goes down to the doubles. -/
theorem of_descending (hP : Descending P) (h : json.Proper) (hjson : P json) :
    ∀ d ∈ json.doubles, P (.double d) := by
  induction h with
  | double _ =>
    intro d hd
    rwa [List.mem_singleton.1 hd]
  | arr _ ih =>
    intro d hd
    rw [doubles_arr] at hd
    obtain ⟨item, hitem, hd⟩ := List.mem_flatMap.1 hd
    exact ih item hitem (hP.arr _ hjson item hitem) d hd
  | obj _ _ ih =>
    intro d hd
    rw [doubles_obj] at hd
    obtain ⟨member, hmember, hd⟩ := List.mem_flatMap.1 hd
    exact ih member hmember (hP.obj _ hjson member hmember) d hd
  | null | bool | int | str => exact fun d hd => absurd hd List.not_mem_nil

end Proper

/-! ## Data that arrives -/

variable (m : Medium)

theorem hereditary_through_eq_self : Hereditary fun json => json.through m = json where
  null := through_null m
  bool := through_bool m
  int := fun _ hlow hhigh => through_int m hlow hhigh
  str := through_str m
  arr := fun items h => by rw [through_arr, List.map_congr_left h, List.map_id']
  obj := fun members h _ => by
    rw [through_obj, Members.through,
      List.map_congr_left fun member hmember => by rw [h member hmember], List.map_id']

theorem descending_through_eq_self : Descending fun json => json.through m = json where
  arr := fun items h => by
    rw [through_arr] at h
    exact List.map_inj_left.1 ((arr.inj h).trans (List.map_id' items).symm)
  obj := fun members h => by
    rw [through_obj] at h
    exact fun member hmember =>
      congrArg Prod.snd
        (List.map_inj_left.1 ((obj.inj h).trans (List.map_id' members).symm) member hmember)

namespace Proper

variable {json : Json} (h : json.Proper)

include h

/-- Data is read as it is. -/
theorem isReadable : json.isReadable = true :=
  h.of_hereditary hereditary_isReadable fun _ _ => rfl

/-- Data arrives if the doubles in it arrive, and only then. -/
theorem through_eq_self_iff :
    json.through m = json ↔ ∀ d ∈ json.doubles, (Json.double d).through m = .double d :=
  ⟨h.of_descending (descending_through_eq_self m), h.of_hereditary (hereditary_through_eq_self m)⟩

/-- What arrives of data is data with other numbers, so reading it changes nothing. -/
theorem value?_through_eq_some_self_iff :
    (json.through m).value? = some json ↔ json.through m = json := by
  have hlast : (json.through m).lastWins = json.through m :=
    of_hereditary (P := fun json => (json.through m).lastWins = json.through m)
      (hereditary_lastWins.through m) h fun d _ => lastWins_through_double m d
  rw [value?, hlast]
  constructor
  · intro heq
    split at heq
    · exact Option.some.inj heq
    · cases heq
  · intro heq
    rw [heq, if_pos h.isReadable]

/-- Data comes back from its text if the doubles in it do, and only then. -/
theorem readsBack_iff : json.ReadsBack ↔ ∀ d ∈ json.doubles, (Json.double d).ReadsBack := by
  simp only [Json.readsBack_iff]
  exact h.through_eq_self_iff .text

end Proper

end TypeAtlas.Json
