import TypeAtlas.Proofs.Json.Leaves
/-!
# The members of a record

What a decoder finds under a name depends on the members with that name only (`Members.named`), and
each of the ways in which a record writes a member leaves at most one of them. The lemmas here say
what a decoder finds under a name that was written in such a way, on any medium; they are simp
lemmas, so that a record is read back by looking its names up one after the other.

`Json.Hereditary` is for properties of values that are handed up from the parts: that all of a value
can be read, or that no member is repeated in it.
-/

namespace TypeAtlas

variable {α β : Type}

/-! ## Lists and options whose parts all decode -/

@[simp]
theorem mapM_list_some (f : α → β) (xs : List α) :
    xs.mapM (fun a => some (f a)) = some (xs.map f) := by
  induction xs with
  | nil => rfl
  | cons x xs ih => rw [List.mapM_cons, ih]; rfl

@[simp]
theorem mapM_option_some (f : α → β) (x : Option α) :
    x.mapM (fun a => some (f a)) = some (x.map f) := by
  cases x <;> rfl

@[simp]
theorem mapM_list_self (xs : List α) : xs.mapM some = some xs := by
  rw [mapM_list_some fun a : α => a, List.map_id']

@[simp]
theorem mapM_option_self (x : Option α) : x.mapM some = some x := by
  cases x <;> rfl

theorem mapM_option_map {γ : Type} (f : α → β) (g : β → Option γ) (x : Option α) :
    (x.map f).mapM g = x.mapM fun a => g (f a) := by
  cases x <;> rfl

@[simp]
theorem mapM_eq_some_self {f : α → Option α} {xs : List α} :
    xs.mapM f = some xs ↔ ∀ a ∈ xs, f a = some a := by
  induction xs with
  | nil => simp
  | cons x xs ih =>
    rw [List.mapM_cons, List.forall_mem_cons, ← ih]
    cases f x <;> cases xs.mapM f <;> simp

@[simp]
theorem mapM_option_eq_some_self {f : α → Option α} {x : Option α} :
    x.mapM f = some x ↔ ∀ a ∈ x, f a = some a := by
  cases x with
  | none => simp
  | some a => cases h : f a <;> simp [h]

theorem mapM_eq_none {f : α → Option β} {xs : List α} {a : α} (ha : a ∈ xs)
    (h : f a = none) : xs.mapM f = none := by
  induction xs with
  | nil => cases ha
  | cons x xs ih =>
    rw [List.mapM_cons]
    rcases List.mem_cons.1 ha with rfl | ha
    · rw [h]
      rfl
    · rw [ih ha]
      cases f x <;> rfl

/-! ## What arrives of a member -/

namespace Json

variable (m : Medium)

@[simp]
theorem through_ofList (encode : α → Json) (xs : List α) :
    (ofList encode xs).through m = ofList (fun a => (encode a).through m) xs := by
  rw [ofList, through_arr, List.map_map]
  rfl

@[simp]
theorem through_ofOption (encode : α → Json) (x : Option α) :
    (ofOption encode x).through m = ofOption (fun a => (encode a).through m) x := by
  cases x with
  | none => exact through_null m
  | some a => rfl

@[simp]
theorem ofList_map {γ : Type} (encode : β → Json) (f : γ → β) (xs : List γ) :
    ofList encode (xs.map f) = ofList (fun a => encode (f a)) xs :=
  congrArg arr List.map_map

@[simp]
theorem fieldIfSome_map {γ : Type} (name : String) (encode : β → Json) (f : γ → β)
    (x : Option γ) :
    fieldIfSome name encode (x.map f) = fieldIfSome name (fun a => encode (f a)) x := by
  cases x <;> rfl

@[simp]
theorem fieldIfNonempty_map {γ : Type} (name : String) (encode : β → Json) (f : γ → β)
    (xs : List γ) :
    fieldIfNonempty name encode (xs.map f) = fieldIfNonempty name (fun a => encode (f a)) xs := by
  rw [fieldIfNonempty, fieldIfNonempty, List.isEmpty_map, ofList_map]

@[simp]
theorem list?_arr (decode : Json → Option β) (items : List Json) :
    list? decode (arr items) = items.mapM decode :=
  rfl

@[simp]
theorem list?_ofList (decode : Json → Option β) (encode : α → Json) (xs : List α) :
    list? decode (ofList encode xs) = xs.mapM fun a => decode (encode a) :=
  List.mapM_map

end Json

namespace Members

section Through

variable (m : Medium)

@[simp]
theorem through_nil : Members.through m [] = [] :=
  rfl

@[simp]
theorem through_cons (name : String) (value : Json) (rest : Members) :
    Members.through m ((name, value) :: rest) = (name, value.through m) :: rest.through m :=
  rfl

@[simp]
theorem through_append (a b : Members) : (a ++ b).through m = a.through m ++ b.through m :=
  List.map_append

@[simp]
theorem through_field (name : String) (value : Json) :
    (Json.field name value).through m = Json.field name (value.through m) :=
  rfl

@[simp]
theorem through_fieldIfSome (name : String) (encode : α → Json) (x : Option α) :
    (Json.fieldIfSome name encode x).through m =
      Json.fieldIfSome name (fun a => (encode a).through m) x := by
  cases x <;> rfl

@[simp]
theorem through_fieldIfNonempty (name : String) (encode : α → Json) (xs : List α) :
    (Json.fieldIfNonempty name encode xs).through m =
      Json.fieldIfNonempty name (fun a => (encode a).through m) xs := by
  unfold Json.fieldIfNonempty
  split
  · rfl
  · rw [through_cons, Json.through_ofList, through_nil]

@[simp]
theorem through_fieldIfTrue (name : String) (b : Bool) :
    (Json.fieldIfTrue name b).through m = Json.fieldIfTrue name b := by
  cases b with
  | true => rw [Json.fieldIfTrue, if_pos rfl, through_cons, Json.through_bool, through_nil]
  | false => rfl

end Through

/-! ## Members with a name -/

/-- The members with a name. -/
def named (members : Members) (name : String) : Members :=
  members.filter fun member => member.1 == name

section Named

variable (name : String)

@[simp]
theorem named_nil : named [] name = [] :=
  rfl

@[simp]
theorem named_cons (other : String) (value : Json) (rest : Members) :
    named ((other, value) :: rest) name =
      if other = name then (other, value) :: named rest name else named rest name := by
  rw [named, List.filter_cons]
  simp only [beq_iff_eq]
  rfl

@[simp]
theorem named_append (a b : Members) : named (a ++ b) name = named a name ++ named b name :=
  List.filter_append a b

@[simp]
theorem named_field (other : String) (value : Json) :
    named (Json.field other value) name = if other = name then Json.field other value else [] :=
  named_cons name other value []

@[simp]
theorem named_fieldIfSome (other : String) (encode : α → Json) (x : Option α) :
    named (Json.fieldIfSome other encode x) name =
      if other = name then Json.fieldIfSome other encode x else [] := by
  cases x with
  | none => rw [Json.fieldIfSome, named_nil, ite_self]
  | some a => exact named_cons name other (encode a) []

@[simp]
theorem named_fieldIfNonempty (other : String) (encode : α → Json) (xs : List α) :
    named (Json.fieldIfNonempty other encode xs) name =
      if other = name then Json.fieldIfNonempty other encode xs else [] := by
  unfold Json.fieldIfNonempty
  split
  · rw [named_nil, ite_self]
  · exact named_cons name other _ []

@[simp]
theorem named_fieldIfTrue (other : String) (b : Bool) :
    named (Json.fieldIfTrue other b) name =
      if other = name then Json.fieldIfTrue other b else [] := by
  cases b with
  | true => exact named_cons name other _ []
  | false => rw [Json.fieldIfTrue, if_neg Bool.false_ne_true, named_nil, ite_self]

end Named

/-! ## Reading the members with a name -/

/-- What a required member is read as. -/
def requiredOf (decode : Json → Option α) : Members → Option α
  | [(_, value)] => decode value
  | _ => none

/-- What an optional member is read as. -/
def optionalOf (decode : Json → Option α) : Members → Option (Option α)
  | [] => some none
  | [(_, .null)] => some none
  | [(_, value)] => (decode value).map some
  | _ => none

/-- What a member with a default is read as. -/
def orDefaultOf (decode : Json → Option α) (default : α) : Members → Option α
  | [] => some default
  | [(_, value)] => decode value
  | _ => none

@[simp]
theorem required?_eq (members : Members) (name : String) (decode : Json → Option α) :
    members.required? name decode = requiredOf decode (members.named name) := by
  unfold required? only? named
  generalize List.filter (fun member => member.1 == name) members = found
  rcases found with _ | ⟨member, _ | ⟨_, _⟩⟩ <;> rfl

@[simp]
theorem optional?_eq (members : Members) (name : String) (decode : Json → Option α) :
    members.optional? name decode = optionalOf decode (members.named name) := by
  unfold optional? only? named
  generalize List.filter (fun member => member.1 == name) members = found
  rcases found with _ | ⟨⟨_, value⟩, _ | ⟨_, _⟩⟩
  · rfl
  · cases value <;> rfl
  · cases value <;> rfl

@[simp]
theorem orDefault?_eq (members : Members) (name : String) (decode : Json → Option α)
    (default : α) :
    members.orDefault? name decode default = orDefaultOf decode default (members.named name) := by
  unfold orDefault? only? named
  generalize List.filter (fun member => member.1 == name) members = found
  rcases found with _ | ⟨member, _ | ⟨_, _⟩⟩ <;> rfl

section Reading

variable (name : String) (decode : Json → Option β)

@[simp]
theorem requiredOf_nil : requiredOf decode [] = none :=
  rfl

@[simp]
theorem requiredOf_singleton (value : Json) : requiredOf decode [(name, value)] = decode value :=
  rfl

@[simp]
theorem requiredOf_field (value : Json) :
    requiredOf decode (Json.field name value) = decode value :=
  rfl

theorem optionalOf_of_ne_null {value : Json} (h : value ≠ .null) :
    optionalOf decode [(name, value)] = (decode value).map some := by
  cases value with
  | null => exact absurd rfl h
  | _ => rfl

@[simp]
theorem optionalOf_fieldIfSome {encode : α → Json} (h : ∀ a, encode a ≠ .null) (x : Option α) :
    optionalOf decode (Json.fieldIfSome name encode x) = x.mapM fun a => decode (encode a) := by
  cases x with
  | none => rfl
  | some a =>
    rw [Json.fieldIfSome, optionalOf_of_ne_null name decode (h a), Option.mapM_some]
    cases decode (encode a) <;> rfl

@[simp]
theorem optionalOf_ofOption {encode : α → Json} (h : ∀ a, encode a ≠ .null) (x : Option α) :
    optionalOf decode [(name, Json.ofOption encode x)] = x.mapM fun a => decode (encode a) := by
  cases x with
  | none => rfl
  | some a => exact optionalOf_fieldIfSome name decode h (some a)

@[simp]
theorem orDefaultOf_nil (default : β) : orDefaultOf decode default [] = some default :=
  rfl

@[simp]
theorem orDefaultOf_singleton (default : β) (value : Json) :
    orDefaultOf decode default [(name, value)] = decode value :=
  rfl

@[simp]
theorem orDefaultOf_field (default : β) (value : Json) :
    orDefaultOf decode default (Json.field name value) = decode value :=
  rfl

@[simp]
theorem orDefaultOf_fieldIfNonempty (encode : α → Json) (xs : List α) :
    orDefaultOf (Json.list? decode) [] (Json.fieldIfNonempty name encode xs) =
      xs.mapM fun a => decode (encode a) := by
  cases xs with
  | nil => rfl
  | cons x xs => exact Json.list?_ofList decode encode (x :: xs)

@[simp]
theorem orDefaultOf_fieldIfTrue (b : Bool) :
    orDefaultOf Json.boolean? false (Json.fieldIfTrue name b) = some b := by
  cases b <;> rfl

end Reading

end Members

/-! ## Scalars -/

namespace Json

@[simp]
theorem string?_str (s : String) : (str s).string? = some s :=
  rfl

@[simp]
theorem boolean?_bool (b : Bool) : (bool b).boolean? = some b :=
  rfl

@[simp]
theorem members?_obj (members : Members) : (obj members).members? = some members :=
  rfl

@[simp]
theorem uint32?_ofNat (n : UInt32) : (ofNat n.toNat).uint32? = some n := by
  have hlt : (n.toNat : Int) < UInt32.size := by exact_mod_cast n.toNat_lt_size
  rw [ofNat, uint32?, if_pos ⟨Int.natCast_nonneg _, hlt⟩, Int.toNat_natCast, UInt32.ofNat_toNat]

@[simp]
theorem uint64?_ofNat (n : UInt64) : (ofNat n.toNat).uint64? = some n := by
  have hlt : (n.toNat : Int) < UInt64.size := by exact_mod_cast n.toNat_lt_size
  rw [ofNat, uint64?, if_pos ⟨Int.natCast_nonneg _, hlt⟩, Int.toNat_natCast, UInt64.ofNat_toNat]

@[simp]
theorem ofNat_ne_null (n : ℕ) : ofNat n ≠ .null :=
  Json.noConfusion

@[simp]
theorem ofList_ne_null (encode : α → Json) (xs : List α) : ofList encode xs ≠ .null :=
  Json.noConfusion

/-! ## Properties of the parts -/

end Json

namespace Members

/-- Every member has a value with a property. -/
def Each (P : Json → Prop) (members : Members) : Prop :=
  ∀ member ∈ members, P member.2

section Each

variable {P : Json → Prop}

@[simp]
theorem each_nil : Each P [] :=
  List.forall_mem_nil _

@[simp]
theorem each_cons (name : String) (value : Json) (rest : Members) :
    Each P ((name, value) :: rest) ↔ P value ∧ Each P rest :=
  List.forall_mem_cons

@[simp]
theorem each_append (a b : Members) : Each P (a ++ b) ↔ Each P a ∧ Each P b :=
  List.forall_mem_append

@[simp]
theorem each_field (name : String) (value : Json) : Each P (Json.field name value) ↔ P value :=
  List.forall_mem_singleton

@[simp]
theorem each_fieldIfSome (name : String) (encode : α → Json) (x : Option α) :
    Each P (Json.fieldIfSome name encode x) ↔ ∀ a ∈ x, P (encode a) := by
  cases x <;> simp [Each, Json.fieldIfSome]

@[simp]
theorem each_fieldIfNonempty (name : String) (encode : α → Json) (xs : List α) :
    Each P (Json.fieldIfNonempty name encode xs) ↔ (xs ≠ [] → P (Json.ofList encode xs)) := by
  cases xs <;> simp [Each, Json.fieldIfNonempty]

@[simp]
theorem each_fieldIfTrue (name : String) (b : Bool) :
    Each P (Json.fieldIfTrue name b) ↔ (b = true → P (.bool true)) := by
  cases b <;> simp [Each, Json.fieldIfTrue]

end Each

end Members

namespace Json

/-! ### Readability -/

theorem isReadableItems_eq_true {items : List Json} :
    isReadableItems items = true ↔ ∀ item ∈ items, item.isReadable = true := by
  induction items with
  | nil => simp [isReadableItems]
  | cons item items ih => rw [isReadableItems, Bool.and_eq_true, ih, List.forall_mem_cons]

theorem isReadableMembers_eq_true {members : Members} :
    isReadableMembers members = true ↔ members.Each fun json => json.isReadable = true := by
  induction members with
  | nil => simp [isReadableMembers]
  | cons member members ih => rw [isReadableMembers, Bool.and_eq_true, ih, Members.each_cons]

@[simp]
theorem isReadable_obj {members : Members} :
    (obj members).isReadable = true ↔ members.Each fun json => json.isReadable = true := by
  rw [isReadable, isReadableMembers_eq_true]

@[simp]
theorem isReadable_str (s : String) : (str s).isReadable = true :=
  rfl

@[simp]
theorem isReadable_bool (b : Bool) : (bool b).isReadable = true :=
  rfl

@[simp]
theorem isReadable_ofNat (n : ℕ) : (ofNat n).isReadable = true :=
  rfl

@[simp]
theorem isReadable_ofList {encode : α → Json} {xs : List α} :
    (ofList encode xs).isReadable = true ↔ ∀ a ∈ xs, (encode a).isReadable = true := by
  rw [ofList, isReadable, isReadableItems_eq_true, List.forall_mem_map]

@[simp]
theorem isReadable_ofOption {encode : α → Json} {x : Option α} :
    (ofOption encode x).isReadable = true ↔ ∀ a ∈ x, (encode a).isReadable = true := by
  cases x <;> simp [ofOption, isReadable]

/-- A number that arrives can be read. -/
theorem isReadable_ofDouble {m : Medium} {d : Double} (h : (m.number? d).isSome = true) :
    ((ofDouble d).through m).isReadable = true := by
  rw [Medium.number?] at h
  cases hjson : (ofDouble d).through m with
  | int n | double d => rfl
  | _ => rw [hjson] at h; cases h

/-! ### Properties handed up -/

/-- A property that the leaves all media carry have, and that a value has when its parts have it and
no member is repeated. -/
structure Hereditary (P : Json → Prop) : Prop where
  null : P .null
  bool : ∀ b, P (.bool b)
  int : ∀ n : Int, -2 ^ 63 ≤ n → n < 2 ^ 64 → P (.int n)
  str : ∀ s, P (.str s)
  arr : ∀ items : List Json, (∀ item ∈ items, P item) → P (.arr items)
  obj : ∀ members : Members, members.Each P → (members.map Prod.fst).Nodup → P (.obj members)

/-- A property that the parts of a value have when the value has it. -/
structure Descending (P : Json → Prop) : Prop where
  arr : ∀ items : List Json, P (.arr items) → ∀ item ∈ items, P item
  obj : ∀ members : Members, P (.obj members) → members.Each P

/-- What arrives is put together as what was sent. -/
theorem Hereditary.through {P : Json → Prop} (h : Hereditary P) (m : Medium) :
    Hereditary fun json => P (json.through m) where
  null := by rw [through_null]; exact h.null
  bool := fun b => by rw [through_bool]; exact h.bool b
  int := fun n hlow hhigh => by rw [through_int m hlow hhigh]; exact h.int n hlow hhigh
  str := fun s => by rw [through_str]; exact h.str s
  arr := fun items hitems => by
    rw [through_arr]
    exact h.arr _ (List.forall_mem_map.2 hitems)
  obj := fun members hvalues hnames => by
    rw [through_obj]
    refine h.obj _ (List.forall_mem_map.2 hvalues) ?_
    rwa [Members.through, List.map_map]

theorem Descending.through {P : Json → Prop} (h : Descending P) (m : Medium) :
    Descending fun json => P (json.through m) where
  arr := fun items hitems => by
    rw [through_arr] at hitems
    exact List.forall_mem_map.1 (h.arr _ hitems)
  obj := fun members hvalues => by
    rw [through_obj] at hvalues
    exact fun member hmember => h.obj _ hvalues _ (List.mem_map_of_mem hmember)

/-- Readability is handed up. -/
theorem hereditary_isReadable : Hereditary fun json => json.isReadable = true where
  null := rfl
  bool := fun _ => rfl
  int := fun _ _ _ => rfl
  str := fun _ => rfl
  arr := fun items h => by rwa [isReadable, isReadableItems_eq_true]
  obj := fun members h _ => isReadable_obj.2 h

theorem insert_of_notMem {members : Members} {name : String} (value : Json)
    (h : name ∉ members.map Prod.fst) :
    Members.insert members name value = members ++ [(name, value)] := by
  induction members with
  | nil => rfl
  | cons member members ih =>
    rw [List.map_cons, List.mem_cons, not_or] at h
    rw [Members.insert, if_neg (by simpa using Ne.symm h.1), ih h.2]
    rfl

theorem lastWinsMembers_of_nodup {members : Members} (done : Members)
    (hvalues : members.Each fun json => json.lastWins = json)
    (hnames : ((done ++ members).map Prod.fst).Nodup) :
    lastWinsMembers members done = done ++ members := by
  induction members generalizing done with
  | nil => rw [lastWinsMembers, List.append_nil]
  | cons member members ih =>
    have hnew : member.1 ∉ done.map Prod.fst := by
      rw [List.map_append, List.nodup_append] at hnames
      exact fun hmem => hnames.2.2 _ hmem _ (List.mem_cons_self) rfl
    have hsplit : done ++ member :: members = done ++ [(member.1, member.2)] ++ members := by
      rw [List.append_assoc]
      rfl
    rw [lastWinsMembers, hvalues member List.mem_cons_self, insert_of_notMem _ hnew, hsplit]
    rw [hsplit] at hnames
    exact ih _ (fun other hother => hvalues other (List.mem_cons_of_mem _ hother)) hnames

/-- That no name is written twice is handed up. -/
theorem hereditary_lastWins : Hereditary fun json => json.lastWins = json where
  null := rfl
  bool := fun _ => rfl
  int := fun _ _ _ => rfl
  str := fun _ => rfl
  arr := fun items h => by
    have hitems : ∀ items : List Json, (∀ item ∈ items, item.lastWins = item) →
        lastWinsItems items = items := by
      intro items
      induction items with
      | nil => exact fun _ => rfl
      | cons item items ih =>
        intro h
        rw [lastWinsItems, h item List.mem_cons_self,
          ih fun other hother => h other (List.mem_cons_of_mem _ hother)]
    rw [lastWins, hitems items h]
  obj := fun members h hnames => by
    rw [lastWins, lastWinsMembers_of_nodup [] h hnames]
    rfl

/-- A number arrives with no name twice. -/
theorem lastWins_through_double (m : Medium) (d : Double) :
    ((double d).through m).lastWins = (double d).through m := by
  have hnumeric := isNumeric_through_double m d
  cases h : (double d).through m with
  | int | double | unreadable => rfl
  | _ => rw [h] at hnumeric; cases hnumeric

end Json

namespace Members

/-! ### Names -/

/-- The names of members are among the given ones, in their order and at most once each. -/
def Within (members : Members) (names : List String) : Prop :=
  (members.map Prod.fst).Sublist names

theorem within_field (name : String) (value : Json) : Within (Json.field name value) [name] :=
  List.Sublist.refl _

theorem within_fieldIfSome (name : String) (encode : α → Json) (x : Option α) :
    Within (Json.fieldIfSome name encode x) [name] := by
  cases x with
  | none => exact List.nil_sublist _
  | some a => exact List.Sublist.refl _

theorem within_fieldIfNonempty (name : String) (encode : α → Json) (xs : List α) :
    Within (Json.fieldIfNonempty name encode xs) [name] := by
  unfold Json.fieldIfNonempty
  split
  · exact List.nil_sublist _
  · exact List.Sublist.refl _

theorem within_fieldIfTrue (name : String) (b : Bool) :
    Within (Json.fieldIfTrue name b) [name] := by
  cases b with
  | true => exact List.Sublist.refl _
  | false => exact List.nil_sublist _

theorem Within.append {a b : Members} {as bs : List String} (ha : Within a as)
    (hb : Within b bs) : Within (a ++ b) (as ++ bs) := by
  rw [Within, List.map_append]
  exact List.Sublist.append ha hb

theorem Within.nodup {members : Members} {names : List String} (h : Within members names)
    (hnames : names.Nodup) : (members.map Prod.fst).Nodup :=
  hnames.sublist h

end Members

end TypeAtlas
