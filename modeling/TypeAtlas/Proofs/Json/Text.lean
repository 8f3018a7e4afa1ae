import TypeAtlas.Proofs.Json.Leaves
import TypeAtlas.Proofs.Json.Numbers
import TypeAtlas.Proofs.Json.Strings
/-!
# Texts are read back

Texts are a `Medium`: every text that is written is read, and `Json.ofText? j.text` is
`j.through .text`, the same value with each leaf read back on its own. Strings, truth values, `null`
and integers of 64 bits come back as they were. A double comes back as a number, but the reader
rounds twice, so it may be the next one.

The reader is given fuel by the length of the text. One unit for each character and one more are
enough for every value in it, which is what `Reads` says.
-/

namespace TypeAtlas.Json

open Reader

/-- What the text of a leaf is read as. -/
def leafReadBack (leaf : Json) : Json :=
  (ofText? leaf.text).getD .null

namespace Reader

/-- A text is read as a value, whatever comes after the value. -/
def Reads (text : List Char) (json : Json) : Prop :=
  ∀ fuel rest, text.length < fuel → Stops rest → value? fuel (text ++ rest) = some (json, rest)

/-- Neither a blank nor the end of an array. -/
def Starts (text : List Char) : Prop :=
  ∃ c rest, text = c :: rest ∧ c ≠ ']' ∧ ∀ more, skipBlanks (c :: more) = c :: more

theorem starts_cons {c : Char} (hne : c ≠ ']')
    (hblank : ∀ more, skipBlanks (c :: more) = c :: more) (rest : List Char) :
    Starts (c :: rest) :=
  ⟨c, rest, rfl, hne, hblank⟩

theorem starts_of_isDigit {c : Char} (h : c.isDigit = true) (rest : List Char) :
    Starts (c :: rest) := by
  refine starts_cons ?_ (fun more => ?_) rest
  · rintro rfl; cases h
  · rw [skipBlanks, if_neg]
    simp only [Bool.or_eq_true, beq_iff_eq]
    rintro (((rfl | rfl) | rfl) | rfl) <;> cases h

theorem exists_cons_numeral (n : Numeral) : ∃ c rest, n.text = c :: rest ∧ c.isDigit = true := by
  obtain ⟨c, rest, htext⟩ := List.exists_cons_of_ne_nil n.whole_ne_nil
  have hc := n.isDigit_whole c (by rw [htext]; exact List.mem_cons_self)
  exact ⟨c, _, by rw [Numeral.text, htext]; rfl, hc⟩

/-- A value that starts with a digit is a number. -/
theorem value?_digit {fuel : ℕ} {c : Char} {rest : List Char} (h : c.isDigit = true) :
    value? (fuel + 1) (c :: rest) = number? false (c :: rest) := by
  obtain ⟨_, _, heq, _, hblank⟩ := starts_of_isDigit h rest
  cases heq
  rw [value?, hblank]
  split
  all_goals first
    | rfl
    | next heq => cases heq; cases h

/-! ## Leaves -/

variable {text : List Char} {json : Json}

/-- A value is read with one unit of fuel for itself. -/
theorem reads_of_succ (h : ∀ fuel rest, text.length ≤ fuel → Stops rest →
    value? (fuel + 1) (text ++ rest) = some (json, rest)) : Reads text json := by
  intro fuel rest hfuel hstop
  obtain ⟨fuel, rfl⟩ := Nat.exists_eq_add_one_of_ne_zero (Nat.ne_of_gt (Nat.zero_lt_of_lt hfuel))
  exact h fuel rest (Nat.le_of_lt_succ hfuel) hstop

theorem reads_null : Reads ['n', 'u', 'l', 'l'] .null :=
  reads_of_succ fun _ _ _ _ => rfl

theorem reads_true : Reads ['t', 'r', 'u', 'e'] (.bool true) :=
  reads_of_succ fun _ _ _ _ => rfl

theorem reads_false : Reads ['f', 'a', 'l', 's', 'e'] (.bool false) :=
  reads_of_succ fun _ _ _ _ => rfl

theorem reads_quote (s : String) : Reads (quote s).toList (.str s) := by
  refine reads_of_succ fun fuel rest hfuel _ => ?_
  have hlength := length_toList_quote s
  rw [toList_quote]
  change (stringBody? fuel (s.toList.flatMap escapeChar ++ ['"'] ++ rest) (some [])).map _ = _
  rw [List.append_assoc, List.singleton_append, stringBody?_quote s (by omega)]
  rfl

theorem reads_natural {n : ℕ} (h : n < UInt64.size) : Reads (Nat.toDigits 10 n) (.int n) := by
  refine reads_of_succ fun fuel rest _ hstop => ?_
  have hread := number?_toDigits false hstop h (fun hneg => by cases hneg)
  obtain ⟨c, ds, hdigits⟩ := List.exists_cons_of_ne_nil (Nat.toDigits_ne_nil (n := n) (b := 10))
  have hc : c.isDigit = true :=
    Text.isDigit_of_mem_toDigits (n := n) (by rw [hdigits]; exact List.mem_cons_self)
  rw [hdigits] at hread ⊢
  rw [List.cons_append, value?_digit hc]
  exact hread

theorem reads_negative {n : ℕ} (hpos : n ≠ 0) (hle : n ≤ 1 <<< 63) :
    Reads ('-' :: Nat.toDigits 10 n) (.int (-n)) :=
  reads_of_succ fun _ _ _ hstop => number?_toDigits true hstop
    (Nat.lt_of_le_of_lt hle (by decide)) fun _ => ⟨hpos, hle⟩

/-- The integers that have 64 bits, with or without a sign. -/
theorem reads_int {n : Int} (hlow : -2 ^ 63 ≤ n) (hhigh : n < 2 ^ 64) :
    Reads (toString n).toList (.int n) := by
  rcases n with n | n
  · rw [Int.ofNat_eq_natCast] at hhigh ⊢
    rw [toList_toString_natCast]
    exact reads_natural (Int.ofNat_lt.1 hhigh)
  · rw [toList_toString_negSucc, Int.negSucc_eq, ← Int.natCast_succ]
    refine reads_negative (Nat.succ_ne_zero n) ?_
    rw [Int.negSucc_eq] at hlow
    exact Int.ofNat_le.1 (Int.le_of_neg_le_neg hlow)

/-- A numeral after its sign is read as some number. -/
theorem exists_reads_numeral (n : Numeral) (negative : Bool) : ∃ json : Json,
    json.isNumeric = true ∧ Reads (if negative then '-' :: n.text else n.text) json := by
  obtain ⟨json, hnumeric, hread⟩ := number?_numeral n negative
  refine ⟨json, hnumeric, reads_of_succ fun fuel rest _ hstop => ?_⟩
  rw [← hread rest hstop]
  cases negative with
  | true => rfl
  | false =>
    obtain ⟨c, ds, hcons, hc⟩ := exists_cons_numeral n
    rw [if_neg Bool.false_ne_true, hcons, List.cons_append, value?_digit hc]

theorem exists_reads_int (n : Int) : ∃ json : Json, Reads (toString n).toList json := by
  obtain ⟨numeral, htext⟩ := exists_numeral_int n
  obtain ⟨json, -, hread⟩ := exists_reads_numeral numeral (decide (n < 0))
  rw [htext]
  simp only [decide_eq_true_eq] at hread
  exact ⟨json, hread⟩

theorem exists_reads_double (d : Double) :
    ∃ json : Json, json.isNumeric = true ∧ Reads d.jsonText.toList json := by
  obtain ⟨n, htext⟩ := d.exists_numeral_jsonText
  rw [htext]
  exact exists_reads_numeral n d.isNegative

theorem starts_numeral (n : Numeral) (negative : Bool) :
    Starts (if negative then '-' :: n.text else n.text) := by
  cases negative with
  | true => exact starts_cons (by decide) (fun _ => rfl) _
  | false =>
    obtain ⟨c, ds, hcons, hc⟩ := exists_cons_numeral n
    rw [if_neg Bool.false_ne_true, hcons]
    exact starts_of_isDigit hc ds

theorem ofText?_of_reads {text : String} {json : Json} (h : Reads text.toList json) :
    ofText? text = some json := by
  have hread := h (2 * text.toList.length + 2) [] (by omega) stops_nil
  rw [List.append_nil] at hread
  rw [ofText?, hread]
  rfl

theorem leafReadBack_of_reads (leaf : Json) {json : Json} (h : Reads leaf.text.toList json) :
    leafReadBack leaf = json := by
  rw [leafReadBack, ofText?_of_reads h]
  rfl

/-- A leaf whose text is read at all is read as what it is read back as. -/
theorem Reads.leaf (leaf : Json) {json : Json} (h : Reads leaf.text.toList json) :
    Reads leaf.text.toList (leafReadBack leaf) := by
  rwa [leafReadBack_of_reads leaf h]

theorem isNumeric_leafReadBack_double (d : Double) :
    (leafReadBack (.double d)).isNumeric = true := by
  obtain ⟨json, hnumeric, hread⟩ := exists_reads_double d
  rwa [leafReadBack_of_reads (.double d) hread]

end Reader

end TypeAtlas.Json

namespace TypeAtlas

open Json Json.Reader

/-- Values handed on as texts. -/
def Medium.text : Medium where
  leaf := leafReadBack
  leaf_null := leafReadBack_of_reads .null reads_null
  leaf_bool := fun b => by
    cases b with
    | true => exact leafReadBack_of_reads (.bool true) reads_true
    | false => exact leafReadBack_of_reads (.bool false) reads_false
  leaf_str := fun s => leafReadBack_of_reads (.str s) (reads_quote s)
  leaf_int := fun n hlow hhigh => leafReadBack_of_reads (.int n) (reads_int hlow hhigh)
  isNumeric_leaf_double := isNumeric_leafReadBack_double

end TypeAtlas

namespace TypeAtlas.Json

namespace Reader

/-! ## Arrays and objects -/

theorem starts_text (json : Json) : Starts json.text.toList := by
  cases json with
  | null | unreadable => exact starts_cons (by decide) (fun _ => rfl) _
  | bool b => cases b <;> exact starts_cons (by decide) (fun _ => rfl) _
  | int n =>
    obtain ⟨numeral, htext⟩ := exists_numeral_int n
    have hstarts := starts_numeral numeral (decide (n < 0))
    simp only [decide_eq_true_eq] at hstarts
    rwa [Json.text, htext]
  | double d =>
    obtain ⟨numeral, htext⟩ := d.exists_numeral_jsonText
    rw [Json.text, htext]
    exact starts_numeral numeral d.isNegative
  | str s =>
    rw [Json.text, toList_quote]
    exact starts_cons (by decide) (fun _ => rfl) _
  | arr items | obj members =>
    rw [Json.text, String.append_assoc, String.toList_append]
    exact starts_cons (by decide) (fun _ => rfl) _

theorem toList_text_arr (items : List Json) :
    (Json.arr items).text.toList = '[' :: ((itemsText items).toList ++ [']']) := by
  rw [Json.text, String.toList_append, String.toList_append]
  rfl

theorem toList_text_obj (members : Members) :
    (Json.obj members).text.toList = '\x7b' :: ((membersText members).toList ++ ['\x7d']) := by
  rw [Json.text, String.toList_append, String.toList_append]
  rfl

theorem toList_itemsText_cons (item next : Json) (rest : List Json) :
    (itemsText (item :: next :: rest)).toList =
      item.text.toList ++ ',' :: (itemsText (next :: rest)).toList := by
  rw [itemsText, String.toList_append, String.toList_append, List.append_assoc]
  · rfl
  · exact List.cons_ne_nil _ _

theorem toList_membersText_singleton (name : String) (value : Json) :
    (membersText [(name, value)]).toList = (quote name).toList ++ ':' :: value.text.toList := by
  rw [membersText, String.toList_append, String.toList_append, List.append_assoc]
  rfl

theorem toList_membersText_cons (name : String) (value : Json) (next : String × Json)
    (rest : Members) :
    (membersText ((name, value) :: next :: rest)).toList =
      (quote name).toList ++ ':' :: (value.text.toList ++
        ',' :: (membersText (next :: rest)).toList) := by
  rw [membersText]
  · simp only [String.toList_append, List.append_assoc]
    rfl
  · exact List.cons_ne_nil _ _

theorem stops_comma (rest : List Char) : Stops (',' :: rest) := by
  rintro c ⟨⟩
  exact Or.inl rfl

theorem stops_bracket (rest : List Char) : Stops (']' :: rest) := by
  rintro c ⟨⟩
  exact Or.inr (Or.inl rfl)

theorem stops_brace (rest : List Char) : Stops ('\x7d' :: rest) := by
  rintro c ⟨⟩
  exact Or.inr (Or.inr rfl)

theorem exists_cons_itemsText (item : Json) (rest : List Json) :
    ∃ more, (itemsText (item :: rest)).toList = item.text.toList ++ more := by
  cases rest with
  | nil => exact ⟨[], by rw [itemsText, List.append_nil]⟩
  | cons next rest => exact ⟨_, toList_itemsText_cons item next rest⟩

/-! ### The steps of the reader -/

section Steps

variable {fuel : ℕ} {text after : List Char} {value : Json}

/-- An array with an element. -/
theorem value?_bracket (hstarts : Starts text) :
    value? (fuel + 1) ('[' :: text) = items? fuel text [] := by
  obtain ⟨c, rest, rfl, hne, hblank⟩ := hstarts
  have hself : skipBlanks ('[' :: c :: rest) = '[' :: c :: rest := rfl
  simp only [value?, hself, hblank]
  split
  · next heq => exact absurd (List.cons.inj heq).1 hne
  · rfl

/-- An object with a member. -/
theorem value?_brace : value? (fuel + 1) ('\x7b' :: '"' :: text) =
    members? fuel ('"' :: text) (some []) :=
  rfl

theorem items?_comma {done : List Json} (h : value? fuel text = some (value, ',' :: after)) :
    items? (fuel + 1) text done = items? fuel after (value :: done) := by
  rw [items?, h]
  rfl

theorem items?_bracket {done : List Json} (h : value? fuel text = some (value, ']' :: after)) :
    items? (fuel + 1) text done = some (.arr (value :: done).reverse, after) := by
  rw [items?, h]
  rfl

theorem members?_comma {name : String} {done : Members} (hname : name.toList.length < fuel)
    (h : value? fuel text = some (value, ',' :: after)) :
    members? (fuel + 1) ((quote name).toList ++ ':' :: text) (some done) =
      members? fuel after (some ((name, value) :: done)) := by
  rw [toList_quote, List.cons_append, List.append_assoc, members?]
  change (stringBody? fuel (name.toList.flatMap escapeChar ++ '"' :: ':' :: text) (some [])).bind _
    = _
  rw [stringBody?_quote name hname]
  change (value? fuel text).bind _ = _
  rw [h]
  rfl

theorem members?_brace {name : String} {done : Members} (hname : name.toList.length < fuel)
    (h : value? fuel text = some (value, '\x7d' :: after)) :
    members? (fuel + 1) ((quote name).toList ++ ':' :: text) (some done) =
      some (.obj ((name, value) :: done).reverse, after) := by
  rw [toList_quote, List.cons_append, List.append_assoc, members?]
  change (stringBody? fuel (name.toList.flatMap escapeChar ++ '"' :: ':' :: text) (some [])).bind _
    = _
  rw [stringBody?_quote name hname]
  change (value? fuel text).bind _ = _
  rw [h]
  rfl

end Steps

/-- The elements of an array start as the first one does. -/
theorem starts_itemsText (item : Json) (rest : List Json) (after : List Char) :
    Starts ((itemsText (item :: rest)).toList ++ after) := by
  obtain ⟨more, hmore⟩ := exists_cons_itemsText item rest
  obtain ⟨c, cs, htext, hne, hblank⟩ := starts_text item
  rw [hmore, htext]
  exact starts_cons hne hblank _

theorem exists_cons_membersText (name : String) (value : Json) (rest : Members) :
    ∃ more, (membersText ((name, value) :: rest)).toList = '"' :: more := by
  cases rest with
  | nil => exact ⟨_, by rw [toList_membersText_singleton, toList_quote]; rfl⟩
  | cons next rest => exact ⟨_, by rw [toList_membersText_cons, toList_quote]; rfl⟩

/-! ### The text of a value -/

/-- The elements of an array and its closing bracket, if each element is read. -/
theorem items?_text {item : Json} {rest : List Json} {fuel : ℕ} {after : List Char}
    {done : List Json} (hread : ∀ j ∈ item :: rest, Reads j.text.toList (j.through .text))
    (h : (itemsText (item :: rest)).toList.length + 1 < fuel) :
    items? fuel ((itemsText (item :: rest)).toList ++ ']' :: after) done =
      some (.arr (done.reverse ++ (item :: rest).map (through .text)), after) := by
  obtain ⟨fuel, rfl⟩ := Nat.exists_eq_add_one_of_ne_zero (Nat.ne_of_gt (Nat.zero_lt_of_lt h))
  have hitem := hread item List.mem_cons_self
  induction rest generalizing item fuel done with
  | nil =>
    rw [itemsText] at h ⊢
    rw [items?_bracket (hitem fuel _ (by omega) (stops_bracket after)), List.reverse_cons]
    rfl
  | cons next rest ih =>
    rw [toList_itemsText_cons] at h ⊢
    rw [List.length_append, List.length_cons] at h
    obtain ⟨fuel, rfl⟩ := Nat.exists_eq_add_one_of_ne_zero (n := fuel) (by omega)
    rw [List.append_assoc, List.cons_append,
      items?_comma (hitem _ _ (by omega) (stops_comma _)),
      ih (fun j hj => hread j (List.mem_cons_of_mem _ hj)) fuel (by omega)
        (hread next (List.mem_cons_of_mem _ List.mem_cons_self)),
      List.reverse_cons, List.append_assoc]
    rfl

/-- The members of an object and its closing brace, if each value is read. -/
theorem members?_text {member : String × Json} {rest : Members} {fuel : ℕ} {after : List Char}
    {done : Members} (hread : ∀ m ∈ member :: rest, Reads m.2.text.toList (m.2.through .text))
    (h : (membersText (member :: rest)).toList.length + 1 < fuel) :
    members? fuel ((membersText (member :: rest)).toList ++ '\x7d' :: after) (some done) =
      some (.obj (done.reverse ++ (member :: rest).map fun m => (m.1, m.2.through .text)),
        after) := by
  obtain ⟨fuel, rfl⟩ := Nat.exists_eq_add_one_of_ne_zero (Nat.ne_of_gt (Nat.zero_lt_of_lt h))
  have hvalue := hread member List.mem_cons_self
  have hname := length_toList_quote member.1
  induction rest generalizing member fuel done with
  | nil =>
    rw [toList_membersText_singleton] at h ⊢
    rw [List.length_append, List.length_cons] at h
    rw [List.append_assoc, List.cons_append, members?_brace (by omega)
      (hvalue fuel _ (by omega) (stops_brace after)), List.reverse_cons]
    rfl
  | cons next rest ih =>
    rw [toList_membersText_cons] at h ⊢
    rw [List.length_append, List.length_cons, List.length_append, List.length_cons] at h
    obtain ⟨fuel, rfl⟩ := Nat.exists_eq_add_one_of_ne_zero (n := fuel) (by omega)
    rw [List.append_assoc, List.cons_append, List.append_assoc, List.cons_append,
      members?_comma (by omega) (hvalue _ _ (by omega) (stops_comma _)),
      ih (fun m hm => hread m (List.mem_cons_of_mem _ hm)) fuel (by omega)
        (hread next (List.mem_cons_of_mem _ List.mem_cons_self)) (length_toList_quote next.1),
      List.reverse_cons, List.append_assoc]
    rfl

/-- The text of a value is read as the value with its leaves read back. -/
theorem reads_text : ∀ json : Json, Reads json.text.toList (json.through .text)
  | .null => by
    rw [through_null]
    exact reads_null
  | .unreadable => by
    have hthrough : unreadable.through .text = leafReadBack .unreadable := by
      simp only [through, mapLeaves, Medium.text]
    rw [hthrough]
    exact Reads.leaf .unreadable reads_null
  | .bool true => by
    rw [through_bool]
    exact reads_true
  | .bool false => by
    rw [through_bool]
    exact reads_false
  | .int n => by
    have hthrough : (int n).through .text = leafReadBack (.int n) := by
      simp only [through, mapLeaves, Medium.text]
    rw [hthrough]
    exact (exists_reads_int n).elim fun _ h => Reads.leaf (.int n) h
  | .double d => by
    have hthrough : (double d).through .text = leafReadBack (.double d) := by
      simp only [through, mapLeaves, Medium.text]
    rw [hthrough]
    exact (exists_reads_double d).elim fun _ h => Reads.leaf (.double d) h.2
  | .str s => by
    rw [through_str]
    exact reads_quote s
  | .arr [] => reads_of_succ fun _ _ _ _ => rfl
  | .arr (item :: rest) => by
    refine reads_of_succ fun fuel after hfuel _ => ?_
    rw [toList_text_arr] at hfuel ⊢
    rw [List.length_cons, List.length_append] at hfuel
    rw [through_arr, List.cons_append, List.append_assoc, List.singleton_append,
      value?_bracket (starts_itemsText item rest _),
      items?_text (fun j hj => reads_text j) hfuel]
    rfl
  | .obj [] => reads_of_succ fun _ _ _ _ => rfl
  | .obj (member :: rest) => by
    refine reads_of_succ fun fuel after hfuel _ => ?_
    rw [toList_text_obj] at hfuel ⊢
    rw [List.length_cons, List.length_append] at hfuel
    have hmembers : members? fuel
        ((membersText (member :: rest)).toList ++ '\x7d' :: after) (some []) = _ :=
      members?_text (fun m hm => reads_text m.2) hfuel
    obtain ⟨more, hmore⟩ := exists_cons_membersText member.1 member.2 rest
    rw [through_obj, List.cons_append, List.append_assoc, List.singleton_append]
    rw [hmore, List.cons_append] at hmembers ⊢
    rw [value?_brace, hmembers]
    rfl
termination_by json => sizeOf json
decreasing_by
  · have := List.sizeOf_lt_of_mem hj
    simp only [Json.arr.sizeOf_spec]
    omega
  · have := List.sizeOf_lt_of_mem hm
    have : sizeOf m = 1 + sizeOf m.1 + sizeOf m.2 := rfl
    simp only [Json.obj.sizeOf_spec]
    omega

end Reader

/-- Every text that is written is read, as the value with each of its leaves read back. -/
theorem ofText?_text (json : Json) : ofText? json.text = some (json.through .text) :=
  Reader.ofText?_of_reads (Reader.reads_text json)

end TypeAtlas.Json

namespace TypeAtlas

/-- The text of a number is read as that number. -/
def Double.ReadsBack (d : Double) : Prop :=
  (Json.ofText? (Json.ofDouble d).text).bind Json.double? = some d

instance (d : Double) : Decidable d.ReadsBack :=
  inferInstanceAs (Decidable (_ = _))

theorem Medium.text_number?_eq_self {d : Double} : text.number? d = some d ↔ d.ReadsBack := by
  rw [Double.ReadsBack, Json.ofText?_text]
  rfl

end TypeAtlas
