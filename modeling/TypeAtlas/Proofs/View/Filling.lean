import Mathlib.Data.List.GetD
import Mathlib.Logic.Function.Basic
import TypeAtlas.Proofs.Text.Digits
import TypeAtlas.Proofs.Text.Replace
import TypeAtlas.View.Message
/-!
# Filling templates

A template with every value put into its places at once (`Message.fill`), beside `Message.format`,
which puts them in one after the other. A value can make a place for a later value that the template
does not have, by itself or together with the text around it (`Message.Captures`). After every value
the text is the template with the values so far put in verbatim, exactly when no such place is made,
or the value that belongs there is the place itself (`Message.format_verbatim_iff`).

One value always stands as it is (`Message.format_singleton`), so all texts for nodes do
(`Shape.text_eq_fill`). Several values do if they, and the text around the places, hold no opening
brace (`Message.format_of_isPlain`).

A template is read from left to right, one character or one place at a time
(`Message.template_induction`). The places with one number cut it into blocks, whatever is put into
them (`Message.exists_blocks`), and what replacing does to blocks is known.
-/

namespace TypeAtlas

namespace Message

/-! ## Places -/

/-- The number of the place that a text starts with. -/
def placeAt? (text : List Char) : Option ℕ :=
  let n := Nat.ofDigitChars 10 ((text.drop 1).takeWhile Char.isDigit) 0
  if (place n).toList.isPrefixOf text then some n else none

theorem toList_place (n : ℕ) :
    (place n).toList = '\x7b' :: (Nat.toDigits 10 n ++ ['\x7d']) := by
  rw [place, String.toList_append, String.toList_append, Nat.toString_eq_ofList_toDigits]
  simp only [String.toList_ofList]
  rfl

theorem toList_place_ne_nil (n : ℕ) : (place n).toList ≠ [] := by
  rw [toList_place]
  exact List.cons_ne_nil _ _

/-- A place has one opening brace, so no two places overlap. -/
theorem brace_notMem (n : ℕ) : '\x7b' ∉ Nat.toDigits 10 n ++ ['\x7d'] := by
  intro h
  rcases List.mem_append.1 h with h | h
  · exact absurd (Text.isDigit_of_mem_toDigits h) (by decide)
  · exact absurd (List.mem_singleton.1 h) (by decide)

theorem placeAt?_eq_some_iff {text : List Char} {n : ℕ} :
    placeAt? text = some n ↔ (place n).toList <+: text := by
  constructor
  · intro h
    rw [placeAt?] at h
    split at h
    next hstarts => exact Option.some.inj h ▸ List.isPrefixOf_iff_prefix.1 hstarts
    next => cases h
  · rintro ⟨rest, rfl⟩
    have hdigits : (((place n).toList ++ rest).drop 1).takeWhile Char.isDigit =
        Nat.toDigits 10 n := by
      rw [toList_place, List.cons_append, List.drop_succ_cons, List.drop_zero, List.append_assoc,
        List.takeWhile_append_of_pos fun _ hc => Text.isDigit_of_mem_toDigits hc]
      exact List.append_nil _
    rw [placeAt?, hdigits, Nat.ofDigitChars_ten_toDigits]
    exact if_pos (List.isPrefixOf_iff_prefix.2 (List.prefix_append _ _))

/-- A template is read from left to right, one character or one place at a time. -/
theorem template_induction {motive : List Char → Prop} (nil : motive [])
    (char : ∀ c rest, placeAt? (c :: rest) = none → motive rest → motive (c :: rest))
    (place : ∀ n rest, motive rest → motive ((place n).toList ++ rest)) (template : List Char) :
    motive template := by
  cases template with
  | nil => exact nil
  | cons c rest =>
    cases h : placeAt? (c :: rest) with
    | none => exact char c rest h (template_induction nil char place rest)
    | some n =>
      obtain ⟨after, hafter⟩ := placeAt?_eq_some_iff.1 h
      rw [← hafter]
      exact place n after (template_induction nil char place after)
termination_by template.length
decreasing_by
  · exact Nat.lt_succ_self _
  · exact Text.length_lt_of_append_eq (toList_place_ne_nil n) hafter

theorem occurrences_char {c : Char} {rest : List Char} (h : placeAt? (c :: rest) = none) (k : ℕ) :
    Text.occurrences (place k).toList (c :: rest) = Text.occurrences (place k).toList rest := by
  refine Text.occurrences_cons fun hstarts => ?_
  rw [placeAt?_eq_some_iff.2 hstarts] at h
  cases h

theorem occurrences_place_self (k : ℕ) (rest : List Char) :
    Text.occurrences (place k).toList ((place k).toList ++ rest) =
      Text.occurrences (place k).toList rest + 1 := by
  rw [toList_place]
  exact Text.occurrences_pattern (brace_notMem k) rest

theorem occurrences_place_of_ne {k n : ℕ} (h : n ≠ k) (rest : List Char) :
    Text.occurrences (place k).toList ((place n).toList ++ rest) =
      Text.occurrences (place k).toList rest := by
  have hstarts : ¬ (place k).toList <+: (place n).toList ++ rest := fun hstarts => by
    have hk := placeAt?_eq_some_iff.2 hstarts
    rw [placeAt?_eq_some_iff.2 (List.prefix_append _ rest)] at hk
    exact h (Option.some.inj hk)
  rw [toList_place n, List.cons_append] at hstarts ⊢
  rw [Text.occurrences_cons hstarts, toList_place k,
    Text.occurrences_append_of_notMem (brace_notMem n)]

/-! ## Filling -/

/-- Every place of a text replaced by the content for its number. The first number tells how many
characters of a place are still to be passed over. -/
def fillFrom (contents : ℕ → List Char) : ℕ → List Char → List Char
  | _, [] => []
  | passed + 1, _ :: rest => fillFrom contents passed rest
  | 0, c :: rest =>
    match placeAt? (c :: rest) with
    | some n => contents n ++ fillFrom contents ((place n).toList.length - 1) rest
    | none => c :: fillFrom contents 0 rest

/-- What belongs into the place with a number: its value, or the place itself where there is no
value. -/
def content (values : List String) (n : ℕ) : List Char :=
  (values.getD n (place n)).toList

/-- The template with the values put into their places, all at once. -/
def fill (template : String) (values : List String) : String :=
  String.ofList (fillFrom (content values) 0 template.toList)

section FillFrom

variable (contents : ℕ → List Char)

theorem fillFrom_eq_drop (passed : ℕ) (text : List Char) :
    fillFrom contents passed text = fillFrom contents 0 (text.drop passed) := by
  induction passed generalizing text with
  | zero => rfl
  | succ passed ih =>
    cases text with
    | nil => rfl
    | cons c rest => rw [fillFrom, ih, List.drop_succ_cons]

theorem fillFrom_char {c : Char} {rest : List Char} (h : placeAt? (c :: rest) = none) :
    fillFrom contents 0 (c :: rest) = c :: fillFrom contents 0 rest := by
  rw [fillFrom, h]

theorem fillFrom_place (n : ℕ) (rest : List Char) :
    fillFrom contents 0 ((place n).toList ++ rest) = contents n ++ fillFrom contents 0 rest := by
  have hplace := placeAt?_eq_some_iff.2 (List.prefix_append (place n).toList rest)
  obtain ⟨c, body, hbody⟩ := List.exists_cons_of_ne_nil (toList_place_ne_nil n)
  rw [hbody, List.cons_append] at hplace ⊢
  rw [fillFrom, hplace]
  simp only [hbody, List.length_cons, Nat.add_sub_cancel]
  rw [fillFrom_eq_drop, List.drop_left]

/-- Places that are filled with themselves are kept. -/
theorem fillFrom_places (template : List Char) :
    fillFrom (fun n => (place n).toList) 0 template = template := by
  induction template using template_induction with
  | nil => rfl
  | char c rest h ih => rw [fillFrom_char _ h, ih]
  | place n rest ih => rw [fillFrom_place, ih]

/-- The places with one number cut a template into blocks, whatever they are filled with. -/
theorem exists_blocks (k : ℕ) (template : List Char) :
    ∃ block blocks, blocks.length = Text.occurrences (place k).toList template ∧
      ∀ value, fillFrom (Function.update contents k value) 0 template =
        value.intercalate (block :: blocks) := by
  induction template using template_induction with
  | nil => exact ⟨[], [], rfl, fun value => rfl⟩
  | char c rest h ih =>
    obtain ⟨block, blocks, hlength, hfill⟩ := ih
    refine ⟨c :: block, blocks, hlength.trans (occurrences_char h k).symm, fun value => ?_⟩
    rw [fillFrom_char _ h, hfill]
    exact Text.append_intercalate [c] value block blocks
  | place n rest ih =>
    obtain ⟨block, blocks, hlength, hfill⟩ := ih
    by_cases hn : n = k
    · subst hn
      refine ⟨[], block :: blocks, ?_, fun value => ?_⟩
      · rw [List.length_cons, hlength, occurrences_place_self]
      · rw [fillFrom_place, hfill, Function.update_self, List.intercalate_cons_cons,
          List.nil_append]
    · refine ⟨contents n ++ block, blocks, ?_, fun value => ?_⟩
      · rw [hlength, occurrences_place_of_ne hn]
      · rw [fillFrom_place, hfill, Function.update_of_ne hn]
        exact Text.append_intercalate (contents n) value block blocks

end FillFrom

/-! ## One value after the other -/

theorem content_length (values : List String) :
    content values values.length = (place values.length).toList := by
  rw [content, List.getD_eq_default _ _ (Nat.le_refl _)]

theorem content_concat (values : List String) (value : String) :
    content (values ++ [value]) =
      Function.update (content values) values.length value.toList := by
  funext n
  rcases Nat.lt_trichotomy n values.length with h | rfl | h
  · rw [Function.update_of_ne h.ne, content, content, List.getD_append _ _ _ _ h]
  · rw [Function.update_self, content, List.getD_append_right _ _ _ _ (Nat.le_refl _),
      Nat.sub_self]
    rfl
  · rw [Function.update_of_ne h.ne', content, content, List.getD_eq_default _ _ h.le,
      List.getD_eq_default]
    rwa [List.length_append, List.length_singleton]

theorem fill_nil (template : String) : fill template [] = template := by
  rw [fill]
  exact (congrArg _ (fillFrom_places template.toList)).trans String.ofList_toList

theorem format_concat (template : String) (values : List String) (value : String) :
    format template (values ++ [value]) =
      Text.replaceAll (place values.length) value (format template values) := by
  rw [format, List.zipIdx_append, List.foldl_append, Nat.zero_add]
  rfl

/-- With the values in their places, the place for the next value stands in the text more often than
in the template. -/
def Captures (template : String) (values : List String) : Prop :=
  Text.occurrences (place values.length).toList template.toList <
    Text.occurrences (place values.length).toList (fill template values).toList

instance (template : String) (values : List String) : Decidable (Captures template values) :=
  Nat.decLt _ _

example : Captures ("\x7b" ++ place 0 ++ "\x7d") ["1"] := by decide +kernel

/-- The template, with the values in their places, cut at the places for the next value. -/
theorem exists_cut (template : String) (values : List String) :
    ∃ block blocks,
      blocks.length = Text.occurrences (place values.length).toList template.toList ∧
      fill template values =
        String.ofList ((place values.length).toList.intercalate (block :: blocks)) ∧
      ∀ value, fill template (values ++ [value]) =
        String.ofList (value.toList.intercalate (block :: blocks)) := by
  obtain ⟨block, blocks, hlength, hfill⟩ :=
    exists_blocks (content values) values.length template.toList
  refine ⟨block, blocks, hlength, ?_, fun value => ?_⟩
  · rw [fill, ← hfill, ← content_length, Function.update_eq_self]
  · rw [fill, ← hfill, content_concat]

/-- One more value goes into its places, and nowhere else. -/
theorem replaceAll_fill_eq_iff (template : String) (values : List String) (value : String) :
    Text.replaceAll (place values.length) value (fill template values) =
        fill template (values ++ [value]) ↔
      (Captures template values → value = place values.length) := by
  obtain ⟨block, blocks, hlength, hfill, hnext⟩ := exists_cut template values
  have hbrace := brace_notMem values.length
  have hcaptures : Captures template values ↔
      ((block :: blocks).map (Text.occurrences (place values.length).toList)).sum ≠ 0 := by
    rw [Captures, hfill, String.toList_ofList, ← hlength, toList_place,
      Text.occurrences_intercalate hbrace, Nat.lt_add_left_iff_pos, Nat.pos_iff_ne_zero]
  rw [Text.replaceAll, hfill, hnext, String.toList_ofList, String.ofList_inj, hcaptures,
    ← String.toList_inj, toList_place, Text.replaceFrom_intercalate_eq_iff hbrace,
    or_iff_not_imp_left]

/-- One step of `format`, from a text with all values so far put in verbatim. -/
theorem format_concat_eq_fill_iff {template : String} {values : List String}
    (h : format template values = fill template values) (value : String) :
    format template (values ++ [value]) = fill template (values ++ [value]) ↔
      (Captures template values → value = place values.length) := by
  rw [format_concat, h]
  exact replaceAll_fill_eq_iff template values value

/-- The steps of `format`: as long as nothing is captured, all values so far are verbatim. -/
theorem format_take_eq_fill {template : String} {values : List String}
    (h : ∀ (k : ℕ) (hk : k < values.length), Captures template (values.take k) →
      values[k] = place k) {k : ℕ} (hk : k ≤ values.length) :
    format template (values.take k) = fill template (values.take k) := by
  induction k with
  | zero => exact (fill_nil template).symm
  | succ k ih =>
    have hlt : k < values.length := hk
    rw [List.take_succ_eq_append_getElem hlt, format_concat_eq_fill_iff (ih hlt.le),
      List.length_take_of_le hlt.le]
    exact h k hlt

/-- After each value, the text is the template with the values so far put into their places
verbatim, exactly when no place is made for a value that is not that place itself. -/
theorem format_verbatim_iff (template : String) (values : List String) :
    (∀ k ≤ values.length, format template (values.take k) = fill template (values.take k)) ↔
      ∀ (k : ℕ) (hk : k < values.length), Captures template (values.take k) →
        values[k] = place k := by
  constructor
  · intro h k hk
    have hnext := h (k + 1) hk
    rw [List.take_succ_eq_append_getElem hk, format_concat_eq_fill_iff (h k hk.le),
      List.length_take_of_le hk.le] at hnext
    exact hnext
  · exact fun h k hk => format_take_eq_fill h hk

/-- The first value is the place for the second one, which then stands where the first belongs. -/
theorem format_placeInValue :
    Captures (place 0) [place 1] ∧ format (place 0) [place 1, "x"] = "x" ∧
      fill (place 0) [place 1, "x"] = place 1 := by
  decide +kernel

/-! ## Templates and values that capture nothing -/

theorem not_captures_nil (template : String) : ¬ Captures template [] := by
  rw [Captures, fill_nil]
  exact Nat.lt_irrefl _

theorem format_singleton (template value : String) :
    format template [value] = fill template [value] := by
  have hnil : format template [] = fill template [] := (fill_nil template).symm
  exact (format_concat_eq_fill_iff hnil value).2 fun h => absurd h (not_captures_nil template)

/-- The text around the places holds no opening brace. -/
def IsPlain (template : String) : Prop :=
  '\x7b' ∉ fillFrom (fun _ => []) 0 template.toList

instance (template : String) : Decidable (IsPlain template) :=
  inferInstanceAs (Decidable (¬ _))

example : IsPlain (place 0 ++ " extends " ++ place 1) := by decide +kernel

/-- Places stay apart where nothing else holds an opening brace. -/
theorem occurrences_fillFrom {contents : ℕ → List Char} {k : ℕ} {text : List Char}
    (htext : '\x7b' ∉ fillFrom (fun _ => []) 0 text) (hk : contents k = (place k).toList)
    (hother : ∀ n ≠ k, contents n = (place n).toList ∨ '\x7b' ∉ contents n) :
    Text.occurrences (place k).toList (fillFrom contents 0 text) =
      Text.occurrences (place k).toList text := by
  induction text using template_induction with
  | nil => rfl
  | char c rest h ih =>
    rw [fillFrom_char _ h] at htext
    have hc : '\x7b' ∉ [c] := fun h => List.ne_of_not_mem_cons htext (List.mem_singleton.1 h)
    rw [fillFrom_char _ h, occurrences_char h, ← ih (List.not_mem_of_not_mem_cons htext),
      toList_place]
    exact Text.occurrences_append_of_notMem hc _
  | place n rest ih =>
    rw [fillFrom_place, List.nil_append] at htext
    rw [fillFrom_place]
    by_cases hn : n = k
    · subst hn
      rw [hk, occurrences_place_self, occurrences_place_self, ih htext]
    · rw [occurrences_place_of_ne hn, ← ih htext]
      rcases hother n hn with hplace | hbrace
      · rw [hplace, occurrences_place_of_ne hn]
      · rw [toList_place]
        exact Text.occurrences_append_of_notMem hbrace _

theorem not_captures_of_isPlain {template : String} {values : List String}
    (htemplate : IsPlain template) (hvalues : ∀ value ∈ values, '\x7b' ∉ value.toList) :
    ¬ Captures template values := by
  have hother (n : ℕ) (_ : n ≠ values.length) :
      content values n = (place n).toList ∨ '\x7b' ∉ content values n := by
    by_cases hlt : n < values.length
    · right
      rw [content, List.getD_eq_getElem _ _ hlt]
      exact hvalues _ (List.getElem_mem hlt)
    · left
      rw [content, List.getD_eq_default _ _ (Nat.le_of_not_lt hlt)]
  rw [Captures, fill, String.toList_ofList,
    occurrences_fillFrom htemplate (content_length values) hother]
  exact Nat.lt_irrefl _

/-- The last value may hold anything. -/
theorem format_of_isPlain {template : String} {values : List String} (htemplate : IsPlain template)
    (hvalues : ∀ value ∈ values.dropLast, '\x7b' ∉ value.toList) :
    format template values = fill template values := by
  have hall : format template (values.take values.length) =
      fill template (values.take values.length) := by
    refine format_take_eq_fill (fun k hk hcaptures => ?_) (Nat.le_refl _)
    refine absurd hcaptures (not_captures_of_isPlain htemplate fun value hvalue => ?_)
    refine hvalues value (List.mem_of_mem_take (i := k) ?_)
    rwa [List.dropLast_eq_take, List.take_take, Nat.min_eq_left (Nat.le_sub_one_of_lt hk)]
  rwa [List.take_length] at hall

end Message

/-! ## The words for nodes -/

namespace Shape

variable {α : Type}

/-- The values in the words for a node. -/
def textValues : Shape α → List String
  | primitive p => [p.keyword]
  | stringLiteral value => [value]
  | numberLiteral value => [value.display]
  | bigintLiteral value => [value.display]
  | booleanLiteral value => [if value then "true" else "false"]
  | enumLiteral value .. => [value.display]
  | _ => []

/-- A literal is shown with its value verbatim, whatever the value holds. -/
theorem text_eq_fill {shape : Shape α} (h : shape.kind ≠ .intrinsic) :
    shape.text = Message.fill (Message.kindTemplate shape.kind) shape.textValues := by
  cases shape with
  | primitive | stringLiteral | numberLiteral | bigintLiteral | booleanLiteral | enumLiteral =>
    exact Message.format_singleton _ _
  | intrinsic => exact absurd rfl h
  | _ => exact (Message.fill_nil _).symm

end Shape

end TypeAtlas
