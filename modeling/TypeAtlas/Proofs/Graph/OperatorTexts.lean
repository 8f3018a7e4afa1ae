import Mathlib.Order.Filter.AtTopBot.Basic
import Mathlib.Order.Filter.Finite
import TypeAtlas.Proofs.Graph.Levels
import TypeAtlas.Proofs.Graph.OperatorTypes
/-!
# Texts of operators

The text of a type that is made by operators shows the phrase of its tree, with each operand in
parentheses that is itself made of operands (`TypeGraph.Spells.typeText_eq`). So types have the same
text just when their trees have the same phrase (`TypeGraph.typeText_eq_iff`). The keys of an array
and an array of keys are different trees with the same phrase: no parentheses are written around an
operand with a mark.
-/

namespace TypeAtlas

open Filter (atTop)
open scoped Filter

/-! ## Printing -/

namespace Phrase

/-- The text of a phrase. -/
def text (precedence : Precedence) (phrase : Phrase) : String :=
  .ofList (phrase.chars (precedence = .top))

theorem operandChars_eq (op : Connective) (first : Phrase) (others : List Phrase) :
    operandChars op first others = op.chars.intercalate ((first :: others).map (chars false)) := by
  induction others generalizing first with
  | nil => simp [operandChars, restChars]
  | cons second others ih =>
    rw [operandChars, restChars, List.append_assoc, ← operandChars, ih second, List.map_cons,
      List.map_cons, List.map_cons, List.intercalate_cons_cons, List.append_assoc]

theorem bracketChars_concat (index : Option Phrase) (brackets : List (Option Phrase)) :
    bracketChars (brackets ++ [index]) =
      bracketChars brackets ++ '[' :: (indexChars index ++ [']']) := by
  induction brackets with
  | nil => simpa [bracketChars] using bracketChars_cons_append index [] []
  | cons other brackets ih =>
    have hcons := bracketChars_cons_append other (brackets ++ [index]) []
    rw [List.append_nil, List.append_nil, ih, ← bracketChars_cons_append] at hcons
    exact hcons

theorem chars_bracketed (alone : Bool) (index : Option Phrase) : ∀ phrase : Phrase,
    chars alone (phrase.bracketed index) = chars false phrase ++ '[' :: (indexChars index ++ [']'])
  | .word name brackets => by
    rw [bracketed, chars, chars, bracketChars_concat, List.append_assoc]
  | .group op first second rest brackets => by
    simp [bracketed, chars, bracketChars_concat]
  | .marked mark phrase => by
    rw [bracketed, chars, chars_bracketed false index phrase, chars, List.append_assoc]

theorem text_word (precedence : Precedence) (name : Identifier) :
    (Phrase.word name []).text precedence = name.text := by
  rw [text, chars, bracketChars, List.append_nil, String.ofList_toList]

/-- Parentheses are written around operands that do not stand alone. -/
theorem text_group (precedence : Precedence) (op : Connective) (first second : Phrase)
    (rest : List Phrase) :
    (Phrase.group op first second rest []).text precedence =
      Print.parenthesize precedence ((String.ofList op.chars).intercalate
        ((first :: second :: rest).map (text .operand))) := by
  have htext : ((String.ofList op.chars).intercalate
      ((first :: second :: rest).map (text .operand))).toList =
        operandChars op first (second :: rest) := by
    rw [operandChars_eq, String.toList_intercalate, String.toList_ofList, List.map_map]
    congr 2
    exact funext fun phrase => String.toList_ofList
  rw [← String.toList_inj, text, String.toList_ofList, Print.parenthesize]
  by_cases htop : precedence = .top
  · rw [if_pos htop, htext, decide_eq_true htop, chars_group_alone]
  · rw [if_neg htop, decide_eq_false htop, chars_group, String.toList_append,
      String.toList_append, htext]
    rfl

theorem text_marked (precedence : Precedence) (mark : Mark) (phrase : Phrase) :
    (Phrase.marked mark phrase).text precedence =
      String.ofList mark.chars ++ phrase.text .element := by
  rw [text, chars, String.ofList_append]
  rfl

theorem text_brackets (precedence : Precedence) (phrase : Phrase) :
    (phrase.bracketed none).text precedence = phrase.text .element ++ "[]" := by
  rw [← String.toList_inj, text, chars_bracketed, String.toList_ofList]
  simp [text, indexChars]

theorem text_bracketed (precedence : Precedence) (index phrase : Phrase) :
    (phrase.bracketed (some index)).text precedence =
      phrase.text .element ++ "[" ++ index.text .top ++ "]" := by
  rw [← String.toList_inj, text, chars_bracketed, String.toList_ofList]
  simp [text, indexChars]

theorem text_array (precedence : Precedence) (readonly : Bool) (phrase : Phrase) :
    ((phrase.bracketed none).markedIf readonly).text precedence =
      (if readonly then "readonly " else "") ++ phrase.text .element ++ "[]" := by
  cases readonly with
  | true =>
    change (Phrase.marked .readonly (phrase.bracketed none)).text precedence = _
    rw [text_marked, text_brackets, ← String.append_assoc]
    rfl
  | false =>
    change (phrase.bracketed none).text precedence = "" ++ phrase.text .element ++ "[]"
    rw [text_brackets, String.empty_append]

end Phrase

namespace Print

variable {α β γ : Type}

/-- Texts that are printed each by itself are printed one after the other. -/
theorem mapM_eq_pure (f : γ → β) {k : α → Print β} {bs : List γ} {as : List α}
    (hlength : as.length = bs.length) (h : ∀ pair ∈ bs.zip as, k pair.2 = pure (f pair.1)) :
    as.mapM k = pure (bs.map f) := by
  induction as generalizing bs with
  | nil =>
    obtain rfl := List.length_eq_zero_iff.1 hlength.symm
    rfl
  | cons a as ih =>
    cases bs with
    | nil => cases hlength
    | cons b bs =>
      rw [List.zip_cons_cons, List.forall_mem_cons] at h
      rw [List.mapM_cons, h.1, pure_bind, ih (Nat.succ.inj hlength) h.2, pure_bind]
      rfl

end Print

namespace TypeGraph

variable {g : TypeGraph} {id : TypeId}

open Print

theorem record_eq (print : Precedence → TypeId → Print String) {record : TypeRecord}
    (hrecord : g.type? id = some record) (hnameless : record.IsNameless) (precedence : Precedence) :
    Print.record g print precedence id = structure' g print precedence id record := by
  obtain ⟨hnoAlias, hnotNamed⟩ := hnameless
  simp only [TypeFlags.isNamed, Bool.or_eq_false_iff] at hnotNamed
  obtain ⟨⟨hboolean, hmember⟩, henum⟩ := hnotNamed
  have hname : (enumMemberName? g record).or (enumName? g record) = none := by
    simp [enumMemberName?, enumName?, hmember, henum]
  simp [Print.record, hrecord, hnoAlias, nameOf?, hboolean, hname]

/-- With one more level, a type is printed by what it is made of. -/
theorem eventually_print {text : Precedence → String}
    (h : ∀ᶠ levels in atTop, ∀ precedence,
      Print.record g (g.print levels) precedence id = pure (text precedence)) :
    ∀ᶠ levels in atTop, ∀ precedence, g.print levels precedence id = pure (text precedence) := by
  obtain ⟨least, hleast⟩ := Filter.eventually_atTop.1 h
  refine Filter.eventually_atTop.2 ⟨least + 1, fun levels hle => ?_⟩
  obtain ⟨levels, rfl⟩ := Nat.exists_eq_add_one_of_ne_zero (Nat.ne_of_gt (Nat.zero_lt_of_lt hle))
  exact hleast levels (Nat.le_of_succ_le_succ hle)

theorem MadeOf.eventually_print {data : TypeData} (hid : g.MadeOf id data)
    {text : Precedence → String}
    (h : ∀ᶠ levels in atTop, ∀ precedence record, record.data = data →
      structure' g (g.print levels) precedence id record = pure (text precedence)) :
    ∀ᶠ levels in atTop, ∀ precedence, g.print levels precedence id = pure (text precedence) := by
  obtain ⟨record, hrecord, hnameless, hdata⟩ := hid
  refine TypeGraph.eventually_print (h.mono fun levels hlevels precedence => ?_)
  rw [record_eq _ hrecord hnameless, hlevels precedence record hdata]

theorem HasName.eventually_print {name : String} (h : g.HasName id name) :
    ∀ᶠ levels in atTop, ∀ precedence, g.print levels precedence id = pure name := by
  cases h with
  | boolean hrecord hnoAlias hboolean =>
    refine TypeGraph.eventually_print (.of_forall fun levels precedence => ?_)
    simp [Print.record, hrecord, hnoAlias, nameOf?, hboolean]
  | keyword hid hne =>
    refine hid.eventually_print (.of_forall fun levels precedence record hdata => ?_)
    simp [structure', hdata, hne]
  | typeParameter hrecord hnameless hdata hname =>
    refine TypeGraph.eventually_print (.of_forall fun levels precedence => ?_)
    rw [record_eq _ hrecord hnameless]
    simp [structure', hdata, hname]

/-- A union and an intersection are printed in the same way. -/
theorem structure'_connective (print : Precedence → TypeId → Print String) (precedence : Precedence)
    (op : Connective) {types : List TypeId} {record : TypeRecord}
    (hdata : record.data = op.data types) :
    structure' g print precedence id record = (do
      return parenthesize precedence
        (← Print.list print types (String.ofList op.chars) .operand)) := by
  cases op with
  | union =>
    simp only [structure', hdata, Connective.data]
    rfl
  | intersection =>
    simp only [structure', hdata, Connective.data]
    rfl

/-- From some level on, all of several types are printed as their trees. -/
theorem eventually_list {trees : List Operators} {types : List TypeId}
    (hlength : types.length = trees.length)
    (h : ∀ pair ∈ trees.zip types, ∀ᶠ levels in atTop, ∀ precedence,
      g.print levels precedence pair.2 = pure (pair.1.phrase.text precedence))
    (separator : String) :
    ∀ᶠ levels in atTop, Print.list (g.print levels) types separator .operand =
      pure (separator.intercalate (trees.map (·.phrase.text .operand))) := by
  have hall := (Filter.eventually_all_finite (List.finite_toSet (trees.zip types))).2 h
  refine hall.mono fun levels hlevels => ?_
  rw [Print.list, Print.mapM_eq_pure (·.phrase.text .operand) hlength
    fun pair hpair => hlevels pair hpair .operand, pure_bind]

/-- By induction on how a type is made. -/
theorem Spells.eventually_print {tree : Operators} (h : g.Spells tree id) :
    ∀ᶠ levels in atTop, ∀ precedence,
      g.print levels precedence id = pure (tree.phrase.text precedence) := by
  induction h with
  | leaf hleaf =>
    refine hleaf.eventually_print.mono fun levels hlevels precedence => ?_
    rw [hlevels, Operators.phrase, Phrase.text_word]
  | @joined op first second rest id types hid hlength _ ih =>
    have hlist := eventually_list hlength ih (String.ofList op.chars)
    refine hid.eventually_print (hlist.mono fun levels hlevels precedence record hdata => ?_)
    rw [structure'_connective _ _ op hdata, hlevels, pure_bind, Operators.phrase, Phrase.text_group]
    simp only [List.map_cons, List.map_map, Function.comp_def]
  | @array readonly element id type object hid harray hreadonly harguments _ ih =>
    refine hid.eventually_print (ih.mono fun levels hlevels precedence record hdata => ?_)
    have hprint : structure' g (g.print levels) precedence id record =
        pure ((if readonly then "readonly " else "") ++ element.phrase.text .element ++ "[]") := by
      simp [structure', hdata, Print.object, harray, Print.array, harguments, hlevels, hreadonly]
    rw [hprint, Operators.phrase, Phrase.text_array]
  | keyof hid _ ih =>
    refine hid.eventually_print (ih.mono fun levels hlevels precedence record hdata => ?_)
    simp only [structure', hdata, hlevels, pure_bind, Operators.phrase, Phrase.text_marked]
    rfl
  | access hid _ _ ih ihIndex =>
    refine hid.eventually_print ?_
    filter_upwards [ih, ihIndex] with levels hlevels hindex precedence record hdata
    simp [structure', hdata, hlevels, hindex, Operators.phrase, Phrase.text_bracketed]

theorem Spells.typeText_eq {tree : Operators} (h : g.Spells tree id) :
    g.typeText id = tree.phrase.text .top := by
  obtain ⟨levels, hlevels⟩ := h.eventually_print.exists
  have htext : g.typeText? id = some (tree.phrase.text .top) :=
    typeText?_eq_some_iff.2 ⟨levels, {}, congrFun (hlevels .top) {}⟩
  rw [typeText, htext]
  rfl

/-- Types that are made by operators have the same text just when their trees have the same phrase.
Then the trees are the same, if no operator with a mark is right below one with brackets. -/
theorem typeText_eq_iff {h : TypeGraph} {type other : TypeId} {tree tree' : Operators}
    (htype : g.Spells tree type) (hother : h.Spells tree' other) :
    (g.typeText type = h.typeText other ↔ tree.phrase = tree'.phrase) ∧
      (tree.Clear → tree'.Clear → g.typeText type = h.typeText other → tree = tree') := by
  have hiff : g.typeText type = h.typeText other ↔ tree.phrase = tree'.phrase := by
    rw [htype.typeText_eq, hother.typeText_eq]
    refine ⟨fun heq => Phrase.chars_inj (String.ofList_injective heq), fun heq => by rw [heq]⟩
  exact ⟨hiff, fun hclear hclear' heq => hclear.eq_of_phrase_eq hclear' (hiff.1 heq)⟩

end TypeGraph

namespace Build

open TypeGraph

/-- The name of the type parameter in `keyTypes`. -/
def parameterName : Identifier where
  text := "T"
  ne_nil := by decide
  isNameChar := List.all_eq_true.1 (by decide)

/-- A type parameter. -/
def parameterTree : Operators :=
  .leaf parameterName

/-- An array of a union, a union with the keys of an array, these keys, and an array of keys. -/
def keyTypes : Build (TypeId × TypeId × TypeId × TypeId) := do
  let parameter ← typeParameter "T" none none
  let keys ← keyof parameter
  let keysOfArray ← keyof (← arrayOf parameter)
  let arrayOfUnion ← arrayOf (← union [parameter, keys])
  let unionWithKeys ← union [parameter, keysOfArray]
  let arrayOfKeys ← arrayOf keys
  return (arrayOfUnion, unionWithKeys, keysOfArray, arrayOfKeys)

/-- A type parameter and the keys of a type are different types. -/
theorem makes_union_parameter_keyof {g : TypeGraph} {parameter keys : TypeId} {target : Operators}
    (hparameter : g.Spelled parameterTree parameter) (hkeys : g.Spelled (.keyof target) keys) :
    Makes (union [parameter, keys]) g (.joined .union parameterTree (.keyof target) []) := by
  refine makes_connect .union (fun hfits => ?_) rfl ?_
  · refine List.nodup_cons.2 ⟨fun hmem => ?_, List.nodup_singleton keys⟩
    obtain rfl := List.mem_singleton.1 hmem
    cases hparameter hfits with
    | leaf hleaf =>
      cases hkeys hfits with
      | keyof hid _ => exact hleaf.not_madeOf_index hid
  · simp [hparameter, hkeys]

theorem keeping_keyTypes (g : TypeGraph) : Keeping keyTypes g fun h types =>
    h.Spelled (.array false (.joined .union parameterTree (.keyof parameterTree) [])) types.1 ∧
    h.Spelled (.joined .union parameterTree (.keyof (.array false parameterTree)) []) types.2.1 ∧
    h.Spelled (.keyof (.array false parameterTree)) types.2.2.1 ∧
    h.Spelled (.array false (.keyof parameterTree)) types.2.2.2 := by
  refine (makes_typeParameter parameterName none none).bind fun g₁ parameter _ hparameter => ?_
  refine (makes_keyof hparameter).bind fun g₂ keys h₂ hkeys => ?_
  have hparameter := hparameter.later h₂
  refine (makes_arrayOf hparameter).bind fun g₃ array h₃ harray => ?_
  refine (makes_keyof harray).bind fun g₄ keysOfArray h₄ hkeysOfArray => ?_
  have h₂₄ := trans_of Keeps h₃ h₄
  refine (makes_union_parameter_keyof (hparameter.later h₂₄) (hkeys.later h₂₄)).bind
    fun g₅ union h₅ hunion => ?_
  refine (makes_arrayOf hunion).bind fun g₆ arrayOfUnion h₆ harrayOfUnion => ?_
  have h₄₆ := trans_of Keeps h₅ h₆
  have h₂₆ := trans_of Keeps h₂₄ h₄₆
  refine (makes_union_parameter_keyof (hparameter.later h₂₆) (hkeysOfArray.later h₄₆)).bind
    fun g₇ unionWithKeys h₇ hunionWithKeys => ?_
  refine (makes_arrayOf (hkeys.later (trans_of Keeps h₂₆ h₇))).bind
    fun g₈ arrayOfKeys h₈ harrayOfKeys => .pure fun g₉ h₉ => ?_
  have h₇₉ := trans_of Keeps h₈ h₉
  have h₆₉ := trans_of Keeps h₇ h₇₉
  exact ⟨harrayOfUnion.later h₆₉, hunionWithKeys.later h₇₉,
    hkeysOfArray.later (trans_of Keeps h₄₆ h₆₉), harrayOfKeys.later h₉⟩

/-- Parentheses tell an array of a union apart from a union with the keys of an array. -/
theorem typeText_arrayOfUnion :
    let g := (keyTypes .initial).2
    let types := (keyTypes .initial).1
    let tree := Operators.array false (.joined .union parameterTree (.keyof parameterTree) [])
    let tree' := Operators.joined .union parameterTree (.keyof (.array false parameterTree)) []
    (g.Spells tree types.1 ∧ g.Spells tree' types.2.1) ∧
      (g.typeText types.1 = "(T | keyof T)[]" ∧ g.typeText types.2.1 = "T | keyof T[]") ∧
      tree.Clear ∧ tree'.Clear ∧ (g.typeText types.1 = g.typeText types.2.1 → tree = tree') := by
  intro g types tree tree'
  have hspelled := keeping_keyTypes .initial .initial (refl_of Keeps _) (by decide +kernel)
  have hfits : (keyTypes .initial).2.Fits := by decide +kernel
  have hfirst := hspelled.2.2.1 hfits
  have hsecond := hspelled.2.2.2.1 hfits
  have hparameter : parameterTree.Clear := .leaf parameterName
  have hclear : tree.Clear := .array rfl (.joined (by simp [hparameter, Operators.Clear.keyof]))
  have hclear' : tree'.Clear :=
    .joined (by simp [hparameter, Operators.Clear.keyof, Operators.Clear.array rfl hparameter])
  exact ⟨⟨hfirst, hsecond⟩, by decide +kernel, hclear, hclear',
    (typeText_eq_iff hfirst hsecond).2 hclear hclear'⟩

/-- The keys of an array and an array of keys have the same text, though they are made in different
ways. -/
theorem typeText_keysOfArray :
    let g := (keyTypes .initial).2
    let types := (keyTypes .initial).1
    let tree := Operators.keyof (.array false parameterTree)
    let tree' := Operators.array false (.keyof parameterTree)
    (g.Spells tree types.2.2.1 ∧ g.Spells tree' types.2.2.2) ∧
      (g.typeText types.2.2.1 = "keyof T[]" ∧ g.typeText types.2.2.2 = "keyof T[]") ∧
      tree ≠ tree' := by
  have hspelled := keeping_keyTypes .initial .initial (refl_of Keeps _) (by decide +kernel)
  have hfits : (keyTypes .initial).2.Fits := by decide +kernel
  exact ⟨⟨hspelled.2.2.2.2.1 hfits, hspelled.2.2.2.2.2 hfits⟩, by decide +kernel, nofun⟩

end Build

end TypeAtlas
