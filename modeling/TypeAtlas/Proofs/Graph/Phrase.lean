import Mathlib.Data.List.Basic
/-!
# Phrases

What a text made of names, operators, parentheses and brackets shows of its structure
(`Phrase`): operands with brackets after them and marks before, and operands that are joined. The
text of a phrase is read in one way only (`Phrase.chars_inj`).

A text is read from left to right, whatever stands after it (`Phrase.IsRead`): a name ends where no
character of a name follows, a mark is a name with a space that no operator follows, and a closing
parenthesis ends a group.
-/

namespace TypeAtlas

/-- A character that names are made of. Operators, parentheses and brackets are written with the
other ones. -/
def isNameChar (c : Char) : Bool :=
  c ∉ [' ', '(', ')', '[', ']', '|', '&']

/-- The name of a type. -/
structure Identifier where
  text : String
  ne_nil : text.toList ≠ []
  isNameChar : ∀ c ∈ text.toList, isNameChar c = true

theorem Identifier.ext {a b : Identifier} (h : a.text.toList = b.text.toList) : a = b := by
  cases a
  cases b
  obtain rfl := String.toList_inj.1 h
  rfl

/-- What stands between operands. -/
inductive Connective where
  | union
  | intersection
  deriving DecidableEq, Inhabited, Repr

/-- What stands before an operand. -/
inductive Mark where
  | keyof
  | readonly
  deriving DecidableEq, Inhabited, Repr

/-- The structure that a text shows. -/
inductive Phrase where
  /-- A name, and after it pairs of brackets, some of them with a phrase inside. -/
  | word (name : Identifier) (brackets : List (Option Phrase))
  /-- Several operands, in parentheses if need be, and brackets after them. -/
  | group (op : Connective) (first second : Phrase) (rest : List Phrase)
    (brackets : List (Option Phrase))
  | marked (mark : Mark) (phrase : Phrase)

namespace Connective

/-- A connective with the spaces around it. -/
def chars : Connective → List Char
  | union => [' ', '|', ' ']
  | intersection => [' ', '&', ' ']

end Connective

namespace Mark

/-- A mark is a word. -/
def word : Mark → List Char
  | keyof => ['k', 'e', 'y', 'o', 'f']
  | readonly => ['r', 'e', 'a', 'd', 'o', 'n', 'l', 'y']

/-- A mark and the space after it. -/
def chars (mark : Mark) : List Char :=
  mark.word ++ [' ']

end Mark

namespace Phrase

mutual

/-- The characters of a phrase. Operands that stand alone have no parentheses around them. -/
def chars (alone : Bool) : Phrase → List Char
  | .word name brackets => name.text.toList ++ bracketChars brackets
  | .group op first second rest brackets =>
    let operands := chars false first ++ op.chars ++ chars false second ++ restChars op rest
    if alone && brackets.isEmpty then operands
    else '(' :: operands ++ ')' :: bracketChars brackets
  | .marked mark phrase => mark.chars ++ chars false phrase

/-- Pairs of brackets with what stands inside. -/
def bracketChars : List (Option Phrase) → List Char
  | [] => []
  | none :: brackets => '[' :: ']' :: bracketChars brackets
  | some index :: brackets => '[' :: chars true index ++ ']' :: bracketChars brackets

/-- The operands after the second one, each with its connective. -/
def restChars (op : Connective) : List Phrase → List Char
  | [] => []
  | phrase :: rest => op.chars ++ chars false phrase ++ restChars op rest

end

/-- Operands with their connective between them. -/
def operandChars (op : Connective) (first : Phrase) (others : List Phrase) : List Char :=
  chars false first ++ restChars op others

theorem chars_group_alone (op : Connective) (first second : Phrase) (rest : List Phrase) :
    chars true (.group op first second rest []) = operandChars op first (second :: rest) := by
  simp [chars, operandChars, restChars, List.append_assoc]

theorem chars_group (op : Connective) (first second : Phrase) (rest : List Phrase)
    (brackets : List (Option Phrase)) :
    chars false (.group op first second rest brackets) =
      '(' :: (operandChars op first (second :: rest) ++ ')' :: bracketChars brackets) := by
  simp [chars, operandChars, restChars, List.append_assoc]

/-- Only operands without brackets are written differently when they stand alone. -/
theorem chars_alone (phrase : Phrase) :
    chars true phrase = chars false phrase ∨
      ∃ op first second rest, phrase = .group op first second rest [] := by
  rcases phrase with ⟨name, brackets⟩ | ⟨op, first, second, rest, _ | ⟨index, brackets⟩⟩ | _
  · exact Or.inl (by rw [chars, chars])
  · exact Or.inr ⟨op, first, second, rest, rfl⟩
  · exact Or.inl (by simp [chars])
  · exact Or.inl (by rw [chars, chars])

/-- Whether a phrase starts with a parenthesis. -/
def isGroup : Phrase → Bool
  | .group .. => true
  | _ => false

/-- A phrase starts with a character of a name or with a parenthesis. -/
theorem exists_chars_eq_cons (phrase : Phrase) :
    ∃ c more, chars false phrase = c :: more ∧
      (isNameChar c = true ∧ phrase.isGroup = false ∨ c = '(' ∧ phrase.isGroup = true) := by
  rcases phrase with ⟨name, brackets⟩ | ⟨op, first, second, rest, brackets⟩ | ⟨mark, phrase⟩
  · obtain ⟨c, more, hname⟩ := List.exists_cons_of_ne_nil name.ne_nil
    refine ⟨c, more ++ bracketChars brackets, by rw [chars, hname]; rfl, Or.inl ⟨?_, rfl⟩⟩
    exact name.isNameChar c (hname ▸ List.mem_cons_self)
  · exact ⟨'(', _, chars_group op first second rest brackets, Or.inr ⟨rfl, rfl⟩⟩
  · cases mark with
    | keyof => exact ⟨'k', _, by rw [chars]; rfl, Or.inl ⟨by decide, rfl⟩⟩
    | readonly => exact ⟨'r', _, by rw [chars]; rfl, Or.inl ⟨by decide, rfl⟩⟩

theorem exists_chars_alone_eq_cons (phrase : Phrase) :
    ∃ c more, chars true phrase = c :: more ∧ (isNameChar c = true ∨ c = '(') := by
  rcases phrase.chars_alone with h | ⟨op, first, second, rest, rfl⟩
  · obtain ⟨c, more, hchars, hc⟩ := phrase.exists_chars_eq_cons
    exact ⟨c, more, h.trans hchars, hc.imp And.left And.left⟩
  · obtain ⟨c, more, hchars, hc⟩ := first.exists_chars_eq_cons
    exact ⟨c, _, by rw [chars_group_alone, operandChars, hchars]; rfl, hc.imp And.left And.left⟩

/-- What stands inside a pair of brackets. -/
def indexChars (index : Option Phrase) : List Char :=
  index.elim [] (chars true)

theorem bracketChars_cons_append (index : Option Phrase) (brackets : List (Option Phrase))
    (rest : List Char) : bracketChars (index :: brackets) ++ rest =
      '[' :: (indexChars index ++ ']' :: (bracketChars brackets ++ rest)) := by
  cases index <;> simp [bracketChars, indexChars]

end Phrase

/-! ## What stands after a phrase -/

/-- After operands there is nothing, or something is closed. -/
inductive Closes : List Char → Prop
  | nothing : Closes []
  | parenthesis (rest : List Char) : Closes (')' :: rest)
  | bracket (rest : List Char) : Closes (']' :: rest)

/-- After an operand there is another one, or nothing more. -/
def Stops (rest : List Char) : Prop :=
  Closes rest ∨ ∃ (op : Connective) (more : List Char), rest = op.chars ++ more

/-- No name goes on here. -/
def EndsName (rest : List Char) : Prop :=
  ∀ c ∈ rest.head?, isNameChar c = false

theorem endsName_cons {c : Char} (h : isNameChar c = false) (rest : List Char) :
    EndsName (c :: rest) := by
  rintro _ ⟨⟩
  exact h

theorem Closes.ne_connective {rest : List Char} (h : Closes rest) (op : Connective)
    (more : List Char) : rest ≠ op.chars ++ more := by
  cases op <;> cases h <;> exact fun heq => by simp [Connective.chars] at heq

theorem Stops.endsName {rest : List Char} (h : Stops rest) : EndsName rest := by
  rcases h with h | ⟨op, more, rfl⟩
  · cases h with
    | nothing => rintro c ⟨⟩
    | parenthesis rest => exact endsName_cons (by decide) rest
    | bracket rest => exact endsName_cons (by decide) rest
  · cases op <;> exact endsName_cons (by decide) _

theorem Stops.ne_bracket {rest more : List Char} (h : Stops rest) : rest ≠ '[' :: more := by
  rcases h with h | ⟨op, more, rfl⟩
  · cases h <;> simp
  · cases op <;> simp [Connective.chars]

/-- A name is read up to where it ends. -/
theorem name_inj {a b rest rest' : List Char} (ha : ∀ c ∈ a, isNameChar c = true)
    (hb : ∀ c ∈ b, isNameChar c = true) (hrest : EndsName rest) (hrest' : EndsName rest')
    (h : a ++ rest = b ++ rest') : a = b ∧ rest = rest' := by
  induction a generalizing b with
  | nil =>
    cases b with
    | nil => exact ⟨rfl, h⟩
    | cons c b =>
      have hend := hrest c (by rw [← List.nil_append rest, h]; rfl)
      rw [hb c List.mem_cons_self] at hend
      cases hend
  | cons c a ih =>
    cases b with
    | nil =>
      have hend := hrest' c (by rw [← List.nil_append rest', ← h]; rfl)
      rw [ha c List.mem_cons_self] at hend
      cases hend
    | cons d b =>
      obtain ⟨rfl, hmore⟩ := List.cons.inj h
      rw [List.forall_mem_cons] at ha hb
      obtain ⟨rfl, heq⟩ := ih ha.2 hb.2 hmore
      exact ⟨rfl, heq⟩

namespace Phrase

/-! ## Reading -/

/-- An operand is told apart from all others, whatever stands after it. -/
def IsRead (phrase : Phrase) : Prop :=
  ∀ ⦃other rest rest'⦄, Stops rest → Stops rest' →
    chars false phrase ++ rest = chars false other ++ rest' → phrase = other ∧ rest = rest'

/-- A phrase that stands alone is told apart from all others. -/
def IsReadAlone (phrase : Phrase) : Prop :=
  ∀ ⦃other rest rest'⦄, Closes rest → Closes rest' →
    chars true phrase ++ rest = chars true other ++ rest' → phrase = other ∧ rest = rest'

theorem stops_restChars (op : Connective) (phrases : List Phrase) {rest : List Char}
    (hrest : Closes rest) : Stops (restChars op phrases ++ rest) := by
  cases phrases with
  | nil => exact Or.inl (by rwa [restChars, List.nil_append])
  | cons phrase phrases =>
    exact Or.inr ⟨op, _, by rw [restChars, List.append_assoc, List.append_assoc]⟩

theorem restChars_cons_append (op : Connective) (phrase : Phrase) (phrases : List Phrase)
    (rest : List Char) : restChars op (phrase :: phrases) ++ rest =
      op.chars ++ (chars false phrase ++ (restChars op phrases ++ rest)) := by
  rw [restChars, List.append_assoc, List.append_assoc]

/-- Operands are read up to where they are closed. -/
theorem restChars_inj {op : Connective} {phrases others : List Phrase} {rest rest' : List Char}
    (hread : ∀ phrase ∈ phrases, phrase.IsRead) (hrest : Closes rest) (hrest' : Closes rest')
    (h : restChars op phrases ++ rest = restChars op others ++ rest') :
    phrases = others ∧ rest = rest' := by
  induction phrases generalizing others with
  | nil =>
    cases others with
    | nil => exact ⟨rfl, by simpa [restChars] using h⟩
    | cons other others =>
      rw [restChars, List.nil_append, restChars_cons_append] at h
      exact absurd h (hrest.ne_connective op _)
  | cons phrase phrases ih =>
    cases others with
    | nil =>
      rw [restChars_cons_append, restChars, List.nil_append] at h
      exact absurd h.symm (hrest'.ne_connective op _)
    | cons other others =>
      rw [List.forall_mem_cons] at hread
      rw [restChars_cons_append, restChars_cons_append] at h
      obtain ⟨rfl, hmore⟩ := hread.1 (stops_restChars op phrases hrest)
        (stops_restChars op others hrest') (List.append_cancel_left h)
      obtain ⟨rfl, heq⟩ := ih hread.2 hmore
      exact ⟨rfl, heq⟩

theorem connective_inj {op op' : Connective} {rest rest' : List Char}
    (h : op.chars ++ rest = op'.chars ++ rest') : op = op' := by
  cases op <;> cases op' <;> first | rfl | simp [Connective.chars] at h

theorem operandChars_inj {op op' : Connective} {first first' second second' : Phrase}
    {others others' : List Phrase} {rest rest' : List Char} (hfirst : first.IsRead)
    (hothers : ∀ phrase ∈ second :: others, phrase.IsRead) (hrest : Closes rest)
    (hrest' : Closes rest')
    (h : operandChars op first (second :: others) ++ rest =
      operandChars op' first' (second' :: others') ++ rest') :
    op = op' ∧ first = first' ∧ second = second' ∧ others = others' ∧ rest = rest' := by
  rw [operandChars, operandChars, List.append_assoc, List.append_assoc] at h
  obtain ⟨rfl, hmore⟩ := hfirst (stops_restChars op _ hrest) (stops_restChars op' _ hrest') h
  have hop : op = op' := by
    rw [restChars_cons_append, restChars_cons_append] at hmore
    exact connective_inj hmore
  obtain rfl := hop
  obtain ⟨hsame, heq⟩ := restChars_inj hothers hrest hrest' hmore
  obtain ⟨rfl, rfl⟩ := List.cons.inj hsame
  exact ⟨rfl, rfl, rfl, rfl, heq⟩

/-- No operand is made of several operands without parentheses. -/
theorem operandChars_ne {op : Connective} {first second phrase : Phrase} {others : List Phrase}
    {rest rest' : List Char} (hfirst : first.IsRead) (hrest : Closes rest) (hrest' : Closes rest') :
    operandChars op first (second :: others) ++ rest ≠ chars false phrase ++ rest' := by
  intro h
  rw [operandChars, List.append_assoc] at h
  obtain ⟨-, hmore⟩ := hfirst (stops_restChars op _ hrest) (Or.inl hrest') h
  rw [restChars_cons_append] at hmore
  exact hrest'.ne_connective op _ hmore.symm

theorem chars_alone_append_ne (phrase : Phrase) (rest rest' : List Char) :
    chars true phrase ++ rest ≠ ']' :: rest' := by
  intro h
  obtain ⟨c, more, hchars, hc⟩ := phrase.exists_chars_alone_eq_cons
  rw [hchars] at h
  obtain ⟨rfl, -⟩ := List.cons.inj h
  exact absurd hc (by decide)

theorem indexChars_inj {index other : Option Phrase} {rest rest' : List Char}
    (hread : ∀ phrase ∈ index, phrase.IsReadAlone)
    (h : indexChars index ++ ']' :: rest = indexChars other ++ ']' :: rest') :
    index = other ∧ rest = rest' := by
  cases index with
  | none =>
    cases other with
    | none => exact ⟨rfl, List.tail_eq_of_cons_eq h⟩
    | some other => exact absurd h.symm (other.chars_alone_append_ne _ _)
  | some phrase =>
    cases other with
    | none => exact absurd h (phrase.chars_alone_append_ne _ _)
    | some other =>
      obtain ⟨rfl, hmore⟩ := hread phrase rfl (.bracket rest) (.bracket rest') h
      exact ⟨rfl, List.tail_eq_of_cons_eq hmore⟩

/-- Pairs of brackets are read as long as there is another one. -/
theorem bracketChars_inj {brackets others : List (Option Phrase)} {rest rest' : List Char}
    (hread : ∀ index ∈ brackets, ∀ phrase ∈ index, phrase.IsReadAlone) (hrest : Stops rest)
    (hrest' : Stops rest') (h : bracketChars brackets ++ rest = bracketChars others ++ rest') :
    brackets = others ∧ rest = rest' := by
  induction brackets generalizing others with
  | nil =>
    cases others with
    | nil => exact ⟨rfl, h⟩
    | cons other others =>
      rw [bracketChars, List.nil_append, bracketChars_cons_append] at h
      exact absurd h hrest.ne_bracket
  | cons index brackets ih =>
    cases others with
    | nil =>
      rw [bracketChars_cons_append, bracketChars, List.nil_append] at h
      exact absurd h.symm hrest'.ne_bracket
    | cons other others =>
      rw [List.forall_mem_cons] at hread
      rw [bracketChars_cons_append, bracketChars_cons_append] at h
      obtain ⟨rfl, hmore⟩ := indexChars_inj hread.1 (List.tail_eq_of_cons_eq h)
      obtain ⟨rfl, heq⟩ := ih hread.2 hmore
      exact ⟨rfl, heq⟩

theorem endsName_bracketChars (brackets : List (Option Phrase)) {rest : List Char}
    (hrest : Stops rest) : EndsName (bracketChars brackets ++ rest) := by
  cases brackets with
  | nil => exact hrest.endsName
  | cons index brackets =>
    rw [bracketChars_cons_append]
    exact endsName_cons (by decide) _

/-! ## Telling phrases apart -/

/-- No operator follows a mark, so it is not a name. -/
theorem chars_marked_ne_word (mark : Mark) (phrase : Phrase) (name : Identifier)
    (brackets : List (Option Phrase)) {rest rest' : List Char} (hrest' : Stops rest') :
    chars false (.marked mark phrase) ++ rest ≠ chars false (.word name brackets) ++ rest' := by
  intro h
  rw [chars, chars, Mark.chars, List.append_assoc, List.append_assoc, List.append_assoc,
    List.singleton_append] at h
  have hmark : ∀ c ∈ mark.word, isNameChar c = true := by
    rw [← List.all_eq_true]
    cases mark <;> rfl
  obtain ⟨-, hmore⟩ := name_inj hmark name.isNameChar (endsName_cons (by decide) _)
    (endsName_bracketChars brackets hrest') h
  obtain ⟨c, more, hchars, hc⟩ := phrase.exists_chars_eq_cons
  rw [hchars, List.cons_append] at hmore
  cases brackets with
  | nil =>
    rw [bracketChars, List.nil_append] at hmore
    rcases hmore ▸ hrest' with hclose | ⟨op, after, heq⟩
    · cases hclose
    · cases op <;>
      · obtain ⟨rfl, -⟩ := List.cons.inj (List.tail_eq_of_cons_eq heq)
        exact absurd (hc.imp And.left And.left) (by decide)
  | cons index brackets =>
    rw [bracketChars_cons_append] at hmore
    cases (List.cons.inj hmore).1

/-- Groups start with a parenthesis, and nothing else does. -/
theorem isGroup_eq {phrase other : Phrase} {rest rest' : List Char}
    (h : chars false phrase ++ rest = chars false other ++ rest') :
    phrase.isGroup = other.isGroup := by
  obtain ⟨c, more, hchars, hc⟩ := phrase.exists_chars_eq_cons
  obtain ⟨d, more', hchars', hd⟩ := other.exists_chars_eq_cons
  rw [hchars, hchars'] at h
  obtain ⟨rfl, -⟩ := List.cons.inj h
  rcases hc with ⟨hname, hgroup⟩ | ⟨rfl, hgroup⟩ <;>
    rcases hd with ⟨hname', hgroup'⟩ | ⟨h', hgroup'⟩
  · rw [hgroup, hgroup']
  · rw [h'] at hname
    cases hname
  · cases hname'
  · rw [hgroup, hgroup']

theorem isRead_word (name : Identifier) {brackets : List (Option Phrase)}
    (hbrackets : ∀ index ∈ brackets, ∀ phrase ∈ index, phrase.IsReadAlone) :
    (Phrase.word name brackets).IsRead := by
  intro other rest rest' hrest hrest' h
  cases other with
  | word name' brackets' =>
    rw [chars, chars, List.append_assoc, List.append_assoc] at h
    obtain ⟨hname, hmore⟩ := name_inj name.isNameChar name'.isNameChar
      (endsName_bracketChars brackets hrest) (endsName_bracketChars brackets' hrest') h
    obtain rfl := Identifier.ext hname
    obtain ⟨rfl, heq⟩ := bracketChars_inj hbrackets hrest hrest' hmore
    exact ⟨rfl, heq⟩
  | group => cases isGroup_eq h
  | marked mark phrase => exact absurd h.symm (chars_marked_ne_word mark phrase name brackets hrest)

theorem isRead_group {op : Connective} {first second : Phrase} {others : List Phrase}
    {brackets : List (Option Phrase)} (hfirst : first.IsRead)
    (hothers : ∀ phrase ∈ second :: others, phrase.IsRead)
    (hbrackets : ∀ index ∈ brackets, ∀ phrase ∈ index, phrase.IsReadAlone) :
    (Phrase.group op first second others brackets).IsRead := by
  intro other rest rest' hrest hrest' h
  cases other with
  | group op' first' second' others' brackets' =>
    rw [chars_group, chars_group, List.cons_append, List.cons_append, List.append_assoc,
      List.append_assoc] at h
    obtain ⟨rfl, rfl, rfl, rfl, hmore⟩ := operandChars_inj hfirst hothers (.parenthesis _)
      (.parenthesis _) (List.tail_eq_of_cons_eq h)
    obtain ⟨rfl, heq⟩ := bracketChars_inj hbrackets hrest hrest' (List.tail_eq_of_cons_eq hmore)
    exact ⟨rfl, heq⟩
  | word => cases isGroup_eq h
  | marked => cases isGroup_eq h

theorem isRead_marked (mark : Mark) {phrase : Phrase} (hphrase : phrase.IsRead) :
    (Phrase.marked mark phrase).IsRead := by
  intro other rest rest' hrest hrest' h
  cases other with
  | word name brackets => exact absurd h (chars_marked_ne_word mark phrase name brackets hrest')
  | group => cases isGroup_eq h
  | marked mark' phrase' =>
    rw [chars, chars, List.append_assoc, List.append_assoc] at h
    have hmark : mark = mark' := by
      cases mark <;> cases mark' <;> first | rfl | cases (List.cons.inj h).1
    obtain rfl := hmark
    obtain ⟨rfl, heq⟩ := hphrase hrest hrest' (List.append_cancel_left h)
    exact ⟨rfl, heq⟩

/-- Standing alone makes a difference to operands without brackets only, and these are no
operand. -/
theorem isReadAlone_of_isRead {phrase : Phrase} (hphrase : phrase.IsRead)
    (hoperands : ∀ op first second rest, phrase = .group op first second rest [] →
      first.IsRead ∧ ∀ other ∈ second :: rest, other.IsRead) : phrase.IsReadAlone := by
  intro other rest rest' hrest hrest' h
  rcases phrase.chars_alone with hsame | ⟨op, first, second, others, rfl⟩
  · rcases other.chars_alone with hsame' | ⟨op', first', second', others', rfl⟩
    · rw [hsame, hsame'] at h
      exact hphrase (Or.inl hrest) (Or.inl hrest') h
    · rw [hsame, chars_group_alone, operandChars, List.append_assoc] at h
      obtain ⟨-, hmore⟩ := hphrase (Or.inl hrest) (stops_restChars op' _ hrest') h
      rw [restChars_cons_append] at hmore
      exact absurd hmore (hrest.ne_connective op' _)
  · obtain ⟨hfirst, hothers⟩ := hoperands _ _ _ _ rfl
    rcases other.chars_alone with hsame' | ⟨op', first', second', others', rfl⟩
    · rw [chars_group_alone, hsame'] at h
      exact absurd h (operandChars_ne hfirst hrest hrest')
    · rw [chars_group_alone, chars_group_alone] at h
      obtain ⟨rfl, rfl, rfl, rfl, heq⟩ := operandChars_inj hfirst hothers hrest hrest' h
      exact ⟨rfl, heq⟩

theorem sizeOf_index_lt {brackets : List (Option Phrase)} {index : Option Phrase} {phrase : Phrase}
    (hindex : index ∈ brackets) (hphrase : phrase ∈ index) : sizeOf phrase < sizeOf brackets := by
  obtain rfl := Option.mem_def.1 hphrase
  exact Nat.lt_trans (Nat.lt_add_of_pos_left Nat.one_pos) (List.sizeOf_lt_of_mem hindex)

/-- By induction on the phrase. -/
theorem isRead_and_isReadAlone : ∀ phrase : Phrase, phrase.IsRead ∧ phrase.IsReadAlone
  | .word name brackets =>
    have hbrackets : ∀ index ∈ brackets, ∀ phrase ∈ index, phrase.IsReadAlone :=
      fun index hindex phrase hphrase =>
        have := sizeOf_index_lt hindex hphrase
        (isRead_and_isReadAlone phrase).2
    have hword := isRead_word name hbrackets
    ⟨hword, isReadAlone_of_isRead hword (by rintro _ _ _ _ ⟨⟩)⟩
  | .group op first second others brackets =>
    have hfirst := (isRead_and_isReadAlone first).1
    have hsecond := (isRead_and_isReadAlone second).1
    have hothers : ∀ phrase ∈ second :: others, phrase.IsRead :=
      List.forall_mem_cons.2 ⟨hsecond, fun phrase hphrase => (isRead_and_isReadAlone phrase).1⟩
    have hbrackets : ∀ index ∈ brackets, ∀ phrase ∈ index, phrase.IsReadAlone :=
      fun index hindex phrase hphrase =>
        have := sizeOf_index_lt hindex hphrase
        (isRead_and_isReadAlone phrase).2
    have hgroup := isRead_group hfirst hothers hbrackets
    ⟨hgroup, isReadAlone_of_isRead hgroup fun _ _ _ _ heq => by
      cases heq
      exact ⟨hfirst, hothers⟩⟩
  | .marked mark phrase =>
    have hmarked := isRead_marked mark (isRead_and_isReadAlone phrase).1
    ⟨hmarked, isReadAlone_of_isRead hmarked (by rintro _ _ _ _ ⟨⟩)⟩
termination_by phrase => sizeOf phrase

/-- Different phrases have different texts. -/
theorem chars_inj {phrase other : Phrase} (h : chars true phrase = chars true other) :
    phrase = other := by
  rw [← List.append_nil (chars true phrase), ← List.append_nil (chars true other)] at h
  exact ((isRead_and_isReadAlone phrase).2 .nothing .nothing h).1

end Phrase

end TypeAtlas
