import Mathlib.Data.List.Basic
import TypeAtlas.Text.Blank
/-!
# Words between separators

Words that hold neither blanks nor the separator come back when a text of them is split and each
piece is trimmed: what stands between two separators is a word with blanks around it.
-/

namespace TypeAtlas.Text

/-- A word of a list whose words are separated by `separator`. -/
def IsWord (separator : Char) (word : List Char) : Prop :=
  word ≠ [] ∧ ∀ c ∈ word, c ≠ separator ∧ isBlank c = false

instance (separator : Char) (word : List Char) : Decidable (IsWord separator word) :=
  @instDecidableAnd _ _ _ (List.decidableBAll _ _)

section Trim

variable {word before after : List Char}

theorem dropWhile_isBlank_append (hne : word ≠ []) (hword : ∀ c ∈ word, isBlank c = false)
    (hbefore : ∀ c ∈ before, isBlank c = true) :
    (before ++ word ++ after).dropWhile isBlank = word ++ after := by
  obtain ⟨c, rest, rfl⟩ := List.exists_cons_of_ne_nil hne
  rw [List.append_assoc, List.dropWhile_append_of_pos hbefore, List.cons_append,
    List.dropWhile_cons, hword c List.mem_cons_self]
  rfl

/-- Blanks around a word are trimmed. -/
theorem trim_append (hne : word ≠ []) (hword : ∀ c ∈ word, isBlank c = false)
    (hbefore : ∀ c ∈ before, isBlank c = true) (hafter : ∀ c ∈ after, isBlank c = true) :
    trim (before ++ word ++ after) = word := by
  have hreverse : (after.reverse ++ word.reverse ++ []).dropWhile isBlank = word.reverse ++ [] :=
    dropWhile_isBlank_append (by rwa [Ne, List.reverse_eq_nil_iff])
      (fun c hc => hword c (List.mem_reverse.1 hc)) fun c hc => hafter c (List.mem_reverse.1 hc)
  rw [List.append_nil, List.append_nil] at hreverse
  rw [trim, dropWhile_isBlank_append hne hword hbefore, List.reverse_append, hreverse,
    List.reverse_reverse]

theorem dropWhile_of_head? {p : Char → Bool} {text : List Char}
    (h : ∀ c ∈ text.head?, p c = false) : text.dropWhile p = text := by
  cases text with
  | nil => rfl
  | cons c rest => rw [List.dropWhile_cons, h c rfl]; rfl

/-- A text without blanks at its ends is left alone. -/
theorem trim_of_ends {text : List Char} (hhead : ∀ c ∈ text.head?, isBlank c = false)
    (hlast : ∀ c ∈ text.getLast?, isBlank c = false) : trim text = text := by
  rw [trim, dropWhile_of_head? hhead, dropWhile_of_head? (by rwa [List.head?_reverse]),
    List.reverse_reverse]

end Trim

/-! ## Splitting -/

section Split

variable {separator : Char}

theorem split_of_notMem {piece : List Char} (h : ∀ c ∈ piece, c ≠ separator) :
    split separator piece = [piece] := by
  induction piece with
  | nil => rfl
  | cons c piece ih =>
    rw [split, if_neg (by simpa using h c List.mem_cons_self),
      ih fun c hc => h c (List.mem_cons_of_mem _ hc)]

theorem split_append {piece : List Char} (h : ∀ c ∈ piece, c ≠ separator) (rest : List Char) :
    split separator (piece ++ separator :: rest) = piece :: split separator rest := by
  induction piece with
  | nil => rw [List.nil_append, split, if_pos (beq_self_eq_true separator)]
  | cons c piece ih =>
    rw [List.cons_append, split, if_neg (by simpa using h c List.mem_cons_self),
      ih fun c hc => h c (List.mem_cons_of_mem _ hc)]

/-- Blanks other than the separator. -/
def IsPadding (separator : Char) (blanks : List Char) : Prop :=
  ∀ c ∈ blanks, isBlank c = true ∧ c ≠ separator

instance (separator : Char) (blanks : List Char) : Decidable (IsPadding separator blanks) :=
  List.decidableBAll _ _

variable {before word after : List Char}

theorem trim_word (hword : IsWord separator word) (hbefore : IsPadding separator before)
    (hafter : IsPadding separator after) : trim (before ++ word ++ after) = word :=
  trim_append hword.1 (fun c hc => (hword.2 c hc).2) (fun c hc => (hbefore c hc).1)
    fun c hc => (hafter c hc).1

/-- A word with blanks around it does not hold the separator. -/
theorem ne_of_mem_padded (hword : IsWord separator word) (hbefore : IsPadding separator before)
    (hafter : IsPadding separator after) : ∀ c ∈ before ++ word ++ after, c ≠ separator := by
  intro c hc
  rcases List.mem_append.1 hc with hc | hc
  · rcases List.mem_append.1 hc with hc | hc
    · exact (hbefore c hc).2
    · exact (hword.2 c hc).1
  · exact (hafter c hc).2

/-- The words of a text in which they stand between separators with a blank on either side. -/
theorem map_trim_split {blank : Char} (hblank : IsPadding separator [blank])
    (hbefore : IsPadding separator before) {words : List (List Char)}
    (hwords : ∀ w ∈ word :: words, IsWord separator w) :
    (split separator (before ++ [blank, separator, blank].intercalate (word :: words))).map trim =
      word :: words := by
  have hword := hwords word List.mem_cons_self
  induction words generalizing before word with
  | nil =>
    have hnil : IsPadding separator [] := fun c hc => absurd hc List.not_mem_nil
    have htrim := trim_word hword hbefore hnil
    have hfree := ne_of_mem_padded hword hbefore hnil
    rw [List.append_nil] at htrim hfree
    rw [List.intercalate_singleton, split_of_notMem hfree, List.map_singleton, htrim]
  | cons next words ih =>
    have hrest := ih hblank (fun w hw => hwords w (List.mem_cons_of_mem _ hw))
      (hwords next (List.mem_cons_of_mem _ List.mem_cons_self))
    have hsplit := split_append (ne_of_mem_padded hword hbefore hblank)
      ([blank] ++ [blank, separator, blank].intercalate (next :: words))
    have hjoin : before ++ [blank, separator, blank].intercalate (word :: next :: words) =
        before ++ word ++ [blank] ++ separator ::
          ([blank] ++ [blank, separator, blank].intercalate (next :: words)) := by
      rw [List.intercalate_cons_cons]
      simp only [List.append_assoc, List.cons_append, List.nil_append]
    rw [hjoin, hsplit, List.map_cons, hrest, trim_word hword hbefore hblank]

theorem isBlank_head?_of_isWord (h : IsWord separator word) :
    ∃ c ∈ word.head?, isBlank c = false := by
  obtain ⟨c, rest, rfl⟩ := List.exists_cons_of_ne_nil h.1
  exact ⟨c, rfl, (h.2 c List.mem_cons_self).2⟩

theorem isBlank_getLast?_of_isWord (h : IsWord separator word) :
    ∃ c ∈ word.getLast?, isBlank c = false :=
  ⟨word.getLast h.1, List.getLast?_eq_some_getLast h.1, (h.2 _ (List.getLast_mem h.1)).2⟩

theorem exists_intercalate_eq (between word : List Char) (words : List (List Char)) :
    ∃ more, between.intercalate (word :: words) = word ++ more := by
  cases words with
  | nil => exact ⟨[], by rw [List.intercalate_singleton, List.append_nil]⟩
  | cons next words => exact ⟨_, by rw [List.intercalate_cons_cons, List.append_assoc]⟩

theorem intercalate_ne_nil (between : List Char) (hword : IsWord separator word)
    (words : List (List Char)) : between.intercalate (word :: words) ≠ [] := by
  obtain ⟨more, hmore⟩ := exists_intercalate_eq between word words
  rw [hmore]
  exact List.append_ne_nil_of_left_ne_nil hword.1 more

/-- Joined words have no blanks at their ends. -/
theorem trim_intercalate (between : List Char) {words : List (List Char)}
    (hwords : ∀ w ∈ word :: words, IsWord separator w) :
    trim (between.intercalate (word :: words)) = between.intercalate (word :: words) := by
  have hword := hwords word List.mem_cons_self
  refine trim_of_ends (fun c hc => ?_) fun c hc => ?_
  · obtain ⟨d, hd, hblank⟩ := isBlank_head?_of_isWord hword
    obtain ⟨more, hmore⟩ := exists_intercalate_eq between word words
    rw [hmore, List.head?_append, hd, Option.some_or] at hc
    rwa [← Option.some.inj hc]
  · induction words generalizing word with
    | nil =>
      obtain ⟨d, hd, hblank⟩ := isBlank_getLast?_of_isWord hword
      rw [List.intercalate_singleton, hd] at hc
      rwa [← Option.some.inj hc]
    | cons next words ih =>
      have hrest := fun w hw => hwords w (List.mem_cons_of_mem word hw)
      have hnext := hrest next List.mem_cons_self
      rw [List.intercalate_cons_cons,
        List.getLast?_append_of_ne_nil _ (intercalate_ne_nil between hnext words)] at hc
      exact ih hrest hnext hc

end Split

end TypeAtlas.Text
