import Mathlib.Algebra.GroupWithZero.Nat
import Mathlib.Data.List.Basic
import TypeAtlas.Text.Replace
/-!
# What replacing changes

A pattern whose first character, its mark, does not come back in it: two occurrences of it never
overlap, and a mark ends whatever stands before it, so a text can be cut in front of a mark
(`replaceFrom_append_mark`, `occurrences_append_mark`).

A text made of blocks with the pattern between them may hold the pattern inside of blocks as well,
or where blocks and patterns meet, but never across a pattern. Replacing changes what stands between
the blocks, and nothing else, exactly when no block holds the pattern or the pattern is replaced by
itself (`replaceFrom_intercalate_eq_iff`).
-/

namespace TypeAtlas.Text

/-- How often a pattern stands in a text, counted by the places where it starts. -/
def occurrences (pattern : List Char) : List Char → ℕ
  | [] => 0
  | c :: rest =>
    (if pattern.isPrefixOf (c :: rest) then 1 else 0) + occurrences pattern rest

/-! ## Replacing -/

section Scan

variable {pattern replacement : List Char}

theorem replaceFrom_eq_drop (passed : ℕ) (text : List Char) :
    replaceFrom pattern replacement passed text =
      replaceFrom pattern replacement 0 (text.drop passed) := by
  induction passed generalizing text with
  | zero => rfl
  | succ passed ih =>
    cases text with
    | nil => rfl
    | cons c rest => rw [replaceFrom, ih, List.drop_succ_cons]

theorem replaceFrom_cons {c : Char} {rest : List Char} (h : ¬ pattern <+: c :: rest) :
    replaceFrom pattern replacement 0 (c :: rest) =
      c :: replaceFrom pattern replacement 0 rest := by
  rw [replaceFrom, if_neg (by rwa [List.isPrefixOf_iff_prefix])]

theorem replaceFrom_pattern (hne : pattern ≠ []) (rest : List Char) :
    replaceFrom pattern replacement 0 (pattern ++ rest) =
      replacement ++ replaceFrom pattern replacement 0 rest := by
  obtain ⟨c, body, rfl⟩ := List.exists_cons_of_ne_nil hne
  have hstarts : (c :: body).isPrefixOf (c :: (body ++ rest)) = true :=
    List.isPrefixOf_iff_prefix.2 (List.prefix_append (c :: body) rest)
  rw [List.cons_append, replaceFrom, if_pos hstarts, replaceFrom_eq_drop, List.length_cons,
    Nat.add_sub_cancel, List.drop_left]

theorem length_lt_of_append_eq {token after text : List Char} (hne : token ≠ [])
    (h : token ++ after = text) : after.length < text.length := by
  have hpos := List.length_pos_iff.2 hne
  rw [← h, List.length_append]
  omega

/-- A text is read from left to right, one character or one occurrence of the pattern at a time. -/
theorem scan_induction {motive : List Char → Prop} (hne : pattern ≠ []) (nil : motive [])
    (cons : ∀ c rest, ¬ pattern <+: c :: rest → motive rest → motive (c :: rest))
    (found : ∀ rest, motive rest → motive (pattern ++ rest)) (text : List Char) : motive text := by
  cases text with
  | nil => exact nil
  | cons c rest =>
    by_cases h : pattern <+: c :: rest
    · obtain ⟨after, hafter⟩ := h
      rw [← hafter]
      exact found after (scan_induction hne nil cons found after)
    · exact cons c rest h (scan_induction hne nil cons found rest)
termination_by text.length
decreasing_by
  · exact length_lt_of_append_eq hne hafter
  · exact Nat.lt_succ_self _

/-- A pattern that is replaced by itself is kept. -/
theorem replaceFrom_self (hne : pattern ≠ []) (text : List Char) :
    replaceFrom pattern pattern 0 text = text := by
  induction text using scan_induction hne with
  | nil => rfl
  | cons c rest h ih => rw [replaceFrom_cons h, ih]
  | found rest ih => rw [replaceFrom_pattern hne, ih]

end Scan

/-! ## Cutting at a mark -/

section Mark

variable {mark : Char} {body replacement : List Char}

/-- What starts before a mark and holds none ends before it. -/
theorem isPrefixOf_append_mark (h : mark ∉ body) (before rest : List Char) :
    body.isPrefixOf (before ++ mark :: rest) = body.isPrefixOf before := by
  induction body generalizing before with
  | nil => rfl
  | cons b body ih =>
    cases before with
    | nil =>
      rw [List.nil_append, List.isPrefixOf_cons_cons,
        beq_false_of_ne (List.ne_of_not_mem_cons h).symm]
      rfl
    | cons c before =>
      rw [List.cons_append, List.isPrefixOf_cons_cons, List.isPrefixOf_cons_cons,
        ih (List.not_mem_of_not_mem_cons h)]

theorem isPrefixOf_cons_append_mark (h : mark ∉ body) (c : Char) (before rest : List Char) :
    (mark :: body).isPrefixOf (c :: (before ++ mark :: rest)) =
      (mark :: body).isPrefixOf (c :: before) := by
  rw [List.isPrefixOf_cons_cons, List.isPrefixOf_cons_cons, isPrefixOf_append_mark h]

theorem replaceFrom_append_mark (h : mark ∉ body) {passed : ℕ} {before : List Char}
    (hpassed : passed ≤ before.length) (rest : List Char) :
    replaceFrom (mark :: body) replacement passed (before ++ mark :: rest) =
      replaceFrom (mark :: body) replacement passed before ++
        replaceFrom (mark :: body) replacement 0 (mark :: rest) := by
  induction before generalizing passed with
  | nil => rw [Nat.le_zero.1 hpassed]; rfl
  | cons c before ih =>
    cases passed with
    | succ passed =>
      rw [List.cons_append, replaceFrom, replaceFrom, ih (Nat.le_of_succ_le_succ hpassed)]
    | zero =>
      rw [List.cons_append, replaceFrom, replaceFrom, isPrefixOf_cons_append_mark h]
      split
      next hstarts =>
        have hlength := (List.isPrefixOf_iff_prefix.1 hstarts).length_le
        rw [ih (by simpa using hlength), List.append_assoc]
      next => rw [ih (Nat.zero_le _), List.cons_append]

theorem occurrences_cons {pattern rest : List Char} {c : Char} (h : ¬ pattern <+: c :: rest) :
    occurrences pattern (c :: rest) = occurrences pattern rest := by
  rw [occurrences, if_neg (by rwa [List.isPrefixOf_iff_prefix]), Nat.zero_add]

theorem occurrences_append_mark (h : mark ∉ body) (before rest : List Char) :
    occurrences (mark :: body) (before ++ mark :: rest) =
      occurrences (mark :: body) before + occurrences (mark :: body) (mark :: rest) := by
  induction before with
  | nil => rw [occurrences, Nat.zero_add]; rfl
  | cons c before ih =>
    rw [List.cons_append, occurrences, isPrefixOf_cons_append_mark h, ih, ← Nat.add_assoc]
    rfl

/-- Nothing starts where there is no mark. -/
theorem occurrences_append_of_notMem {before : List Char} (h : mark ∉ before) (rest : List Char) :
    occurrences (mark :: body) (before ++ rest) = occurrences (mark :: body) rest := by
  induction before with
  | nil => rfl
  | cons c before ih =>
    have hstarts : ¬ mark :: body <+: c :: (before ++ rest) := fun hstarts =>
      List.ne_of_not_mem_cons h (List.cons_prefix_cons.1 hstarts).1
    rw [List.cons_append, occurrences_cons hstarts, ih (List.not_mem_of_not_mem_cons h)]

theorem occurrences_pattern (h : mark ∉ body) (rest : List Char) :
    occurrences (mark :: body) (mark :: body ++ rest) = occurrences (mark :: body) rest + 1 := by
  have hstarts : (mark :: body).isPrefixOf (mark :: (body ++ rest)) = true :=
    List.isPrefixOf_iff_prefix.2 (List.prefix_append (mark :: body) rest)
  rw [List.cons_append, occurrences, if_pos hstarts, occurrences_append_of_notMem h,
    Nat.add_comm]

/-! ## What replacing does to a text -/

theorem replaceFrom_of_occurrences (h : mark ∉ body) {text : List Char}
    (hnone : occurrences (mark :: body) text = 0) :
    replaceFrom (mark :: body) replacement 0 text = text := by
  induction text using scan_induction (List.cons_ne_nil mark body) with
  | nil => rfl
  | cons c rest hstarts ih =>
    rw [occurrences_cons hstarts] at hnone
    rw [replaceFrom_cons hstarts, ih hnone]
  | found rest => rw [occurrences_pattern h] at hnone; exact absurd hnone (Nat.succ_ne_zero _)

theorem length_replaceFrom (h : mark ∉ body) (replacement text : List Char) :
    (replaceFrom (mark :: body) replacement 0 text).length +
        occurrences (mark :: body) text * (mark :: body).length =
      text.length + occurrences (mark :: body) text * replacement.length := by
  induction text using scan_induction (List.cons_ne_nil mark body) with
  | nil => rw [occurrences, Nat.zero_mul, Nat.zero_mul]; rfl
  | cons c rest hstarts ih =>
    simp only [replaceFrom_cons hstarts, occurrences_cons hstarts, List.length_cons] at ih ⊢
    omega
  | found rest ih =>
    rw [replaceFrom_pattern (List.cons_ne_nil mark body), occurrences_pattern h,
      List.length_append, List.length_append, Nat.succ_mul, Nat.succ_mul]
    omega

/-- A text that replacing leaves alone, by something as long as the pattern, does not hold it. -/
theorem occurrences_of_replaceFrom_eq
    (hlength : replacement.length = (mark :: body).length) (hne : replacement ≠ mark :: body)
    {text : List Char} (hkept : replaceFrom (mark :: body) replacement 0 text = text) :
    occurrences (mark :: body) text = 0 := by
  induction text using scan_induction (List.cons_ne_nil mark body) with
  | nil => rfl
  | cons c rest hstarts ih =>
    rw [replaceFrom_cons hstarts] at hkept
    rw [occurrences_cons hstarts, ih (List.cons_inj_right c |>.1 hkept)]
  | found rest =>
    rw [replaceFrom_pattern (List.cons_ne_nil mark body)] at hkept
    exact absurd (List.append_inj_left hkept hlength) hne

/-! ## Blocks with the pattern between them -/

theorem append_intercalate (text between block : List Char) (blocks : List (List Char)) :
    text ++ between.intercalate (block :: blocks) =
      between.intercalate ((text ++ block) :: blocks) := by
  cases blocks with
  | nil => rw [List.intercalate_singleton, List.intercalate_singleton]
  | cons next blocks => simp only [List.intercalate_cons_cons, List.append_assoc]

theorem replaceFrom_intercalate (h : mark ∉ body) (blocks : List (List Char)) :
    replaceFrom (mark :: body) replacement 0 ((mark :: body).intercalate blocks) =
      replacement.intercalate (blocks.map (replaceFrom (mark :: body) replacement 0)) := by
  induction blocks with
  | nil => rfl
  | cons block blocks ih =>
    cases blocks with
    | nil => rw [List.intercalate_singleton, List.map_singleton, List.intercalate_singleton]
    | cons next blocks =>
      rw [List.map_cons, List.map_cons, List.intercalate_cons_cons, List.intercalate_cons_cons,
        List.append_assoc, List.cons_append, replaceFrom_append_mark h (Nat.zero_le _),
        ← List.cons_append, replaceFrom_pattern (List.cons_ne_nil mark body), ih, List.map_cons,
        List.append_assoc]

theorem occurrences_intercalate (h : mark ∉ body) (block : List Char) (blocks : List (List Char)) :
    occurrences (mark :: body) ((mark :: body).intercalate (block :: blocks)) =
      ((block :: blocks).map (occurrences (mark :: body))).sum + blocks.length := by
  induction blocks generalizing block with
  | nil => rw [List.intercalate_singleton, List.map_singleton, List.sum_singleton]; rfl
  | cons next blocks ih =>
    rw [List.intercalate_cons_cons, List.append_assoc, List.cons_append,
      occurrences_append_mark h, ← List.cons_append, occurrences_pattern h, ih,
      List.map_cons (l := next :: blocks), List.sum_cons, List.length_cons]
    omega

theorem length_intercalate_replaceFrom (h : mark ∉ body) (replacement : List Char)
    (blocks : List (List Char)) :
    (replacement.intercalate (blocks.map (replaceFrom (mark :: body) replacement 0))).length +
        (blocks.map (occurrences (mark :: body))).sum * (mark :: body).length =
      (replacement.intercalate blocks).length +
        (blocks.map (occurrences (mark :: body))).sum * replacement.length := by
  induction blocks with
  | nil => simp only [List.map_nil, List.sum_nil, Nat.zero_mul]
  | cons block blocks ih =>
    have hblock := length_replaceFrom h replacement block
    cases blocks with
    | nil =>
      simp only [List.map_singleton, List.sum_singleton, List.intercalate_singleton]
      exact hblock
    | cons next blocks =>
      simp only [List.map_cons, List.intercalate_cons_cons, List.length_append, List.sum_cons,
        Nat.add_mul] at ih ⊢
      omega

/-- Blocks that are joined and keep their lengths can be told apart. -/
theorem map_eq_of_intercalate_eq {f : List Char → List Char} {between : List Char}
    {blocks : List (List Char)} (hlength : ∀ block ∈ blocks, (f block).length = block.length)
    (h : between.intercalate (blocks.map f) = between.intercalate blocks) :
    ∀ block ∈ blocks, f block = block := by
  induction blocks with
  | nil => exact fun block hblock => absurd hblock List.not_mem_nil
  | cons first blocks ih =>
    have hfirst := hlength first List.mem_cons_self
    cases blocks with
    | nil =>
      rw [List.map_singleton, List.intercalate_singleton, List.intercalate_singleton] at h
      intro block hblock
      rwa [List.mem_singleton.1 hblock]
    | cons next blocks =>
      rw [List.map_cons, List.map_cons, List.intercalate_cons_cons, List.intercalate_cons_cons,
        List.append_assoc, List.append_assoc] at h
      obtain ⟨heq, hrest⟩ := List.append_inj h hfirst
      have hblocks := ih (fun block hblock => hlength block (List.mem_cons_of_mem _ hblock))
        (List.append_cancel_left hrest)
      intro block hblock
      rcases List.mem_cons.1 hblock with rfl | hblock
      · exact heq
      · exact hblocks block hblock

/-- Replacing changes what stands between the blocks, and nothing else. -/
theorem replaceFrom_intercalate_eq_iff (h : mark ∉ body) (blocks : List (List Char)) :
    replaceFrom (mark :: body) replacement 0 ((mark :: body).intercalate blocks) =
        replacement.intercalate blocks ↔
      (blocks.map (occurrences (mark :: body))).sum = 0 ∨ replacement = mark :: body := by
  rw [replaceFrom_intercalate h]
  constructor
  · intro heq
    by_contra hnot
    obtain ⟨hsum, hne⟩ := not_or.1 hnot
    -- Some block changes, so the lengths agree only if the replacement is as long as the pattern.
    have hlengths := length_intercalate_replaceFrom h replacement blocks
    rw [heq, Nat.add_left_cancel_iff] at hlengths
    have hlength := Nat.eq_of_mul_eq_mul_left (Nat.pos_of_ne_zero hsum) hlengths
    refine hsum (List.sum_eq_zero_iff_forall_eq_nat.2 fun n hn => ?_)
    obtain ⟨block, hblock, rfl⟩ := List.mem_map.1 hn
    refine occurrences_of_replaceFrom_eq hlength.symm hne
      (map_eq_of_intercalate_eq (fun b _ => ?_) heq block hblock)
    have hb := length_replaceFrom h replacement b
    rwa [hlength, Nat.add_right_cancel_iff] at hb
  · rintro (hnone | rfl)
    · refine congrArg _ ((List.map_congr_left fun block hblock => ?_).trans (List.map_id _))
      refine replaceFrom_of_occurrences h ?_
      exact List.sum_eq_zero_iff_forall_eq_nat.1 hnone _ (List.mem_map_of_mem hblock)
    · refine congrArg _ ((List.map_congr_left fun block _ => ?_).trans (List.map_id _))
      exact replaceFrom_self (List.cons_ne_nil mark body) block

end Mark

end TypeAtlas.Text
