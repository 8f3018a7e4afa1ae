import TypeAtlas.Flags.Text
import TypeAtlas.Proofs.Text.Digits
import TypeAtlas.Proofs.Text.Words
/-!
# Flag sets are read back

The text of a flag set names some flags of its kind and gives the other bits as a number. The names
and the number together have exactly the bits of the set (`foldl_namesOf`), every word of the text
is read as the bits it stands for, and no word holds a blank or a bar, so the words are found again.
-/

namespace TypeAtlas.Flags

open Text

variable {kind : FlagKind}

/-! ## The bits of the names -/

/-- Bits moved from what is left to what is done are not lost. -/
theorem or_or_diff {done left all bits : UInt32} (h : done ||| left = all)
    (hsub : all &&& bits = bits) : (done ||| bits) ||| (left &&& ~~~bits) = all := by
  apply UInt32.toBitVec_inj.1
  have h := congrArg UInt32.toBitVec h
  have hsub := congrArg UInt32.toBitVec hsub
  rw [UInt32.toBitVec_or] at h
  rw [UInt32.toBitVec_and] at hsub
  rw [UInt32.toBitVec_or, UInt32.toBitVec_or, UInt32.toBitVec_and, UInt32.toBitVec_not]
  ext i hi
  have h := congrArg (·[i]) h
  have hsub := congrArg (·[i]) hsub
  simp only [BitVec.getElem_or, BitVec.getElem_and, BitVec.getElem_not] at h hsub ⊢
  rw [← h] at hsub ⊢
  revert hsub
  cases done.toBitVec[i] <;> cases left.toBitVec[i] <;> cases bits.toBitVec[i] <;> decide

/-- The names given for a set, with their bits, come from the table, and the bits together with
those that are left are those there were. -/
theorem exists_namesOf (all : UInt32) (table : List (String × UInt32)) (done left : UInt32)
    (h : done ||| left = all) : ∃ named : List (String × UInt32), (∀ p ∈ named, p ∈ table) ∧
      (namesOf all table left).1 = named.map Prod.fst ∧
        (named.map Prod.snd).foldl (· ||| ·) done ||| (namesOf all table left).2 = all := by
  induction table generalizing done left with
  | nil => exact ⟨[], fun _ hp => hp, rfl, h⟩
  | cons entry table ih =>
    obtain ⟨name, bits⟩ := entry
    rw [namesOf]
    split
    · next hcover =>
      have hsub : all &&& bits = bits := beq_iff_eq.1 (Bool.and_eq_true_iff.1 hcover).1
      obtain ⟨named, hmem, hnames, hbits⟩ :=
        ih (done ||| bits) (left &&& ~~~bits) (or_or_diff h hsub)
      refine ⟨(name, bits) :: named, fun p hp => ?_, ?_, hbits⟩
      · rcases List.mem_cons.1 hp with rfl | hp
        · exact List.mem_cons_self
        · exact List.mem_cons_of_mem _ (hmem p hp)
      · rw [List.map_cons, ← hnames]
    · obtain ⟨named, hmem, hnames, hbits⟩ := ih done left h
      exact ⟨named, fun p hp => List.mem_cons_of_mem _ (hmem p hp), hnames, hbits⟩

/-! ## The words -/

/-- Every name of a table is read as its bits. -/
theorem part?_of_mem_table {p : String × UInt32} (h : p ∈ kind.table) :
    part? kind.table p.1.toList = some p.2 := by
  have hall : ∀ kind : FlagKind, ∀ p ∈ kind.table, part? kind.table p.1.toList = some p.2 := by
    intro kind
    cases kind <;> decide +kernel
  exact hall kind p h

theorem isWord_of_mem_table {p : String × UInt32} (h : p ∈ kind.table) :
    IsWord '|' p.1.toList := by
  have hall : ∀ kind : FlagKind, ∀ p ∈ kind.table, IsWord '|' p.1.toList := by
    intro kind
    cases kind <;> decide +kernel
  exact hall kind p h

/-- Hexadecimal digits are read as the word they are written from. -/
theorem hexWord?_hexDigits (bits : UInt32) : hexWord? (hexDigits bits.toNat) = some bits := by
  obtain ⟨values, hvalues, hsum⟩ := mapM_hexDigits bits.toNat
  obtain ⟨c, cs, hdigits⟩ := List.exists_cons_of_ne_nil (hexDigits_ne_nil bits.toNat)
  have hplus : c ≠ '+' := by
    rintro rfl
    rw [hdigits, List.mapM_cons] at hvalues
    cases hvalues
  rw [hdigits] at hvalues ⊢
  rw [hexWord?]
  · simp only [List.isEmpty_cons, Bool.false_eq_true, if_false, hvalues, Option.bind_eq_bind,
      Option.bind_some, hsum, if_pos bits.toNat_lt_size, UInt32.ofNat_toNat]
  · exact fun _ heq => hplus (List.cons.inj heq).1

theorem isWord_hexDigits (n : ℕ) : IsWord '|' ('0' :: 'x' :: hexDigits n) := by
  refine ⟨List.cons_ne_nil _ _, fun c hc => ?_⟩
  rcases List.mem_cons.1 hc with rfl | hc
  · decide
  rcases List.mem_cons.1 hc with rfl | hc
  · decide
  obtain ⟨d, hd, rfl⟩ := exists_digitChar_of_mem_hexDigits hc
  have hall : ∀ d < 16, d.digitChar ≠ '|' ∧ isBlank d.digitChar = false := by decide
  exact hall d hd

/-- The word for bits without a name. -/
def hexText (bits : UInt32) : String :=
  "0x" ++ String.ofList (hexDigits bits.toNat)

theorem toList_hexText (bits : UInt32) :
    (hexText bits).toList = '0' :: 'x' :: hexDigits bits.toNat := by
  rw [hexText, String.toList_append, String.toList_ofList, String.toList_ofList]
  rfl

theorem mapM_hexText (bits : UInt32) :
    [(hexText bits).toList].mapM (part? kind.table) = some [bits] := by
  rw [toList_hexText, List.mapM_cons]
  change (hexWord? (hexDigits bits.toNat)).bind _ = _
  rw [hexWord?_hexDigits]
  rfl

/-! ## The whole set -/

theorem text_eq (f : Flags kind) :
    f.text = " | ".intercalate ((namesOf f.bits kind.table f.bits).1 ++
      if (namesOf f.bits kind.table f.bits).2 == 0 then []
      else [hexText (namesOf f.bits kind.table f.bits).2]) :=
  rfl

theorem foldl_union (words : List UInt32) (f : Flags kind) :
    words.foldl (fun f word => f.union ⟨word⟩) f = ⟨words.foldl (· ||| ·) f.bits⟩ := by
  induction words generalizing f with
  | nil => rfl
  | cons word words ih => exact ih _

/-- A text of words is read word by word. -/
theorem ofText?_intercalate {words : List String} {values : List UInt32}
    (hwords : ∀ w ∈ words, IsWord '|' w.toList)
    (hvalues : (words.map String.toList).mapM (part? kind.table) = some values) :
    ofText? (" | ".intercalate words) = some (⟨values.foldl (· ||| ·) 0⟩ : Flags kind) := by
  rw [ofText?, String.toList_intercalate]
  cases words with
  | nil =>
    cases hvalues
    rfl
  | cons word words =>
    have hwords : ∀ w ∈ word.toList :: words.map String.toList, IsWord '|' w := by
      rw [← List.map_cons]
      intro w hw
      obtain ⟨s, hs, rfl⟩ := List.mem_map.1 hw
      exact hwords s hs
    have hne := intercalate_ne_nil [' ', '|', ' '] (hwords _ List.mem_cons_self)
      (words.map String.toList)
    have hblank : IsPadding '|' [' '] := by decide
    have hnil : IsPadding '|' [] := fun c hc => absurd hc List.not_mem_nil
    have hsplit := map_trim_split hblank hnil hwords
    rw [List.nil_append] at hsplit
    rw [List.map_cons] at hvalues ⊢
    have hseparator : " | ".toList = [' ', '|', ' '] := rfl
    rw [hseparator, trim_intercalate _ hwords, hsplit, hvalues,
      List.isEmpty_eq_false_iff.2 hne]
    exact congrArg some (foldl_union values empty)

/-- The names of a set are read as their bits. -/
theorem mapM_names {named : List (String × UInt32)} (hmem : ∀ p ∈ named, p ∈ kind.table) :
    ((named.map Prod.fst).map String.toList).mapM (part? kind.table) =
      some (named.map Prod.snd) := by
  induction named with
  | nil => rfl
  | cons p named ih =>
    rw [List.map_cons, List.map_cons, List.mapM_cons,
      part?_of_mem_table (hmem p List.mem_cons_self),
      ih fun q hq => hmem q (List.mem_cons_of_mem _ hq)]
    rfl

/-- The text of a flag set is read as that set, bits without a name included. -/
theorem ofText?_text (f : Flags kind) : ofText? f.text = some f := by
  obtain ⟨named, hmem, hnames, hbits⟩ := exists_namesOf f.bits kind.table 0 f.bits UInt32.zero_or
  have hwords : ∀ w ∈ named.map Prod.fst, IsWord '|' w.toList := by
    intro w hw
    obtain ⟨p, hp, rfl⟩ := List.mem_map.1 hw
    exact isWord_of_mem_table (hmem p hp)
  rw [text_eq, hnames]
  generalize (namesOf f.bits kind.table f.bits).2 = rest at hbits
  by_cases hrest : rest = 0
  · rw [hrest, UInt32.or_zero] at hbits
    rw [hrest, if_pos (beq_self_eq_true _), List.append_nil,
      ofText?_intercalate hwords (mapM_names hmem), hbits]
  · have hall : ∀ w ∈ named.map Prod.fst ++ [hexText rest], IsWord '|' w.toList := by
      intro w hw
      rcases List.mem_append.1 hw with hw | hw
      · exact hwords w hw
      · rw [List.mem_singleton.1 hw, toList_hexText]
        exact isWord_hexDigits _
    have hvalues : ((named.map Prod.fst ++ [hexText rest]).map String.toList).mapM
        (part? kind.table) = some (named.map Prod.snd ++ [rest]) := by
      rw [List.map_append, List.mapM_append, mapM_names hmem, List.map_singleton, mapM_hexText]
      rfl
    rw [if_neg (by rwa [beq_iff_eq]), ofText?_intercalate hall hvalues, List.foldl_append,
      List.foldl_cons, List.foldl_nil, hbits]

@[simp]
theorem ofJson?_toJson (f : Flags kind) : ofJson? f.toJson = some f :=
  ofText?_text f

end TypeAtlas.Flags
