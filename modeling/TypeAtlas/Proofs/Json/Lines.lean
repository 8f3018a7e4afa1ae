import TypeAtlas.Proofs.Json.Text
/-!
# Texts are lines

The text of a value is one line, whatever strings are in the value: the writer escapes the control
characters, and line breaks are among them (`Json.isPlain_text`).
-/

namespace TypeAtlas

namespace Text

/-- No control characters. -/
def IsPlain (text : List Char) : Prop :=
  ∀ c ∈ text, 0x20 ≤ c.toNat

-- not by going through all characters that there are
instance (text : List Char) : Decidable (IsPlain text) :=
  List.decidableBAll _ text

namespace IsPlain

variable {a b : List Char} {c : Char}

theorem nil : IsPlain [] := fun _ hc => absurd hc List.not_mem_nil

theorem append (ha : IsPlain a) (hb : IsPlain b) : IsPlain (a ++ b) := by
  intro c hc
  rcases List.mem_append.1 hc with hc | hc
  · exact ha c hc
  · exact hb c hc

theorem cons (hc : 0x20 ≤ c.toNat) (ha : IsPlain a) : IsPlain (c :: a) :=
  List.forall_mem_cons.2 ⟨hc, ha⟩

theorem ite {p : Prop} [Decidable p] (ha : IsPlain a) (hb : IsPlain b) :
    IsPlain (if p then a else b) := by
  split
  · exact ha
  · exact hb

theorem flatMap {α : Type} {f : α → List Char} {xs : List α} (h : ∀ x ∈ xs, IsPlain (f x)) :
    IsPlain (xs.flatMap f) := by
  intro c hc
  obtain ⟨x, hx, hc⟩ := List.mem_flatMap.1 hc
  exact h x hx c hc

end IsPlain

theorem le_toNat_of_isDigit {c : Char} (h : c.isDigit = true) : 0x20 ≤ c.toNat := by
  rw [Char.isDigit, Bool.and_eq_true, decide_eq_true_eq] at h
  exact Nat.le_trans (by decide) (UInt32.le_iff_toNat_le.1 h.1)

theorem isPlain_of_isDigit {text : List Char} (h : ∀ c ∈ text, c.isDigit = true) : IsPlain text :=
  fun c hc => le_toNat_of_isDigit (h c hc)

theorem isPlain_hexDigits (n : ℕ) : IsPlain (hexDigits n) := by
  intro c hc
  obtain ⟨d, hd, rfl⟩ := exists_digitChar_of_mem_hexDigits hc
  interval_cases d <;> decide

end Text

open Text

/-! ## Numbers -/

theorem isPlain_toString_int (z : Int) : IsPlain (toString z).toList := by
  rcases z with n | n
  · rw [Int.ofNat_eq_natCast, toList_toString_natCast]
    exact isPlain_of_isDigit fun c => isDigit_of_mem_toDigits
  · rw [toList_toString_negSucc]
    exact (isPlain_of_isDigit fun c => isDigit_of_mem_toDigits).cons (by decide)

namespace Numeral

theorem isPlain_fractionText {digits : List Char} (h : ∀ c ∈ digits, c.isDigit = true) :
    IsPlain (fractionText digits) := by
  cases digits with
  | nil => exact .nil
  | cons d ds => exact (isPlain_of_isDigit h).cons (by decide)

theorem isPlain_exponentText (exponent : Option Int) : IsPlain (exponentText exponent) := by
  cases exponent with
  | none => exact .nil
  | some e => exact (isPlain_toString_int e).cons (by decide)

theorem isPlain_text (n : Numeral) : IsPlain n.text :=
  ((isPlain_of_isDigit n.isDigit_whole).append (isPlain_fractionText n.isDigit_fraction)).append
    (isPlain_exponentText n.exponent)

end Numeral

theorem Double.isPlain_jsonText (d : Double) : IsPlain d.jsonText.toList := by
  obtain ⟨n, htext⟩ := d.exists_numeral_jsonText
  rw [htext]
  exact .ite (n.isPlain_text.cons (by decide)) n.isPlain_text

/-! ## Strings -/

namespace Json

theorem isPlain_escapeChar (c : Char) : IsPlain (escapeChar c) := by
  unfold escapeChar
  -- The characters with an escape of their own.
  repeat refine .ite (by decide) ?_
  by_cases hcontrol : c.toNat < 0x20
  · rw [if_pos hcontrol]
    exact ((by decide : IsPlain _).append (.ite (by decide) .nil)).append
      (isPlain_hexDigits c.toNat)
  · rw [if_neg hcontrol]
    exact .cons (Nat.le_of_not_lt hcontrol) .nil

theorem isPlain_quote (s : String) : IsPlain (quote s).toList := by
  rw [quote, String.toList_ofList]
  exact .cons (by decide) (.append (.flatMap fun c _ => isPlain_escapeChar c) (by decide))

/-! ## Values -/

open Reader

theorem isPlain_itemsText {items : List Json} (h : ∀ item ∈ items, IsPlain item.text.toList) :
    IsPlain (itemsText items).toList := by
  induction items with
  | nil => exact .nil
  | cons item rest ih =>
    have hitem := h item List.mem_cons_self
    cases rest with
    | nil => rwa [itemsText]
    | cons next rest =>
      rw [toList_itemsText_cons]
      exact hitem.append ((ih fun other hother => h other (List.mem_cons_of_mem _ hother)).cons
        (by decide))

theorem isPlain_membersText {members : Members}
    (h : ∀ member ∈ members, IsPlain member.2.text.toList) :
    IsPlain (membersText members).toList := by
  induction members with
  | nil => exact .nil
  | cons member rest ih =>
    have hmember := h member List.mem_cons_self
    cases rest with
    | nil =>
      rw [toList_membersText_singleton]
      exact (isPlain_quote member.1).append (hmember.cons (by decide))
    | cons next rest =>
      rw [toList_membersText_cons]
      exact (isPlain_quote member.1).append ((hmember.append
        ((ih fun other hother => h other (List.mem_cons_of_mem _ hother)).cons
          (by decide))).cons (by decide))

/-- The text of a value has no control characters, and so no line breaks. -/
theorem isPlain_text : ∀ json : Json, IsPlain json.text.toList
  | .null | .unreadable | .bool true | .bool false => by decide
  | .int n => isPlain_toString_int n
  | .double d => d.isPlain_jsonText
  | .str s => isPlain_quote s
  | .arr items => by
    rw [toList_text_arr]
    exact ((isPlain_itemsText fun item _ => isPlain_text item).append (by decide)).cons (by decide)
  | .obj members => by
    rw [toList_text_obj]
    exact ((isPlain_membersText fun member _ => isPlain_text member.2).append (by decide)).cons
      (by decide)
termination_by json => sizeOf json
decreasing_by
  · have := List.sizeOf_lt_of_mem ‹item ∈ items›
    simp only [arr.sizeOf_spec]
    omega
  · have := List.sizeOf_lt_of_mem ‹member ∈ members›
    have : sizeOf member = 1 + sizeOf member.1 + sizeOf member.2 := rfl
    simp only [obj.sizeOf_spec]
    omega

end Json

end TypeAtlas
