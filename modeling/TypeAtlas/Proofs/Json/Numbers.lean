import TypeAtlas.Json.Reader
import TypeAtlas.Proofs.Decimal.Numeral
import TypeAtlas.Proofs.Json.Leaves
/-!
# Numbers are read back

Every number a document is written with is a `Numeral`: an integer is one, and so is the text of
any double (`exists_numeral_jsonText`). What a numeral is read as does not depend on what follows,
as long as that cannot belong to a number (`number?_numeral`). An integer that fits 64 bits is
read back as itself; a double is read as some number, which need not be the same one.
-/

namespace TypeAtlas

namespace Json

namespace Reader

/-! ## Digits -/

/-- What follows a value in a document: nothing, a comma, or the end of an array or an object. -/
def Stops (rest : List Char) : Prop :=
  ∀ c ∈ rest.head?, c = ',' ∨ c = ']' ∨ c = '\x7d'

/-- No more digits. -/
def EndsDigits (rest : List Char) : Prop :=
  ∀ c ∈ rest.head?, c.isDigit = false

theorem stops_nil : Stops [] := by
  intro c hc
  cases hc

theorem Stops.endsDigits {rest : List Char} (h : Stops rest) : EndsDigits rest := by
  intro c hc
  rcases h c hc with rfl | rfl | rfl <;> rfl

theorem endsDigits_cons {c : Char} (h : c.isDigit = false) (rest : List Char) :
    EndsDigits (c :: rest) := by
  intro c' hc'
  rwa [← Option.some.inj hc']

/-- The value of a digit. -/
def digitValue (c : Char) : ℕ :=
  c.toNat - '0'.toNat

theorem digits_append {ds rest : List Char} (hds : ∀ c ∈ ds, c.isDigit = true)
    (hrest : EndsDigits rest) : digits (ds ++ rest) = (ds.map digitValue, rest) := by
  have htake : rest.takeWhile Char.isDigit = [] := by
    cases rest with
    | nil => rfl
    | cons c rest => rw [List.takeWhile_cons, hrest c rfl]; rfl
  have hdrop : rest.dropWhile Char.isDigit = rest := by
    cases rest with
    | nil => rfl
    | cons c rest => rw [List.dropWhile_cons, hrest c rfl]; rfl
  rw [digits, List.takeWhile_append_of_pos hds, List.dropWhile_append_of_pos hds, htake, hdrop,
    List.append_nil]
  rfl

/-- Digits fill a significand as long as the number they stand for fits 64 bits. -/
theorem pushDigits_of_lt {ds : List Char} {start : ℕ}
    (h : Nat.ofDigitChars 10 ds start < UInt64.size) :
    pushDigits start (ds.map digitValue) = (Nat.ofDigitChars 10 ds start, 0) := by
  induction ds generalizing start with
  | nil => rfl
  | cons c ds ih =>
    rw [Nat.ofDigitChars_cons, Nat.mul_comm] at h
    have hle : start * 10 + digitValue c ≤
        Nat.ofDigitChars 10 ds (start * 10 + digitValue c) := by
      rw [Nat.ofDigitChars_eq_ofDigitChars_zero]
      exact Nat.le_trans (Nat.le_mul_of_pos_left _ (Nat.pow_pos (by decide)))
        (Nat.le_add_right _ _)
    rw [List.map_cons, pushDigits, if_pos (Nat.lt_of_le_of_lt hle h), Nat.ofDigitChars_cons,
      Nat.mul_comm 10 start]
    exact ih h

theorem fractionPart?_of_head {rest : List Char} (h : rest.head? ≠ some '.') :
    fractionPart? rest = some (none, rest) := by
  cases rest with
  | nil => rfl
  | cons c rest =>
    rw [fractionPart?]
    rintro _ heq
    exact h (congrArg List.head? heq)

theorem exponentPart?_of_head {rest : List Char}
    (h : ∀ c ∈ rest.head?, c ≠ 'e' ∧ c ≠ 'E') : exponentPart? rest = some (none, rest) := by
  cases rest with
  | nil => rfl
  | cons c rest =>
    obtain ⟨hlower, hupper⟩ := h c rfl
    simp only [exponentPart?, beq_false_of_ne hlower, beq_false_of_ne hupper, Bool.or_false,
      Bool.false_eq_true, if_false]

theorem Stops.fractionPart? {rest : List Char} (h : Stops rest) :
    fractionPart? rest = some (none, rest) :=
  fractionPart?_of_head fun heq => by
    have := h '.' heq
    revert this
    decide

theorem Stops.exponentPart? {rest : List Char} (h : Stops rest) :
    exponentPart? rest = some (none, rest) :=
  exponentPart?_of_head fun c hc => by
    rcases h c hc with rfl | rfl | rfl <;> decide

/-! ## Integers -/

/-- The value of the first digit is zero for a zero only. -/
theorem head?_map_digitValue {ds : List Char} (hds : ∀ c ∈ ds, c.isDigit = true)
    (h : ds.head? ≠ some '0') : (ds.map digitValue).head? ≠ some 0 := by
  intro heq
  rw [List.head?_map, Option.map_eq_some_iff] at heq
  obtain ⟨c, hc, hvalue⟩ := heq
  have hle := (Char.isDigit_iff_toNat.1 (hds c (List.mem_of_mem_head? hc))).1
  have hzero : c.toNat = '0'.toNat := Nat.le_antisymm (Nat.le_of_sub_eq_zero hvalue) hle
  exact h (by rw [hc, Char.toNat_inj.1 hzero])

/-- The check of a whole part: its digits are there, and the first is no extra zero. -/
theorem isWhole {ds : List Char} (hne : ds ≠ []) (hds : ∀ c ∈ ds, c.isDigit = true)
    (hhead : ds.length ≠ 1 → ds.head? ≠ some '0') :
    ((ds.map digitValue).isEmpty ||
      (ds.map digitValue).head? == some 0 && decide ((ds.map digitValue).length > 1)) = false := by
  rw [Bool.or_eq_false_iff, List.isEmpty_map, List.isEmpty_eq_false_iff, List.length_map]
  refine ⟨hne, ?_⟩
  by_cases hlength : ds.length = 1
  · rw [hlength]
    exact Bool.and_false _
  · rw [beq_false_of_ne (head?_map_digitValue hds (hhead hlength)), Bool.false_and]

/-- The value of a number from the values of its digits and its exponent. -/
def numberOf (negative : Bool) (whole : List ℕ) (fraction : Option (List ℕ))
    (exponent : Option Int) : Json :=
  let (significand, dropped) := pushDigits 0 whole
  if fraction.isNone && exponent.isNone && dropped == 0 &&
      (!negative || (significand ≠ 0 && significand ≤ 1 <<< 63)) then
    .int (if negative then -(significand : Int) else significand)
  else
    let fraction := fraction.getD []
    let (significand, unread) := pushDigits significand fraction
    let scale : Int := dropped - (fraction.length - unread : Nat) + exponent.getD 0
    (Double.ofScientific? negative significand scale).elim .unreadable .double

theorem isNumeric_numberOf (negative : Bool) (whole : List ℕ) (fraction : Option (List ℕ))
    (exponent : Option Int) : (numberOf negative whole fraction exponent).isNumeric = true := by
  unfold numberOf
  dsimp only
  split
  · rfl
  · cases Double.ofScientific? .. <;> rfl

/-- A number is read part by part. -/
theorem number?_eq {negative : Bool} {text afterWhole afterFraction rest : List Char}
    {whole : List ℕ} {fraction : Option (List ℕ)} {exponent : Option Int}
    (hdigits : digits text = (whole, afterWhole))
    (hwhole : (whole.isEmpty || whole.head? == some 0 && decide (whole.length > 1)) = false)
    (hfraction : fractionPart? afterWhole = some (fraction, afterFraction))
    (hexponent : exponentPart? afterFraction = some (exponent, rest)) :
    number? negative text = some (numberOf negative whole fraction exponent, rest) := by
  simp only [number?, hdigits, hwhole, Bool.false_eq_true, if_false, hfraction, hexponent,
    Option.bind_eq_bind, Option.bind_some, numberOf]
  split <;> rfl

/-- An integer of 64 bits is read back. -/
theorem number?_toDigits (negative : Bool) {n : ℕ} {rest : List Char} (hstop : Stops rest)
    (hn : n < UInt64.size) (hneg : negative = true → n ≠ 0 ∧ n ≤ 1 <<< 63) :
    number? negative (Nat.toDigits 10 n ++ rest) =
      some (.int (if negative then -(n : Int) else n), rest) := by
  have hdigits := digits_append (fun _ => Text.isDigit_of_mem_toDigits (n := n)) hstop.endsDigits
  have hwhole := isWhole Nat.toDigits_ne_nil (fun _ => Text.isDigit_of_mem_toDigits (n := n))
    Text.head?_toDigits
  rw [number?_eq hdigits hwhole hstop.fractionPart? hstop.exponentPart?]
  have hpush : pushDigits 0 ((Nat.toDigits 10 n).map digitValue) =
      (Nat.ofDigitChars 10 (Nat.toDigits 10 n) 0, 0) :=
    pushDigits_of_lt (by rwa [Nat.ofDigitChars_ten_toDigits])
  rw [Nat.ofDigitChars_ten_toDigits] at hpush
  have hsign : (!negative || decide (n ≠ 0) && decide (n ≤ 1 <<< 63)) = true := by
    cases negative with
    | false => rfl
    | true => rw [decide_eq_true (hneg rfl).1, decide_eq_true (hneg rfl).2]; rfl
  simp only [numberOf, hpush, Option.isNone_none, beq_self_eq_true, Bool.true_and, hsign, if_true]

/-! ## Numerals -/

/-- What may follow the fraction of a numeral does not start with a digit. -/
theorem endsDigits_exponentText (e : Option Int) {rest : List Char} (hstop : Stops rest) :
    EndsDigits (exponentText e ++ rest) := by
  cases e with
  | none => exact hstop.endsDigits
  | some e => exact endsDigits_cons rfl _

theorem endsDigits_fractionText (ds : List Char) (e : Option Int) {rest : List Char}
    (hstop : Stops rest) : EndsDigits (fractionText ds ++ (exponentText e ++ rest)) := by
  cases ds with
  | nil => exact endsDigits_exponentText e hstop
  | cons d ds => exact endsDigits_cons rfl _

/-- The number that digits stand for. -/
def magnitude (ds : List Char) : ℕ :=
  (ds.map digitValue).foldl (fun n d => n * 10 + d) 0

theorem isEmpty_map_digitValue {ds : List Char} (h : ds ≠ []) :
    (ds.map digitValue).isEmpty = false := by
  rw [List.isEmpty_map, List.isEmpty_eq_false_iff]
  exact h

theorem exponentPart?_digits {ds rest : List Char} (hds : ∀ c ∈ ds, c.isDigit = true)
    (hne : ds ≠ []) (hrest : EndsDigits rest) :
    exponentPart? ('e' :: (ds ++ rest)) = some (some (magnitude ds : Int), rest) := by
  obtain ⟨d, ds, rfl⟩ := List.exists_cons_of_ne_nil hne
  have hd := hds d List.mem_cons_self
  rw [List.cons_append, exponentPart?]
  · rw [← List.cons_append]
    simp only [digits_append hds hrest, isEmpty_map_digitValue hne]
    rfl
  · rintro _ heq
    rw [(List.cons.inj heq).1] at hd
    cases hd
  · rintro _ heq
    rw [(List.cons.inj heq).1] at hd
    cases hd

theorem exponentPart?_minus {ds rest : List Char} (hds : ∀ c ∈ ds, c.isDigit = true)
    (hne : ds ≠ []) (hrest : EndsDigits rest) :
    exponentPart? ('e' :: '-' :: (ds ++ rest)) = some (some (-(magnitude ds : Int)), rest) := by
  simp only [exponentPart?, digits_append hds hrest, isEmpty_map_digitValue hne]
  rfl

theorem exponentPart?_exponentText (e : Option Int) : ∃ exponent, ∀ rest, Stops rest →
    exponentPart? (exponentText e ++ rest) = some (exponent, rest) := by
  match e with
  | none => exact ⟨none, fun rest hstop => hstop.exponentPart?⟩
  | some (.ofNat n) =>
    refine ⟨some (magnitude (Nat.toDigits 10 n) : Int), fun rest hstop => ?_⟩
    rw [exponentText, Int.ofNat_eq_natCast, toList_toString_natCast]
    exact exponentPart?_digits (fun _ => Text.isDigit_of_mem_toDigits) Nat.toDigits_ne_nil
      hstop.endsDigits
  | some (.negSucc n) =>
    refine ⟨some (-(magnitude (Nat.toDigits 10 (n + 1)) : Int)), fun rest hstop => ?_⟩
    rw [exponentText, toList_toString_negSucc]
    exact exponentPart?_minus (fun _ => Text.isDigit_of_mem_toDigits) Nat.toDigits_ne_nil
      hstop.endsDigits

theorem fractionPart?_fractionText {ds : List Char} (hds : ∀ c ∈ ds, c.isDigit = true)
    (e : Option Int) : ∃ fraction, ∀ rest, Stops rest →
      fractionPart? (fractionText ds ++ (exponentText e ++ rest)) =
        some (fraction, exponentText e ++ rest) := by
  cases ds with
  | nil =>
    refine ⟨none, fun rest hstop => fractionPart?_of_head ?_⟩
    cases e with
    | none =>
      intro heq
      rcases hstop '.' heq with h | h | h <;> cases h
    | some e => exact fun heq => by cases heq
  | cons d ds =>
    refine ⟨some ((d :: ds).map digitValue), fun rest hstop => ?_⟩
    change fractionPart? ('.' :: ((d :: ds) ++ (exponentText e ++ rest))) = _
    simp only [fractionPart?, digits_append hds (endsDigits_exponentText e hstop)]
    rfl

/-- What a numeral is read as depends on the numeral only. -/
theorem number?_numeral (n : Numeral) (negative : Bool) : ∃ json : Json,
    json.isNumeric = true ∧
      ∀ rest, Stops rest → number? negative (n.text ++ rest) = some (json, rest) := by
  obtain ⟨fraction, hfraction⟩ := fractionPart?_fractionText n.isDigit_fraction n.exponent
  obtain ⟨exponent, hexponent⟩ := exponentPart?_exponentText n.exponent
  refine ⟨numberOf negative (n.whole.map digitValue) fraction exponent,
    isNumeric_numberOf _ _ _ _, fun rest hstop => ?_⟩
  have hdigits : digits (n.text ++ rest) = (n.whole.map digitValue,
      fractionText n.fraction ++ (exponentText n.exponent ++ rest)) := by
    rw [Numeral.text, List.append_assoc, List.append_assoc]
    exact digits_append n.isDigit_whole (endsDigits_fractionText _ _ hstop)
  exact number?_eq hdigits (isWhole n.whole_ne_nil n.isDigit_whole n.head?_whole)
    (hfraction rest hstop) (hexponent rest hstop)

end Reader

end Json

end TypeAtlas
