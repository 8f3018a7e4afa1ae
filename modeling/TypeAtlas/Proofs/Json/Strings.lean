import TypeAtlas.Json.Reader
import TypeAtlas.Json.Writer
import TypeAtlas.Proofs.Text.Digits
/-!
# Strings are read back

A string is written character by character, and the reader takes one of its steps for each of them,
whether it is escaped or not (`stringBody?_escapeChar`). So the reader is at the closing quote when
the characters are used up, and has them all.
-/

namespace TypeAtlas.Json.Reader

/-- Four hexadecimal digits are one unit. -/
theorem hexUnit?_digitChar {a b c d : ℕ} (ha : a < 16) (hb : b < 16) (hc : c < 16) (hd : d < 16)
    (rest : List Char) :
    hexUnit? (a.digitChar :: b.digitChar :: c.digitChar :: d.digitChar :: rest) =
      some (((a * 16 + b) * 16 + c) * 16 + d, rest) := by
  simp only [hexUnit?, Text.hexValue?_digitChar, ha, hb, hc, hd, Option.bind_eq_bind,
    Option.bind_some]

/-- The digits of a unit that has two digits at most, after two zeros. -/
theorem hexUnit?_control {n : ℕ} (h : n < 0x20) (rest : List Char) :
    hexUnit? (['0', '0'] ++ (if n < 0x10 then ['0'] else []) ++ Text.hexDigits n ++ rest) =
      some (n, rest) := by
  by_cases hlt : n < 16
  · rw [if_pos hlt, Text.hexDigits_of_lt hlt]
    have hread := hexUnit?_digitChar (a := 0) (b := 0) (c := 0) (by decide) (by decide) (by decide)
      hlt rest
    rwa [Nat.zero_mul, Nat.zero_add] at hread
  · have hle : 16 ≤ n := Nat.le_of_not_lt hlt
    have hone : n / 16 = 1 := by omega
    rw [if_neg hlt, Text.hexDigits_of_le hle, hone, Text.hexDigits_of_lt (by decide)]
    have hread := hexUnit?_digitChar (a := 0) (b := 0) (c := 1) (by decide) (by decide) (by decide)
      (Nat.mod_lt n (y := 16) (by decide)) rest
    rwa [show ((0 * 16 + 0) * 16 + 1) * 16 + n % 16 = n by omega] at hread

theorem unicodeEscape?_control {c : Char} (h : c.toNat < 0x20) (rest : List Char) :
    unicodeEscape? (['0', '0'] ++ (if c.toNat < 0x10 then ['0'] else []) ++
      Text.hexDigits c.toNat ++ rest) = some (some c, rest) := by
  have hlow : ¬(0xDC00 ≤ c.toNat ∧ c.toNat ≤ 0xDFFF) := by omega
  have hhigh : ¬(0xD800 ≤ c.toNat ∧ c.toNat ≤ 0xDBFF) := by omega
  rw [unicodeEscape?, hexUnit?_control h]
  simp only [Option.bind_eq_bind, Option.bind_some, if_neg hlow, if_neg hhigh, Char.ofNat_toNat]

/-- One step of the reader for each character written. -/
theorem stringBody?_escapeChar (fuel : ℕ) (c : Char) (rest done : List Char) :
    stringBody? (fuel + 1) (escapeChar c ++ rest) (some done) =
      stringBody? fuel rest (some (c :: done)) := by
  unfold escapeChar
  simp only [beq_iff_eq]
  by_cases hquote : c = '"'
  · subst hquote; rfl
  rw [if_neg hquote]
  by_cases hslash : c = '\\'
  · subst hslash; rfl
  rw [if_neg hslash]
  by_cases hback : c = '\x08'
  · subst hback; rfl
  rw [if_neg hback]
  by_cases hfeed : c = '\x0c'
  · subst hfeed; rfl
  rw [if_neg hfeed]
  by_cases hline : c = '\n'
  · subst hline; rfl
  rw [if_neg hline]
  by_cases hreturn : c = '\r'
  · subst hreturn; rfl
  rw [if_neg hreturn]
  by_cases htab : c = '\t'
  · subst htab; rfl
  rw [if_neg htab]
  by_cases hcontrol : c.toNat < 0x20
  · rw [if_pos hcontrol]
    have hread := unicodeEscape?_control hcontrol rest
    change (unicodeEscape? (['0', '0'] ++ (if c.toNat < 0x10 then ['0'] else []) ++
      Text.hexDigits c.toNat ++ rest)).bind _ = _
    rw [hread]
    rfl
  · rw [if_neg hcontrol, List.singleton_append, stringBody?]
    · rw [if_neg hcontrol]
      rfl
    · exact fun heq => hquote heq
    · exact fun heq => hslash heq

theorem stringBody?_flatMap {fuel : ℕ} {chars : List Char} (h : chars.length < fuel)
    (rest done : List Char) :
    stringBody? fuel (chars.flatMap escapeChar ++ '"' :: rest) (some done) =
      some (some (String.ofList (done.reverse ++ chars)), rest) := by
  induction chars generalizing fuel done with
  | nil =>
    obtain ⟨fuel, rfl⟩ := Nat.exists_eq_add_one_of_ne_zero (Nat.ne_of_gt h)
    rw [List.append_nil]
    rfl
  | cons c chars ih =>
    obtain ⟨fuel, rfl⟩ := Nat.exists_eq_add_one_of_ne_zero (Nat.ne_of_gt (Nat.zero_lt_of_lt h))
    rw [List.flatMap_cons, List.append_assoc, stringBody?_escapeChar,
      ih (Nat.lt_of_succ_lt_succ h), List.reverse_cons, List.append_assoc, List.singleton_append]

theorem toList_quote (s : String) :
    (quote s).toList = '"' :: (s.toList.flatMap escapeChar ++ ['"']) := by
  rw [quote, String.toList_ofList, List.cons_append]

/-- What follows the opening quote of a string. -/
theorem stringBody?_quote {fuel : ℕ} (s : String) (h : s.toList.length < fuel)
    (rest : List Char) :
    stringBody? fuel (s.toList.flatMap escapeChar ++ '"' :: rest) (some []) =
      some (some s, rest) := by
  rw [stringBody?_flatMap h, List.reverse_nil, List.nil_append, String.ofList_toList]

/-- A string is at least as long as its characters and two quotes. -/
theorem length_toList_quote (s : String) : s.toList.length + 2 ≤ (quote s).toList.length := by
  have hle : ∀ chars : List Char, chars.length ≤ (chars.flatMap escapeChar).length := by
    intro chars
    induction chars with
    | nil => exact Nat.le_refl 0
    | cons c chars ih =>
      have hpos : 0 < (escapeChar c).length := by
        unfold escapeChar
        repeat' split
        all_goals simp
      rw [List.flatMap_cons, List.length_append, List.length_cons]
      omega
  rw [toList_quote, List.length_cons, List.length_append]
  have := hle s.toList
  simp only [List.length_singleton]
  omega

end TypeAtlas.Json.Reader
