import Mathlib.Tactic.IntervalCases
import TypeAtlas.Text.Hex
/-!
# Digits

The digits of a number, in base ten or sixteen, stand for that number. `Text.hexDigits` is read back
digit by digit; decimal digits are those of `Nat.toDigits`, and none of them but a sole one starts
with a zero.
-/

namespace TypeAtlas.Text

/-! ## Base sixteen -/

theorem hexValue?_digitChar {d : ℕ} (hd : d < 16) : hexValue? d.digitChar = some d := by
  interval_cases d <;> rfl

theorem hexDigits_of_lt {n : ℕ} (h : n < 16) : hexDigits n = [n.digitChar] :=
  Nat.toDigits_of_lt_base h

theorem hexDigits_of_le {n : ℕ} (h : 16 ≤ n) :
    hexDigits n = hexDigits (n / 16) ++ [(n % 16).digitChar] :=
  Nat.toDigits_of_base_le (by decide) h

theorem hexDigits_ne_nil (n : ℕ) : hexDigits n ≠ [] :=
  Nat.toDigits_ne_nil

theorem exists_digitChar_of_mem_hexDigits {n : ℕ} {c : Char} (h : c ∈ hexDigits n) :
    ∃ d < 16, d.digitChar = c := by
  by_cases hlt : n < 16
  · rw [hexDigits_of_lt hlt, List.mem_singleton] at h
    exact ⟨n, hlt, h.symm⟩
  · rw [hexDigits_of_le (Nat.le_of_not_lt hlt), List.mem_append, List.mem_singleton] at h
    rcases h with h | h
    · exact exists_digitChar_of_mem_hexDigits h
    · exact ⟨n % 16, Nat.mod_lt n (by decide), h.symm⟩
termination_by n
decreasing_by exact Nat.div_lt_self (by omega) (by decide)

/-- Every hexadecimal digit of a number has a value, and the values add up to the number. -/
theorem mapM_hexDigits (n : ℕ) : ∃ values, (hexDigits n).mapM hexValue? = some values ∧
    values.foldl (fun n d => n * 16 + d) 0 = n := by
  by_cases h : n < 16
  · refine ⟨[n], ?_, by rw [List.foldl_cons, List.foldl_nil, Nat.zero_mul, Nat.zero_add]⟩
    rw [hexDigits_of_lt h, List.mapM_cons, hexValue?_digitChar h]
    rfl
  · have hle : 16 ≤ n := Nat.le_of_not_lt h
    obtain ⟨values, hvalues, hsum⟩ := mapM_hexDigits (n / 16)
    refine ⟨values ++ [n % 16], ?_, ?_⟩
    · rw [hexDigits_of_le hle, List.mapM_append, hvalues, List.mapM_cons,
        hexValue?_digitChar (Nat.mod_lt n (by decide))]
      rfl
    · rw [List.foldl_append, hsum, List.foldl_cons, List.foldl_nil]
      exact Nat.div_add_mod' n 16
termination_by n
decreasing_by exact Nat.div_lt_self (by omega) (by decide)

/-! ## Base ten -/

theorem isDigit_of_mem_toDigits {n : ℕ} {c : Char} (h : c ∈ Nat.toDigits 10 n) :
    c.isDigit = true :=
  Nat.isDigit_of_mem_toDigits (by decide) (by decide) h

/-- The first digit of a number is a zero for the number zero only. -/
theorem head?_toDigits_ne {n : ℕ} (h : n ≠ 0) : (Nat.toDigits 10 n).head? ≠ some '0' := by
  by_cases hlt : n < 10
  · rw [Nat.toDigits_of_lt_base hlt, List.head?_cons]
    exact fun heq => h (Nat.digitChar_eq_zero.1 (Option.some.inj heq))
  · have hle : 10 ≤ n := Nat.le_of_not_lt hlt
    rw [Nat.toDigits_of_base_le (by decide) hle, List.head?_append,
      Option.or_eq_left_of_isSome (List.isSome_head?.2 Nat.toDigits_ne_nil)]
    exact head?_toDigits_ne (by omega)
termination_by n
decreasing_by exact Nat.div_lt_self (by omega) (by decide)

/-- The digits of a number with more than one digit do not start with a zero. -/
theorem head?_toDigits {n : ℕ} (h : (Nat.toDigits 10 n).length ≠ 1) :
    (Nat.toDigits 10 n).head? ≠ some '0' := by
  refine head?_toDigits_ne ?_
  rintro rfl
  exact h rfl

end TypeAtlas.Text
