import TypeAtlas.Decimal.Text
import TypeAtlas.Proofs.Text.Digits
/-!
# Numerals

A `Numeral` is a number as documents write it, without its sign: digits, a fraction and an exponent.
The text of every double is one after its sign (`Double.exists_numeral_jsonText`). The digits come
from `Double.shortest`, so it has to be shown that zeros are not written after the digit zero: a
number other than zero has a decimal other than zero (`Double.isPlain_shortest`).
-/

namespace TypeAtlas

/-! ## Numerals and integers -/

/-- The point and the digits after it, unless there are none. -/
def fractionText : List Char → List Char
  | [] => []
  | ds => '.' :: ds

/-- The exponent, if there is one. -/
def exponentText : Option Int → List Char
  | none => []
  | some e => 'e' :: (toString e).toList

/-- A number without its sign, as documents write it. -/
structure Numeral where
  whole : List Char
  /-- The digits after the point; no point is written when there are none. -/
  fraction : List Char
  exponent : Option Int
  whole_ne_nil : whole ≠ []
  isDigit_whole : ∀ c ∈ whole, c.isDigit = true
  /-- No extra zero before the other digits. -/
  head?_whole : whole.length ≠ 1 → whole.head? ≠ some '0'
  isDigit_fraction : ∀ c ∈ fraction, c.isDigit = true

/-- A numeral as it is written. -/
def Numeral.text (n : Numeral) : List Char :=
  n.whole ++ fractionText n.fraction ++ exponentText n.exponent

/-- A natural number as a numeral. -/
def Numeral.ofNat (n : ℕ) : Numeral where
  whole := Nat.toDigits 10 n
  fraction := []
  exponent := none
  whole_ne_nil := Nat.toDigits_ne_nil
  isDigit_whole := fun _ => Text.isDigit_of_mem_toDigits
  head?_whole := Text.head?_toDigits
  isDigit_fraction := fun _ hc => absurd hc List.not_mem_nil

theorem Numeral.text_ofNat (n : ℕ) : (ofNat n).text = Nat.toDigits 10 n := by
  change (Nat.toDigits 10 n ++ []) ++ [] = _
  rw [List.append_nil, List.append_nil]

theorem toList_toString_natCast (n : ℕ) : (toString (n : Int)).toList = Nat.toDigits 10 n := by
  change n.repr.toList = _
  rw [Nat.repr_eq_ofList_toDigits, String.toList_ofList]

theorem toList_toString_negSucc (n : ℕ) :
    (toString (Int.negSucc n)).toList = '-' :: Nat.toDigits 10 (n + 1) := by
  change ("-" ++ (n + 1).repr).toList = _
  rw [String.toList_append, Nat.repr_eq_ofList_toDigits, String.toList_ofList,
    String.toList_ofList]
  rfl

/-- The text of an integer is a numeral after its sign. -/
theorem exists_numeral_int (z : Int) : ∃ n : Numeral,
    (toString z).toList = if z < 0 then '-' :: n.text else n.text := by
  rcases z with n | n
  · refine ⟨Numeral.ofNat n, ?_⟩
    rw [Int.ofNat_eq_natCast, if_neg (Int.not_lt.2 (Int.natCast_nonneg n)),
      toList_toString_natCast, Numeral.text_ofNat]
  · refine ⟨Numeral.ofNat (n + 1), ?_⟩
    rw [if_pos (Int.negSucc_lt_zero n), toList_toString_negSucc, Numeral.text_ofNat]

/-! ## The shortest decimal -/

/-- A decimal whose positional text has no extra zeros: zero itself, or one with digits. -/
def Decimal.IsPlain (d : Decimal) : Prop :=
  d.coefficient = 0 → d.exponent ≤ 0

theorem Decimal.IsPlain.stripZeros {d : Decimal} (h : d.IsPlain) (fuel : ℕ) :
    (Decimal.stripZeros fuel d).IsPlain := by
  induction fuel generalizing d with
  | zero => exact h
  | succ fuel ih =>
    rw [Decimal.stripZeros]
    split
    · next hdiv =>
      refine ih fun hzero => absurd hzero ?_
      have := Nat.div_add_mod d.coefficient 10
      rw [hdiv.2] at this
      change d.coefficient / 10 ≠ 0
      omega
    · exact h

namespace Double

theorem mantissa_pos {d : Double} (h : d.isZero = false) : 0 < d.mantissa := by
  unfold isZero at h
  unfold mantissa
  split
  · next hfield =>
    rw [hfield] at h
    exact Nat.pos_of_ne_zero (beq_eq_false_iff_ne.1 h)
  · exact Nat.lt_of_lt_of_le (by decide) (Nat.le_add_right _ _)

theorem roundingInterval_pos {d : Double} (h : d.isZero = false) : 0 < d.roundingInterval.1 := by
  have := mantissa_pos h
  unfold roundingInterval
  dsimp only
  split <;> omega

theorem scaleRatio_pos (shift : Int) : 0 < (scaleRatio 1 1 shift).1 := by
  unfold scaleRatio
  split
  · exact Nat.one_pos
  · rw [Nat.one_shiftLeft]
    exact Nat.two_pow_pos _

theorem powerOfTen_pos (e : Int) : 0 < (Decimal.powerOfTen e).2 := by
  unfold Decimal.powerOfTen
  split
  · exact Nat.pow_pos (by decide)
  · exact Nat.one_pos

/-- The lower neighbour is above the lower end of the interval only if it is not zero. -/
theorem ne_zero_of_hits {low down step : ℕ} {closed : Bool} (hlow : 0 < low)
    (h : (decide (low < down * step) || closed && low == down * step) = true) : down ≠ 0 := by
  rintro rfl
  rw [Nat.zero_mul, decide_eq_false (Nat.not_lt_zero _), beq_false_of_ne (Nat.ne_of_gt hlow),
    Bool.and_false] at h
  cases h

/-- A point of the grid that reads back is not zero. -/
theorem gridPoint?_coefficient_ne_zero {d : Double} (h : d.isZero = false) {tie : Tie} {e : Int}
    {point : Decimal} (hpoint : d.gridPoint? tie e = some point) : point.coefficient ≠ 0 := by
  have hlow : 0 < d.roundingInterval.1 *
      ((scaleRatio 1 1 (d.exponent - 2)).1 * (Decimal.powerOfTen e).2) :=
    Nat.mul_pos (roundingInterval_pos h) (Nat.mul_pos (scaleRatio_pos _) (powerOfTen_pos e))
  unfold gridPoint? at hpoint
  dsimp only at hpoint
  split at hpoint
  · next hdown _ =>
    split at hpoint
    · cases hpoint
      exact ne_zero_of_hits hlow hdown
    · cases hpoint
      exact Nat.succ_ne_zero _
  · next hdown _ =>
    cases hpoint
    exact ne_zero_of_hits hlow hdown
  · cases hpoint
    exact Nat.succ_ne_zero _
  · cases hpoint

theorem isPlain_shortest {d : Double} (h : d.isZero = false) (tie : Tie) :
    (d.shortest tie).IsPlain := by
  unfold shortest
  dsimp only
  refine Decimal.IsPlain.stripZeros ?_ 20
  cases hfound : (List.range 17).findSome? fun i : ℕ =>
      d.gridPoint? tie (Decimal.order d.ratio.1 d.ratio.2 - (i + 1 : ℕ)) with
  | none => exact fun _ => Int.le_refl 0
  | some point =>
    obtain ⟨i, -, hpoint⟩ := List.exists_of_findSome?_eq_some hfound
    exact fun hzero => absurd hzero (gridPoint?_coefficient_ne_zero h hpoint)

end Double

/-! ## The text of a double -/

theorem fractionText_of_ne_nil {ds : List Char} (h : ds ≠ []) : fractionText ds = '.' :: ds := by
  cases ds with
  | nil => exact absurd rfl h
  | cons d ds => rfl

theorem toList_fraction (ds : List Char) :
    (if ds.isEmpty then "" else "." ++ String.ofList ds).toList = fractionText ds := by
  cases ds with
  | nil => rfl
  | cons d ds =>
    change ("." ++ String.ofList (d :: ds)).toList = _
    rw [String.toList_append, String.toList_ofList, String.toList_ofList]
    rfl

theorem toList_toString_nat (n : ℕ) : (toString n).toList = Nat.toDigits 10 n := by
  rw [Nat.toString_eq_ofList_toDigits, String.toList_ofList]

theorem isDigit_of_mem_replicate {n : ℕ} {c : Char} (h : c ∈ List.replicate n '0') :
    c.isDigit = true := by
  rw [List.eq_of_mem_replicate h]
  rfl

namespace Decimal

theorem toList_zeros (n : ℕ) : (zeros n).toList = List.replicate n '0' := by
  rw [zeros, String.pushn_eq_repeat_push]
  induction n with
  | zero => rfl
  | succ n ih => rw [Nat.repeat, String.toList_push, ih, List.replicate_succ']

/-- The digits, with zeros after them. -/
def integral (d : Decimal) (h : d.IsPlain) (hexp : 0 ≤ d.exponent) : Numeral where
  whole := Nat.toDigits 10 d.coefficient ++ List.replicate d.exponent.natAbs '0'
  fraction := ['0']
  exponent := none
  whole_ne_nil := List.append_ne_nil_of_left_ne_nil Nat.toDigits_ne_nil _
  isDigit_whole := by
    intro c hc
    rcases List.mem_append.1 hc with hc | hc
    · exact Text.isDigit_of_mem_toDigits hc
    · exact isDigit_of_mem_replicate hc
  head?_whole := by
    intro hlength
    have hne : d.coefficient ≠ 0 := by
      intro hzero
      have hexp : d.exponent = 0 := Int.le_antisymm (h hzero) hexp
      rw [hzero, hexp] at hlength
      exact hlength rfl
    rw [List.head?_append, Option.or_eq_left_of_isSome (List.isSome_head?.2 Nat.toDigits_ne_nil)]
    exact Text.head?_toDigits_ne hne
  isDigit_fraction := by
    intro c hc
    rw [List.mem_singleton.1 hc]
    rfl

/-- The digits up to the point and those after it. -/
def pointed (d : Decimal) {count : ℕ} (hcount : 0 < count) (exponent : Option Int) : Numeral where
  whole := (Nat.toDigits 10 d.coefficient).take count
  fraction := (Nat.toDigits 10 d.coefficient).drop count
  exponent := exponent
  whole_ne_nil := by
    rw [Ne, List.take_eq_nil_iff, not_or]
    exact ⟨Nat.ne_of_gt hcount, Nat.toDigits_ne_nil⟩
  isDigit_whole := fun _ hc => Text.isDigit_of_mem_toDigits (List.mem_of_mem_take hc)
  head?_whole := by
    intro hlength
    rw [List.head?_take, if_neg (Nat.ne_of_gt hcount)]
    refine Text.head?_toDigits_ne fun hzero => hlength ?_
    rw [hzero, Nat.toDigits_zero, List.length_take, List.length_singleton]
    exact Nat.min_eq_right hcount
  isDigit_fraction := fun _ hc => Text.isDigit_of_mem_toDigits (List.mem_of_mem_drop hc)

/-- All digits after the point, and zeros before them. -/
def below (d : Decimal) (count : ℕ) : Numeral where
  whole := ['0']
  fraction := List.replicate count '0' ++ Nat.toDigits 10 d.coefficient
  exponent := none
  whole_ne_nil := List.cons_ne_nil _ _
  isDigit_whole := by
    intro c hc
    rw [List.mem_singleton.1 hc]
    rfl
  head?_whole := fun h => absurd rfl h
  isDigit_fraction := by
    intro c hc
    rcases List.mem_append.1 hc with hc | hc
    · exact isDigit_of_mem_replicate hc
    · exact Text.isDigit_of_mem_toDigits hc

/-- The text of a decimal with a fraction, or with the fraction `.0` added. -/
theorem exists_numeral_positional {d : Decimal} (h : d.IsPlain) : ∃ n : Numeral,
    (d.positional ++ if 0 ≤ d.exponent then ".0" else "").toList = n.text := by
  unfold positional
  dsimp only
  by_cases hexp : 0 ≤ d.exponent
  · refine ⟨integral d h hexp, ?_⟩
    rw [if_pos hexp, if_pos hexp, String.toList_append, String.toList_append, toList_toString_nat,
      toList_zeros]
    exact (List.append_nil _).symm
  · rw [if_neg hexp, if_neg hexp, String.append_empty]
    split
    · next hshift =>
      have hcount : (toString d.coefficient).length = (Nat.toDigits 10 d.coefficient).length := by
        rw [← String.length_toList, toList_toString_nat]
      rw [hcount] at hshift ⊢
      refine ⟨pointed d (Nat.sub_pos_of_lt hshift) none, ?_⟩
      have hdrop : (Nat.toDigits 10 d.coefficient).drop
          ((Nat.toDigits 10 d.coefficient).length - d.exponent.natAbs) ≠ [] := by
        rw [Ne, List.drop_eq_nil_iff]
        omega
      simp only [String.toList_append, String.toList_ofList, toList_toString_nat, Numeral.text,
        pointed, fractionText_of_ne_nil hdrop, exponentText, List.append_nil, List.append_assoc]
      rfl
    · refine ⟨below d (d.exponent.natAbs - (toString d.coefficient).length), ?_⟩
      have hne : List.replicate (d.exponent.natAbs - (toString d.coefficient).length) '0' ++
          Nat.toDigits 10 d.coefficient ≠ [] :=
        List.append_ne_nil_of_right_ne_nil _ Nat.toDigits_ne_nil
      simp only [String.toList_append, toList_zeros, toList_toString_nat, Numeral.text, below,
        fractionText_of_ne_nil hne, exponentText, List.append_nil, List.append_assoc]
      rfl

theorem exists_numeral_scientific (d : Decimal) : ∃ n : Numeral, d.scientific.toList = n.text := by
  unfold scientific
  dsimp only
  refine ⟨pointed d Nat.one_pos (some (d.exponent + (toString d.coefficient).length - 1)), ?_⟩
  simp only [String.toList_append, toList_fraction, String.toList_ofList, toList_toString_nat,
    Numeral.text, pointed, exponentText, List.append_assoc]
  rfl

end Decimal

/-- The text of a double is a numeral after its sign. -/
theorem Double.exists_numeral_jsonText (d : Double) : ∃ n : Numeral,
    d.jsonText.toList = if d.isNegative then '-' :: n.text else n.text := by
  have hsign {text : String} {n : Numeral} (h : text.toList = n.text) :
      ((if d.isNegative then "-" else "") ++ text).toList =
        if d.isNegative then '-' :: n.text else n.text := by
    rw [String.toList_append, h]
    split <;> rfl
  unfold jsonText
  dsimp only
  split
  · exact ⟨Decimal.below ⟨0, 0⟩ 0, hsign rfl⟩
  · next hzero =>
    have hplain := isPlain_shortest (Bool.eq_false_iff.2 hzero) .even
    split
    · obtain ⟨n, hn⟩ := Decimal.exists_numeral_scientific (d.shortest .even)
      exact ⟨n, hsign hn⟩
    · obtain ⟨n, hn⟩ := Decimal.exists_numeral_positional hplain
      rw [String.append_assoc]
      exact ⟨n, hsign hn⟩

end TypeAtlas
