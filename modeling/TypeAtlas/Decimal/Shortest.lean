import TypeAtlas.Decimal.Double
/-!
# Shortest decimal of a double

`Double.shortest` is the decimal with the fewest digits among those that read back as the number,
and the nearest to the number among those; of two that are equally near, a `Tie` says which. A
decimal with `d` digits is searched on the grid of multiples of `10 ^ (order - d)`: if any point of
the grid reads back, one of the two neighbours of the number does (`gridPoint?`), so the first grid
with a hit has the fewest digits.
-/

namespace TypeAtlas

/-- The decimal number `coefficient * 10 ^ exponent`. -/
structure Decimal where
  coefficient : Nat
  exponent : Int
  deriving DecidableEq, Inhabited, Repr

/-- Which of two neighbours on a grid is taken for a number halfway between them. -/
inductive Tie where
  /-- The larger one. -/
  | up
  /-- The one with an even last digit. -/
  | even
  deriving DecidableEq, Inhabited, Repr

/-- Whether the lower of two neighbours is taken, by its coefficient. -/
def Tie.takesLower : Tie → Nat → Bool
  | up, _ => false
  | even, coefficient => coefficient % 2 == 0

namespace Decimal

/-- The same number without trailing zeros, as long as `fuel` lasts. -/
def stripZeros : Nat → Decimal → Decimal
  | 0, d => d
  | fuel + 1, d =>
    if d.coefficient ≠ 0 ∧ d.coefficient % 10 = 0 then
      stripZeros fuel ⟨d.coefficient / 10, d.exponent + 1⟩
    else d

/-- A power of ten as numerator and denominator. -/
def powerOfTen (e : Int) : Nat × Nat :=
  if e < 0 then (1, Nat.pow 10 e.natAbs) else (Nat.pow 10 e.natAbs, 1)

/-- The least `k ≥ from` with `den ≤ num * 10 ^ k`, as long as `fuel` lasts. -/
def leadingZeros (num den : Nat) : Nat → Nat → Nat
  | 0, k => k
  | fuel + 1, k => if den ≤ num * Nat.pow 10 k then k else leadingZeros num den fuel (k + 1)

/-- The `k` with `10 ^ (k - 1) ≤ num / den < 10 ^ k`, for ratios of doubles. -/
def order (num den : Nat) : Int :=
  if den ≤ num then (toString (num / den)).length
  else 1 - (leadingZeros num den 330 1 : Int)

end Decimal

namespace Double

/-- Lower end, value and upper end of the reals that round to `mantissa * 2 ^ exponent`, in units of
`2 ^ (exponent - 2)`. Below a power of two the neighbour is half as far. -/
def roundingInterval (d : Double) : Nat × Nat × Nat :=
  let m := d.mantissa
  let below := if m = 1 <<< 52 ∧ d.exponent > -1074 then 4 * m - 1 else 4 * m - 2
  (below, 4 * m, 4 * m + 2)

/-- The multiple of `10 ^ e` that reads back as `d`, if there is one: of the two neighbours of `d`
the nearer. -/
def gridPoint? (d : Double) (tie : Tie) (e : Int) : Option Decimal :=
  let (low, mid, high) := d.roundingInterval
  let (twoNum, twoDen) := scaleRatio 1 1 (d.exponent - 2)
  let (tenNum, tenDen) := Decimal.powerOfTen e
  let step := tenNum * twoDen
  let unit := twoNum * tenDen
  let down := mid * unit / step
  let up := down + 1
  let closed := d.mantissa % 2 == 0
  let downHits := low * unit < down * step || (closed && low * unit == down * step)
  let upHits := up * step < high * unit || (closed && up * step == high * unit)
  match downHits, upHits with
  | true, true =>
    let toDown := mid * unit - down * step
    let toUp := up * step - mid * unit
    if toDown < toUp ∨ toDown = toUp ∧ tie.takesLower down then some ⟨down, e⟩ else some ⟨up, e⟩
  | true, false => some ⟨down, e⟩
  | false, true => some ⟨up, e⟩
  | false, false => none

/-- The fewest digits that read back as the magnitude of a finite number other than zero. -/
def shortest (d : Double) (tie : Tie) : Decimal :=
  let (num, den) := d.ratio
  let order := Decimal.order num den
  let found := (List.range 17).findSome? fun i : Nat => d.gridPoint? tie (order - (i + 1 : Nat))
  (found.getD ⟨0, 0⟩).stripZeros 20

end Double

end TypeAtlas
