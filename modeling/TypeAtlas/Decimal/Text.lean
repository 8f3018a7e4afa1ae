import TypeAtlas.Decimal.Shortest
/-!
# Decimal text of a double

Two ways to write the shortest decimal of a number: `Double.display`, always positional, as types
and labels show numbers, and `Double.jsonText`, as documents carry them, with an exponent for very
large and very small numbers. `Double.ofScientific` reads a number from its digits.
-/

namespace TypeAtlas

namespace Decimal

/-- A number of zeros. -/
def zeros (n : Nat) : String :=
  "".pushn '0' n

/-- Positional text, without a point when the number is an integer. -/
def positional (d : Decimal) : String :=
  let digits := toString d.coefficient
  let count := digits.length
  let shift := d.exponent.natAbs
  if 0 ≤ d.exponent then digits ++ zeros shift
  else if shift < count then
    String.ofList (digits.toList.take (count - shift)) ++ "." ++
      String.ofList (digits.toList.drop (count - shift))
  else "0." ++ zeros (shift - count) ++ digits

/-- Scientific text: one digit before the point, and no point after a single digit. -/
def scientific (d : Decimal) : String :=
  let digits := toString d.coefficient
  let exponent := d.exponent + digits.length - 1
  let fraction := digits.toList.drop 1
  String.ofList (digits.toList.take 1) ++
    (if fraction.isEmpty then "" else "." ++ String.ofList fraction) ++ "e" ++ toString exponent

end Decimal

namespace Double

/-- Digits without an exponent; the fewest that read back, and a tie goes up. -/
def display (d : Double) : String :=
  if d.isNaN then "NaN"
  else
    let sign := if d.isNegative then "-" else ""
    if !d.isFinite then sign ++ "inf"
    else if d.isZero then sign ++ "0"
    else sign ++ (d.shortest .up).positional

/-- Document text of a finite number: the fewest digits that read back, and a tie goes to the even
digit. It is positional from `10 ^ -5` up to below `10 ^ 16`, and always tells the number from an
integer. -/
def jsonText (d : Double) : String :=
  let sign := if d.isNegative then "-" else ""
  if d.isZero then sign ++ "0.0"
  else
    let short := d.shortest .even
    let order := short.exponent + (toString short.coefficient).length
    if order ≤ -5 ∨ 16 < order then sign ++ short.scientific
    else sign ++ short.positional ++ (if 0 ≤ short.exponent then ".0" else "")

/-- Division by a power of ten, in steps of `10 ^ 308`, the largest power that is a number. -/
def divPowerOfTen (d : Double) (n : Nat) : Double :=
  if h : n ≤ 308 then d.divFinite (ofNat (Nat.pow 10 n))
  else if d.isZero then d
  else divPowerOfTen (d.divFinite (ofNat (Nat.pow 10 308))) (n - 308)
termination_by n
decreasing_by omega

/-- The number `± significand * 10 ^ e`. The significand is rounded first and the product or
quotient with the power of ten once more; `none` when the result is too large. -/
def ofScientific? (negative : Bool) (significand : Nat) (e : Int) : Option Double :=
  let start := ofNat significand
  let magnitude :=
    if e < 0 then some (start.divPowerOfTen e.natAbs)
    else if e ≤ 308 then
      let product := start.mulFinite (ofNat (Nat.pow 10 e.natAbs))
      if product.isFinite then some product else none
    else if start.isZero then some start
    else none
  magnitude.map fun d => if negative then d.neg else d

end Double

end TypeAtlas
