/-!
# Double-precision numbers

A `Double` is the 64-bit word of a binary floating-point number: one sign bit, eleven exponent
bits, fifty-two fraction bits. A finite word stands for `mantissa * 2 ^ exponent`, exactly, and all
arithmetic here is done on that exact value and rounded once, to the nearest word with ties to the
even one (`Double.ofRatio`).
-/

namespace TypeAtlas

/-- A double-precision number, as the word that stores it. -/
structure Double where
  /-- Sign, exponent and fraction, from the highest bit down. -/
  bits : UInt64
  deriving DecidableEq, Inhabited, Repr

namespace Double

/-- Whether the sign bit is set. -/
def isNegative (d : Double) : Bool :=
  d.bits.toNat >>> 63 == 1

/-- The eleven exponent bits. -/
def exponentField (d : Double) : Nat :=
  (d.bits.toNat >>> 52) % (1 <<< 11)

/-- The fifty-two fraction bits. -/
def fractionField (d : Double) : Nat :=
  d.bits.toNat % (1 <<< 52)

/-- Neither an infinity nor a NaN. -/
def isFinite (d : Double) : Bool :=
  d.exponentField != 2047

/-- Not a number. -/
def isNaN (d : Double) : Bool :=
  d.exponentField == 2047 && d.fractionField != 0

/-- Either zero. -/
def isZero (d : Double) : Bool :=
  d.exponentField == 0 && d.fractionField == 0

/-- The integer `m` in the magnitude `m * 2 ^ q` of a finite number. -/
def mantissa (d : Double) : Nat :=
  if d.exponentField = 0 then d.fractionField else (1 <<< 52) + d.fractionField

/-- The exponent `q` in the magnitude `m * 2 ^ q` of a finite number. -/
def exponent (d : Double) : Int :=
  if d.exponentField = 0 then -1074 else (d.exponentField : Int) - 1075

/-- The word with the given sign and remaining 63 bits. -/
def ofFields (negative : Bool) (magnitude : Nat) : Double :=
  ⟨UInt64.ofNat ((if negative then 1 <<< 63 else 0) + magnitude)⟩

/-- Zero. -/
def zero : Double := ofFields false 0

/-- Negative zero. -/
def negativeZero : Double := ofFields true 0

/-- Positive infinity. -/
def infinity : Double := ofFields false (2047 <<< 52)

/-- Negative infinity. -/
def negativeInfinity : Double := ofFields true (2047 <<< 52)

/-- The quiet NaN with no other fraction bit. -/
def nan : Double := ofFields false ((2047 <<< 52) + (1 <<< 51))

/-- The same magnitude with the sign changed. -/
def neg (d : Double) : Double :=
  ofFields (!d.isNegative) (d.bits.toNat % (1 <<< 63))

/-- Comparison as numbers: the zeros are equal and a NaN equals nothing. -/
def sameNumber (a b : Double) : Bool :=
  !a.isNaN && !b.isNaN && (a == b || (a.isZero && b.isZero))

/-- The ratio `num / den`, scaled by `2 ^ shift`, as numerator and denominator. -/
def scaleRatio (num den : Nat) (shift : Int) : Nat × Nat :=
  if shift < 0 then (num, den <<< shift.natAbs) else (num <<< shift.natAbs, den)

/-- The integer nearest to `num / den`, the even one of two that are equally near. -/
def roundHalfEven (num den : Nat) : Nat :=
  let q := num / den
  let r := num % den
  if 2 * r > den || (2 * r == den && q % 2 == 1) then q + 1 else q

/-- The exponent at which the ratio has a 53-bit integer part, but never below the smallest. -/
def exponentOfRatio (num den : Nat) : Int :=
  let guess : Int := (Nat.log2 num : Int) - Nat.log2 den
  let (n, d) := scaleRatio num den (-guess)
  let top := if n < d then guess - 1 else guess
  max (top - 52) (-1074)

/-- The number nearest to `± num / den`, ties to even; too large a ratio gives an infinity. -/
def ofRatio (negative : Bool) (num den : Nat) : Double :=
  if num = 0 then ofFields negative 0
  else
    let q := exponentOfRatio num den
    let (n, d) := scaleRatio num den (-q)
    let magnitude := ((q + 1074).toNat <<< 52) + roundHalfEven n d
    if magnitude ≥ 2047 <<< 52 then ofFields negative (2047 <<< 52)
    else ofFields negative magnitude

/-- The number nearest to a natural number. -/
def ofNat (n : Nat) : Double :=
  ofRatio false n 1

/-- The number nearest to an integer; zero is positive. -/
def ofInt (n : Int) : Double :=
  ofRatio (n < 0) n.natAbs 1

/-- Magnitude of a finite number as a ratio. -/
def ratio (d : Double) : Nat × Nat :=
  scaleRatio d.mantissa 1 d.exponent

/-- Product of two finite numbers. -/
def mulFinite (a b : Double) : Double :=
  let (na, da) := a.ratio
  let (nb, db) := b.ratio
  ofRatio (a.isNegative != b.isNegative) (na * nb) (da * db)

/-- Quotient of two finite numbers, the second not zero. -/
def divFinite (a b : Double) : Double :=
  let (na, da) := a.ratio
  let (nb, db) := b.ratio
  ofRatio (a.isNegative != b.isNegative) (na * db) (da * nb)

end Double

end TypeAtlas
