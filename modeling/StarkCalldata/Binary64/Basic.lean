/-
Binary floating point numbers of 64 bits, as exact values.

A finite number is a sign, a mantissa below `2 ^ 53` and a power of two not below `2 ^ (-1074)`.
The mantissa is at least `2 ^ 52` unless the exponent is the least one.

* `roundDiv`: a quotient rounded to the nearest integer, a half to the even one;
* `nearest?`: the number nearest to a ratio, nothing when it is beyond the greatest finite number;
* `ofDecimal`: the number nearest to decimal digits times a power of ten;
* `compareInt`: the order between a number and an integer, without rounding;
* `truncate?`, `ceil?`: the integers next to a finite number, towards zero and upwards.
-/

namespace StarkCalldata

/-- A binary floating point number of 64 bits. -/
inductive Binary64
  /-- The number `mantissa * 2 ^ exponent` with a sign. -/
  | finite (negative : Bool) (mantissa : Nat) (exponent : Int)
  | infinite (negative : Bool)
  | nan
  deriving Repr, DecidableEq

namespace Binary64

/-- The least exponent. -/
def minExponent : Int := -1074

/-- The greatest exponent. -/
def maxExponent : Int := 971

/-- The number zero. -/
def zero (negative : Bool) : Binary64 := .finite negative 0 minExponent

/-- The quotient `a / b` rounded to the nearest integer, a half to the even one. -/
def roundDiv (a b : Nat) : Nat :=
  let q := a / b
  let r := a % b
  if 2 * r < b then q
  else if b < 2 * r then q + 1
  else if q % 2 = 0 then q
  else q + 1

/-- The quotient `a * 2 ^ (-e) / b` rounded to the nearest integer. -/
def roundScaled (a b : Nat) (e : Int) : Nat :=
  if e < 0 then roundDiv (a * Nat.pow 2 e.natAbs) b else roundDiv a (b * Nat.pow 2 e.natAbs)

/-- The exponent of the greatest power of two that is at most `a / b`, for positive `a` and `b`. -/
def floorLog2 (a b : Nat) : Int :=
  let guess : Int := (a.log2 : Int) - b.log2
  let reached := if guess < 0 then b ≤ a * Nat.pow 2 guess.natAbs else b * Nat.pow 2 guess.natAbs ≤ a
  if reached then guess else guess - 1

/-- Mantissa and exponent of the number nearest to `a / b`; nothing when it is beyond the greatest
finite number. -/
def nearest? (a b : Nat) : Option (Nat × Int) :=
  if a = 0 then some (0, minExponent)
  else
    let e := max (floorLog2 a b - 52) minExponent
    let m := roundScaled a b e
    let (m, e) := if m = Nat.pow 2 53 then (Nat.pow 2 52, e + 1) else (m, e)
    if e ≤ maxExponent then some (m, e) else none

/-- The number nearest to the ratio `a / b` with a sign; infinite when it is too great. -/
def ofRatio (negative : Bool) (a b : Nat) : Binary64 :=
  match nearest? a b with
  | some (m, e) => .finite negative m e
  | none => .infinite negative

/-- The number nearest to `n * 10 ^ e`. Far outside the range of finite numbers the power of ten
is not computed. -/
def ofDecimal (negative : Bool) (n : Nat) (e : Int) : Binary64 :=
  let places : Int := (Nat.toDigits 10 n).length + e
  if n = 0 then zero negative
  else if 310 < places then .infinite negative
  else if places < -330 then zero negative
  else if e < 0 then ofRatio negative n (Nat.pow 10 e.natAbs)
  else ofRatio negative (n * Nat.pow 10 e.natAbs) 1

/-- The value of a finite number as a fraction whose denominator is a power of two. -/
def fraction (negative : Bool) (mantissa : Nat) (exponent : Int) : Int × Nat :=
  let m : Int := if negative then -mantissa else mantissa
  if exponent < 0 then (m, Nat.pow 2 exponent.natAbs) else (m * Nat.pow 2 exponent.natAbs, 1)

/-- How a number compares with an integer; a number that is none compares with nothing. -/
def compareInt : Binary64 → Int → Option Ordering
  | .nan, _ => none
  | .infinite negative, _ => some (if negative then .lt else .gt)
  | .finite negative m e, n =>
      let (a, b) := fraction negative m e
      some (compare a (n * b))

/-- The integer next to a finite number towards zero. -/
def truncate? : Binary64 → Option Int
  | .finite negative m e =>
      let (a, b) := fraction negative m e
      some (a.tdiv b)
  | _ => none

/-- The least integer not below a finite number. -/
def ceil? : Binary64 → Option Int
  | .finite negative m e =>
      let (a, b) := fraction negative m e
      some (-((-a).fdiv b))
  | _ => none

/-- Zero of either sign. -/
def isZero : Binary64 → Bool
  | .finite _ m _ => m = 0
  | _ => false

end Binary64

end StarkCalldata
