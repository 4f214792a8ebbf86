/-
The logarithm to base two of a floating point number, rounded twice: to the nearest floating point
number, and that to the nearest integer, a half to the even one.

The first rounding matters only next to a half: a logarithm that is not a half itself can be so
close to one that the nearest floating point number is the half. The binary digits of the
logarithm of a number from one to two come from squaring it: the square is at least two exactly
when the next digit is one.

* `logDigits`: the leading binary digits of such a logarithm, as a number;
* `halfWindow`: how far from a half a logarithm still rounds to it;
* `roundedLog2`: the integer that both roundings lead to.
-/
import StarkCalldata.Binary64.Basic

namespace StarkCalldata.Binary64

/-- The number of binary places that squaring keeps. -/
def logPrecision : Nat := 256

/-- The first `n` binary digits of the logarithm to base two of `x / 2 ^ logPrecision`, which lies
from one to two, appended to the digits of `done`. -/
def logDigits : Nat → Nat → Nat → Nat
  | 0, _, done => done
  | n + 1, x, done =>
      let y := x * x / Nat.pow 2 logPrecision
      if Nat.pow 2 (logPrecision + 1) ≤ y then logDigits n (y / 2) (2 * done + 1)
      else logDigits n y (2 * done)

/-- Half the distance of neighbouring floating point numbers next to `e + 1 / 2`, in units of
`2 ^ (-64)`. -/
def halfWindow (e : Int) : Nat :=
  match (if 0 ≤ e then e.toNat else (-e - 1).toNat) with
  | 0 => Nat.pow 2 10
  | n + 1 => Nat.pow 2 (11 + (n + 1).log2)

/-- The logarithm to base two of `m * 2 ^ e`, for positive `m`, rounded to a floating point number
and then to an integer. -/
def roundedLog2 (m : Nat) (e : Int) : Int :=
  let whole : Int := m.log2 + e
  let digits := logDigits 64 (m * Nat.pow 2 (logPrecision - m.log2)) 0
  let half := Nat.pow 2 63
  if max digits half - min digits half ≤ halfWindow whole then
    if whole % 2 = 0 then whole else whole + 1
  else if digits < half then whole
  else whole + 1

end StarkCalldata.Binary64
