/-
The shortest decimal text of a floating point number.

The digits are the fewest that read back as the same number, and of those the nearest to it. They
are searched on ever finer decimal grids: if any point of a grid reads back, one of the two grid
points next to the number does.

* `readsBack`: whether a fraction lies among the reals that round to a number;
* `shortestDigits`: the digits and the place of the decimal point;
* `text`: the digits laid out, positional from `1e-4` to below `1e16`, otherwise with an exponent of
  at least two digits.
-/
import StarkCalldata.Binary64.Basic

namespace StarkCalldata.Binary64

/-- The number `n * 10 ^ e` as a fraction. -/
def decimalFraction (n : Nat) (e : Int) : Nat × Nat :=
  if e < 0 then (n, Nat.pow 10 e.natAbs) else (n * Nat.pow 10 e.natAbs, 1)

/-- Whether the decimal number `n * 10 ^ p` rounds to the finite number with mantissa `m` and
exponent `e`. -/
def readsBack (m : Nat) (e : Int) (n : Nat) (p : Int) : Bool :=
  let (a, b) := decimalFraction n p
  nearest? a b == some (m, e)

/-- The number of digits before the decimal point of a positive fraction: the least `p` such that
the fraction is below `10 ^ p`. It may be negative. -/
def decimalPlaces (a b : Nat) : Int :=
  let guess : Int := ((Nat.toDigits 10 a).length : Int) - (Nat.toDigits 10 b).length
  let below := if guess < 0 then a * Nat.pow 10 guess.natAbs < b else a < b * Nat.pow 10 guess.natAbs
  if below then guess else guess + 1

/-- On the grid of multiples of `10 ^ p`, the point next to `a / b` that reads back, the nearer one
if both do; a tie goes to the even one. -/
def onGrid? (m : Nat) (e : Int) (a b : Nat) (p : Int) : Option Nat :=
  let (num, den) := if p < 0 then (a * Nat.pow 10 p.natAbs, b) else (a, b * Nat.pow 10 p.natAbs)
  let near := roundDiv num den
  let low := num / den
  let far := if near = low then low + 1 else low
  if readsBack m e near p then some near
  else if readsBack m e far p then some far
  else none

/-- The first grid, of those with `digits` digits and more, on which the number has a point. -/
def searchGrids (m : Nat) (e : Int) (a b : Nat) (places : Int) : Nat → Nat → Nat × Int
  | 0, digits => (m, places - digits)
  | fuel + 1, digits =>
      match onGrid? m e a b (places - digits) with
      | some n => (n, places - digits)
      | none => searchGrids m e a b places fuel (digits + 1)

/-- The fewest digits that read back, and the number of them before the decimal point. -/
def shortestDigits (m : Nat) (e : Int) : List Char × Int :=
  let (a, b) := if e < 0 then (m, Nat.pow 2 e.natAbs) else (m * Nat.pow 2 e.natAbs, 1)
  let (n, p) := searchGrids m e a b (decimalPlaces a b) 17 1
  let digits := Nat.toDigits 10 n
  let places : Int := digits.length + p
  (((digits.reverse.dropWhile (· == '0')).reverse), places)

/-- Digits with `places` of them before the decimal point, laid out. -/
def layOut (digits : List Char) (places : Int) : List Char :=
  if -4 < places ∧ places ≤ 16 then
    if places ≤ 0 then '0' :: '.' :: List.replicate places.natAbs '0' ++ digits
    else
      let whole := digits.take places.toNat
      let rest := digits.drop places.toNat
      whole ++ List.replicate (places.toNat - whole.length) '0'
        ++ '.' :: (if rest.isEmpty then ['0'] else rest)
  else
    let exponent := places - 1
    let size := Nat.toDigits 10 exponent.natAbs
    let mantissa := match digits with
      | d :: d' :: rest => d :: '.' :: d' :: rest
      | ds => ds
    mantissa ++ 'e' :: (if exponent < 0 then '-' else '+')
      :: List.replicate (2 - size.length) '0' ++ size

/-- A number as text. -/
def text : Binary64 → String
  | .nan => "nan"
  | .infinite negative => if negative then "-inf" else "inf"
  | .finite negative m e =>
      let body :=
        if m = 0 then "0.0"
        else
          let (digits, places) := shortestDigits m e
          String.ofList (layOut digits places)
      if negative then "-" ++ body else body

end StarkCalldata.Binary64
