/-
The permutation Keccak-f[1600].

The state is a grid of five by five lanes of 64 bits; the lane at column `x` and row `y` stands at
index `x + 5 * y`.

* `Lanes`, `Lanes.at`: the grid, read with both coordinates taken modulo five;
* `theta`, `rhoPi`, `chi`: the linear mixing of columns, the rotation and relocation of lanes, and
  the nonlinear combination along rows;
* `round`, `permute`: one round with its constant, and the twenty-four rounds in order.
-/

namespace StarkCalldata.Keccak

/-- The five by five grid of 64-bit lanes. -/
abbrev Lanes := Vector UInt64 25

/-- The lane at column `x` and row `y`, both read modulo five. -/
def Lanes.at (s : Lanes) (x y : Nat) : UInt64 := s[x % 5 + 5 * (y % 5)]

/-- The grid whose lane at column `x` and row `y` is `f x y`. -/
def Lanes.tabulate (f : Nat → Nat → UInt64) : Lanes :=
  Vector.ofFn fun i => f (i.val % 5) (i.val / 5)

/-- A lane turned left by `n` bits. -/
def rotateLeft (w : UInt64) (n : Nat) : UInt64 :=
  if n % 64 = 0 then w
  else (w <<< UInt64.ofNat (n % 64)) ||| (w >>> UInt64.ofNat (64 - n % 64))

/-- The constants of the twenty-four rounds, in order. -/
def roundConstants : List UInt64 :=
  [0x0000000000000001, 0x0000000000008082, 0x800000000000808A, 0x8000000080008000,
   0x000000000000808B, 0x0000000080000001, 0x8000000080008081, 0x8000000000008009,
   0x000000000000008A, 0x0000000000000088, 0x0000000080008009, 0x000000008000000A,
   0x000000008000808B, 0x800000000000008B, 0x8000000000008089, 0x8000000000008003,
   0x8000000000008002, 0x8000000000000080, 0x000000000000800A, 0x800000008000000A,
   0x8000000080008081, 0x8000000000008080, 0x0000000080000001, 0x8000000080008008]

/-- By how many bits the lane at each index is turned. -/
def rotations : Vector Nat 25 :=
  #v[0, 1, 62, 28, 27,
     36, 44, 6, 55, 20,
     3, 10, 43, 25, 39,
     41, 45, 15, 21, 8,
     18, 2, 61, 56, 14]

/-- The parity of the five lanes of a column. -/
def columnParity (s : Lanes) (x : Nat) : UInt64 :=
  s.at x 0 ^^^ s.at x 1 ^^^ s.at x 2 ^^^ s.at x 3 ^^^ s.at x 4

/-- Every lane takes in the parity of the column to its left and the turned parity of the column
to its right. -/
def theta (s : Lanes) : Lanes :=
  let parity : Vector UInt64 5 := Vector.ofFn fun x => columnParity s x.val
  let effect : Vector UInt64 5 :=
    Vector.ofFn fun x =>
      parity[(x.val + 4) % 5] ^^^ rotateLeft parity[(x.val + 1) % 5] 1
  Lanes.tabulate fun x y => s.at x y ^^^ effect[x % 5]

/-- Every lane is turned by its own amount and moved: column `x`, row `y` receives the lane of
column `x + 3 * y`, row `x`. -/
def rhoPi (s : Lanes) : Lanes :=
  Lanes.tabulate fun x y =>
    rotateLeft (s.at (x + 3 * y) x) rotations[(x + 3 * y) % 5 + 5 * (x % 5)]

/-- Every lane is combined with its two right neighbours in the row. -/
def chi (s : Lanes) : Lanes :=
  Lanes.tabulate fun x y => s.at x y ^^^ ((s.at (x + 1) y).complement &&& s.at (x + 2) y)

/-- One round; the constant goes into the first lane. -/
def round (s : Lanes) (constant : UInt64) : Lanes :=
  let t := chi (rhoPi (theta s))
  t.set 0 (t[0] ^^^ constant)

/-- The permutation: all rounds in order. -/
def permute (s : Lanes) : Lanes := roundConstants.foldl round s

end StarkCalldata.Keccak
