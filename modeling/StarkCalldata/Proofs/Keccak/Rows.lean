import Mathlib.Tactic
import StarkCalldata.Entry

/-!
Keccak row by row.

A lane is found in the grid by counting, which is slow where a digest has to be worked out step by
step. The same permutation is told here on five rows of five lanes, each with a name of its own, and
a lane is read by its name:

* `Row`, `Rows`: a row of five lanes, and the five rows of the grid;
* `Rows.theta`, `Rows.rho`, `Rows.pi`, `Rows.chi`, `Rows.round`: the steps of a round;
* `Lanes.rows`: the rows of a grid, which every step carries along (`rows_theta`, `rows_rhoPi`,
  `rows_chi`, `rows_round`);
* `digest_eq`: the digest of a message, worked out on rows;
* `Entry.hash_eq_ok`: the hash of a vector, worked out on rows.
-/

namespace StarkCalldata.Keccak

/-- Five lanes in a row. -/
structure Row where
  a : UInt64
  b : UInt64
  c : UInt64
  d : UInt64
  e : UInt64

/-- The five rows of the grid. -/
structure Rows where
  r : Row
  s : Row
  t : Row
  u : Row
  v : Row

namespace Row

/-- Two rows combined lane by lane. -/
def xor (p q : Row) : Row := ⟨p.a ^^^ q.a, p.b ^^^ q.b, p.c ^^^ q.c, p.d ^^^ q.d, p.e ^^^ q.e⟩

/-- What the parities of the columns put into every column: that of the left neighbour and the
turned one of the right neighbour. -/
def effect (p : Row) : Row :=
  ⟨p.e ^^^ rotateLeft p.b 1, p.a ^^^ rotateLeft p.c 1, p.b ^^^ rotateLeft p.d 1,
    p.c ^^^ rotateLeft p.e 1, p.d ^^^ rotateLeft p.a 1⟩

/-- A row with every lane turned by an amount of its own. -/
def turn (p : Row) (i j k l m : ℕ) : Row :=
  ⟨rotateLeft p.a i, rotateLeft p.b j, rotateLeft p.c k, rotateLeft p.d l, rotateLeft p.e m⟩

/-- A row with every lane combined with its two right neighbours. -/
def chi (p : Row) : Row :=
  ⟨p.a ^^^ (p.b.complement &&& p.c), p.b ^^^ (p.c.complement &&& p.d),
    p.c ^^^ (p.d.complement &&& p.e), p.d ^^^ (p.e.complement &&& p.a),
    p.e ^^^ (p.a.complement &&& p.b)⟩

end Row

namespace Rows

/-- Every row takes in the effect of the parities. -/
def theta (g : Rows) : Rows :=
  let effect := ((((g.r.xor g.s).xor g.t).xor g.u).xor g.v).effect
  ⟨g.r.xor effect, g.s.xor effect, g.t.xor effect, g.u.xor effect, g.v.xor effect⟩

/-- Every lane is turned by its own amount. -/
def rho (g : Rows) : Rows :=
  ⟨g.r.turn 0 1 62 28 27, g.s.turn 36 44 6 55 20, g.t.turn 3 10 43 25 39, g.u.turn 41 45 15 21 8,
    g.v.turn 18 2 61 56 14⟩

/-- The lanes of a new row come from five different rows. -/
def pi (g : Rows) : Rows :=
  ⟨⟨g.r.a, g.s.b, g.t.c, g.u.d, g.v.e⟩, ⟨g.r.d, g.s.e, g.t.a, g.u.b, g.v.c⟩,
    ⟨g.r.b, g.s.c, g.t.d, g.u.e, g.v.a⟩, ⟨g.r.e, g.s.a, g.t.b, g.u.c, g.v.d⟩,
    ⟨g.r.c, g.s.d, g.t.e, g.u.a, g.v.b⟩⟩

/-- Every row is combined within itself. -/
def chi (g : Rows) : Rows := ⟨g.r.chi, g.s.chi, g.t.chi, g.u.chi, g.v.chi⟩

/-- One round; the constant goes into the first lane. -/
def round (g : Rows) (constant : UInt64) : Rows :=
  let h := g.theta.rho.pi.chi
  { h with r := { h.r with a := h.r.a ^^^ constant } }

/-- The rows that the lanes of a block fill, zero beyond its end. -/
def ofBlock (block : List UInt8) : Rows :=
  let lanes := ((chunks 8 block).map laneOfBytes).toArray
  let row (y : ℕ) : Row := ⟨lanes.getD (5 * y) 0, lanes.getD (5 * y + 1) 0,
    lanes.getD (5 * y + 2) 0, lanes.getD (5 * y + 3) 0, lanes.getD (5 * y + 4) 0⟩
  ⟨row 0, row 1, row 2, row 3, row 4⟩

/-- The rows after a block has been absorbed. -/
def absorb (g : Rows) (block : List UInt8) : Rows :=
  let h := ofBlock block
  roundConstants.foldl round
    ⟨g.r.xor h.r, g.s.xor h.s, g.t.xor h.t, g.u.xor h.u, g.v.xor h.v⟩

/-- The rows before anything is absorbed. -/
def blank : Rows :=
  let row : Row := ⟨0, 0, 0, 0, 0⟩
  ⟨row, row, row, row, row⟩

/-- The digest of a message, worked out on rows. -/
def digest (message : List UInt8) : List UInt8 :=
  let g := (chunks rate (pad message)).foldl absorb blank
  laneBytes g.r.a ++ laneBytes g.r.b ++ laneBytes g.r.c ++ laneBytes g.r.d

end Rows

/-! ### The rows of a grid -/

/-- A row of a grid. -/
def Lanes.row (s : Lanes) (y : ℕ) : Row := ⟨s.at 0 y, s.at 1 y, s.at 2 y, s.at 3 y, s.at 4 y⟩

/-- The rows of a grid. -/
def Lanes.rows (s : Lanes) : Rows := ⟨s.row 0, s.row 1, s.row 2, s.row 3, s.row 4⟩

lemma Lanes.at_mod_left (s : Lanes) (x y : ℕ) : s.at (x % 5) y = s.at x y := by
  simp [Lanes.at]

lemma Lanes.at_mod_right (s : Lanes) (x y : ℕ) : s.at x (y % 5) = s.at x y := by
  simp [Lanes.at]

lemma Lanes.at_add_five (s : Lanes) (x y : ℕ) : s.at (x + 5) y = s.at x y := by
  rw [← Lanes.at_mod_left s (x + 5), Nat.add_mod_right, Lanes.at_mod_left]

lemma Lanes.at_tabulate (f : ℕ → ℕ → UInt64) (x y : ℕ) :
    (Lanes.tabulate f).at x y = f (x % 5) (y % 5) := by
  have hx : (x % 5 + 5 * (y % 5)) % 5 = x % 5 := by omega
  have hy : (x % 5 + 5 * (y % 5)) / 5 = y % 5 := by omega
  simp [Lanes.at, Lanes.tabulate, hx, hy]

lemma at_theta (s : Lanes) (x y : ℕ) :
    (theta s).at x y = s.at x y ^^^ (columnParity s ((x % 5 + 4) % 5) ^^^
      rotateLeft (columnParity s ((x % 5 + 1) % 5)) 1) := by
  simp [theta, Lanes.at_tabulate, Lanes.at_mod_left, Lanes.at_mod_right]

/-- The mixing of columns, row by row. -/
lemma rows_theta (s : Lanes) : (theta s).rows = s.rows.theta := by
  simp [Lanes.rows, Lanes.row, at_theta, columnParity, Rows.theta, Row.xor, Row.effect]

lemma at_rhoPi (s : Lanes) (x y : ℕ) :
    (rhoPi s).at x y = rotateLeft (s.at (x % 5 + 3 * (y % 5)) (x % 5))
      rotations[(x % 5 + 3 * (y % 5)) % 5 + 5 * (x % 5 % 5)] := by
  simp [rhoPi, Lanes.at_tabulate]

/-- The turning and the relocation, row by row. -/
lemma rows_rhoPi (s : Lanes) : (rhoPi s).rows = s.rows.rho.pi := by
  simp [Lanes.rows, Lanes.row, at_rhoPi, Rows.rho, Rows.pi, Row.turn, rotations, Lanes.at_add_five]

lemma at_chi (s : Lanes) (x y : ℕ) :
    (chi s).at x y = s.at x y ^^^ ((s.at (x % 5 + 1) y).complement &&& s.at (x % 5 + 2) y) := by
  simp [chi, Lanes.at_tabulate, Lanes.at_mod_left, Lanes.at_mod_right]

/-- The combination along rows, row by row. -/
lemma rows_chi (s : Lanes) : (chi s).rows = s.rows.chi := by
  simp [Lanes.rows, Lanes.row, at_chi, Rows.chi, Row.chi, Lanes.at_add_five]

/-- One round, row by row. -/
lemma rows_round (s : Lanes) (constant : UInt64) :
    (round s constant).rows = s.rows.round constant := by
  have hset : ∀ t : Lanes, Lanes.rows (t.set 0 (t[0] ^^^ constant)) =
      { t.rows with r := { t.rows.r with a := t.rows.r.a ^^^ constant } } := fun t => by
    simp [Lanes.rows, Lanes.row, Lanes.at]
  rw [round, hset, rows_chi, rows_rhoPi, rows_theta]
  rfl

lemma rows_mixBlock (s : Lanes) (block : List UInt8) :
    (mixBlock s block).rows =
      let h := Rows.ofBlock block
      ⟨s.rows.r.xor h.r, s.rows.s.xor h.s, s.rows.t.xor h.t, s.rows.u.xor h.u,
        s.rows.v.xor h.v⟩ := by
  simp [mixBlock, Lanes.rows, Lanes.row, Lanes.at, Rows.ofBlock, Row.xor]

lemma rows_absorb (s : Lanes) (block : List UInt8) :
    (absorb s block).rows = s.rows.absorb block := by
  rw [absorb, permute, ← List.foldl_hom Lanes.rows fun t c => (rows_round t c).symm, rows_mixBlock]
  rfl

/-- The digest of a message, worked out on rows. -/
theorem digest_eq (message : List UInt8) : digest message = Rows.digest message := by
  have hblank : Lanes.rows (Vector.replicate 25 0) = Rows.blank := by
    simp [Lanes.rows, Lanes.row, Lanes.at, Rows.blank]
  have hrows : (absorbAll message).rows =
      (chunks rate (pad message)).foldl Rows.absorb Rows.blank := by
    rw [absorbAll, ← List.foldl_hom Lanes.rows fun t b => (rows_absorb t b).symm, hblank]
  rw [Rows.digest, ← hrows]
  rfl

end StarkCalldata.Keccak

namespace StarkCalldata.Entry

/-- The hash of a vector, worked out on rows. -/
theorem hash_eq_ok {entries : List Entry} {n : ℕ}
    (h : (pack entries).toOption.map (fun bytes => Word.ofBytes (Keccak.Rows.digest bytes)) =
      some n) : hash entries = .ok n := by
  cases hpack : pack entries with
  | error e => simp [hpack, Except.toOption] at h
  | ok bytes =>
      rw [hpack] at h
      rw [hash, hpack, ← Option.some.inj h]
      exact congrArg (fun digest => Except.ok (Word.ofBytes digest)) (Keccak.digest_eq bytes)

end StarkCalldata.Entry
