/-
Words of 256 bits, the slots the verifier contract hashes.

* `Word.size`, `Word.limit`: 32 bytes, and the first number that does not fit into them;
* `Word.bytes`, `Word.ofBytes`: a number as bytes, the most significant first, and back;
* `Word.encode`: the bytes of an integer, a fault if it does not fit;
* `Word.split`: the words that a row of bytes holds.
-/
import StarkCalldata.Fault
import StarkCalldata.Keccak.Sponge

namespace StarkCalldata.Word

/-- The number of bytes of a word. -/
def size : Nat := 32

/-- The first number that does not fit into a word. -/
def limit : Nat := Nat.pow 2 256

/-- The last `k` bytes of a number, the most significant first. -/
def bigEndian : Nat → Nat → List UInt8
  | 0, _ => []
  | k + 1, n => bigEndian k (n / 256) ++ [UInt8.ofNat n]

/-- A number below the limit as the bytes of a word. -/
def bytes (n : Nat) : List UInt8 := bigEndian size n

/-- The number that bytes denote, the most significant first. -/
def ofBytes (bs : List UInt8) : Nat := bs.foldl (fun n b => 256 * n + b.toNat) 0

/-- The bytes of an integer that fits into a word. -/
def encode (n : Int) : Except Fault (List UInt8) :=
  if 0 ≤ n ∧ n < limit then .ok (bytes n.toNat)
  else .error (Fault.quoting [n] (.wordRange n))

/-- The words that a row of bytes holds, 32 bytes each. -/
def split (bs : List UInt8) : List Nat := (Keccak.chunks size bs).map ofBytes

/-- The last bytes of a number are as many as asked for. -/
@[simp] theorem length_bigEndian (k n : Nat) : (bigEndian k n).length = k := by
  induction k generalizing n with
  | zero => rfl
  | succ k ih => simp [bigEndian, ih]

/-- A word has 32 bytes. -/
@[simp] theorem length_bytes (n : Nat) : (bytes n).length = size := length_bigEndian size n

end StarkCalldata.Word
