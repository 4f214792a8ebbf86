/-
Entries of a vector of words.

Nearly every entry is an integer. A value taken over from the configuration stands in the vector as
it was given; hashing reads an integer out of it where there is one, and writing refuses it.

* `Entry.integer`: the integer that is hashed in the place of an entry;
* `Entry.pack`: the bytes of a vector, word by word;
* `Entry.hash`: the hash of a vector;
* `Entry.hex`: an entry as it is written.
-/
import StarkCalldata.Word

namespace StarkCalldata

/-- An entry of a vector of words. -/
abbrev Entry := Json

namespace Entry

open Text

/-- The integer that a value stands for where words are hashed: truth values count as zero and one,
fractions are cut off, and texts are read as decimal numerals. -/
def integer : Entry → Except Fault Int
  | .int n => .ok n
  | .bool b => .ok (if b then 1 else 0)
  | .float .nan => .error .integerOfNan
  | .float x =>
      match x.truncate? with
      | some n => .ok n
      | none => .error .integerOfInfinity
  | .str s =>
      match readDecimal s.toList with
      | .ok n => .ok n
      | .error .noNumeral => .error (.noInteger s)
      | .error (.tooLong digits) => .error (.numeralTooLong (some digits))
  | _ => .error .wrongType

/-- The bytes of the word that is hashed in the place of an entry. -/
def word (e : Entry) : Except Fault (List UInt8) := do
  let n ← integer e
  Word.encode n

/-- The bytes of a vector, word by word; the first entry at fault decides. -/
def pack : List Entry → Except Fault (List UInt8)
  | [] => .ok []
  | e :: rest => do
      let first ← word e
      let others ← pack rest
      return first ++ others

/-- The hash of a vector: the Keccak-256 digest of its bytes, as a number. -/
def hash (entries : List Entry) : Except Fault Nat := do
  let bytes ← pack entries
  return Word.ofBytes (Keccak.digest bytes)

/-- An entry as it is written: an integer that is not negative, in hexadecimal. -/
def hex : Entry → Except Fault String
  | .int n =>
      if n < 0 then .error (Fault.quoting [n] (.negativeWord n)) else .ok (hexLiteral n)
  | e => .error (.notAnInteger e.typeName)

/-- The bytes of integers, word by word. -/
def packIntegers (words : List Int) : Except Fault (List UInt8) := pack (words.map .int)

/-- The hash of integers as words. -/
def hashIntegers (words : List Int) : Except Fault Nat := hash (words.map .int)

end Entry

end StarkCalldata
