/-
The values of a proof document.

Each decoder takes a JSON value with its place and gives what it stands for, or the defect at that
place.

* `require`: the value of a field that must be there;
* `unsigned`: an integer that is not negative; a negative one is quoted in the words of the defect;
* `address`: an address below the prime, as a number or a numeral;
* `fieldElement`: a field element, as a number or hexadecimal text;
* `proofBytes`: the bytes of a proof, filled up with zeros to whole words;
* `items`: a decoder applied to every item of a list.
-/
import StarkCalldata.Field
import StarkCalldata.Json.Path
import StarkCalldata.Word

namespace StarkCalldata.Decoding

open Text

/-- The defect of a proof at a place. -/
def defect (path : Path) (d : Defect) : Except Fault α := .error (.malformedProof path.render d)

/-- The value of a field that must be there. -/
def require (j : Json) (path : Path) (name : String) : Except Fault Json :=
  match j with
  | .obj fields =>
      match Json.field? fields name with
      | some value => .ok value
      | none => defect (path.key name) .missingField
  | _ => .error (.malformedProof path.place .notAnObject)

/-- An integer that is not negative. -/
def unsigned (j : Json) (path : Path) : Except Fault Int :=
  match j with
  | .int n =>
      if n < 0 then .error (Fault.quoting [n] (.malformedProof path.render (.negative n)))
      else .ok n
  | _ => defect path (.notAnInteger j.typeName)

/-- A field of an object that must be there and hold an integer that is not negative. -/
def unsignedField (j : Json) (path : Path) (name : String) : Except Fault Int := do
  let value ← require j path name
  unsigned value (path.key name)

/-- The address that a text denotes: a hexadecimal numeral if it has the mark, else a decimal
one. -/
def addressNumeral? (text : List Char) : Option Int :=
  let text := strip text
  if hasHexMark text then (hexadecimal? text).map Int.ofNat
  else (decimal? text).filter (0 ≤ ·)

/-- An address, which must be below the prime. -/
def address (j : Json) (path : Path) : Except Fault Int := do
  let n ← match j with
    | .str s =>
        match addressNumeral? s.toList with
        | some n => Except.ok n
        | none => defect path (.addressNotNumeric s)
    | _ => unsigned j path
  if n < Field.prime then return n else defect path .addressTooLarge

/-- The number that hexadecimal digits denote; the mark in front may be left out. -/
def hexNumber? (text : List Char) : Option Nat :=
  let digits := dropHexMark text
  if digits.isEmpty then none else (digits.mapM hexDigit?).map (ofDigits 16)

/-- A field element, which must be below the prime. -/
def fieldElement (j : Json) (path : Path) : Except Fault Int := do
  let n ← match j with
    | .str s =>
        match hexNumber? s.toList with
        | some n => Except.ok (n : Int)
        | none => defect path (.elementNotHex s)
    | _ => unsigned j path
  if n < Field.prime then return n else defect path .elementTooLarge

/-- Bytes with zeros after them, up to a whole number of words. -/
def fillWord (bytes : List UInt8) : List UInt8 :=
  bytes ++ List.replicate ((Word.size - bytes.length % Word.size) % Word.size) 0

/-- The bytes of a proof. An odd number of digits is refused before anything is filled up. -/
def proofBytes (j : Json) (path : Path) : Except Fault (List UInt8) :=
  match j with
  | .str s =>
      let digits := dropHexMark s.toList
      if digits.length % 2 ≠ 0 then defect path (.oddHexDigits digits.length)
      else
        match hexBytes? digits with
        | some bytes => .ok (fillWord bytes)
        | none => defect path .notHexDigits
  | _ => defect path .notHexString

/-- What a decoder gives for the items of a list, of which the first one has index `i`; the first
defect decides. -/
def items (decode : Json → Path → Except Fault α) (parent : Path) :
    Nat → List Json → Except Fault (List α)
  | _, [] => .ok []
  | i, j :: rest => do
      let first ← decode j (parent.index i)
      let others ← items decode parent (i + 1) rest
      return first :: others

end StarkCalldata.Decoding
