/-
The lines of the transcript that the challenges are checked against.

The prover logs every message of the channel as a line. Two kinds of entries are looked for,
wherever they stand in a line: the interaction elements, each with its number and its value, and the
commitment to the trace, with the range of bytes it was read from.

* `elementAt?`, `commitmentAt?`: the value of an entry that starts a text, with the text after it;
* `scan`, `search?`: all entries of a text, or its first one;
* `elements`: the values of all interaction elements, in order;
* `commitment?`: the value of the first commitment to the trace.
-/
import StarkCalldata.Json.Token

namespace StarkCalldata.Transcript

open Text Json

/-- A run of characters of a class at the start of a text, not empty, and the text after it. -/
def many? (p : Char → Bool) (text : List Char) : Option (List Char × List Char) :=
  match text.span p with
  | ([], _) => none
  | found => some found

/-- A hexadecimal value up to the closing parenthesis, and the text after that. -/
def closedValue? (text : List Char) : Option (Nat × List Char) := do
  let (digits, rest) ← many? isHexDigit text
  let rest ← after? [')'] rest
  let values ← digits.mapM hexDigit?
  return (ofDigits 16 values, rest)

/-- The value of an interaction element that starts a text, and the text after the element: a mark,
a number in digits of any script, and a hexadecimal value. -/
def elementAt? (text : List Char) : Option (Nat × List Char) := do
  let rest ← after? "V->P: /cpu air/STARK/Interaction: Interaction element #".toList text
  let (_, rest) ← many? isDecimalDigit rest
  let rest ← after? ": Field Element(0x".toList rest
  closedValue? rest

/-- The value of a commitment to the trace that starts a text, and the text after the commitment: a
mark with a range of bytes, and a hexadecimal value. -/
def commitmentAt? (text : List Char) : Option (Nat × List Char) := do
  let rest ← after? "P->V[".toList text
  let (_, rest) ← many? isDecimalDigit rest
  let rest ← after? [':'] rest
  let (_, rest) ← many? isDecimalDigit rest
  let rest ← after? "]: /cpu air/STARK/Original/Commit on Trace: Hash(0x".toList rest
  closedValue? rest

/-- What a reader finds in a text, from left to right. The search goes on behind whatever has been
found: the next `skipped` characters still belong to it. -/
def scan (found? : List Char → Option (Nat × List Char)) : Nat → List Char → List Nat
  | _, [] => []
  | skipped + 1, _ :: rest => scan found? skipped rest
  | 0, c :: rest =>
      match found? (c :: rest) with
      | some (n, after) => n :: scan found? (rest.length - after.length) rest
      | none => scan found? 0 rest

/-- The first that a reader finds in a text. -/
def search? (found? : List Char → Option (Nat × List Char)) : List Char → Option Nat
  | [] => none
  | c :: rest =>
      match found? (c :: rest) with
      | some (n, _) => some n
      | none => search? found? rest

/-- The values of all interaction elements, line by line and from left to right. -/
def elements (lines : List String) : List Nat :=
  lines.flatMap fun line => scan elementAt? 0 line.toList

/-- The value of the first commitment to the trace. -/
def commitment? (lines : List String) : Option Nat :=
  lines.findSome? fun line => search? commitmentAt? line.toList

end StarkCalldata.Transcript
