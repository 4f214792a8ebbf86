/-
Writing JSON text, in ASCII.

* `escaped`: a string between its marks; what is not printable ASCII is escaped, a character beyond
  the basic plane as a pair of surrogates;
* `numberText`: a number as it is written;
* `compact`: a value on one line, with a blank after commas and colons;
* `pretty`: a value over several lines, two blanks further in on each level.
-/
import StarkCalldata.Binary64.Shortest
import StarkCalldata.Json.Basic
import StarkCalldata.Text.Hex

namespace StarkCalldata.Json

open Text

/-- A code unit as an escape of four digits. -/
def unitEscape (u : Nat) : List Char := '\x5c' :: 'u' :: hexPadded 4 u

/-- One character within a string. -/
def escapedChar (c : Char) : List Char :=
  if c = '\x22' then ['\x5c', '\x22']
  else if c = '\x5c' then ['\x5c', '\x5c']
  else if c = '\n' then ['\x5c', 'n']
  else if c = '\r' then ['\x5c', 'r']
  else if c = '\t' then ['\x5c', 't']
  else if c = '\x0c' then ['\x5c', 'f']
  else if c = '\x08' then ['\x5c', 'b']
  else if 0x20 ≤ c.toNat ∧ c.toNat ≤ 0x7E then [c]
  else if c.toNat < 0x10000 then unitEscape c.toNat
  else
    let u := c.toNat - 0x10000
    unitEscape (0xD800 + u / 0x400) ++ unitEscape (0xDC00 + u % 0x400)

/-- A string between its marks. -/
def escaped (s : String) : List Char := '\x22' :: s.toList.flatMap escapedChar ++ ['\x22']

/-- A floating point number as it is written. -/
def floatText : Binary64 → String
  | .nan => "NaN"
  | .infinite negative => if negative then "-Infinity" else "Infinity"
  | x => x.text

/-- A value that is no array or object and no string. -/
def numberText : Json → List Char
  | .null => "null".toList
  | .bool b => (if b then "true" else "false").toList
  | .int n => (toString n).toList
  | .float x => (floatText x).toList
  | _ => []

/-- A new line with the blanks of a level. -/
def newline (level : Nat) : List Char := '\n' :: List.replicate (2 * level) ' '

mutual

/-- A value on one line. -/
def compact : Json → List Char
  | .str s => escaped s
  | .arr items => '[' :: compactItems items ++ [']']
  | .obj fields => '\x7b' :: compactFields fields ++ ['\x7d']
  | j => numberText j

/-- The items of an array on one line. -/
def compactItems : List Json → List Char
  | [] => []
  | [j] => compact j
  | j :: rest => compact j ++ ',' :: ' ' :: compactItems rest

/-- The fields of an object on one line. -/
def compactFields : List (String × Json) → List Char
  | [] => []
  | [(name, j)] => escaped name ++ ':' :: ' ' :: compact j
  | (name, j) :: rest => escaped name ++ ':' :: ' ' :: compact j ++ ',' :: ' ' :: compactFields rest

end

mutual

/-- A value over several lines, from a place on the given level. -/
def pretty (level : Nat) : Json → List Char
  | .str s => escaped s
  | .arr [] => ['[', ']']
  | .arr (j :: rest) =>
      '[' :: newline (level + 1) ++ prettyItems (level + 1) (j :: rest) ++ newline level ++ [']']
  | .obj [] => ['\x7b', '\x7d']
  | .obj (f :: rest) =>
      '\x7b' :: newline (level + 1) ++ prettyFields (level + 1) (f :: rest)
        ++ newline level ++ ['\x7d']
  | j => numberText j

/-- The items of an array, each on its own line of the given level. -/
def prettyItems (level : Nat) : List Json → List Char
  | [] => []
  | [j] => pretty level j
  | j :: rest => pretty level j ++ ',' :: newline level ++ prettyItems level rest

/-- The fields of an object, each on its own line of the given level. -/
def prettyFields (level : Nat) : List (String × Json) → List Char
  | [] => []
  | [(name, j)] => escaped name ++ ':' :: ' ' :: pretty level j
  | (name, j) :: rest =>
      escaped name ++ ':' :: ' ' :: pretty level j ++ ',' :: newline level
        ++ prettyFields level rest

end

end StarkCalldata.Json
