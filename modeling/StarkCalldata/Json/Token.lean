/-
The tokens of JSON text.

* `Token`: marks, strings, values of one word, numbers, and the two ways in which no value follows;
* `scanString?`: the rest of a string after its opening mark, with its code units;
* `scanText?`: the same with its characters;
* `scanNumber?`: a number at the start of a text;
* `nextToken`: the first token of a text and the text after it.

A number without fraction and exponent is an integer. Its digits are counted before they are read:
beyond `Text.digitLimit` of them the numeral is refused. Surrogate escapes that form a pair denote
one character. A surrogate alone is no character, and strings are made of characters: a text with
such an escape is refused.
-/
import StarkCalldata.Json.Basic
import StarkCalldata.Text.Numeral

namespace StarkCalldata.Json

open Text

/-- A token of JSON text. -/
inductive Token
  | openBrace
  | closeBrace
  | openBracket
  | closeBracket
  | comma
  | colon
  /-- A string with its characters. -/
  | text (s : String)
  /-- A value that is a single token and no string. -/
  | scalar (value : Json)
  /-- An integer with more digits than are read. -/
  | tooLong (digits : Nat)
  /-- Characters that start no token. -/
  | junk
  /-- The end of the text. -/
  | finish

/-- The four blanks that may stand between tokens. -/
def isSpace (c : Char) : Bool := c = ' ' || c = '\t' || c = '\n' || c = '\r'

/-- An ASCII digit. -/
def isAsciiDigit (c : Char) : Bool := '0' ≤ c && c ≤ '9'

/-- The number that ASCII digits denote. -/
def asciiValue (digits : List Char) : Nat := ofDigits 10 (digits.map fun c => c.toNat - 0x30)

/-- The character that a letter after a backslash stands for. -/
def simpleEscape? (c : Char) : Option Nat :=
  if c = doubleQuote then some 0x22
  else if c = backslash then some 0x5C
  else if c = '/' then some 0x2F
  else if c = 'b' then some 0x08
  else if c = 'f' then some 0x0C
  else if c = 'n' then some 0x0A
  else if c = 'r' then some 0x0D
  else if c = 't' then some 0x09
  else none
where
  doubleQuote : Char := '\x22'
  backslash : Char := '\x5c'

/-- The code units of a string after its opening mark, and the text after its closing mark. Nothing
if the string does not end, holds a control character or an escape that is none. -/
def scanString? (done : List Nat) : List Char → Option (List Nat × List Char)
  | [] => none
  | '\x22' :: rest => some (done.reverse, rest)
  | '\x5c' :: 'u' :: a :: b :: c :: d :: rest => do
      let a ← hexDigit? a
      let b ← hexDigit? b
      let c ← hexDigit? c
      let d ← hexDigit? d
      scanString? (ofDigits 16 [a, b, c, d] :: done) rest
  | '\x5c' :: c :: rest => do
      let u ← simpleEscape? c
      scanString? (u :: done) rest
  | c :: rest => if c.toNat < 0x20 ∨ c = '\x5c' then none else scanString? (c.toNat :: done) rest

/-- The characters of code units: a high and a low surrogate in a row are one character. Nothing if
a surrogate stands alone. -/
def joinSurrogates : List Nat → Option (List Char)
  | [] => some []
  | [u] => if 0xD800 ≤ u ∧ u < 0xE000 then none else some [Char.ofNat u]
  | u :: v :: rest =>
      if 0xD800 ≤ u ∧ u < 0xDC00 ∧ 0xDC00 ≤ v ∧ v < 0xE000 then
        (joinSurrogates rest).map
          (Char.ofNat (0x10000 + (u - 0xD800) * 0x400 + (v - 0xDC00)) :: ·)
      else if 0xD800 ≤ u ∧ u < 0xE000 then none
      else (joinSurrogates (v :: rest)).map (Char.ofNat u :: ·)

/-- The string after an opening mark, and the text after its closing mark. -/
def scanText? (text : List Char) : Option (Token × List Char) := do
  let (units, rest) ← scanString? [] text
  let found ← joinSurrogates units
  return (.text (String.ofList found), rest)

/-- The digits after a point, with the text after them; without a digit there is no fraction. -/
def scanFraction (text : List Char) : List Char × List Char :=
  match text with
  | '.' :: rest =>
      match rest.span isAsciiDigit with
      | ([], _) => ([], text)
      | found => found
  | _ => ([], text)

/-- The exponent at the start of a text, with the text after it; nothing if there is none. -/
def scanExponent? (text : List Char) : Option (Int × List Char) :=
  match text with
  | c :: rest =>
      if c = 'e' ∨ c = 'E' then
        let (negative, digits) := splitSign rest
        match digits.span isAsciiDigit with
        | ([], _) => none
        | (found, rest) =>
            let n : Int := asciiValue found
            some (if negative then -n else n, rest)
      else none
  | [] => none

/-- The digits before the point: a single zero, or digits that do not start with one. -/
def scanWhole (text : List Char) : List Char × List Char :=
  match text with
  | '0' :: rest => (['0'], rest)
  | _ => text.span isAsciiDigit

/-- The number at the start of a text, and the text after it. -/
def scanNumber? (text : List Char) : Option (Token × List Char) :=
  let (negative, digits) := match text with
    | '-' :: rest => (true, rest)
    | _ => (false, text)
  match scanWhole digits with
  | ([], _) => none
  | (whole, rest) =>
      let (fraction, rest) := scanFraction rest
      match scanExponent? rest, fraction with
      | none, [] =>
          if whole.length ≤ digitLimit then
            let n : Int := asciiValue whole
            some (.scalar (.int (if negative then -n else n)), rest)
          else some (.tooLong whole.length, rest)
      | none, _ :: _ =>
          some (.scalar (.float
            (.ofDecimal negative (asciiValue (whole ++ fraction)) (-fraction.length))), rest)
      | some (e, rest), _ =>
          some (.scalar (.float
            (.ofDecimal negative (asciiValue (whole ++ fraction)) (e - fraction.length))), rest)

/-- The values written as a word. -/
def words : List (List Char × Json) :=
  [("null".toList, .null), ("true".toList, .bool true), ("false".toList, .bool false),
   ("NaN".toList, .float .nan), ("Infinity".toList, .float (.infinite false)),
   ("-Infinity".toList, .float (.infinite true))]

/-- The text after a given beginning. -/
def after? : List Char → List Char → Option (List Char)
  | [], text => some text
  | _ :: _, [] => none
  | c :: start, c' :: text => if c = c' then after? start text else none

/-- The word at the start of a text, and the text after it. -/
def scanWord? (text : List Char) : Option (Token × List Char) :=
  words.findSome? fun w => (after? w.1 text).map fun rest => (.scalar w.2, rest)

/-- The first token of a text that does not start with a blank, and the text after it. -/
def tokenAt : List Char → Token × List Char
  | [] => (.finish, [])
  | c :: rest =>
      if c = '\x7b' then (.openBrace, rest)
      else if c = '\x7d' then (.closeBrace, rest)
      else if c = '[' then (.openBracket, rest)
      else if c = ']' then (.closeBracket, rest)
      else if c = ',' then (.comma, rest)
      else if c = ':' then (.colon, rest)
      else if c = '\x22' then
        match scanText? rest with
        | some found => found
        | none => (.junk, [])
      else
        match (scanWord? (c :: rest)).or (scanNumber? (c :: rest)) with
        | some found => found
        | none => (.junk, [])

/-- The first token of a text and the text after it; blanks before the token are skipped. -/
def nextToken (text : List Char) : Token × List Char := tokenAt (text.dropWhile isSpace)

end StarkCalldata.Json
