/-
Numerals as people write them: blanks around, a sign, underscores between digits, digits of any
script.

* `underscored?`: a run of digits in which single underscores may stand between two digits;
* `readDecimal`: the integer that a decimal numeral denotes, or why there is none;
* `decimal?`: the same without the reason;
* `hexadecimal?`: the number that a hexadecimal numeral with its mark denotes;
* `digitLimit`: the number of digits beyond which a decimal numeral is refused, on reading and on
  writing alike (`Writable`).
-/
import StarkCalldata.Text.Blank
import StarkCalldata.Text.DecimalDigit
import StarkCalldata.Text.Hex

namespace StarkCalldata.Text

/-- Decimal numerals of more digits are neither read nor written. -/
def digitLimit : Nat := 4300

/-- An integer whose decimal numeral stays within the limit. -/
def Writable (n : Int) : Prop := n.natAbs < Nat.pow 10 digitLimit

instance (n : Int) : Decidable (Writable n) :=
  inferInstanceAs (Decidable (n.natAbs < Nat.pow 10 digitLimit))

/-- The digit values of a run of digits; a single underscore may stand between two digits. -/
def underscored? (digit? : Char → Option Nat) : List Char → Option (List Nat)
  | [] => none
  | [c] => (digit? c).map fun d => [d]
  | c :: '_' :: rest => do
      let d ← digit? c
      let ds ← underscored? digit? rest
      return d :: ds
  | c :: c' :: rest => do
      let d ← digit? c
      let ds ← underscored? digit? (c' :: rest)
      return d :: ds

/-- A sign taken off the front of a text; without one the text counts as positive. -/
def splitSign : List Char → Bool × List Char
  | '-' :: rest => (true, rest)
  | '+' :: rest => (false, rest)
  | text => (false, text)

/-- Why a text denotes no integer. -/
inductive NumeralFault
  /-- The text is no decimal numeral. -/
  | noNumeral
  /-- The numeral has more digits than are read. -/
  | tooLong (digits : Nat)
  deriving Repr, DecidableEq

/-- A digit of a decimal numeral, or an underscore between digits. -/
def isNumeralChar (c : Char) : Bool := c == '_' || isDecimalDigit c

/-- The integer that a decimal numeral denotes. The length of the digits is looked at before what
follows them. -/
def readDecimal (text : List Char) : Except NumeralFault Int :=
  let (negative, unsigned) := splitSign (trim isNumeralBlank text)
  let (numeral, rest) := unsigned.span isNumeralChar
  match underscored? decimalDigit? numeral with
  | none => .error .noNumeral
  | some ds =>
      if digitLimit < ds.length then .error (.tooLong ds.length)
      else if !rest.isEmpty then .error .noNumeral
      else
        let n : Int := ofDigits 10 ds
        .ok (if negative then -n else n)

/-- The integer that a decimal numeral denotes, if there is one. -/
def decimal? (text : List Char) : Option Int := (readDecimal text).toOption

/-- The value of a hexadecimal digit, or of a decimal digit of any script. -/
def wideHexDigit? (c : Char) : Option Nat := (hexDigit? c).or (decimalDigit? c)

/-- The number that a hexadecimal numeral denotes; one underscore may follow the mark. -/
def hexadecimal? (text : List Char) : Option Nat :=
  if hasHexMark text then
    let digits := match dropHexMark text with
      | '_' :: rest => rest
      | rest => rest
    (underscored? wideHexDigit? digits).map (ofDigits 16)
  else none

end StarkCalldata.Text
