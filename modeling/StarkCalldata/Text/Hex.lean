/-
Hexadecimal text, digit by digit and byte by byte.

* `hexDigit?`, `isHexDigit`: the sixteen digits, letters in either case;
* `hexDigits`: the lowercase digits of a number, without leading zeros;
* `hexLiteral`: an integer as a message quotes it, the mark `0x` in front of the sign;
* `ofDigits`: the number that a list of digits denotes in a base;
* `hexBytes?`, `bytesHex`: bytes read from and written as pairs of digits.
-/

namespace StarkCalldata.Text

/-- The value of a hexadecimal digit, nothing for other characters. -/
def hexDigit? (c : Char) : Option Nat :=
  if '0' ≤ c ∧ c ≤ '9' then some (c.toNat - 0x30)
  else if 'a' ≤ c ∧ c ≤ 'f' then some (c.toNat - 0x57)
  else if 'A' ≤ c ∧ c ≤ 'F' then some (c.toNat - 0x37)
  else none

/-- A hexadecimal digit in either case. -/
def isHexDigit (c : Char) : Bool := (hexDigit? c).isSome

/-- The number that a list of digits denotes, the most significant digit first. -/
def ofDigits (base : Nat) (digits : List Nat) : Nat :=
  digits.foldl (fun n d => base * n + d) 0

/-- The lowercase hexadecimal digits of a number, without leading zeros; zero is one digit. -/
def hexDigits (n : Nat) : List Char := Nat.toDigits 16 n

/-- The hexadecimal digits of a number, filled up with zeros on the left. -/
def hexPadded (width n : Nat) : List Char :=
  let digits := hexDigits n
  List.replicate (width - digits.length) '0' ++ digits

/-- An integer in hexadecimal; the sign of a negative one follows the mark. -/
def hexLiteral (n : Int) : String :=
  if n < 0 then "0x-" ++ String.ofList (hexDigits n.natAbs)
  else "0x" ++ String.ofList (hexDigits n.natAbs)

/-- The mark `0x` or `0X` at the start of a text is taken off; a text without it stays. -/
def dropHexMark : List Char → List Char
  | '0' :: 'x' :: rest => rest
  | '0' :: 'X' :: rest => rest
  | text => text

/-- A text that starts with the mark `0x` or `0X`. -/
def hasHexMark : List Char → Bool
  | '0' :: 'x' :: _ => true
  | '0' :: 'X' :: _ => true
  | _ => false

/-- The bytes that pairs of digits stand for; nothing for an odd number of characters or a
character that is no digit. -/
def hexBytes? : List Char → Option (List UInt8)
  | [] => some []
  | [_] => none
  | a :: b :: rest => do
      let high ← hexDigit? a
      let low ← hexDigit? b
      let bytes ← hexBytes? rest
      return UInt8.ofNat (16 * high + low) :: bytes

/-- The lowercase digits of bytes, two for each. -/
def bytesHex (bytes : List UInt8) : List Char := bytes.flatMap fun b => hexPadded 2 b.toNat

end StarkCalldata.Text
