/-
UTF-8: text as bytes and back.

Reading goes byte by byte. A first byte says how many bytes follow and in which range the second
one lies, which excludes overlong forms, surrogates and code points beyond the last one.

* `encode`: the bytes of a text;
* `Malformation`: why bytes are no text, and where;
* `decode`: the text that bytes stand for, or the first malformation.
-/
import StarkCalldata.Text.Hex

namespace StarkCalldata.Text.Utf8

/-- The bytes of one character. -/
def encodeChar (c : Char) : List UInt8 :=
  let n := c.toNat
  if n < 0x80 then [UInt8.ofNat n]
  else if n < 0x800 then [UInt8.ofNat (0xC0 + n / 64), UInt8.ofNat (0x80 + n % 64)]
  else if n < 0x10000 then
    [UInt8.ofNat (0xE0 + n / 4096), UInt8.ofNat (0x80 + n / 64 % 64), UInt8.ofNat (0x80 + n % 64)]
  else
    [UInt8.ofNat (0xF0 + n / 262144), UInt8.ofNat (0x80 + n / 4096 % 64),
     UInt8.ofNat (0x80 + n / 64 % 64), UInt8.ofNat (0x80 + n % 64)]

/-- The bytes of a text. -/
def encode (text : List Char) : List UInt8 := text.flatMap encodeChar

/-- Why bytes are no text. The position counts bytes from zero. -/
inductive Malformation
  /-- The byte `lead` at `position` cannot start a character. -/
  | invalidStart (lead : UInt8) (position : Nat)
  /-- The character that starts with `lead` at `position` breaks off after `length` bytes, where
  the next byte does not continue it. -/
  | invalidContinuation (lead : UInt8) (position length : Nat)
  /-- The bytes end within the character that starts with `lead` at `position`, after `length`
  of its bytes. -/
  | unexpectedEnd (lead : UInt8) (position length : Nat)
  deriving Repr, DecidableEq

/-- Where the bytes at fault stand: the byte itself if there is only one. -/
def place (lead : UInt8) (position length : Nat) : String :=
  if length = 1 then
    "byte 0x" ++ String.ofList (hexPadded 2 lead.toNat) ++ " in position " ++ toString position
  else "bytes in position " ++ toString position ++ "-" ++ toString (position + length - 1)

/-- A malformation in words. -/
def Malformation.wording : Malformation → String
  | .invalidStart lead position =>
      "\x27utf-8\x27 codec can\x27t decode " ++ place lead position 1 ++ ": invalid start byte"
  | .invalidContinuation lead position length =>
      "\x27utf-8\x27 codec can\x27t decode " ++ place lead position length
        ++ ": invalid continuation byte"
  | .unexpectedEnd lead position length =>
      "\x27utf-8\x27 codec can\x27t decode " ++ place lead position length
        ++ ": unexpected end of data"

/-- A character of which the first bytes have been read. -/
structure Pending where
  /-- The first byte. -/
  lead : UInt8
  /-- The bits gathered so far. -/
  bits : Nat
  /-- How many bytes are still to come. -/
  owed : Nat
  /-- The least byte that may come next. -/
  low : UInt8
  /-- The greatest byte that may come next. -/
  high : UInt8

/-- What a first byte beyond ASCII announces. -/
def announce? (b : UInt8) : Option Pending :=
  if b < 0xC2 then none
  else if b < 0xE0 then some ⟨b, b.toNat - 0xC0, 1, 0x80, 0xBF⟩
  else if b = 0xE0 then some ⟨b, 0, 2, 0xA0, 0xBF⟩
  else if b = 0xED then some ⟨b, 0xD, 2, 0x80, 0x9F⟩
  else if b < 0xF0 then some ⟨b, b.toNat - 0xE0, 2, 0x80, 0xBF⟩
  else if b = 0xF0 then some ⟨b, 0, 3, 0x90, 0xBF⟩
  else if b < 0xF4 then some ⟨b, b.toNat - 0xF0, 3, 0x80, 0xBF⟩
  else if b = 0xF4 then some ⟨b, 4, 3, 0x80, 0x8F⟩
  else none

/-- Reading from byte `position` on: `pending` is the character begun but not ended, with the
number of its bytes read, and `done` holds the characters before it, the last one first. -/
def decodeAux (position : Nat) (pending : Option (Pending × Nat)) (done : List Char) :
    List UInt8 → Except Malformation (List Char)
  | [] =>
      match pending with
      | none => .ok done.reverse
      | some (p, read) => .error (.unexpectedEnd p.lead (position - read) read)
  | b :: rest =>
      match pending with
      | none =>
          if b < 0x80 then decodeAux (position + 1) none (Char.ofNat b.toNat :: done) rest
          else
            match announce? b with
            | none => .error (.invalidStart b position)
            | some p => decodeAux (position + 1) (some (p, 1)) done rest
      | some (p, read) =>
          if p.low ≤ b ∧ b ≤ p.high then
            let bits := 64 * p.bits + (b.toNat - 0x80)
            if p.owed ≤ 1 then decodeAux (position + 1) none (Char.ofNat bits :: done) rest
            else
              decodeAux (position + 1) (some (⟨p.lead, bits, p.owed - 1, 0x80, 0xBF⟩, read + 1))
                done rest
          else .error (.invalidContinuation p.lead (position - read) read)

/-- The text that bytes stand for. -/
def decode (bytes : List UInt8) : Except Malformation (List Char) := decodeAux 0 none [] bytes

end StarkCalldata.Text.Utf8
