/-
Decimal digits of all scripts: the characters of Unicode category Nd.

Every script writes its ten digits in a run of ten consecutive code points that starts at its zero,
so the table lists the zeros only.

* `zeros`: the code points of the zeros, ascending;
* `decimalDigit?`: the value of a digit of any script, nothing for other characters;
* `decimalDigit?_lt`: such a value is below ten.
-/

namespace StarkCalldata.Text

/-- The code points that stand for zero, one for each run of decimal digits, ascending. -/
def zeros : List Nat :=
  [0x30, 0x660, 0x6F0, 0x7C0, 0x966, 0x9E6, 0xA66, 0xAE6, 0xB66, 0xBE6, 0xC66, 0xCE6, 0xD66,
   0xDE6, 0xE50, 0xED0, 0xF20, 0x1040, 0x1090, 0x17E0, 0x1810, 0x1946, 0x19D0, 0x1A80, 0x1A90,
   0x1B50, 0x1BB0, 0x1C40, 0x1C50, 0xA620, 0xA8D0, 0xA900, 0xA9D0, 0xA9F0, 0xAA50, 0xABF0,
   0xFF10, 0x104A0, 0x10D30, 0x11066, 0x110F0, 0x11136, 0x111D0, 0x112F0, 0x11450, 0x114D0,
   0x11650, 0x116C0, 0x11730, 0x118E0, 0x11950, 0x11C50, 0x11D50, 0x11DA0, 0x16A60, 0x16AC0,
   0x16B50, 0x1D7CE, 0x1D7D8, 0x1D7E2, 0x1D7EC, 0x1D7F6, 0x1E140, 0x1E2F0, 0x1E950, 0x1FBF0]

/-- The value of a decimal digit of any script. -/
def decimalDigit? (c : Char) : Option Nat :=
  if c.toNat < 0x80 then
    if '0' ≤ c ∧ c ≤ '9' then some (c.toNat - 0x30) else none
  else
    (zeros.find? fun z => z ≤ c.toNat ∧ c.toNat < z + 10).map fun z => c.toNat - z

/-- A character that stands for a decimal digit. -/
def isDecimalDigit (c : Char) : Bool := (decimalDigit? c).isSome

/-- The value of a decimal digit is below ten. -/
theorem decimalDigit?_lt {c : Char} {d : Nat} (h : decimalDigit? c = some d) : d < 10 := by
  unfold decimalDigit? at h
  split at h
  · split at h
    · rename_i hc
      have h9 : c.toNat ≤ '9'.toNat := hc.2
      simp only [Option.some.injEq] at h
      have : '9'.toNat = 57 := rfl
      omega
    · cases h
  · obtain ⟨z, hz, rfl⟩ := Option.map_eq_some_iff.1 h
    have := List.find?_some hz
    simp only [decide_eq_true_eq] at this
    omega

end StarkCalldata.Text
