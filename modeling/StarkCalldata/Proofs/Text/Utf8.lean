import Mathlib.Tactic
import StarkCalldata.Text.Utf8

/-!
Text that is written as bytes and read again.

A character is written as a first byte, which announces how many bytes follow, and bytes with six
bits each. Reading gathers the bits, and the ranges of the second byte exclude nothing that is
written:

* `announce?_two`, `announce?_three`, `announce?_four`: what the first bytes announce;
* `decodeAux_next`: a byte that follows adds its bits;
* `decodeAux_encodeChar`: the bytes of a character are read as this character;
* `decode_encode`: a text is read as it was written.
-/

namespace StarkCalldata.Text.Utf8

variable {position read k : ℕ} {done : List Char} {rest : List UInt8}

/-! ### First bytes -/

lemma toNat_ofNat {n : ℕ} (h : n < 256) : (UInt8.ofNat n).toNat = n := UInt8.toNat_ofNat_of_lt' h

lemma decodeAux_ascii {n : ℕ} (h : n < 0x80) :
    decodeAux position none done (UInt8.ofNat n :: rest) =
      decodeAux (position + 1) none (Char.ofNat n :: done) rest := by
  have hn : (UInt8.ofNat n).toNat = n := toNat_ofNat (by omega)
  have hlt : UInt8.ofNat n < 0x80 := by
    rw [UInt8.lt_iff_toNat_lt, hn]
    exact h
  rw [decodeAux, if_pos hlt, hn]

lemma decodeAux_lead {b : UInt8} {p : Pending} (hb : 0x80 ≤ b.toNat) (h : announce? b = some p) :
    decodeAux position none done (b :: rest) =
      decodeAux (position + 1) (some (p, 1)) done rest := by
  have hnot : ¬ b < 0x80 := by
    rw [UInt8.lt_iff_toNat_lt]
    exact Nat.not_lt.mpr hb
  rw [decodeAux, if_neg hnot, h]

/-- The first of two bytes. -/
lemma announce?_two (hk : 2 ≤ k) (hk' : k < 32) :
    announce? (UInt8.ofNat (0xC0 + k)) = some ⟨UInt8.ofNat (0xC0 + k), k, 1, 0x80, 0xBF⟩ := by
  interval_cases k <;> rfl

/-- The first of three bytes; the second one must not spell a shorter form or a surrogate. -/
lemma announce?_three (hk : k < 16) :
    announce? (UInt8.ofNat (0xE0 + k)) = some ⟨UInt8.ofNat (0xE0 + k), k, 2,
      if k = 0 then 0xA0 else 0x80, if k = 13 then 0x9F else 0xBF⟩ := by
  interval_cases k <;> rfl

/-- The first of four bytes; the second one must not spell a shorter form or go beyond the last code
point. -/
lemma announce?_four (hk : k < 5) :
    announce? (UInt8.ofNat (0xF0 + k)) = some ⟨UInt8.ofNat (0xF0 + k), k, 3,
      if k = 0 then 0x90 else 0x80, if k = 4 then 0x8F else 0xBF⟩ := by
  interval_cases k <;> rfl

/-! ### Bytes that follow -/

/-- A byte that follows adds its six bits. -/
lemma decodeAux_next {p : Pending} {bits : ℕ} (hbits : bits < 64)
    (hlow : p.low.toNat ≤ 0x80 + bits) (hhigh : 0x80 + bits ≤ p.high.toNat) :
    decodeAux position (some (p, read)) done (UInt8.ofNat (0x80 + bits) :: rest) =
      if p.owed ≤ 1 then
        decodeAux (position + 1) none (Char.ofNat (64 * p.bits + bits) :: done) rest
      else
        decodeAux (position + 1)
          (some (⟨p.lead, 64 * p.bits + bits, p.owed - 1, 0x80, 0xBF⟩, read + 1)) done rest := by
  have hb : (UInt8.ofNat (0x80 + bits)).toNat = 0x80 + bits :=
    toNat_ofNat (by omega)
  have hrange : p.low ≤ UInt8.ofNat (0x80 + bits) ∧ UInt8.ofNat (0x80 + bits) ≤ p.high := by
    rw [UInt8.le_iff_toNat_le, UInt8.le_iff_toNat_le, hb]
    exact ⟨hlow, hhigh⟩
  rw [decodeAux, if_pos hrange, hb, Nat.add_sub_cancel_left]

lemma decodeAux_last {p : Pending} {bits n : ℕ} (howed : p.owed = 1) (hbits : bits < 64)
    (hlow : p.low.toNat ≤ 0x80 + bits) (hhigh : 0x80 + bits ≤ p.high.toNat)
    (hn : 64 * p.bits + bits = n) :
    decodeAux position (some (p, read)) done (UInt8.ofNat (0x80 + bits) :: rest) =
      decodeAux (position + 1) none (Char.ofNat n :: done) rest := by
  rw [decodeAux_next hbits hlow hhigh, if_pos howed.le, hn]

/-- A byte before the last one. -/
lemma decodeAux_more {p : Pending} {bits : ℕ} (howed : 1 < p.owed) (hbits : bits < 64)
    (hlow : p.low.toNat ≤ 0x80 + bits) (hhigh : 0x80 + bits ≤ p.high.toNat) :
    decodeAux position (some (p, read)) done (UInt8.ofNat (0x80 + bits) :: rest) =
      decodeAux (position + 1)
        (some (⟨p.lead, 64 * p.bits + bits, p.owed - 1, 0x80, 0xBF⟩, read + 1)) done rest := by
  rw [decodeAux_next hbits hlow hhigh, if_neg (Nat.not_le.mpr howed)]

/-! ### Characters -/

/-- The bytes of a character are read as this character. -/
lemma decodeAux_encodeChar (c : Char) (position : ℕ) (done : List Char) (rest : List UInt8) :
    ∃ position', decodeAux position none done (encodeChar c ++ rest) =
      decodeAux position' none (c :: done) rest := by
  have hc : Char.ofNat c.toNat = c := Char.ofNat_toNat c
  have hvalid : c.toNat < 0xD800 ∨ 0xDFFF < c.toNat ∧ c.toNat < 0x110000 := c.valid
  rw [encodeChar]
  generalize c.toNat = n at hc hvalid ⊢
  subst hc
  split_ifs with hone htwo hthree
  · exact ⟨_, decodeAux_ascii hone⟩
  · have hlead := announce?_two (k := n / 64) (by omega) (by omega)
    rw [List.cons_append, decodeAux_lead (by rw [toNat_ofNat] <;> omega) hlead]
    exact ⟨_, decodeAux_last rfl (by omega) (by simp) (by simp; omega) (by simp only; omega)⟩
  · have hlead := announce?_three (k := n / 4096) (by omega)
    have hlow : (if n / 4096 = 0 then 0xA0 else 0x80 : UInt8).toNat ≤ 0x80 + n / 64 % 64 := by
      split_ifs <;> simp; omega
    have hhigh : 0x80 + n / 64 % 64 ≤ (if n / 4096 = 13 then 0x9F else 0xBF : UInt8).toNat := by
      split_ifs <;> simp <;> omega
    rw [List.cons_append, decodeAux_lead (by rw [toNat_ofNat] <;> omega) hlead, List.cons_append,
      decodeAux_more (by simp) (by omega) hlow hhigh]
    exact ⟨_, decodeAux_last rfl (by omega) (by simp) (by simp; omega) (by simp only; omega)⟩
  · have hlead := announce?_four (k := n / 262144) (by omega)
    have hlow : (if n / 262144 = 0 then 0x90 else 0x80 : UInt8).toNat ≤ 0x80 + n / 4096 % 64 := by
      split_ifs <;> simp; omega
    have hhigh : 0x80 + n / 4096 % 64 ≤ (if n / 262144 = 4 then 0x8F else 0xBF : UInt8).toNat := by
      split_ifs <;> simp <;> omega
    rw [List.cons_append, decodeAux_lead (by rw [toNat_ofNat] <;> omega) hlead, List.cons_append,
      decodeAux_more (by simp) (by omega) hlow hhigh, List.cons_append,
      decodeAux_more (by simp) (by omega) (by simp) (by simp; omega)]
    exact ⟨_, decodeAux_last rfl (by omega) (by simp) (by simp; omega) (by simp only; omega)⟩

/-- **A text is read as it was written.** -/
theorem decode_encode (text : List Char) : decode (encode text) = .ok text := by
  have haux (position : ℕ) (done : List Char) :
      decodeAux position none done (encode text) = .ok (done.reverse ++ text) := by
    induction text generalizing position done with
    | nil => simp [encode, decodeAux]
    | cons c text ih =>
        obtain ⟨position', hc⟩ := decodeAux_encodeChar c position done (encode text)
        have hencode : encode (c :: text) = encodeChar c ++ encode text := List.flatMap_cons
        rw [hencode, hc, ih]
        simp
  exact haux 0 []

end StarkCalldata.Text.Utf8
