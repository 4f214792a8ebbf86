import Mathlib.Tactic
import StarkCalldata.Proof.Decoding

/-!
Hexadecimal numbers read back, and are spelled in one way.

The digits that a number is written in denote it again (`ofDigits_hexDigits`), and so does the
literal with its mark (`hexNumber?_hexLiteral`). Filling up with zeros leaves the last digit in its
place (`hexPadded_succ`). Lowercase digits without leading zeros are those of the number that they
denote (`areDigitsOf_iff`), so the literal is the only spelling of a number (`spells_iff`).

Digits may have a mark in front of them, which is taken off (`dropHexMark_append`). Two digits in a
row are the halves of a byte, and they are read as this byte (`DenoteBytes`, `hexBytes?_eq_some`),
so exactly the digits that come in pairs are read as bytes (`exists_denoteBytes`).
-/

namespace StarkCalldata.Text

lemma hexDigit?_digitChar {d : ℕ} (h : d < 16) : hexDigit? (Nat.digitChar d) = some d := by
  interval_cases d <;> rfl

lemma ofDigits_append_singleton (base : ℕ) (ds : List ℕ) (d : ℕ) :
    ofDigits base (ds ++ [d]) = base * ofDigits base ds + d := by
  simp [ofDigits]

lemma hexDigits_of_lt {n : ℕ} (h : n < 16) : hexDigits n = [Nat.digitChar n] := by
  rw [hexDigits, Nat.toDigits_of_lt_base h]

/-- The last digit of a number is its remainder, and the digits before it are those of the
quotient. -/
lemma hexDigits_of_le {n : ℕ} (h : 16 ≤ n) :
    hexDigits n = hexDigits (n / 16) ++ [Nat.digitChar (n % 16)] := by
  rw [hexDigits, hexDigits, Nat.toDigits_of_base_le (by norm_num) h]

/-- The digits that a number is written in denote it. -/
lemma ofDigits_hexDigits (n : ℕ) :
    ∃ ds, (hexDigits n).mapM hexDigit? = some ds ∧ ofDigits 16 ds = n := by
  induction n using Nat.strong_induction_on with
  | _ n ih =>
      by_cases h : n < 16
      · refine ⟨[n], ?_, by simp [ofDigits]⟩
        simp [hexDigits_of_lt h, hexDigit?_digitChar h]
      · obtain ⟨ds, hds, hvalue⟩ := ih (n / 16) (by omega)
        have hlast : n % 16 < 16 := Nat.mod_lt _ (by norm_num)
        refine ⟨ds ++ [n % 16], ?_, ?_⟩
        · rw [hexDigits_of_le (by omega), List.mapM_append]
          simp [hds, hexDigit?_digitChar hlast]
        · rw [ofDigits_append_singleton, hvalue]
          omega

lemma hexDigits_ne_nil (n : ℕ) : hexDigits n ≠ [] := Nat.toDigits_ne_nil

lemma hexPadded_one {n : ℕ} (h : n < 16) : hexPadded 1 n = [Nat.digitChar n] := by
  rw [hexPadded, hexDigits_of_lt h]
  rfl

/-- The last of the filled up digits is the remainder, and those before it are the filled up digits
of the quotient. -/
lemma hexPadded_succ {width : ℕ} (hwidth : 0 < width) (n : ℕ) :
    hexPadded (width + 1) n = hexPadded width (n / 16) ++ [Nat.digitChar (n % 16)] := by
  rw [hexPadded, hexPadded]
  by_cases hsmall : n < 16
  · obtain ⟨width, rfl⟩ : ∃ k, width = k + 1 := ⟨width - 1, by omega⟩
    have hdiv : n / 16 = 0 := Nat.div_eq_of_lt hsmall
    have hmod : n % 16 = n := Nat.mod_eq_of_lt hsmall
    rw [hexDigits_of_lt hsmall, hdiv, hmod, hexDigits_of_lt (by norm_num)]
    simp [List.replicate_succ', Nat.digitChar]
  · rw [hexDigits_of_le (by omega)]
    simp

lemma toList_hexLiteral (n : ℕ) : (hexLiteral n).toList = '0' :: 'x' :: hexDigits n := by
  have h : ¬ (n : ℤ) < 0 := by omega
  simp [hexLiteral, h]

lemma hasHexMark_hexLiteral (n : ℕ) : hasHexMark (hexLiteral n).toList = true := by
  rw [toList_hexLiteral]
  rfl

/-- The literal of a number denotes it. -/
theorem hexNumber?_hexLiteral (n : ℕ) : Decoding.hexNumber? (hexLiteral n).toList = some n := by
  obtain ⟨ds, hds, hvalue⟩ := ofDigits_hexDigits n
  have hne : (hexDigits n).isEmpty = false := by simpa using hexDigits_ne_nil n
  rw [toList_hexLiteral]
  simp [Decoding.hexNumber?, dropHexMark, hne, hds, hvalue]

/-! ### Spelling -/

/-- The sixteen digits, with lowercase letters. -/
def lowerDigits : List Char :=
  ['0', '1', '2', '3', '4', '5', '6', '7', '8', '9', 'a', 'b', 'c', 'd', 'e', 'f']

/-- Lowercase hexadecimal digits without leading zeros, which denote a number. -/
structure AreDigitsOf (digits : List Char) (n : ℕ) : Prop where
  ne_nil : digits ≠ []
  lower : ∀ c ∈ digits, c ∈ lowerDigits
  leading : digits.head? = some '0' → digits = ['0']
  denote : ∃ ds, digits.mapM hexDigit? = some ds ∧ ofDigits 16 ds = n

/-- A text spells a number: the mark, and lowercase digits of the number without leading zeros. -/
def Spells (s : String) (n : ℕ) : Prop :=
  ∃ digits, s.toList = '0' :: 'x' :: digits ∧ AreDigitsOf digits n

lemma mem_lowerDigits {c : Char} : c ∈ lowerDigits ↔ ∃ d < 16, Nat.digitChar d = c := by
  have hall : lowerDigits = (List.range 16).map Nat.digitChar := rfl
  simp only [hall, List.mem_map, List.mem_range]

lemma lower_of_mem_hexDigits (n : ℕ) : ∀ c ∈ hexDigits n, c ∈ lowerDigits := by
  induction n using Nat.strong_induction_on with
  | _ n ih =>
      by_cases h : n < 16
      · rw [hexDigits_of_lt h]
        exact List.forall_mem_singleton.mpr (mem_lowerDigits.mpr ⟨n, h, rfl⟩)
      · rw [hexDigits_of_le (by omega)]
        exact List.forall_mem_append.mpr ⟨ih (n / 16) (by omega), List.forall_mem_singleton.mpr
          (mem_lowerDigits.mpr ⟨n % 16, Nat.mod_lt _ (by norm_num), rfl⟩)⟩

lemma head?_hexDigits {n : ℕ} (h : n ≠ 0) : (hexDigits n).head? ≠ some '0' := by
  induction n using Nat.strong_induction_on with
  | _ n ih =>
      by_cases hsmall : n < 16
      · rw [hexDigits_of_lt hsmall]
        interval_cases n <;> first | contradiction | decide
      · rw [hexDigits_of_le (by omega), List.head?_append_of_ne_nil _ (hexDigits_ne_nil _)]
        exact ih (n / 16) (by omega) (by omega)

lemma areDigitsOf_hexDigits (n : ℕ) : AreDigitsOf (hexDigits n) n where
  ne_nil := hexDigits_ne_nil n
  lower := lower_of_mem_hexDigits n
  leading hzero := by
    obtain rfl : n = 0 := by
      by_contra hne
      exact head?_hexDigits hne hzero
    rfl
  denote := ofDigits_hexDigits n

/-- Digits without leading zeros are the ones that the number they denote is written in. -/
theorem areDigitsOf_iff {digits : List Char} {n : ℕ} :
    AreDigitsOf digits n ↔ digits = hexDigits n := by
  refine ⟨fun h => ?_, fun h => h ▸ areDigitsOf_hexDigits n⟩
  induction digits using List.reverseRecOn generalizing n with
  | nil => exact absurd rfl h.ne_nil
  | append_singleton front c ih =>
      obtain ⟨hfront, hlast⟩ := List.forall_mem_append.mp h.lower
      obtain ⟨d, hd, rfl⟩ := mem_lowerDigits.mp (List.forall_mem_singleton.mp hlast)
      obtain ⟨ds, hds, rfl⟩ := h.denote
      rw [List.mapM_append] at hds
      simp only [List.mapM_cons, hexDigit?_digitChar hd, List.mapM_nil, Option.pure_def,
        Option.bind_eq_bind, Option.bind_some, Option.bind_eq_some_iff, Option.some.injEq] at hds
      obtain ⟨es, hes, rfl⟩ := hds
      rw [ofDigits_append_singleton]
      by_cases hnil : front = []
      · subst hnil
        cases hes
        simp [ofDigits, hexDigits_of_lt hd]
      · -- the digits in front do not start with a zero, so they denote a positive number
        have hhead : front.head? ≠ some '0' := by
          intro hzero
          have hwhole := h.leading (by rw [List.head?_append_of_ne_nil _ hnil, hzero])
          exact hnil (List.length_eq_zero_iff.mp (by simpa using congrArg List.length hwhole))
        have hdigits := ih ⟨hnil, hfront, fun hzero => absurd hzero hhead, es, hes, rfl⟩
        have hpos : ofDigits 16 es ≠ 0 := fun hzero => hhead (by rw [hdigits, hzero]; rfl)
        have hdiv : (16 * ofDigits 16 es + d) / 16 = ofDigits 16 es := by omega
        have hmod : (16 * ofDigits 16 es + d) % 16 = d := by omega
        rw [hexDigits_of_le (by omega), hdiv, hmod, ← hdigits]

/-- The literal of a number is its only spelling. -/
theorem spells_iff {s : String} {n : ℕ} : Spells s n ↔ s = hexLiteral n := by
  simp only [Spells, areDigitsOf_iff, exists_eq_right, ← String.toList_inj, toList_hexLiteral]

/-! ### Digits and marks -/

lemma hexDigit?_cases {c : Char} {d : ℕ} (h : hexDigit? c = some d) :
    (0x30 ≤ c.toNat ∧ c.toNat ≤ 0x39 ∧ d = c.toNat - 0x30) ∨
      (0x61 ≤ c.toNat ∧ c.toNat ≤ 0x66 ∧ d = c.toNat - 0x57) ∨
      (0x41 ≤ c.toNat ∧ c.toNat ≤ 0x46 ∧ d = c.toNat - 0x37) := by
  simp only [hexDigit?] at h
  split_ifs at h with hdecimal hlower hupper
  · exact .inl ⟨hdecimal.1, hdecimal.2, (Option.some.inj h).symm⟩
  · exact .inr (.inl ⟨hlower.1, hlower.2, (Option.some.inj h).symm⟩)
  · exact .inr (.inr ⟨hupper.1, hupper.2, (Option.some.inj h).symm⟩)

lemma hexDigit?_lt {c : Char} {d : ℕ} (h : hexDigit? c = some d) : d < 16 := by
  have := hexDigit?_cases h
  omega

lemma range_of_isHexDigit {c : Char} (h : isHexDigit c = true) :
    0x30 ≤ c.toNat ∧ c.toNat ≤ 0x66 := by
  obtain ⟨d, hd⟩ := Option.isSome_iff_exists.mp h
  have := hexDigit?_cases hd
  omega

/-- Characters have values exactly if each of them has one. -/
lemma exists_mapM_eq_some {digit? : Char → Option ℕ} {digits : List Char} :
    (∃ values, digits.mapM digit? = some values) ↔ ∀ c ∈ digits, (digit? c).isSome = true := by
  induction digits with
  | nil => simp
  | cons c digits ih =>
      rw [List.forall_mem_cons, ← ih, Option.isSome_iff_exists]
      simp only [List.mapM_cons, Option.bind_eq_bind, Option.bind_eq_some_iff, Option.pure_def,
        Option.some.injEq]
      constructor
      · rintro ⟨_, d, hd, ds, hds, -⟩
        exact ⟨⟨d, hd⟩, ds, hds⟩
      · rintro ⟨⟨d, hd⟩, ds, hds⟩
        exact ⟨_, d, hd, ds, hds, rfl⟩

lemma exists_mapM_hexDigit? {digits : List Char} :
    (∃ values, digits.mapM hexDigit? = some values) ↔ ∀ c ∈ digits, isHexDigit c = true :=
  exists_mapM_eq_some

/-- The marks that may stand in front of hexadecimal digits: none, `0x` and `0X`. -/
def hexMarks : List (List Char) := [[], ['0', 'x'], ['0', 'X']]

lemma exists_mark_append (text : List Char) :
    ∃ mark ∈ hexMarks, text = mark ++ dropHexMark text := by
  unfold dropHexMark
  split
  · exact ⟨['0', 'x'], by simp [hexMarks], rfl⟩
  · exact ⟨['0', 'X'], by simp [hexMarks], rfl⟩
  · exact ⟨[], by simp [hexMarks], rfl⟩

/-- In front of hexadecimal digits every mark is taken off, and nothing else. -/
lemma dropHexMark_append {mark digits : List Char} (hmark : mark ∈ hexMarks)
    (hdigits : ∀ c ∈ digits, isHexDigit c = true) : dropHexMark (mark ++ digits) = digits := by
  simp only [hexMarks, List.mem_cons, List.not_mem_nil, or_false] at hmark
  rcases hmark with rfl | rfl | rfl
  · rw [List.nil_append]
    unfold dropHexMark
    split
    · exact absurd (hdigits 'x' (by simp)) (by decide)
    · exact absurd (hdigits 'X' (by simp)) (by decide)
    · rfl
  · rfl
  · rfl

/-! ### Bytes -/

/-- Digits denote bytes: the values of two digits in a row are the two halves of a byte. -/
def DenoteBytes (digits : List Char) (bytes : List UInt8) : Prop :=
  digits.mapM hexDigit? = some (bytes.flatMap fun b => [b.toNat / 16, b.toNat % 16])

instance (digits : List Char) (bytes : List UInt8) : Decidable (DenoteBytes digits bytes) :=
  inferInstanceAs (Decidable (_ = _))

lemma denoteBytes_nil {bytes : List UInt8} : DenoteBytes [] bytes ↔ bytes = [] := by
  cases bytes <;> simp [DenoteBytes]

lemma not_denoteBytes_singleton {c : Char} {bytes : List UInt8} : ¬ DenoteBytes [c] bytes := by
  cases hc : hexDigit? c <;> cases bytes <;> simp [DenoteBytes, hc]

/-- Two digits denote a byte in front of the bytes that the further digits denote. -/
lemma denoteBytes_cons_cons {a b : Char} {digits : List Char} {bytes : List UInt8} :
    DenoteBytes (a :: b :: digits) bytes ↔ ∃ high low front, hexDigit? a = some high ∧
      hexDigit? b = some low ∧ DenoteBytes digits front ∧
      bytes = UInt8.ofNat (16 * high + low) :: front := by
  simp only [DenoteBytes, List.mapM_cons, Option.bind_eq_bind, Option.bind_eq_some_iff,
    Option.pure_def, Option.some.injEq]
  constructor
  · rintro ⟨high, hhigh, _, ⟨low, hlow, values, hvalues, rfl⟩, h⟩
    cases bytes with
    | nil => simp at h
    | cons byte front =>
        simp only [List.flatMap_cons, List.cons_append, List.nil_append, List.cons.injEq] at h
        obtain ⟨rfl, rfl, rfl⟩ := h
        refine ⟨_, _, front, hhigh, hlow, hvalues, ?_⟩
        rw [Nat.div_add_mod, UInt8.ofNat_toNat]
  · rintro ⟨high, low, front, hhigh, hlow, hfront, rfl⟩
    have hbyte : (UInt8.ofNat (16 * high + low)).toNat = 16 * high + low := by
      have := hexDigit?_lt hhigh
      have := hexDigit?_lt hlow
      rw [UInt8.toNat_ofNat', Nat.mod_eq_of_lt (by omega)]
    have := hexDigit?_lt hlow
    refine ⟨high, hhigh, _, ⟨low, hlow, _, hfront, rfl⟩, ?_⟩
    rw [List.flatMap_cons, hbyte]
    have hdiv : (16 * high + low) / 16 = high := by omega
    have hmod : (16 * high + low) % 16 = low := by omega
    rw [hdiv, hmod]
    rfl

/-- **Pairs of digits are read as the bytes that they denote.** -/
theorem hexBytes?_eq_some {digits : List Char} {bytes : List UInt8} :
    hexBytes? digits = some bytes ↔ DenoteBytes digits bytes := by
  induction digits using hexBytes?.induct generalizing bytes with
  | case1 => simp [hexBytes?, denoteBytes_nil, eq_comm]
  | case2 c => simp [hexBytes?, not_denoteBytes_singleton]
  | case3 a b digits ih =>
      simp only [hexBytes?, Option.bind_eq_bind, Option.bind_eq_some_iff, Option.pure_def,
        Option.some.injEq, ih, denoteBytes_cons_cons]
      constructor
      · rintro ⟨high, hhigh, low, hlow, front, hfront, rfl⟩
        exact ⟨high, low, front, hhigh, hlow, hfront, rfl⟩
      · rintro ⟨high, low, front, hhigh, hlow, hfront, rfl⟩
        exact ⟨high, hhigh, low, hlow, front, hfront, rfl⟩

/-- Digits denote bytes exactly if they come in pairs. -/
lemma exists_denoteBytes {digits : List Char} :
    (∃ bytes, DenoteBytes digits bytes) ↔
      Even digits.length ∧ ∀ c ∈ digits, isHexDigit c = true := by
  induction digits using hexBytes?.induct with
  | case1 => simp [denoteBytes_nil]
  | case2 c => simp [not_denoteBytes_singleton]
  | case3 a b digits ih =>
      have hparity : Even (a :: b :: digits).length ↔ Even digits.length := by
        simp [Nat.even_add_one]
      rw [hparity, List.forall_mem_cons, List.forall_mem_cons]
      constructor
      · rintro ⟨bytes, hbytes⟩
        obtain ⟨high, low, front, hhigh, hlow, hfront, -⟩ := denoteBytes_cons_cons.mp hbytes
        obtain ⟨heven, hdigits⟩ := ih.mp ⟨front, hfront⟩
        exact ⟨heven, by rw [isHexDigit, hhigh]; rfl, by rw [isHexDigit, hlow]; rfl, hdigits⟩
      · rintro ⟨heven, ha, hb, hdigits⟩
        obtain ⟨high, hhigh⟩ := Option.isSome_iff_exists.mp ha
        obtain ⟨low, hlow⟩ := Option.isSome_iff_exists.mp hb
        obtain ⟨front, hfront⟩ := ih.mpr ⟨heven, hdigits⟩
        exact ⟨_, denoteBytes_cons_cons.mpr ⟨high, low, front, hhigh, hlow, hfront, rfl⟩⟩

end StarkCalldata.Text
