import Mathlib.Data.List.TakeWhile
import Mathlib.Data.Nat.Digits.Defs
import Mathlib.Tactic
import StarkCalldata.Proofs.Text.Hex
import StarkCalldata.Text.Numeral

/-!
Numerals and what they denote.

A numeral is described here by its parts, without the reader: groups of digits with underscores
between them, a sign or a mark in front, and blanks around the whole. The readers accept exactly
what is so described, and read the integer that its digits denote:

* `IsStripped`, `isStripped_iff`: a text without the blanks around it;
* `IsGrouped`, `underscored?_eq_some`: digits in groups, of any length but none empty, with one
  underscore between two groups;
* `IsDecimal`, `decimal?_eq_some`: decimal numerals;
* `IsHexadecimal`, `hexadecimal?_eq_some`: hexadecimal numerals, which carry a mark;
* `underscored?_hexDigits`: digits without underscores are a single group;
* `writable_of_lt_pow`, `not_writable_of_pow_le`, `firstLong`: which integers have few enough digits
  to be written, and the first that has too many.
-/

namespace StarkCalldata.Text

/-! ### Blanks around a text -/

section Blanks

variable {blank : Char → Bool} {text inner : List Char}

/-- A text is another one with blanks before and after it, which starts and ends with none. -/
structure IsStripped (blank : Char → Bool) (text inner : List Char) : Prop where
  around : ∃ before after, text = before ++ inner ++ after ∧
    (∀ c ∈ before, blank c = true) ∧ ∀ c ∈ after, blank c = true
  first : ∀ c ∈ inner.head?, blank c = false
  last : ∀ c ∈ inner.getLast?, blank c = false

lemma dropWhile_of_head? (h : ∀ c ∈ text.head?, blank c = false) : text.dropWhile blank = text := by
  cases text with
  | nil => rfl
  | cons c text => rw [List.dropWhile_cons_of_neg (by simp [h c rfl])]

/-- **A text is stripped in one way.** -/
theorem isStripped_iff : IsStripped blank text inner ↔ inner = trim blank text := by
  have hlast (l : List Char) : ∀ c ∈ (l.dropWhile blank).head?, blank c = false := by
    intro c hc
    have hnot := List.head?_dropWhile_not blank l
    rw [Option.mem_def.mp hc] at hnot
    simpa using hnot
  constructor
  · rintro ⟨⟨before, after, rfl, hbefore, hafter⟩, hfirst, hend⟩
    rw [trim, List.append_assoc, List.dropWhile_append_of_pos hbefore]
    cases inner with
    | nil =>
        have hnone : after.dropWhile blank = [] := List.dropWhile_eq_nil_iff.mpr hafter
        rw [List.nil_append, hnone]
        rfl
    | cons c inner =>
        have hkept : (c :: inner ++ after).dropWhile blank = c :: inner ++ after :=
          dropWhile_of_head? hfirst
        rw [hkept, List.reverse_append, List.dropWhile_append_of_pos (by simpa using hafter),
          dropWhile_of_head? (by rwa [List.head?_reverse]), List.reverse_reverse]
  · rintro rfl
    have htext : text.takeWhile blank ++ text.dropWhile blank = text :=
      List.takeWhile_append_dropWhile
    have hrest := List.takeWhile_append_dropWhile (p := blank) (l := (text.dropWhile blank).reverse)
    refine ⟨⟨text.takeWhile blank, ((text.dropWhile blank).reverse.takeWhile blank).reverse, ?_,
      fun c hc => List.mem_takeWhile_imp hc,
      fun c hc => List.mem_takeWhile_imp (List.mem_reverse.mp hc)⟩, fun c hc => ?_, fun c hc => ?_⟩
    · rw [trim, List.append_assoc, ← List.reverse_append, hrest, List.reverse_reverse, htext]
    · -- what is left starts like the text without its first blanks
      refine hlast text c ?_
      have hsuffix : (trim blank text) <+: text.dropWhile blank := by
        rw [← List.reverse_suffix, trim, List.reverse_reverse]
        exact List.dropWhile_suffix blank
      obtain ⟨after, hafter⟩ := hsuffix
      rw [← hafter, List.head?_append, Option.mem_def.mp hc]
      rfl
    · rw [trim, List.getLast?_reverse] at hc
      exact hlast _ c hc

end Blanks

/-! ### Digits in groups -/

section Groups

variable {digit? : Char → Option ℕ} {c : Char} {text body digits : List Char} {ds : List ℕ}

/-- A text consists of groups of digits, none of them empty, with one underscore between two groups;
the digits have the given values. -/
def IsGrouped (digit? : Char → Option ℕ) (text : List Char) (ds : List ℕ) : Prop :=
  ∃ groups : List (List Char), groups ≠ [] ∧ (∀ g ∈ groups, g ≠ []) ∧
    text = List.intercalate ['_'] groups ∧ groups.flatten.mapM digit? = some ds

lemma not_isGrouped_nil : ¬ IsGrouped digit? [] ds := by
  rintro ⟨_ | ⟨g, _ | ⟨g', groups⟩⟩, hne, hgroups, htext, -⟩
  · exact hne rfl
  · rw [List.intercalate_singleton] at htext
    exact hgroups g (.head _) htext.symm
  · simp [List.intercalate_cons_cons] at htext

/-- A text in groups starts with a digit; after it the text ends, or the group goes on, or another
group follows after an underscore. -/
lemma isGrouped_cons : IsGrouped digit? (c :: text) ds ↔ ∃ d ds', digit? c = some d ∧
    ds = d :: ds' ∧ ((text = [] ∧ ds' = []) ∨ IsGrouped digit? text ds' ∨
      ∃ rest, text = '_' :: rest ∧ IsGrouped digit? rest ds') := by
  constructor
  · rintro ⟨_ | ⟨_ | ⟨c', g⟩, groups⟩, hne, hgroups, htext, hds⟩
    · exact absurd rfl hne
    · exact absurd rfl (hgroups [] (.head _))
    · obtain ⟨hg, hrest⟩ := List.forall_mem_cons.mp hgroups
      rw [List.flatten_cons, List.cons_append] at hds
      simp only [List.mapM_cons, Option.bind_eq_bind, Option.bind_eq_some_iff, Option.pure_def,
        Option.some.injEq] at hds
      obtain ⟨d, hd, ds', hds', rfl⟩ := hds
      rcases g with _ | ⟨b, g⟩
      · rcases groups with _ | ⟨g', groups⟩
        · rw [List.intercalate_singleton, List.cons.injEq] at htext
          obtain ⟨rfl, rfl⟩ := htext
          simp only [List.flatten_nil, List.append_nil, List.mapM_nil, Option.pure_def,
            Option.some.injEq] at hds'
          exact ⟨d, ds', hd, rfl, .inl ⟨rfl, hds'.symm⟩⟩
        · rw [List.intercalate_cons_cons] at htext
          obtain ⟨rfl, rfl⟩ : c = c' ∧ text = '_' :: List.intercalate ['_'] (g' :: groups) := by
            simpa using htext
          exact ⟨d, ds', hd, rfl, .inr (.inr ⟨_, rfl, g' :: groups, by simp, hrest, rfl, hds'⟩)⟩
      · obtain ⟨rfl, rfl⟩ : c = c' ∧ text = List.intercalate ['_'] ((b :: g) :: groups) := by
          rcases groups with _ | ⟨g', groups⟩ <;> simpa [List.intercalate_cons_cons] using htext
        exact ⟨d, ds', hd, rfl, .inr (.inl ⟨(b :: g) :: groups, by simp,
          List.forall_mem_cons.mpr ⟨by simp, hrest⟩, rfl, hds'⟩)⟩
  · rintro ⟨d, ds', hd, rfl, ⟨rfl, rfl⟩ | ⟨_ | ⟨g, groups⟩, hne, hgroups, rfl, hds⟩ |
      ⟨_, rfl, groups, hne, hgroups, rfl, hds⟩⟩
    · exact ⟨[[c]], by simp, by simp, rfl, by simp [hd]⟩
    · exact absurd rfl hne
    · refine ⟨(c :: g) :: groups, by simp, ?_, ?_, ?_⟩
      · exact List.forall_mem_cons.mpr ⟨by simp, (List.forall_mem_cons.mp hgroups).2⟩
      · rcases groups with _ | ⟨g', groups⟩ <;> simp [List.intercalate_cons_cons]
      · rw [List.flatten_cons] at hds
        simp [hd, hds]
    · refine ⟨[c] :: groups, by simp, List.forall_mem_cons.mpr ⟨by simp, hgroups⟩, ?_, ?_⟩
      · rcases groups with _ | ⟨g', groups⟩
        · exact absurd rfl hne
        · simp [List.intercalate_cons_cons]
      · simp [hd, hds]

/-- **Digits are read exactly from groups.** -/
theorem underscored?_eq_some (hunderscore : digit? '_' = none) :
    underscored? digit? text = some ds ↔ IsGrouped digit? text ds := by
  induction text using underscored?.induct generalizing ds with
  | case1 => simp [underscored?, not_isGrouped_nil]
  | case2 c => simp [underscored?, isGrouped_cons, not_isGrouped_nil, eq_comm]
  | case3 c rest ih =>
      have hnot (ds' : List ℕ) : ¬ IsGrouped digit? ('_' :: rest) ds' := by
        simp [isGrouped_cons, hunderscore]
      simp only [underscored?, isGrouped_cons, hnot, ih, Option.bind_eq_bind,
        Option.bind_eq_some_iff, Option.pure_def, Option.some.injEq, List.cons_ne_nil, false_and,
        false_or, List.cons.injEq, true_and, exists_eq_left']
      constructor
      · rintro ⟨d, hd, ds', hds', rfl⟩
        exact ⟨d, ds', hd, rfl, hds'⟩
      · rintro ⟨d, ds', hd, rfl, hds'⟩
        exact ⟨d, hd, ds', hds', rfl⟩
  | case4 c c' rest hc ih =>
      have hnext : ∀ rest', c' :: rest ≠ '_' :: rest' := fun rest' h => hc (List.cons.inj h).1
      rw [isGrouped_cons, underscored?.eq_4 _ _ _ _ hc]
      simp only [ih, hnext, Option.bind_eq_bind, Option.bind_eq_some_iff, Option.pure_def,
        Option.some.injEq, List.cons_ne_nil, false_and, false_or, exists_false, or_false]
      constructor
      · rintro ⟨d, hd, ds', hds', rfl⟩
        exact ⟨d, ds', hd, rfl, hds'⟩
      · rintro ⟨d, ds', hd, rfl, hds'⟩
        exact ⟨d, hd, ds', hds', rfl⟩

/-- A text in groups starts with a digit, and has only digits and underscores. -/
lemma IsGrouped.chars (h : IsGrouped digit? text ds) :
    (∃ c rest, text = c :: rest ∧ (digit? c).isSome) ∧
      ∀ c ∈ text, c = '_' ∨ (digit? c).isSome := by
  induction ds generalizing text with
  | nil =>
      cases text with
      | nil => exact absurd h not_isGrouped_nil
      | cons c text =>
          obtain ⟨_, _, -, hds, -⟩ := isGrouped_cons.mp h
          cases hds
  | cons d ds ih =>
      cases text with
      | nil => exact absurd h not_isGrouped_nil
      | cons c text =>
          obtain ⟨_, _, hc, hds, hrest⟩ := isGrouped_cons.mp h
          cases hds
          have hsome : (digit? c).isSome := by rw [hc]; rfl
          refine ⟨⟨c, text, rfl, hsome⟩, List.forall_mem_cons.mpr ⟨.inr hsome, ?_⟩⟩
          rcases hrest with ⟨rfl, -⟩ | hrest | ⟨rest, rfl, hrest⟩
          · simp
          · exact (ih hrest).2
          · exact List.forall_mem_cons.mpr ⟨.inl rfl, (ih hrest).2⟩

end Groups

/-! ### Decimal numerals -/

section Decimal

variable {text body : List Char} {n : ℤ}

/-- The signs that may stand in front of a decimal numeral, with their effect. -/
def signs : List (List Char × ℤ) := [([], 1), (['+'], 1), (['-'], -1)]

/-- A text is a decimal numeral: a sign, and groups of at most as many digits as are read. -/
def IsDecimal (text : List Char) (n : ℤ) : Prop :=
  ∃ sign ∈ signs, ∃ body ds, text = sign.1 ++ body ∧ IsGrouped decimalDigit? body ds ∧
    ds.length ≤ digitLimit ∧ n = sign.2 * (Nat.ofDigits 10 ds.reverse : ℕ)

lemma ofDigits_eq (base : ℕ) (ds : List ℕ) : ofDigits base ds = Nat.ofDigits base ds.reverse := by
  rw [ofDigits, Nat.ofDigits_eq_foldr, List.foldr_reverse]
  simp only [add_comm, Nat.cast_id]

lemma exists_sign_append (text : List Char) : ∃ sign ∈ signs,
    text = sign.1 ++ (splitSign text).2 ∧ sign.2 = if (splitSign text).1 then -1 else 1 := by
  unfold splitSign
  split
  · exact ⟨(['-'], -1), by decide, rfl, rfl⟩
  · exact ⟨(['+'], 1), by decide, rfl, rfl⟩
  · exact ⟨([], 1), by decide, rfl, rfl⟩

/-- In front of digits every sign is taken off, and nothing else. -/
lemma splitSign_append {sign : List Char × ℤ} (hsign : sign ∈ signs) {c : Char}
    (hc : (decimalDigit? c).isSome) (rest : List Char) :
    (splitSign (sign.1 ++ c :: rest)).2 = c :: rest ∧
      sign.2 = if (splitSign (sign.1 ++ c :: rest)).1 then -1 else 1 := by
  have hminus : c ≠ '-' := by
    rintro rfl
    exact absurd hc (by decide)
  have hplus : c ≠ '+' := by
    rintro rfl
    exact absurd hc (by decide)
  simp only [signs, List.mem_cons, List.not_mem_nil, or_false] at hsign
  rcases hsign with rfl | rfl | rfl
  · simp [splitSign, hminus, hplus]
  · exact ⟨rfl, rfl⟩
  · exact ⟨rfl, rfl⟩

lemma decimalDigit?_underscore : decimalDigit? '_' = none := by decide

/-- A text without blanks around it is read as the integer of its sign and its digits. -/
lemma decimal?_eq_some_iff_split (htext : trim isNumeralBlank text = text) :
    decimal? text = some n ↔ ∃ ds, underscored? decimalDigit?
      ((splitSign text).2.takeWhile isNumeralChar) = some ds ∧ ds.length ≤ digitLimit ∧
      (splitSign text).2.dropWhile isNumeralChar = [] ∧
      n = (if (splitSign text).1 then -1 else 1) * (ofDigits 10 ds : ℤ) := by
  rw [decimal?, readDecimal, htext]
  simp only [List.span_eq_takeWhile_dropWhile]
  cases hds : underscored? decimalDigit? ((splitSign text).2.takeWhile isNumeralChar) with
  | none => simp [Except.toOption]
  | some ds =>
      simp only [Option.some.injEq, exists_eq_left']
      by_cases hlong : digitLimit < ds.length
      · rw [if_pos hlong]
        exact ⟨fun h => (by cases h), fun h => absurd h.1 (Nat.not_le.mpr hlong)⟩
      rw [if_neg hlong]
      cases hrest : (splitSign text).2.dropWhile isNumeralChar with
      | cons c rest => exact ⟨fun h => (by cases h), fun h => (by cases h.2.1)⟩
      | nil =>
          have hle : ds.length ≤ digitLimit := Nat.le_of_not_lt hlong
          simp only [List.isEmpty_nil, Bool.not_true, Bool.false_eq_true, if_false, hle, true_and,
            Except.toOption, Option.some.injEq]
          split_ifs
          · rw [neg_one_mul, eq_comm]
          · rw [one_mul, eq_comm]

/-- **Decimal numerals are read as what they denote.** -/
theorem decimal?_eq_some (htext : trim isNumeralBlank text = text) :
    decimal? text = some n ↔ IsDecimal text n := by
  rw [decimal?_eq_some_iff_split htext]
  constructor
  · rintro ⟨ds, hds, hlength, hrest, rfl⟩
    obtain ⟨sign, hsign, hsplit, heffect⟩ := exists_sign_append text
    have hall : (splitSign text).2.takeWhile isNumeralChar = (splitSign text).2 := by
      have hparts := List.takeWhile_append_dropWhile (p := isNumeralChar) (l := (splitSign text).2)
      rwa [hrest, List.append_nil] at hparts
    rw [hall] at hds
    refine ⟨sign, hsign, _, ds, hsplit, (underscored?_eq_some decimalDigit?_underscore).mp hds,
      hlength, ?_⟩
    rw [heffect, ofDigits_eq]
  · rintro ⟨sign, hsign, body, ds, rfl, hgrouped, hlength, rfl⟩
    obtain ⟨⟨c, rest, rfl, hc⟩, hchars⟩ := hgrouped.chars
    obtain ⟨hbody, heffect⟩ := splitSign_append hsign hc rest
    have hnumeral : ∀ b ∈ c :: rest, isNumeralChar b = true := by
      intro b hb
      rcases hchars b hb with rfl | hb
      · rfl
      · simp [isNumeralChar, isDecimalDigit, hb]
    refine ⟨ds, ?_, hlength, ?_, ?_⟩
    · rw [hbody, List.takeWhile_eq_self_iff.mpr hnumeral]
      exact (underscored?_eq_some decimalDigit?_underscore).mpr hgrouped
    · rw [hbody, List.dropWhile_eq_nil_iff.mpr hnumeral]
    · rw [← heffect, ofDigits_eq]

end Decimal

/-! ### Hexadecimal numerals -/

section Hexadecimal

variable {text : List Char} {n : ℕ}

/-- A text is a hexadecimal numeral: a mark, perhaps an underscore after it, and groups of digits;
digits of other scripts stand for their values too. -/
def IsHexadecimal (text : List Char) (n : ℕ) : Prop :=
  ∃ mark ∈ [['0', 'x'], ['0', 'X']], ∃ gap ∈ [[], ['_']], ∃ body ds, text = mark ++ gap ++ body ∧
    IsGrouped wideHexDigit? body ds ∧ n = Nat.ofDigits 16 ds.reverse

lemma wideHexDigit?_underscore : wideHexDigit? '_' = none := by decide

/-- A text without the underscore that it may start with. -/
def skipUnderscore : List Char → List Char
  | '_' :: rest => rest
  | rest => rest

lemma skipUnderscore_cons {c : Char} (hc : (wideHexDigit? c).isSome) (rest : List Char) :
    skipUnderscore (c :: rest) = c :: rest := by
  unfold skipUnderscore
  split
  · rename_i h
    rw [(List.cons.inj h).1, wideHexDigit?_underscore] at hc
    cases hc
  · rfl

/-- A text with a mark is read as the number of its digits; one underscore after the mark is
skipped. -/
lemma hexadecimal?_append {mark : List Char} (hmark : mark ∈ [['0', 'x'], ['0', 'X']])
    (rest : List Char) : hexadecimal? (mark ++ rest) =
      (underscored? wideHexDigit? (skipUnderscore rest)).map (ofDigits 16) := by
  simp only [List.mem_cons, List.not_mem_nil, or_false] at hmark
  rcases hmark with rfl | rfl <;> rfl

/-- **Hexadecimal numerals are read as what they denote.** -/
theorem hexadecimal?_eq_some : hexadecimal? text = some n ↔ IsHexadecimal text n := by
  constructor
  · intro h
    have hmarked : ∃ mark ∈ [['0', 'x'], ['0', 'X']], ∃ rest, text = mark ++ rest := by
      rw [hexadecimal?] at h
      split_ifs at h with hmark
      unfold hasHexMark at hmark
      split at hmark
      · exact ⟨_, .head _, _, rfl⟩
      · exact ⟨_, .tail _ (.head _), _, rfl⟩
      · cases hmark
    obtain ⟨mark, hmark, rest, rfl⟩ := hmarked
    rw [hexadecimal?_append hmark] at h
    obtain ⟨ds, hds, rfl⟩ := Option.map_eq_some_iff.mp h
    rw [underscored?_eq_some wideHexDigit?_underscore] at hds
    unfold skipUnderscore at hds
    split at hds
    · rename_i body
      exact ⟨mark, hmark, ['_'], by simp, body, ds, by simp, hds, ofDigits_eq 16 ds⟩
    · exact ⟨mark, hmark, [], by simp, rest, ds, by simp, hds, ofDigits_eq 16 ds⟩
  · rintro ⟨mark, hmark, gap, hgap, body, ds, rfl, hgrouped, rfl⟩
    obtain ⟨⟨c, rest, rfl, hc⟩, -⟩ := hgrouped.chars
    have hskip : skipUnderscore (gap ++ c :: rest) = c :: rest := by
      simp only [List.mem_cons, List.not_mem_nil, or_false] at hgap
      rcases hgap with rfl | rfl
      · exact skipUnderscore_cons hc rest
      · rfl
    rw [List.append_assoc, hexadecimal?_append hmark, hskip,
      (underscored?_eq_some wideHexDigit?_underscore).mpr hgrouped, Option.map_some, ofDigits_eq]

lemma mapM_wideHexDigit? {digits : List Char} (h : ∀ c ∈ digits, isHexDigit c = true) :
    digits.mapM wideHexDigit? = digits.mapM hexDigit? := by
  induction digits with
  | nil => rfl
  | cons c digits ih =>
      obtain ⟨hc, hdigits⟩ := List.forall_mem_cons.mp h
      obtain ⟨d, hd⟩ := Option.isSome_iff_exists.mp hc
      rw [List.mapM_cons, List.mapM_cons, ih hdigits, wideHexDigit?, hd, Option.some_or]

/-- Digits without underscores are read one by one. -/
lemma underscored?_hexDigits {digits : List Char} (hne : digits ≠ [])
    (hdigits : ∀ c ∈ digits, isHexDigit c = true) :
    underscored? wideHexDigit? digits = digits.mapM hexDigit? := by
  obtain ⟨ds, hds⟩ := exists_mapM_hexDigit?.mpr hdigits
  rw [hds, underscored?_eq_some wideHexDigit?_underscore]
  refine ⟨[digits], by simp, by simpa using hne, by simp, ?_⟩
  rw [List.flatten_singleton, mapM_wideHexDigit? hdigits, hds]

end Hexadecimal

/-! ### Integers that can be written -/

/-- Digits below the base denote a number below the power of the base that counts them. -/
lemma ofDigits_lt_pow {base : ℕ} {digits : List ℕ} (h : ∀ d ∈ digits, d < base) :
    ofDigits base digits < base ^ digits.length := by
  induction digits using List.reverseRecOn with
  | nil => simp [ofDigits]
  | append_singleton digits d ih =>
      have hd : d < base := h d (by simp)
      have hdigits : ofDigits base digits + 1 ≤ base ^ digits.length :=
        ih fun d' hd' => h d' (by simp [hd'])
      rw [ofDigits_append_singleton, List.length_append, List.length_singleton]
      calc base * ofDigits base digits + d
          < base * ofDigits base digits + base := by omega
        _ = base * (ofDigits base digits + 1) := by ring
        _ ≤ base * base ^ digits.length := Nat.mul_le_mul_left _ hdigits
        _ = base ^ (digits.length + 1) := (pow_succ' _ _).symm

/-- A number of few enough digits can be written. -/
lemma writable_of_lt_pow {n k : ℕ} (h : n < 10 ^ k) (hk : k ≤ digitLimit) : Writable n := by
  have hpow (l : ℕ) (hl : k ≤ l) : 10 ^ k ≤ Nat.pow 10 l := Nat.pow_le_pow_right (by omega) hl
  exact h.trans_le (hpow digitLimit hk)

/-- An integer is too long to be written from the first number with too many digits on. -/
lemma not_writable_of_pow_le {n : ℤ} {k : ℕ} (h : 10 ^ k ≤ n.natAbs) (hk : digitLimit ≤ k) :
    ¬ Writable n := by
  have hpow (l : ℕ) (hl : l ≤ k) : Nat.pow 10 l ≤ 10 ^ k := Nat.pow_le_pow_right (by omega) hl
  exact ((hpow digitLimit hk).trans h).not_gt

/-- The least positive number that is too long to be written. -/
def firstLong : ℤ := (Nat.pow 10 digitLimit : ℕ)

lemma firstLong_pos : 0 < firstLong := by
  have hpow (k : ℕ) : 0 < Nat.pow 10 k := Nat.pow_pos (by decide)
  exact Int.natCast_pos.mpr (hpow digitLimit)

lemma not_writable_firstLong : ¬ Writable firstLong := by
  have hpow (k : ℕ) : ¬ ((Nat.pow 10 k : ℕ) : ℤ).natAbs < Nat.pow 10 k := by simp
  exact hpow digitLimit

lemma writable_neg {n : ℤ} (h : Writable n) : Writable (-n) := by
  unfold Writable at *
  rwa [Int.natAbs_neg]

end StarkCalldata.Text
