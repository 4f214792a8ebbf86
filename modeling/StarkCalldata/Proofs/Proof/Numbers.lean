import StarkCalldata.Proofs.Outcome
import StarkCalldata.Proofs.Text.Numeral

/-!
The numbers of a proof document, given as texts.

An address may be written as a hexadecimal numeral with its mark or as a decimal numeral with a
sign, blanks around it and underscores in it. A field element is written in hexadecimal digits, with
or without a mark. Both have to be numbers of the field:

* `Decoding.IsAddressText`, `Decoding.IsElementText`: the texts of an address and of a field
  element;
* `Decoding.address_eq_ok`, `Decoding.fieldElement_eq_ok`: what the two decoders accept;
* `Decoding.address_eq_error`, `Decoding.fieldElement_eq_error`: everything else is a defect at its
  place;
* `decoders_accept_grammars`: all of this, and that the decoders agree where both grammars apply.
-/

namespace StarkCalldata

open Text

namespace Decoding

variable {text mark digits : List Char} {s : String} {path : Path} {n : ℤ}

/-! ### The two grammars -/

/-- A text denotes an address: without the blanks around it, it is a hexadecimal numeral if it
starts with a mark, and a decimal numeral otherwise. -/
def IsAddressText (text : List Char) (n : ℤ) : Prop :=
  ∃ inner, IsStripped isBlank text inner ∧
    ((hasHexMark inner = true ∧ ∃ m : ℕ, IsHexadecimal inner m ∧ n = m) ∨
      (hasHexMark inner = false ∧ IsDecimal inner n))

/-- A text denotes a field element: a mark that may be missing, and at least one hexadecimal
digit. -/
def IsElementText (text : List Char) (n : ℤ) : Prop :=
  ∃ mark ∈ hexMarks, ∃ digits values, text = mark ++ digits ∧ digits ≠ [] ∧
    digits.mapM hexDigit? = some values ∧ n = (Nat.ofDigits 16 values.reverse : ℕ)

lemma trim_strip (text : List Char) : trim isNumeralBlank (strip text) = strip text := by
  have hstripped : IsStripped isBlank text (strip text) := isStripped_iff.mpr rfl
  have hblank (c : Char) (hc : isBlank c = false) : isNumeralBlank c = false := by
    rw [isBlank, Bool.or_eq_false_iff] at hc
    exact hc.1
  refine (isStripped_iff.mp
    ⟨⟨[], [], by simp, by simp, by simp⟩, fun c hc => ?_, fun c hc => ?_⟩).symm
  · exact hblank c (hstripped.first c hc)
  · exact hblank c (hstripped.last c hc)

/-- **The numerals of addresses are those of the grammar that are not negative.** -/
theorem addressNumeral?_eq_some :
    addressNumeral? text = some n ↔ 0 ≤ n ∧ IsAddressText text n := by
  have hinner : IsAddressText text n ↔
      (hasHexMark (strip text) = true ∧ ∃ m : ℕ, IsHexadecimal (strip text) m ∧ n = m) ∨
        (hasHexMark (strip text) = false ∧ IsDecimal (strip text) n) := by
    simp only [IsAddressText, isStripped_iff]
    exact exists_eq_left
  rw [hinner, addressNumeral?]
  cases hmark : hasHexMark (strip text) with
  | true =>
      simp only [if_true, Option.map_eq_some_iff, hexadecimal?_eq_some, true_and,
        Bool.true_eq_false, false_and, or_false]
      constructor
      · rintro ⟨m, hm, rfl⟩
        exact ⟨Int.natCast_nonneg m, m, hm, rfl⟩
      · rintro ⟨-, m, hm, rfl⟩
        exact ⟨m, hm, rfl⟩
  | false =>
      simp only [Bool.false_eq_true, if_false, Option.filter_eq_some_iff, decide_eq_true_eq,
        decimal?_eq_some (trim_strip text), false_and, true_and, false_or]
      exact and_comm

/-- **The hexadecimal numbers are those of the grammar.** -/
theorem hexNumber?_eq_some {m : ℕ} : hexNumber? text = some m ↔ IsElementText text m := by
  constructor
  · intro h
    simp only [hexNumber?] at h
    split_ifs at h with hempty
    obtain ⟨values, hvalues, rfl⟩ := Option.map_eq_some_iff.mp h
    obtain ⟨mark, hmark, htext⟩ := exists_mark_append text
    refine ⟨mark, hmark, _, values, htext, by simpa using hempty, hvalues, ?_⟩
    rw [ofDigits_eq]
  · rintro ⟨mark, hmark, digits, values, rfl, hne, hvalues, hm⟩
    have hdigits := exists_mapM_hexDigit?.mp ⟨values, hvalues⟩
    have hempty : digits.isEmpty = false := by simpa using hne
    rw [hexNumber?, dropHexMark_append hmark hdigits]
    simp only [hempty, Bool.false_eq_true, if_false, hvalues, Option.map_some, ofDigits_eq,
      Int.natCast_inj.mp hm]

/-- A hexadecimal digit is no blank. -/
lemma isBlank_of_isHexDigit {c : Char} (h : isHexDigit c = true) : isBlank c = false := by
  obtain ⟨hlow, hhigh⟩ := range_of_isHexDigit h
  have hwide : isWideBlank c = false := by
    have hall : ∀ n ∈ wideBlanks, 0x85 ≤ n := by decide
    rw [isWideBlank, List.contains_eq_mem, decide_eq_false_iff_not]
    intro hmem
    have := hall _ hmem
    omega
  simp only [isBlank, isNumeralBlank, hwide, isControlBlank, isSeparator]
  simp
  omega

lemma strip_append (hmark : mark ∈ hexMarks) (hdigits : ∀ c ∈ digits, isHexDigit c = true) :
    strip (mark ++ digits) = mark ++ digits := by
  have hmarks : hexMarks.all (fun m => m.all fun c => !isBlank c) = true := by decide
  have hall : ∀ c ∈ mark ++ digits, isBlank c = false := by
    intro c hc
    rcases List.mem_append.mp hc with hc | hc
    · simpa using List.all_eq_true.mp (List.all_eq_true.mp hmarks mark hmark) c hc
    · exact isBlank_of_isHexDigit (hdigits c hc)
  exact (isStripped_iff.mp ⟨⟨[], [], by simp, by simp, by simp⟩,
    fun c hc => hall c (List.mem_of_head? hc), fun c hc => hall c (List.mem_of_getLast? hc)⟩).symm

/-- With a mark in front of hexadecimal digits both grammars read the same number. -/
lemma addressNumeral?_eq_hexNumber? (hmark : mark ∈ [['0', 'x'], ['0', 'X']])
    (hdigits : ∀ c ∈ digits, isHexDigit c = true) :
    addressNumeral? (mark ++ digits) = (hexNumber? (mark ++ digits)).map Int.ofNat := by
  have hmarks : mark ∈ hexMarks := List.mem_cons_of_mem _ hmark
  have hhas : hasHexMark (mark ++ digits) = true := by
    simp only [List.mem_cons, List.not_mem_nil, or_false] at hmark
    rcases hmark with rfl | rfl <;> rfl
  rw [addressNumeral?, strip_append hmarks hdigits, if_pos hhas, hexadecimal?_append hmark,
    hexNumber?, dropHexMark_append hmarks hdigits]
  cases digits with
  | nil => rfl
  | cons c digits =>
      have hwide : (wideHexDigit? c).isSome := by
        have hc := hdigits c (.head _)
        rw [isHexDigit] at hc
        rw [wideHexDigit?, Option.isSome_or, hc]
        rfl
      rw [skipUnderscore_cons hwide, underscored?_hexDigits (List.cons_ne_nil c digits) hdigits]
      rfl

/-! ### The two decoders -/

/-- The number that was found in a text, if there is one and it is a number of the field. -/
def withinField (found : Option ℤ) (path : Path) (missing beyond : Defect) : Except Fault ℤ :=
  found.elim (defect path missing) .ok >>= fun n =>
    if n < Field.prime then pure n else defect path beyond

lemma address_str (s : String) (path : Path) : address (.str s) path =
    withinField (addressNumeral? s.toList) path (.addressNotNumeric s) .addressTooLarge := by
  rw [address, withinField]
  cases addressNumeral? s.toList <;> rfl

lemma fieldElement_str (s : String) (path : Path) : fieldElement (.str s) path =
    withinField ((hexNumber? s.toList).map Int.ofNat) path (.elementNotHex s) .elementTooLarge := by
  rw [fieldElement, withinField]
  cases hexNumber? s.toList <;> rfl

variable {found : Option ℤ} {missing beyond : Defect}

/-- What was found is accepted below the prime. -/
lemma withinField_eq_ok :
    withinField found path missing beyond = .ok n ↔ n < Field.prime ∧ found = some n := by
  have hfound : ∀ m, found.elim (defect path missing) .ok = .ok m ↔ found = some m := by
    cases found with
    | none => exact fun m => ⟨fun h => (by cases h), fun h => (by cases h)⟩
    | some k => simp
  rw [withinField, Outcome.bind_eq_ok]
  simp only [hfound]
  constructor
  · rintro ⟨m, hm, h⟩
    split_ifs at h with hlt
    · cases h
      exact ⟨hlt, hm⟩
    · cases h
  · rintro ⟨hlt, hm⟩
    exact ⟨n, hm, if_pos hlt⟩

lemma withinField_eq_error (h : ∀ n : ℤ, ¬ (n < Field.prime ∧ found = some n)) :
    ∃ d, withinField found path missing beyond = .error (.malformedProof path.render d) := by
  cases found with
  | none => exact ⟨missing, rfl⟩
  | some m => exact ⟨beyond, if_neg fun hlt => h m ⟨hlt, rfl⟩⟩

lemma isCanonical_and_iff {P : Prop} : Field.IsCanonical n ∧ P ↔ n < Field.prime ∧ 0 ≤ n ∧ P := by
  rw [Field.IsCanonical]
  tauto

/-- **An address is accepted if its text denotes it and it is a number of the field.** -/
theorem address_eq_ok :
    address (.str s) path = .ok n ↔ Field.IsCanonical n ∧ IsAddressText s.toList n := by
  rw [address_str, withinField_eq_ok, addressNumeral?_eq_some, isCanonical_and_iff]

/-- **A field element is accepted if its text denotes it and it is a number of the field.** -/
theorem fieldElement_eq_ok :
    fieldElement (.str s) path = .ok n ↔ Field.IsCanonical n ∧ IsElementText s.toList n := by
  have hfound : (hexNumber? s.toList).map Int.ofNat = some n ↔
      0 ≤ n ∧ IsElementText s.toList n := by
    rw [Option.map_eq_some_iff]
    constructor
    · rintro ⟨m, hm, rfl⟩
      exact ⟨Int.natCast_nonneg m, hexNumber?_eq_some.mp hm⟩
    · rintro ⟨hnonneg, h⟩
      obtain ⟨m, rfl⟩ := Int.eq_ofNat_of_zero_le hnonneg
      exact ⟨m, hexNumber?_eq_some.mpr h, rfl⟩
  rw [fieldElement_str, withinField_eq_ok, hfound, isCanonical_and_iff]

/-- Everything else is no address. -/
lemma address_eq_error (h : ∀ n, ¬ (Field.IsCanonical n ∧ IsAddressText s.toList n)) :
    ∃ d, address (.str s) path = .error (.malformedProof path.render d) := by
  rw [address_str]
  refine withinField_eq_error fun n hn => h n ?_
  have hread : address (.str s) path = .ok n := by rwa [address_str, withinField_eq_ok]
  exact address_eq_ok.mp hread

/-- Everything else is no field element. -/
lemma fieldElement_eq_error (h : ∀ n, ¬ (Field.IsCanonical n ∧ IsElementText s.toList n)) :
    ∃ d, fieldElement (.str s) path = .error (.malformedProof path.render d) := by
  rw [fieldElement_str]
  refine withinField_eq_error fun n hn => h n ?_
  have hread : fieldElement (.str s) path = .ok n := by rwa [fieldElement_str, withinField_eq_ok]
  exact fieldElement_eq_ok.mp hread

/-- A text that both decoders search for the same number is accepted by both with this number, or
refused by both. -/
lemma decoders_agree (h : addressNumeral? s.toList = (hexNumber? s.toList).map Int.ofNat) :
    (∃ n, address (.str s) path = .ok n ∧ fieldElement (.str s) path = .ok n) ∨
      ∃ d e, address (.str s) path = .error (.malformedProof path.render d) ∧
        fieldElement (.str s) path = .error (.malformedProof path.render e) := by
  rw [address_str, fieldElement_str, h]
  by_cases hfound : ∃ n : ℤ, n < Field.prime ∧ (hexNumber? s.toList).map Int.ofNat = some n
  · obtain ⟨n, hn⟩ := hfound
    exact .inl ⟨n, withinField_eq_ok.mpr hn, withinField_eq_ok.mpr hn⟩
  · obtain ⟨d, hd⟩ := withinField_eq_error (not_exists.mp hfound)
    obtain ⟨e, he⟩ := withinField_eq_error (not_exists.mp hfound)
    exact .inr ⟨d, e, hd, he⟩

end Decoding

/-- **The decoders accept exactly their grammars.** The text of an address is accepted if the
numeral between its blanks denotes a number of the field, the text of a field element if its digits
do, and either is read as this number. Everything else is refused, with the place that was given. On
hexadecimal digits behind a mark, of any case and with any zeros in front, the two decoders
agree. -/
theorem decoders_accept_grammars (s : String) (path : Path) :
    (∀ n, Decoding.address (.str s) path = .ok n ↔
      Field.IsCanonical n ∧ Decoding.IsAddressText s.toList n) ∧
    ((∀ n, ¬ (Field.IsCanonical n ∧ Decoding.IsAddressText s.toList n)) →
      ∃ d, Decoding.address (.str s) path = .error (.malformedProof path.render d)) ∧
    (∀ n, Decoding.fieldElement (.str s) path = .ok n ↔
      Field.IsCanonical n ∧ Decoding.IsElementText s.toList n) ∧
    ((∀ n, ¬ (Field.IsCanonical n ∧ Decoding.IsElementText s.toList n)) →
      ∃ d, Decoding.fieldElement (.str s) path = .error (.malformedProof path.render d)) ∧
    ∀ mark ∈ [['0', 'x'], ['0', 'X']], ∀ digits, (∀ c ∈ digits, isHexDigit c = true) →
      s.toList = mark ++ digits →
      (∃ n, Decoding.address (.str s) path = .ok n ∧ Decoding.fieldElement (.str s) path = .ok n) ∨
        ∃ d e, Decoding.address (.str s) path = .error (.malformedProof path.render d) ∧
          Decoding.fieldElement (.str s) path = .error (.malformedProof path.render e) := by
  refine ⟨fun n => Decoding.address_eq_ok, Decoding.address_eq_error,
    fun n => Decoding.fieldElement_eq_ok, Decoding.fieldElement_eq_error,
    fun mark hmark digits hdigits hs => Decoding.decoders_agree ?_⟩
  rw [hs]
  exact Decoding.addressNumeral?_eq_hexNumber? hmark hdigits

/-- An address between blanks, with an underscore after its mark and a digit of another script. -/
def decoratedNumeral : String := "\u00a00X_1_\u0663f\n"

/-- That text denotes the address 319. -/
lemma isAddressText_decoratedNumeral : Decoding.IsAddressText decoratedNumeral.toList 319 := by
  have hstripped : IsStripped isBlank decoratedNumeral.toList
      ['0', 'X', '_', '1', '_', '\u0663', 'f'] := by
    refine ⟨⟨['\u00a0'], ['\n'], rfl, List.forall_mem_singleton.mpr (by decide),
      List.forall_mem_singleton.mpr (by decide)⟩, ?_, ?_⟩
    · rintro c ⟨⟩
      decide
    · rintro c ⟨⟩
      decide
  refine ⟨_, hstripped, .inl ⟨rfl, 319, ⟨['0', 'X'], ?_, ['_'], ?_, ['1', '_', '\u0663', 'f'],
    [1, 3, 15], rfl, ⟨[['1'], ['\u0663', 'f']], ?_, ?_, rfl, ?_⟩, ?_⟩, rfl⟩⟩
  all_goals decide

lemma not_isElementText_decoratedNumeral (n : ℤ) :
    ¬ (Field.IsCanonical n ∧ Decoding.IsElementText decoratedNumeral.toList n) := by
  rintro ⟨hcanonical, h⟩
  obtain ⟨m, rfl⟩ := Int.eq_ofNat_of_zero_le hcanonical.1
  have hnone : Decoding.hexNumber? decoratedNumeral.toList = none := by decide
  rw [Decoding.hexNumber?_eq_some.mpr h] at hnone
  cases hnone

/-- The decorated text is read as an address and refused as a field element; the decoders agree on
digits behind a mark. -/
theorem decoratedNumeral_decoded :
    Decoding.address (.str decoratedNumeral) (.key .root "address") = .ok 319 ∧
      (∃ d, Decoding.fieldElement (.str decoratedNumeral) (.key .root "value") =
        .error (.malformedProof "value" d)) ∧
      Decoding.address (.str "0X00aF") .root = Decoding.fieldElement (.str "0X00aF") .root := by
  obtain ⟨haddress, -⟩ := decoders_accept_grammars decoratedNumeral (.key .root "address")
  obtain ⟨-, -, -, helement, -⟩ := decoders_accept_grammars decoratedNumeral (.key .root "value")
  obtain ⟨-, -, helementText, -, hagree⟩ := decoders_accept_grammars "0X00aF" .root
  refine ⟨(haddress 319).mpr ⟨by decide, isAddressText_decoratedNumeral⟩,
    helement not_isElementText_decoratedNumeral, ?_⟩
  have htext : Decoding.IsElementText "0X00aF".toList 175 :=
    ⟨['0', 'X'], by decide, "00aF".toList, [0, 0, 10, 15], rfl, by decide, by decide, by decide⟩
  have hvalue := (helementText 175).mpr ⟨by decide, htext⟩
  obtain ⟨n, hn, hn'⟩ | ⟨d, e, -, herror⟩ :=
    hagree ['0', 'X'] (by decide) "00aF".toList (List.all_eq_true.mp (by decide)) rfl
  · rw [hn, hn']
  · rw [hvalue] at herror
    cases herror

end StarkCalldata
