import StarkCalldata.Challenge.Transcript
import StarkCalldata.Proofs.Json.Token

/-!
Interaction elements in the transcript.

An interaction element is a stretch of a line: a mark, its number in decimal digits of any script, a
second mark, and its value in hexadecimal digits up to a closing parenthesis. The reader that starts
at a place finds an element there exactly when one starts there (`elementAt?_eq_some`):

* `IsElement`: a text is an element with a given value;
* `IsSilent`: no stretch of a line is an element, so nothing is found in it (`isSilent_iff`);
* `elementLine`: the line in which an element is logged; it holds this element and no other
  (`elements_elementLine`);
* `LogsPair`: lines that log a pair of elements among silent lines; the pair is what is found
  (`LogsPair.elements_eq`).
-/

namespace StarkCalldata.Transcript

open Text Json

variable {p : Char → Bool} {text run rest digits : List Char} {n z alpha : ℕ}

/-! ### Runs of characters -/

/-- A run of characters of a class ends where the first character of another class stands. -/
lemma many?_eq_some :
    many? p text = some (run, rest) ↔
      run ≠ [] ∧ (∀ c ∈ run, p c = true) ∧ (∀ c ∈ rest.head?, p c = false) ∧
        text = run ++ rest := by
  have hmany : many? p text = some (run, rest) ↔
      run ≠ [] ∧ text.takeWhile p = run ∧ text.dropWhile p = rest := by
    rw [many?, List.span_eq_takeWhile_dropWhile]
    cases text.takeWhile p with
    | nil => simp +contextual [eq_comm]
    | cons c found =>
        simp only [Option.some.injEq, Prod.mk.injEq, iff_and_self]
        rintro ⟨rfl, -⟩
        exact List.cons_ne_nil c found
  rw [hmany]
  constructor
  · rintro ⟨hne, rfl, rfl⟩
    refine ⟨hne, fun c hc => List.mem_takeWhile_imp hc, fun c hc => ?_,
      List.takeWhile_append_dropWhile.symm⟩
    have hnot := List.head?_dropWhile_not p text
    rw [Option.mem_def.mp hc] at hnot
    simpa using hnot
  · rintro ⟨hne, hrun, hrest, rfl⟩
    rw [List.takeWhile_append_of_pos hrun, List.dropWhile_append_of_pos hrun]
    cases rest with
    | nil => exact ⟨hne, List.append_nil run, rfl⟩
    | cons c rest => simp [hne, hrest c rfl]

/-! ### Elements -/

/-- The mark in front of the number of an element. -/
def numberMark : List Char := "V->P: /cpu air/STARK/Interaction: Interaction element #".toList

/-- The mark between the number and the value of an element. -/
def valueMark : List Char := ": Field Element(0x".toList

/-- A text is an interaction element: its number in decimal digits of any script stands between the
marks, and its value in hexadecimal digits after them. -/
structure IsElement (n : ℕ) (text : List Char) : Prop where
  exists_parts : ∃ number digits values, number ≠ [] ∧ (∀ c ∈ number, isDecimalDigit c = true) ∧
    digits ≠ [] ∧ digits.mapM hexDigit? = some values ∧ ofDigits 16 values = n ∧
    text = numberMark ++ number ++ valueMark ++ digits ++ [')']

/-- A value in hexadecimal digits goes up to a closing parenthesis. -/
lemma closedValue?_eq_some :
    closedValue? text = some (n, rest) ↔ ∃ digits values, digits ≠ [] ∧
      digits.mapM hexDigit? = some values ∧ ofDigits 16 values = n ∧
      text = digits ++ ([')'] ++ rest) := by
  simp only [closedValue?, Option.bind_eq_bind, Option.bind_eq_some_iff, Prod.exists, many?_eq_some,
    after?_eq_some, Option.pure_def, Option.some.injEq, Prod.mk.injEq]
  constructor
  · rintro ⟨digits, _, ⟨hne, -, -, rfl⟩, _, rfl, values, hvalues, hn, rfl⟩
    exact ⟨digits, values, hne, hvalues, hn, rfl⟩
  · rintro ⟨digits, values, hne, hvalues, hn, rfl⟩
    have hclose : isHexDigit ')' = false := by decide
    refine ⟨digits, _, ⟨hne, exists_mapM_hexDigit?.mp ⟨values, hvalues⟩, fun c hc => ?_, rfl⟩, rest,
      rfl, values, hvalues, hn, rfl⟩
    rw [← Option.some.inj hc]
    exact hclose

lemma elementAt?_eq (text : List Char) :
    elementAt? text = (after? numberMark text).bind fun rest =>
      (many? isDecimalDigit rest).bind fun found =>
        (after? valueMark found.2).bind closedValue? := rfl

/-- **The reader finds an element exactly where one starts.** -/
theorem elementAt?_eq_some :
    elementAt? text = some (n, rest) ↔ ∃ entry, IsElement n entry ∧ text = entry ++ rest := by
  simp only [elementAt?_eq, Option.bind_eq_some_iff, Prod.exists, many?_eq_some, after?_eq_some,
    closedValue?_eq_some]
  constructor
  · rintro ⟨_, rfl, number, _, ⟨hnumber, hdecimal, -, rfl⟩, _, rfl, digits, values, hdigits,
      hvalues, hn, rfl⟩
    refine ⟨_, ⟨number, digits, values, hnumber, hdecimal, hdigits, hvalues, hn, rfl⟩, ?_⟩
    simp only [List.append_assoc]
  · rintro ⟨_, ⟨number, digits, values, hnumber, hdecimal, hdigits, hvalues, hn, rfl⟩, rfl⟩
    have hcolon : ∀ c ∈ (valueMark ++ (digits ++ ([')'] ++ rest))).head?,
        isDecimalDigit c = false := by
      rintro c ⟨⟩
      decide
    exact ⟨number ++ (valueMark ++ (digits ++ ([')'] ++ rest))), by simp only [List.append_assoc],
      number, _, ⟨hnumber, hdecimal, hcolon, rfl⟩, _, rfl, digits, values, hdigits, hvalues, hn,
      rfl⟩

lemma IsElement.ne_nil (h : IsElement n text) : text ≠ [] := by
  obtain ⟨number, digits, values, -, -, -, -, -, rfl⟩ := h
  exact List.append_ne_nil_of_right_ne_nil _ (List.cons_ne_nil _ _)

/-- The first character of an element does not come back in it. -/
lemma IsElement.exists_tail (h : IsElement n text) : ∃ tail, text = 'V' :: tail ∧ 'V' ∉ tail := by
  obtain ⟨number, digits, values, -, hdecimal, -, hvalues, -, rfl⟩ := h
  have hfirst : numberMark = 'V' :: numberMark.tail := by decide
  have hnumber : 'V' ∉ number := by
    intro hmem
    have hdigit := hdecimal 'V' hmem
    revert hdigit
    decide
  have hdigits : 'V' ∉ digits := by
    intro hmem
    have hdigit := exists_mapM_hexDigit?.mp ⟨values, hvalues⟩ 'V' hmem
    revert hdigit
    decide
  refine ⟨numberMark.tail ++ number ++ valueMark ++ digits ++ [')'], ?_, ?_⟩
  · rw [hfirst]
    rfl
  · simp only [List.mem_append, not_or]
    exact ⟨⟨⟨⟨by decide, hnumber⟩, by decide⟩, hdigits⟩, by decide⟩

lemma elementAt?_eq_none (h : text.head? ≠ some 'V') : elementAt? text = none := by
  cases hfound : elementAt? text with
  | none => rfl
  | some found =>
      obtain ⟨entry, hentry, rfl⟩ := elementAt?_eq_some.mp hfound
      obtain ⟨tail, rfl, -⟩ := hentry.exists_tail
      exact absurd rfl h

/-! ### The search -/

section Search

variable {found? : List Char → Option (ℕ × List Char)}

lemma scan_eq_drop (found? : List Char → Option (ℕ × List Char)) (skipped : ℕ) (text : List Char) :
    scan found? skipped text = scan found? 0 (text.drop skipped) := by
  induction text generalizing skipped with
  | nil => cases skipped <;> rfl
  | cons c text ih =>
      cases skipped with
      | zero => rfl
      | succ skipped => exact ih skipped

/-- What is found at the start of a text is followed by what is found behind it. -/
lemma scan_of_found {entry : List Char}
    (hne : entry ≠ []) (h : found? (entry ++ rest) = some (n, rest)) :
    scan found? 0 (entry ++ rest) = n :: scan found? 0 rest := by
  cases entry with
  | nil => exact absurd rfl hne
  | cons c entry =>
      rw [List.cons_append] at h ⊢
      rw [scan, h]
      have hbehind : (entry ++ rest).drop ((entry ++ rest).length - rest.length) = rest := by
        rw [List.length_append, Nat.add_sub_cancel, List.drop_left]
      simp only [scan_eq_drop found? ((entry ++ rest).length - rest.length), hbehind]

lemma scan_of_not_found {c : Char}
    (h : found? (c :: text) = none) : scan found? 0 (c :: text) = scan found? 0 text := by
  rw [scan, h]

/-- Nothing is found in a text when nothing is found at any of its places. -/
lemma scan_eq_nil :
    scan found? 0 text = [] ↔ ∀ place, place ≠ [] → place <:+ text → found? place = none := by
  induction text with
  | nil => simp +contextual [scan]
  | cons c text ih =>
      constructor
      · intro hnil place hne hplace
        cases hfound : found? (c :: text) with
        | some found =>
            rw [scan, hfound] at hnil
            cases hnil
        | none =>
            rw [scan_of_not_found hfound] at hnil
            rcases List.suffix_cons_iff.mp hplace with rfl | hplace
            · exact hfound
            · exact ih.mp hnil place hne hplace
      · intro h
        rw [scan_of_not_found (h _ (List.cons_ne_nil c text) List.suffix_rfl), ih]
        exact fun place hne hplace => h place hne (hplace.trans (List.suffix_cons c text))

end Search

/-! ### Silent lines -/

/-- No stretch of a line is an element. -/
def IsSilent (line : String) : Prop :=
  ∀ n entry, IsElement n entry → ¬ entry <:+: line.toList

/-- **A line is silent exactly when nothing is found in it.** -/
theorem isSilent_iff {line : String} : IsSilent line ↔ scan elementAt? 0 line.toList = [] := by
  rw [scan_eq_nil]
  constructor
  · intro h place _ hplace
    cases hfound : elementAt? place with
    | none => rfl
    | some found =>
        obtain ⟨entry, hentry, rfl⟩ := elementAt?_eq_some.mp hfound
        have hinfix := (List.prefix_append entry found.2).isInfix.trans hplace.isInfix
        exact absurd hinfix (h found.1 entry hentry)
  · rintro h n entry hentry ⟨before, after, hline⟩
    have hfound : elementAt? (entry ++ after) = some (n, after) :=
      elementAt?_eq_some.mpr ⟨entry, hentry, rfl⟩
    have hnone := h (entry ++ after) (List.append_ne_nil_of_left_ne_nil hentry.ne_nil after)
      ⟨before, by rw [← hline, List.append_assoc]⟩
    rw [hfound] at hnone
    cases hnone

lemma elements_eq_nil {lines : List String} (h : ∀ line ∈ lines, IsSilent line) :
    elements lines = [] :=
  List.flatMap_eq_nil_iff.mpr fun line hline => isSilent_iff.mp (h line hline)

/-! ### The line of an element -/

/-- The line in which an element is logged under a number. -/
def elementLine (number value : ℕ) : String :=
  "V->P: /cpu air/STARK/Interaction: Interaction element #" ++ toString number
    ++ ": Field Element(0x" ++ String.ofList (hexDigits value) ++ ")"

lemma isDecimalDigit_of_mem_toDigits {m : ℕ} {c : Char} (h : c ∈ Nat.toDigits 10 m) :
    isDecimalDigit c = true := by
  have hdigit := Nat.isDigit_of_mem_toDigits (by norm_num) le_rfl h
  simp only [Char.isDigit, Bool.and_eq_true, decide_eq_true_eq] at hdigit
  have hrange : '0' ≤ c ∧ c ≤ '9' := hdigit
  have hascii : c.toNat < 0x80 := lt_of_le_of_lt hrange.2 (by decide : '9'.toNat < 0x80)
  rw [isDecimalDigit, decimalDigit?, if_pos hascii, if_pos hrange]
  rfl

/-- The characters of the line of an element. -/
lemma toList_elementLine (number value : ℕ) :
    (elementLine number value).toList =
      numberMark ++ Nat.toDigits 10 number ++ valueMark ++ hexDigits value ++ [')'] := by
  -- the marks are kept closed: a rewrite under them would spell out their characters
  have happend (a b c d e : String) : (a ++ b ++ c ++ d ++ e).toList =
      a.toList ++ b.toList ++ c.toList ++ d.toList ++ e.toList := by
    simp only [String.toList_append]
  have hnumber : (toString number).toList = Nat.toDigits 10 number := by simp
  have hvalue : (String.ofList (hexDigits value)).toList = hexDigits value := String.toList_ofList
  refine (happend _ _ _ _ _).trans ?_
  rw [hnumber, hvalue]
  rfl

lemma isElement_elementLine (number value : ℕ) :
    IsElement value (elementLine number value).toList := by
  obtain ⟨values, hvalues, hn⟩ := ofDigits_hexDigits value
  exact ⟨Nat.toDigits 10 number, hexDigits value, values, Nat.toDigits_ne_nil,
    fun c hc => isDecimalDigit_of_mem_toDigits hc, hexDigits_ne_nil value, hvalues, hn,
    toList_elementLine number value⟩

lemma IsElement.scan_eq (h : IsElement n text) : scan elementAt? 0 text = [n] := by
  have hfound : elementAt? (text ++ []) = some (n, []) := elementAt?_eq_some.mpr ⟨text, h, rfl⟩
  have hscan := scan_of_found h.ne_nil hfound
  rwa [List.append_nil] at hscan

/-- **The line of an element holds this element and no other.** -/
theorem elements_elementLine (number value : ℕ) :
    elements [elementLine number value] = [value] := by
  simp [elements, (isElement_elementLine number value).scan_eq]

/-! ### A logged pair -/

/-- Lines log a pair: one line for each of the two elements, under the numbers zero and one, and
other lines before, between and after, all of them silent. -/
def LogsPair (z alpha : ℕ) (lines : List String) : Prop :=
  ∃ before between after, (∀ line ∈ before ++ between ++ after, IsSilent line) ∧
    lines = before ++ elementLine 0 z :: between ++ elementLine 1 alpha :: after

/-- The logged pair is what is found. -/
lemma LogsPair.elements_eq {lines : List String} (h : LogsPair z alpha lines) :
    elements lines = [z, alpha] := by
  obtain ⟨before, between, after, hsilent, rfl⟩ := h
  simp only [List.forall_mem_append] at hsilent
  have happend (ls ms : List String) : elements (ls ++ ms) = elements ls ++ elements ms :=
    List.flatMap_append
  have hcons (l : String) (ls : List String) : elements (l :: ls) = elements [l] ++ elements ls :=
    happend [l] ls
  rw [happend, happend, hcons (elementLine 0 z), hcons (elementLine 1 alpha), elements_elementLine,
    elements_elementLine, elements_eq_nil hsilent.1.1, elements_eq_nil hsilent.1.2,
    elements_eq_nil hsilent.2]
  rfl

end StarkCalldata.Transcript
