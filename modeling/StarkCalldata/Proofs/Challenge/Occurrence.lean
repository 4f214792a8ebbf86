import StarkCalldata.Proofs.Challenge.Transcript
import StarkCalldata.Proofs.Text.Numeral

/-!
Every entry of the transcript is found once.

The search for interaction elements goes on behind each element that it finds. Nothing is lost by
that: an element starts with a character that does not come back in it, so no other element starts
inside of it, and the search is the same as a try at every place of the line
(`scan_elementAt?`).

* `IsRun`, `IsHexValue`: the variable parts of an entry;
* `ElementAt`, `CommitmentAt`: an entry stands in a text from a given place on, told by its parts;
* `ElementAt.unique`: the number and the digits of an element are determined by its place;
* `ListsElements`: the elements of a line by place and value, in order, each one once;
* `search?_eq_some`: the first find is the leftmost one;
* `IsFirstCommitment`: the leftmost commitment in the first line that has one;
* `elements_and_commitment_exact`: what is read from a transcript.
-/

namespace StarkCalldata.Transcript

open Text Json

variable {text rest : List Char} {n k : ℕ}

/-! ### The parts of an entry -/

/-- A run of characters of a class, not empty. -/
structure IsRun (p : Char → Bool) (run : List Char) : Prop where
  ne_nil : run ≠ []
  all : ∀ c ∈ run, p c = true

/-- The number that hexadecimal digits denote. -/
def IsHexValue (digits : List Char) (n : ℕ) : Prop :=
  ∃ values, digits.mapM hexDigit? = some values ∧ Nat.ofDigits 16 values.reverse = n

/-- An element with this number and these digits of its value stands in a text from a place on. -/
structure ElementAt (text : List Char) (place : ℕ) (number digits : List Char) : Prop where
  isRun_number : IsRun isDecimalDigit number
  isRun_digits : IsRun isHexDigit digits
  stands : numberMark ++ number ++ valueMark ++ digits ++ [')'] <+: text.drop place

/-- The mark in front of the range of a commitment. -/
def rangeMark : List Char := "P->V[".toList

/-- The mark between the range and the value of a commitment. -/
def commitmentMark : List Char :=
  "]: /cpu air/STARK/Original/Commit on Trace: Hash(0x".toList

/-- A commitment with this range and these digits of its value stands in a text from a place on. -/
structure CommitmentAt (text : List Char) (place : ℕ) (first last digits : List Char) : Prop where
  isRun_first : IsRun isDecimalDigit first
  isRun_last : IsRun isDecimalDigit last
  isRun_digits : IsRun isHexDigit digits
  stands : rangeMark ++ first ++ [':'] ++ last ++ commitmentMark ++ digits ++ [')'] <+:
    text.drop place

lemma IsRun.many?_eq_some {p : Char → Bool} {run : List Char} (h : IsRun p run)
    (hrest : ∀ c ∈ rest.head?, p c = false) : many? p (run ++ rest) = some (run, rest) :=
  Transcript.many?_eq_some.mpr ⟨h.ne_nil, h.all, hrest, rfl⟩

lemma IsRun.eq_of_append_eq {p : Char → Bool} {run run' rest' : List Char} (h : IsRun p run)
    (h' : IsRun p run') (hrest : ∀ c ∈ rest.head?, p c = false)
    (hrest' : ∀ c ∈ rest'.head?, p c = false) (heq : run ++ rest = run' ++ rest') :
    run = run' ∧ rest = rest' := by
  have hfound := h.many?_eq_some hrest
  rw [heq, h'.many?_eq_some hrest'] at hfound
  exact (Prod.mk.inj (Option.some.inj hfound)).imp Eq.symm Eq.symm

lemma isHexValue_iff {digits : List Char} : IsHexValue digits n ↔
    ∃ values, digits.mapM hexDigit? = some values ∧ ofDigits 16 values = n := by
  simp only [IsHexValue, ofDigits_eq]

lemma IsHexValue.isRun {digits : List Char} (hne : digits ≠ []) (h : IsHexValue digits n) :
    IsRun isHexDigit digits := by
  obtain ⟨values, hvalues, -⟩ := h
  exact ⟨hne, exists_mapM_hexDigit?.mp ⟨values, hvalues⟩⟩

lemma IsRun.exists_isHexValue {digits : List Char} (h : IsRun isHexDigit digits) :
    ∃ n, IsHexValue digits n := by
  obtain ⟨values, hvalues⟩ := exists_mapM_hexDigit?.mpr h.all
  exact ⟨_, values, hvalues, rfl⟩

/-! ### Entries at their places -/

lemma valueMark_head? (rest : List Char) :
    ∀ c ∈ (valueMark ++ rest).head?, isDecimalDigit c = false := by
  rintro c ⟨⟩
  decide

lemma close_head? (rest : List Char) : ∀ c ∈ ([')'] ++ rest).head?, isHexDigit c = false := by
  rintro c ⟨⟩
  decide

/-- **The number and the digits of an element are determined by its place.** -/
theorem ElementAt.unique {number digits number' digits' : List Char}
    (h : ElementAt text k number digits) (h' : ElementAt text k number' digits') :
    number = number' ∧ digits = digits' := by
  obtain ⟨hnumber, hdigits, rest, hstands⟩ := h
  obtain ⟨hnumber', hdigits', rest', hstands'⟩ := h'
  rw [← hstands'] at hstands
  simp only [List.append_assoc] at hstands
  obtain ⟨rfl, hvalue⟩ := hnumber.eq_of_append_eq hnumber' (valueMark_head? _) (valueMark_head? _)
    (List.append_cancel_left hstands)
  obtain ⟨rfl, -⟩ := hdigits.eq_of_append_eq hdigits' (close_head? _) (close_head? _)
    (List.append_cancel_left hvalue)
  exact ⟨rfl, rfl⟩

/-- **The reader finds an element exactly at the places where one stands.** -/
theorem elementAt?_drop : (∃ rest, elementAt? (text.drop k) = some (n, rest)) ↔
    ∃ number digits, ElementAt text k number digits ∧ IsHexValue digits n := by
  simp only [elementAt?_eq_some]
  constructor
  · rintro ⟨rest, entry, ⟨number, digits, values, hnumber, hdecimal, hdigits, hvalues, hn, rfl⟩,
      hdrop⟩
    have hvalue : IsHexValue digits n := isHexValue_iff.mpr ⟨values, hvalues, hn⟩
    exact ⟨number, digits, ⟨⟨hnumber, hdecimal⟩, hvalue.isRun hdigits, rest, hdrop.symm⟩, hvalue⟩
  · rintro ⟨number, digits, ⟨hnumber, hdigits, rest, hstands⟩, hvalue⟩
    obtain ⟨values, hvalues, hn⟩ := isHexValue_iff.mp hvalue
    exact ⟨rest, _, ⟨number, digits, values, hnumber.ne_nil, hnumber.all, hdigits.ne_nil, hvalues,
      hn, rfl⟩, hstands.symm⟩

lemma commitmentAt?_eq (text : List Char) :
    commitmentAt? text = (after? rangeMark text).bind fun rest =>
      (many? isDecimalDigit rest).bind fun first => (after? [':'] first.2).bind fun rest =>
        (many? isDecimalDigit rest).bind fun last =>
          (after? commitmentMark last.2).bind closedValue? := rfl

/-- **The reader finds a commitment exactly at the places where one stands.** -/
theorem commitmentAt?_drop : (∃ rest, commitmentAt? (text.drop k) = some (n, rest)) ↔
    ∃ first last digits, CommitmentAt text k first last digits ∧ IsHexValue digits n := by
  simp only [commitmentAt?_eq, Option.bind_eq_some_iff, Prod.exists, many?_eq_some, after?_eq_some,
    closedValue?_eq_some]
  constructor
  · rintro ⟨rest, _, hdrop, first, _, ⟨hfirst, hfirsts, -, rfl⟩, _, rfl, last, _,
      ⟨hlast, hlasts, -, rfl⟩, _, rfl, digits, values, hdigits, hvalues, hn, rfl⟩
    have hvalue : IsHexValue digits n := isHexValue_iff.mpr ⟨values, hvalues, hn⟩
    refine ⟨first, last, digits,
      ⟨⟨hfirst, hfirsts⟩, ⟨hlast, hlasts⟩, hvalue.isRun hdigits, rest, ?_⟩, hvalue⟩
    simp only [hdrop, List.append_assoc]
  · rintro ⟨first, last, digits, ⟨hfirst, hlast, hdigits, rest, hstands⟩, hvalue⟩
    obtain ⟨values, hvalues, hn⟩ := isHexValue_iff.mp hvalue
    have hcolon (rest : List Char) : ∀ c ∈ ([':'] ++ rest).head?, isDecimalDigit c = false := by
      rintro c ⟨⟩
      decide
    have hmark (rest : List Char) : ∀ c ∈ (commitmentMark ++ rest).head?,
        isDecimalDigit c = false := by
      rintro c ⟨⟩
      decide
    refine ⟨rest, _, ?_, first, _, ⟨hfirst.ne_nil, hfirst.all, hcolon _, rfl⟩, _, rfl, last, _,
      ⟨hlast.ne_nil, hlast.all, hmark _, rfl⟩, _, rfl, digits, values, hdigits.ne_nil, hvalues, hn,
      rfl⟩
    simp only [← hstands, List.append_assoc]

/-! ### All elements -/

/-- Nothing is found in the characters without the first one of an element. -/
lemma filterMap_drop_append {run : List Char} (h : 'V' ∉ run) :
    (List.range (run ++ rest).length).filterMap
        (fun k => (elementAt? ((run ++ rest).drop k)).map Prod.fst) =
      (List.range rest.length).filterMap fun k => (elementAt? (rest.drop k)).map Prod.fst := by
  induction run with
  | nil => rfl
  | cons c run ih =>
      obtain ⟨hc, hrun⟩ : 'V' ≠ c ∧ 'V' ∉ run := by simpa using h
      have hnone : elementAt? (c :: (run ++ rest)) = none :=
        elementAt?_eq_none fun heq => hc (Option.some.inj heq).symm
      rw [List.cons_append, List.length_cons, List.range_succ_eq_map, List.filterMap_cons,
        List.drop_zero, hnone, List.filterMap_map, ← ih hrun]
      rfl

/-- **The search that goes on behind what it finds is a try at every place.** -/
theorem scan_elementAt? (text : List Char) : scan elementAt? 0 text =
    (List.range text.length).filterMap fun k => (elementAt? (text.drop k)).map Prod.fst := by
  induction hlength : text.length using Nat.strong_induction_on generalizing text with
  | _ length ih =>
      subst hlength
      cases text with
      | nil => rfl
      | cons c text =>
          cases hfound : elementAt? (c :: text) with
          | none =>
              rw [scan_of_not_found hfound, ih _ (Nat.lt_succ_self _) text rfl, List.length_cons,
                List.range_succ_eq_map, List.filterMap_cons, List.drop_zero, hfound,
                List.filterMap_map]
              rfl
          | some found =>
              obtain ⟨n, rest⟩ := found
              obtain ⟨entry, hentry, htext⟩ := elementAt?_eq_some.mp hfound
              rw [htext] at hfound ⊢
              rw [scan_of_found hentry.ne_nil hfound]
              -- nothing is found in the element behind its first character
              obtain ⟨tail, rfl, htail⟩ := hentry.exists_tail
              have hshorter : rest.length < (c :: text).length := by
                rw [htext]
                simp
              rw [ih _ hshorter rest rfl, ← filterMap_drop_append htail, List.cons_append,
                List.length_cons, List.range_succ_eq_map, List.filterMap_cons, List.drop_zero,
                ← List.cons_append, hfound, List.filterMap_map]
              rfl

/-- The elements of a line by place and value: in the order of their places, each one once, and
nothing else. -/
structure ListsElements (line : String) (found : List (ℕ × ℕ)) : Prop where
  ordered : found.Pairwise fun a b => a.1 < b.1
  exact : ∀ k n, (k, n) ∈ found ↔
    ∃ number digits, ElementAt line.toList k number digits ∧ IsHexValue digits n

/-- What is found in a line are its elements. -/
theorem exists_listsElements (line : String) : ∃ found, ListsElements line found ∧
    scan elementAt? 0 line.toList = found.map Prod.snd := by
  refine ⟨(List.range line.toList.length).filterMap fun k =>
    (elementAt? (line.toList.drop k)).map fun found => (k, found.1), ⟨?_, fun k n => ?_⟩, ?_⟩
  · rw [List.pairwise_filterMap]
    refine List.pairwise_lt_range.imp fun hlt found hfound found' hfound' => ?_
    obtain ⟨_, -, rfl⟩ := Option.map_eq_some_iff.mp hfound
    obtain ⟨_, -, rfl⟩ := Option.map_eq_some_iff.mp hfound'
    exact hlt
  · rw [← elementAt?_drop]
    simp only [List.mem_filterMap, List.mem_range, Option.map_eq_some_iff, Prod.mk.injEq]
    constructor
    · rintro ⟨k', -, ⟨n', rest⟩, hfound, rfl, rfl⟩
      exact ⟨rest, hfound⟩
    · rintro ⟨rest, hfound⟩
      refine ⟨k, ?_, (n, rest), hfound, rfl, rfl⟩
      by_contra hbeyond
      rw [List.drop_eq_nil_of_le (Nat.le_of_not_lt hbeyond)] at hfound
      cases hfound
  · rw [scan_elementAt?, List.map_filterMap]
    simp only [Option.map_map]
    rfl

/-! ### The first commitment -/

lemma search?_cons (found? : List Char → Option (ℕ × List Char)) (c : Char) (text : List Char) :
    search? found? (c :: text) =
      ((found? (c :: text)).map Prod.fst).or (search? found? text) := by
  rw [search?]
  cases found? (c :: text) <;> rfl

/-- Nothing is found in a text exactly when nothing is found at any of its places. -/
lemma search?_eq_none {found? : List Char → Option (ℕ × List Char)} (hnil : found? [] = none) :
    search? found? text = none ↔ ∀ k, found? (text.drop k) = none := by
  induction text with
  | nil => simp [search?, hnil]
  | cons c text ih =>
      rw [search?_cons, Option.or_eq_none_iff, Option.map_eq_none_iff, ih]
      constructor
      · rintro ⟨hfirst, hrest⟩ (_ | k)
        · exact hfirst
        · exact hrest k
      · exact fun h => ⟨h 0, fun k => h (k + 1)⟩

/-- **The first find is the leftmost one.** -/
theorem search?_eq_some {found? : List Char → Option (ℕ × List Char)} (hnil : found? [] = none) :
    search? found? text = some n ↔ ∃ k, (∃ rest, found? (text.drop k) = some (n, rest)) ∧
      ∀ j < k, found? (text.drop j) = none := by
  induction text with
  | nil => simp [search?, hnil]
  | cons c text ih =>
      rw [search?_cons, Option.or_eq_some_iff, Option.map_eq_none_iff, ih]
      constructor
      · rintro (hfirst | ⟨hfirst, k, hk, hbefore⟩)
        · obtain ⟨⟨_, rest⟩, hfound, rfl⟩ := Option.map_eq_some_iff.mp hfirst
          exact ⟨0, ⟨rest, hfound⟩, fun j hj => absurd hj (Nat.not_lt_zero j)⟩
        · refine ⟨k + 1, hk, fun j hj => ?_⟩
          cases j with
          | zero => exact hfirst
          | succ j => exact hbefore j (Nat.lt_of_succ_lt_succ hj)
      · rintro ⟨_ | k, ⟨rest, hk⟩, hbefore⟩
        · exact .inl (Option.map_eq_some_iff.mpr ⟨(n, rest), hk, rfl⟩)
        · exact .inr ⟨hbefore 0 k.succ_pos, k, ⟨rest, hk⟩,
            fun j hj => hbefore (j + 1) (Nat.succ_lt_succ hj)⟩

/-- No commitment stands in a text. -/
def LacksCommitment (text : List Char) : Prop :=
  ∀ k first last digits, ¬ CommitmentAt text k first last digits

/-- Lines hold a first commitment with this value: the leftmost one in the first line that has
one. -/
def IsFirstCommitment (lines : List String) (n : ℕ) : Prop :=
  ∃ before line after, lines = before ++ line :: after ∧
    (∀ earlier ∈ before, LacksCommitment earlier.toList) ∧
    ∃ k first last digits, CommitmentAt line.toList k first last digits ∧ IsHexValue digits n ∧
      ∀ j < k, ∀ first last digits, ¬ CommitmentAt line.toList j first last digits

/-- Where no commitment stands, none is found. -/
lemma commitmentAt?_drop_eq_none : commitmentAt? (text.drop k) = none ↔
    ∀ first last digits, ¬ CommitmentAt text k first last digits := by
  constructor
  · intro hnone first last digits h
    obtain ⟨n, hn⟩ := h.isRun_digits.exists_isHexValue
    obtain ⟨rest, hfound⟩ := commitmentAt?_drop.mpr ⟨first, last, digits, h, hn⟩
    rw [hnone] at hfound
    cases hfound
  · intro h
    cases hfound : commitmentAt? (text.drop k) with
    | none => rfl
    | some found =>
        obtain ⟨first, last, digits, hat, -⟩ := commitmentAt?_drop.mp ⟨found.2, hfound⟩
        exact absurd hat (h first last digits)

lemma search?_commitmentAt?_eq_some : search? commitmentAt? text = some n ↔
    ∃ k first last digits, CommitmentAt text k first last digits ∧ IsHexValue digits n ∧
      ∀ j < k, ∀ first last digits, ¬ CommitmentAt text j first last digits := by
  rw [search?_eq_some rfl]
  simp only [commitmentAt?_drop, commitmentAt?_drop_eq_none]
  constructor
  · rintro ⟨k, ⟨first, last, digits, hat, hn⟩, hbefore⟩
    exact ⟨k, first, last, digits, hat, hn, hbefore⟩
  · rintro ⟨k, first, last, digits, hat, hn, hbefore⟩
    exact ⟨k, ⟨first, last, digits, hat, hn⟩, hbefore⟩

lemma search?_commitmentAt?_eq_none : search? commitmentAt? text = none ↔ LacksCommitment text := by
  rw [search?_eq_none rfl]
  exact forall_congr' fun k => commitmentAt?_drop_eq_none

/-- The commitment that is read is the first one. -/
theorem commitment?_eq_some {lines : List String} :
    commitment? lines = some n ↔ IsFirstCommitment lines n := by
  rw [commitment?, List.findSome?_eq_some_iff]
  simp only [search?_commitmentAt?_eq_some, search?_commitmentAt?_eq_none, IsFirstCommitment]
  constructor
  · rintro ⟨before, line, after, hlines, hfound, hbefore⟩
    exact ⟨before, line, after, hlines, hbefore, hfound⟩
  · rintro ⟨before, line, after, hlines, hbefore, hfound⟩
    exact ⟨before, line, after, hlines, hfound, hbefore⟩

/-- No commitment is read exactly from lines without one. -/
theorem commitment?_eq_none {lines : List String} :
    commitment? lines = none ↔ ∀ line ∈ lines, LacksCommitment line.toList := by
  rw [commitment?, List.findSome?_eq_none_iff]
  simp only [search?_commitmentAt?_eq_none]

/-! ### The whole transcript -/

/-- **Entries are read exactly where they stand.** Line by line and from left to right there is one
value for each place at which an element stands, and nothing else; the number and the digits of an
element are determined by its place. The commitment is the leftmost one in the first line that has
one, and there is none exactly when no line has one. -/
theorem elements_and_commitment_exact (lines : List String) :
    (∃ found, List.Forall₂ ListsElements lines found ∧
      elements lines = found.flatten.map Prod.snd) ∧
    (∀ line ∈ lines, ∀ k number digits number' digits', ElementAt line.toList k number digits →
      ElementAt line.toList k number' digits' → number = number' ∧ digits = digits') ∧
    (∀ n, commitment? lines = some n ↔ IsFirstCommitment lines n) ∧
    (commitment? lines = none ↔ ∀ line ∈ lines, LacksCommitment line.toList) := by
  refine ⟨?_, fun line _ k number digits number' digits' h h' => h.unique h',
    fun n => commitment?_eq_some, commitment?_eq_none⟩
  induction lines with
  | nil => exact ⟨[], .nil, rfl⟩
  | cons line lines ih =>
      obtain ⟨found, hfound, hscan⟩ := exists_listsElements line
      obtain ⟨founds, hfounds, helements⟩ := ih
      refine ⟨found :: founds, .cons hfound hfounds, ?_⟩
      rw [List.flatten_cons, List.map_append, ← hscan, ← helements]
      rfl

/-- The line of an element has it at its start, with no other number and no other digits. -/
theorem elementLine_exact :
    ElementAt (elementLine 17 10).toList 0 ['1', '7'] ['a'] ∧
    (∀ number digits, ElementAt (elementLine 17 10).toList 0 number digits →
      number = ['1', '7'] ∧ digits = ['a']) ∧
    ∃ found, List.Forall₂ ListsElements [elementLine 17 10] found ∧
      [10] = found.flatten.map Prod.snd := by
  obtain ⟨hfound, hunique, -⟩ := elements_and_commitment_exact [elementLine 17 10]
  have hat : ElementAt (elementLine 17 10).toList 0 ['1', '7'] ['a'] := by
    refine ⟨⟨by decide, List.all_eq_true.mp (by decide)⟩,
      ⟨by decide, List.all_eq_true.mp (by decide)⟩, ?_⟩
    rw [toList_elementLine]
    exact List.prefix_rfl
  refine ⟨hat, fun number digits h => hunique _ (.head _) 0 number digits _ _ h hat, ?_⟩
  rwa [elements_elementLine] at hfound

end StarkCalldata.Transcript
