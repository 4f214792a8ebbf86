import StarkCalldata.Proofs.Annotations
import StarkCalldata.Proofs.Challenge.Occurrence

/-!
The numbers under which elements are logged.

An interaction element is logged with a number, and the first challenge is the element of number
zero, the second one that of number one. The number is read past: what is taken are the first two
elements in the order of the lines and of the places in a line. So the challenges are those of the
numbers when the elements stand in the order of their numbers, and exchanged when the first two
stand the other way round.

* `Occurrence`: an element of a transcript by its line, its place, its number and its value;
* `exists_listsOccurrences`: all elements in the order in which they stand, each one once;
* `standsIn_numberedLines`: the elements of lines of one element each;
* `annotated_in_order_of_places`: the pair that is read, and when it is that of the numbers.
-/

namespace StarkCalldata.Transcript

open Text Json

variable {lines : List String} {line : String} {n : ℕ}

/-- The number that decimal digits of any script denote. -/
def IsDecimalValue (digits : List Char) (n : ℕ) : Prop :=
  ∃ values, digits.mapM decimalDigit? = some values ∧ Nat.ofDigits 10 values.reverse = n

lemma IsDecimalValue.unique {digits : List Char} {m : ℕ} (h : IsDecimalValue digits n)
    (h' : IsDecimalValue digits m) : n = m := by
  obtain ⟨values, hvalues, rfl⟩ := h
  obtain ⟨values', hvalues', rfl⟩ := h'
  rw [Option.some_inj.mp (hvalues.symm.trans hvalues')]

lemma IsHexValue.unique {digits : List Char} {m : ℕ} (h : IsHexValue digits n)
    (h' : IsHexValue digits m) : n = m := by
  obtain ⟨values, hvalues, rfl⟩ := h
  obtain ⟨values', hvalues', rfl⟩ := h'
  rw [Option.some_inj.mp (hvalues.symm.trans hvalues')]

lemma IsRun.exists_isDecimalValue {digits : List Char} (h : IsRun isDecimalDigit digits) :
    ∃ n, IsDecimalValue digits n := by
  obtain ⟨values, hvalues⟩ := exists_mapM_eq_some.mpr h.all
  exact ⟨_, values, hvalues, rfl⟩

lemma IsDecimalValue.append_digit {digits : List Char} {c : Char} {d : ℕ}
    (h : IsDecimalValue digits n) (hc : decimalDigit? c = some d) :
    IsDecimalValue (digits ++ [c]) (10 * n + d) := by
  obtain ⟨values, hvalues, rfl⟩ := h
  refine ⟨values ++ [d], ?_, ?_⟩
  · rw [List.mapM_append, hvalues]
    simp [hc]
  · rw [List.reverse_append, List.reverse_singleton, List.singleton_append, Nat.ofDigits_cons,
      add_comm]

lemma isDecimalValue_toDigits (n : ℕ) : IsDecimalValue (Nat.toDigits 10 n) n := by
  have hdigit : ∀ d < 10, decimalDigit? (Nat.digitChar d) = some d := by decide
  induction n using Nat.strong_induction_on with
  | _ n ih =>
      by_cases h : n < 10
      · rw [Nat.toDigits_of_lt_base h]
        exact ⟨[n], by simp [hdigit n h], by simp⟩
      · rw [Nat.toDigits_of_base_le (by norm_num) (Nat.le_of_not_lt h)]
        have := (ih (n / 10) (by omega)).append_digit (hdigit (n % 10) (by omega))
        rwa [Nat.div_add_mod] at this

/-! ### Occurrences -/

/-- An interaction element of a transcript: the line and the place where it stands, the number under
which it is logged, and its value. -/
@[ext]
structure Occurrence where
  line : ℕ
  place : ℕ
  number : ℕ
  value : ℕ

namespace Occurrence

/-- The element stands in a text at its place. -/
def StandsAt (o : Occurrence) (text : List Char) : Prop :=
  ∃ number digits, ElementAt text o.place number digits ∧ IsDecimalValue number o.number ∧
    IsHexValue digits o.value

/-- The element stands in its line at its place. -/
def StandsIn (o : Occurrence) (lines : List String) : Prop :=
  ∃ line, lines[o.line]? = some line ∧ o.StandsAt line.toList

/-- The order of the lines, and in a line that of the places. -/
def Precedes (o o' : Occurrence) : Prop :=
  o.line < o'.line ∨ o.line = o'.line ∧ o.place < o'.place

/-- The same element with one more line above. -/
def below (o : Occurrence) : Occurrence := { o with line := o.line + 1 }

variable {o o' : Occurrence}

lemma StandsAt.unique {text : List Char} (h : o.StandsAt text) (h' : o'.StandsAt text)
    (hplace : o.place = o'.place) : o.number = o'.number ∧ o.value = o'.value := by
  obtain ⟨number, digits, hat, hnumber, hvalue⟩ := h
  obtain ⟨number', digits', hat', hnumber', hvalue'⟩ := h'
  obtain ⟨rfl, rfl⟩ := hat.unique (hplace ▸ hat')
  exact ⟨hnumber.unique hnumber', hvalue.unique hvalue'⟩

/-- An element of lines stands in the first one or in the others. -/
lemma standsIn_cons : o.StandsIn (line :: lines) ↔
    o.line = 0 ∧ o.StandsAt line.toList ∨ ∃ o' : Occurrence, o'.StandsIn lines ∧ o'.below = o := by
  obtain ⟨position, place, number, value⟩ := o
  cases position with
  | zero =>
      constructor
      · rintro ⟨_, ⟨⟩, h⟩
        exact .inl ⟨rfl, h⟩
      · rintro (⟨-, h⟩ | ⟨o', -, hbelow⟩)
        · exact ⟨line, rfl, h⟩
        · cases hbelow
  | succ position =>
      constructor
      · rintro ⟨text, htext, h⟩
        exact .inr ⟨⟨position, place, number, value⟩, ⟨text, htext, h⟩, rfl⟩
      · rintro (⟨hline, -⟩ | ⟨o', ⟨text, htext, h⟩, hbelow⟩)
        · cases hline
        · cases hbelow
          exact ⟨text, htext, h⟩

end Occurrence

/-- The elements of lines: in the order in which they stand, each one once, and nothing else. -/
structure ListsOccurrences (lines : List String) (found : List Occurrence) : Prop where
  ordered : found.Pairwise Occurrence.Precedes
  exact : ∀ o, o ∈ found ↔ o.StandsIn lines

/-- There is only one such list. -/
lemma ListsOccurrences.unique {found found' : List Occurrence} (h : ListsOccurrences lines found)
    (h' : ListsOccurrences lines found') : found = found' := by
  have : Std.Irrefl Occurrence.Precedes := ⟨by
    rintro o (hlt | ⟨-, hlt⟩) <;> exact absurd hlt (lt_irrefl _)⟩
  have : Std.Antisymm Occurrence.Precedes := ⟨by
    rintro o o' (hlt | ⟨heq, hlt⟩) (hlt' | ⟨heq', hlt'⟩) <;> omega⟩
  exact h.ordered.eq_of_mem_iff h'.ordered fun o => (h.exact o).trans (h'.exact o).symm

/-- What is found in a line are the values of its elements. -/
lemma exists_occurrences_line (line : String) : ∃ found : List Occurrence,
    (found.Pairwise fun o o' => o.place < o'.place) ∧
      (∀ o, o ∈ found ↔ o.line = 0 ∧ o.StandsAt line.toList) ∧
      scan elementAt? 0 line.toList = found.map Occurrence.value := by
  obtain ⟨found, ⟨hordered, hexact⟩, hscan⟩ := exists_listsElements line
  -- each place has an element with a number
  have hnumbered : ∀ entry ∈ found, ∃ o : Occurrence, o.line = 0 ∧ o.place = entry.1 ∧
      o.value = entry.2 ∧ o.StandsAt line.toList := by
    rintro ⟨place, value⟩ hmem
    obtain ⟨number, digits, hat, hvalue⟩ := (hexact place value).mp hmem
    obtain ⟨n, hn⟩ := hat.isRun_number.exists_isDecimalValue
    exact ⟨⟨0, place, n, value⟩, rfl, rfl, rfl, number, digits, hat, hn, hvalue⟩
  have : Nonempty Occurrence := ⟨⟨0, 0, 0, 0⟩⟩
  choose! numbered hline hplace hvalue hstands using hnumbered
  refine ⟨found.map numbered, ?_, fun o => ?_, ?_⟩
  · rw [List.pairwise_map]
    exact hordered.imp_of_mem fun {entry entry'} hmem hmem' hlt => by
      rwa [hplace entry hmem, hplace entry' hmem']
  · rw [List.mem_map]
    constructor
    · rintro ⟨entry, hmem, rfl⟩
      exact ⟨hline entry hmem, hstands entry hmem⟩
    · rintro ⟨hzero, h⟩
      obtain ⟨number, digits, hat, hn, hv⟩ := id h
      have hmem : (o.place, o.value) ∈ found := (hexact _ _).mpr ⟨number, digits, hat, hv⟩
      obtain ⟨hnumber, hvalues⟩ := (hstands _ hmem).unique h (hplace _ hmem)
      exact ⟨_, hmem, Occurrence.ext ((hline _ hmem).trans hzero.symm) (hplace _ hmem) hnumber
        hvalues⟩
  · rw [hscan, List.map_map]
    exact List.map_congr_left fun entry hmem => (hvalue entry hmem).symm

/-- **All elements of lines can be listed**, and what is found in the lines are their values. -/
theorem exists_listsOccurrences (lines : List String) : ∃ found, ListsOccurrences lines found ∧
    elements lines = found.map Occurrence.value := by
  induction lines with
  | nil => exact ⟨[], ⟨.nil, fun o => by simp [Occurrence.StandsIn]⟩, rfl⟩
  | cons line lines ih =>
      obtain ⟨found, hordered, hexact, hscan⟩ := exists_occurrences_line line
      obtain ⟨others, ⟨hothers, hin⟩, helements⟩ := ih
      refine ⟨found ++ others.map Occurrence.below, ⟨?_, fun o => ?_⟩, ?_⟩
      · refine List.pairwise_append.mpr ⟨?_, ?_, fun o ho o' ho' => ?_⟩
        · refine hordered.imp_of_mem fun {o o'} ho ho' hlt => .inr ⟨?_, hlt⟩
          rw [((hexact o).mp ho).1, ((hexact o').mp ho').1]
        · refine (List.pairwise_map.mpr (hothers.imp ?_))
          rintro o o' (hlt | ⟨heq, hlt⟩)
          · exact .inl (Nat.succ_lt_succ hlt)
          · exact .inr ⟨congrArg Nat.succ heq, hlt⟩
        · obtain ⟨below, -, rfl⟩ := List.mem_map.mp ho'
          exact .inl (((hexact o).mp ho).1 ▸ Nat.succ_pos _)
      · rw [List.mem_append, hexact, List.mem_map, Occurrence.standsIn_cons]
        simp only [hin]
      · rw [List.map_append, List.map_map, ← hscan]
        exact congrArg (scan elementAt? 0 line.toList ++ ·) helements

/-! ### Lines of one element -/

/-- The line of an element has that element at its start, and no other. -/
lemma standsAt_elementLine {o : Occurrence} (number value : ℕ) :
    o.StandsAt (elementLine number value).toList ↔
      o.place = 0 ∧ o.number = number ∧ o.value = value := by
  have hown : Occurrence.StandsAt ⟨0, 0, number, value⟩ (elementLine number value).toList := by
    obtain ⟨values, hvalues, hn⟩ := ofDigits_hexDigits value
    refine ⟨Nat.toDigits 10 number, hexDigits value, ⟨⟨Nat.toDigits_ne_nil, fun c hc =>
      isDecimalDigit_of_mem_toDigits hc⟩, IsHexValue.isRun (hexDigits_ne_nil value)
      (isHexValue_iff.mpr ⟨values, hvalues, hn⟩), ?_⟩, isDecimalValue_toDigits number,
      isHexValue_iff.mpr ⟨values, hvalues, hn⟩⟩
    rw [toList_elementLine, List.drop_zero]
  obtain ⟨found, -, hexact, hscan⟩ := exists_occurrences_line (elementLine number value)
  rw [(isElement_elementLine number value).scan_eq] at hscan
  obtain ⟨only, rfl, -⟩ := List.map_eq_singleton_iff.mp hscan.symm
  have honly : ∀ o : Occurrence, o.line = 0 → o.StandsAt (elementLine number value).toList →
      o = only := fun o hline h => List.mem_singleton.mp ((hexact o).mpr ⟨hline, h⟩)
  constructor
  · intro h
    have hsame : (⟨0, o.place, o.number, o.value⟩ : Occurrence) = ⟨0, 0, number, value⟩ :=
      (honly ⟨0, o.place, o.number, o.value⟩ rfl h).trans (honly _ rfl hown).symm
    simpa using hsame
  · rintro ⟨hplace, hnumber, hvalue⟩
    rw [Occurrence.StandsAt, hplace, hnumber, hvalue]
    exact hown

/-- Lines that log one element each, told by numbers and values. -/
def numberedLines (logged : List (ℕ × ℕ)) : List String :=
  logged.map fun entry => elementLine entry.1 entry.2

/-- The elements of lines of one element each. -/
lemma standsIn_numberedLines {o : Occurrence} {logged : List (ℕ × ℕ)} :
    o.StandsIn (numberedLines logged) ↔
      o.place = 0 ∧ logged[o.line]? = some (o.number, o.value) := by
  simp only [Occurrence.StandsIn, numberedLines, List.getElem?_map, Option.map_eq_some_iff]
  constructor
  · rintro ⟨_, ⟨⟨number, value⟩, hentry, rfl⟩, h⟩
    obtain ⟨hplace, rfl, rfl⟩ := (standsAt_elementLine number value).mp h
    exact ⟨hplace, hentry⟩
  · rintro ⟨hplace, hentry⟩
    exact ⟨_, ⟨_, hentry, rfl⟩, (standsAt_elementLine _ _).mpr ⟨hplace, rfl, rfl⟩⟩

/-- All elements of lines of one element each. -/
lemma listsOccurrences_numberedLines (logged : List (ℕ × ℕ)) :
    ListsOccurrences (numberedLines logged)
      (logged.zipIdx.map fun entry => ⟨entry.2, 0, entry.1.1, entry.1.2⟩) := by
  refine ⟨?_, fun o => ?_⟩
  · refine List.pairwise_map.mpr (List.pairwise_iff_getElem.mpr fun i j hi hj hlt => .inl ?_)
    rwa [List.getElem_zipIdx, List.getElem_zipIdx, zero_add, zero_add]
  · rw [standsIn_numberedLines, List.mem_map]
    constructor
    · rintro ⟨⟨⟨number, value⟩, line⟩, hentry, rfl⟩
      exact ⟨rfl, List.mem_zipIdx_iff_getElem?.mp hentry⟩
    · rintro ⟨hplace, hentry⟩
      exact ⟨⟨⟨o.number, o.value⟩, o.line⟩, List.mem_zipIdx_iff_getElem?.mpr hentry,
        Occurrence.ext rfl hplace.symm rfl rfl⟩

/-- The element is the only one in the lines that is logged under its number. -/
structure IsOnly (lines : List String) (o : Occurrence) : Prop where
  standsIn : o.StandsIn lines
  only : ∀ o', o'.StandsIn lines → o'.number = o.number → o' = o

/-- The only element of its number in a list of all elements. -/
lemma ListsOccurrences.isOnly {found : List Occurrence} {o : Occurrence}
    (h : ListsOccurrences lines found) (hmem : o ∈ found)
    (honly : ∀ o' ∈ found, o'.number = o.number → o' = o) : IsOnly lines o :=
  ⟨(h.exact o).mp hmem, fun o' ho' => honly o' ((h.exact o').mpr ho')⟩

end StarkCalldata.Transcript

namespace StarkCalldata.Challenges

open Transcript

variable {lines : List String}

/-- **The challenges are the first two elements, not those of numbers zero and one.** In lines with
one element of number zero and one of number one, in any order and among any others, the elements
have a first one and a second one. If both are below the prime, they are the pair, and otherwise the
first of them that is not is refused. So the pair is that of the numbers exactly when the first two
elements have these values. -/
theorem annotated_in_order_of_places {zero one : Occurrence} (hzero : IsOnly lines zero)
    (hone : IsOnly lines one) (hz : zero.number = 0) (ho : one.number = 1)
    (hzlt : zero.value < Field.prime) (holt : one.value < Field.prime) :
    ∃ first second rest, ListsOccurrences lines (first :: second :: rest) ∧
      (first.value < Field.prime → second.value < Field.prime →
        annotated lines = .ok (some ⟨first.value, second.value⟩)) ∧
      (Field.prime ≤ first.value → annotated lines =
        .error (.malformedProof "annotations" (.challengeTooLarge 0 first.value))) ∧
      (first.value < Field.prime → Field.prime ≤ second.value → annotated lines =
        .error (.malformedProof "annotations" (.challengeTooLarge 1 second.value))) ∧
      (annotated lines = .ok (some ⟨zero.value, one.value⟩) ↔
        first.value = zero.value ∧ second.value = one.value) := by
  obtain ⟨found, hfound, helements⟩ := exists_listsOccurrences lines
  have hmem := (hfound.exact zero).mpr hzero.standsIn
  have hmem' := (hfound.exact one).mpr hone.standsIn
  have hne : zero ≠ one := fun heq => absurd (hz ▸ heq ▸ ho) (by decide)
  match found, hfound, helements, hmem, hmem' with
  | [only], _, _, hmem, hmem' =>
      exact absurd ((List.mem_singleton.mp hmem).trans (List.mem_singleton.mp hmem').symm) hne
  | first :: second :: rest, hfound, helements, _, _ =>
      obtain ⟨hok, hfirst, hsecond⟩ := annotated_of_elements helements
      refine ⟨first, second, rest, hfound, hok, hfirst, hsecond, fun h => ?_, ?_⟩
      · rcases lt_or_ge first.value Field.prime with hlt | hge
        · rcases lt_or_ge second.value Field.prime with hlt' | hge'
          · rw [hok hlt hlt'] at h
            simpa using h
          · rw [hsecond hlt hge'] at h
            cases h
        · rw [hfirst hge] at h
          cases h
      · rintro ⟨hfirst, hsecond⟩
        rw [hok (hfirst ▸ hzlt) (hsecond ▸ holt), hfirst, hsecond]

/-- Lines whose elements stand in the order of their numbers: the pair is that of the numbers. -/
theorem numberedLines_in_order :
    annotated (numberedLines [(0, 5), (1, 6), (7, 8)]) = .ok (some ⟨5, 6⟩) := by
  have hall := listsOccurrences_numberedLines [(0, 5), (1, 6), (7, 8)]
  have hzero := hall.isOnly (o := ⟨0, 0, 0, 5⟩) (by simp) (by simp)
  have hone := hall.isOnly (o := ⟨1, 0, 1, 6⟩) (by simp) (by simp)
  obtain ⟨first, second, rest, hfound, hok, -⟩ :=
    annotated_in_order_of_places hzero hone rfl rfl (by decide) (by decide)
  obtain ⟨rfl, hrest⟩ := List.cons.inj (hfound.unique hall)
  obtain ⟨rfl, -⟩ := List.cons.inj hrest
  exact hok (by decide) (by decide)

/-- Two lines in the other order: the pair is exchanged. -/
theorem numberedLines_exchanged : ¬ ∀ (lines : List String) (zero one : Occurrence),
    IsOnly lines zero → IsOnly lines one → zero.number = 0 → one.number = 1 →
    zero.value < Field.prime → one.value < Field.prime →
    annotated lines = .ok (some ⟨zero.value, one.value⟩) := by
  intro hclaim
  have hall := listsOccurrences_numberedLines [(1, 5), (0, 6)]
  have hzero := hall.isOnly (o := ⟨1, 0, 0, 6⟩) (by simp) (by simp)
  have hone := hall.isOnly (o := ⟨0, 0, 1, 5⟩) (by simp) (by simp)
  have hsix := hclaim _ _ _ hzero hone rfl rfl (by decide) (by decide)
  obtain ⟨found, hfound, helements⟩ := exists_listsOccurrences (numberedLines [(1, 5), (0, 6)])
  rw [hfound.unique hall] at helements
  rw [(annotated_of_elements helements).1 (by decide) (by decide)] at hsix
  cases hsix

end StarkCalldata.Challenges
