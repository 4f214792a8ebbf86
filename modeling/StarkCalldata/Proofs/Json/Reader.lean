import StarkCalldata.Json.Reader
import StarkCalldata.Proofs.Text.Numeral

/-!
What a text can say about integers.

A numeral of too many digits is refused before it is read, so every integer of a value that is read
can be written again. The reader carries this from token to token: it holds of the values that wait
in the open arrays and objects, and therefore of the value they end up in.

* `Json.Quotable`: every integer of a value is `Text.Writable`;
* `quotable_nextToken`: what one token says;
* `Reader.Quotable`, `Reader.Quotable.step`: the invariant of the reader, and that a token keeps it;
* `quotable_of_parseWithin`: every value that is read is quotable.
-/

namespace StarkCalldata

open Text

namespace Json

lemma lt_ten_of_isAsciiDigit {c : Char} (h : isAsciiDigit c = true) : c.toNat - 0x30 < 10 := by
  simp only [isAsciiDigit, Bool.and_eq_true, decide_eq_true_eq] at h
  have hle : c.toNat ≤ '9'.toNat := h.2
  have hnine : '9'.toNat = 0x39 := rfl
  omega

/-- What stands before the point consists of digits. -/
lemma isAsciiDigit_of_mem_scanWhole (text : List Char) :
    ∀ c ∈ (scanWhole text).1, isAsciiDigit c = true := by
  intro c hc
  unfold scanWhole at hc
  split at hc
  · rw [List.mem_singleton.mp hc]
    rfl
  · rw [List.span_eq_takeWhile_dropWhile] at hc
    exact List.mem_takeWhile_imp hc

lemma writable_asciiValue {digits : List Char} (h : ∀ c ∈ digits, isAsciiDigit c = true)
    (hlength : digits.length ≤ digitLimit) : Writable (asciiValue digits) := by
  have hlt : ofDigits 10 (digits.map fun c => c.toNat - 0x30) < 10 ^ digits.length := by
    have hdigits : ∀ d ∈ digits.map fun c => c.toNat - 0x30, d < 10 := by
      intro d hd
      obtain ⟨c, hc, rfl⟩ := List.mem_map.mp hd
      exact lt_ten_of_isAsciiDigit (h c hc)
    simpa using ofDigits_lt_pow hdigits
  exact writable_of_lt_pow hlt hlength

/-! ### Values and tokens -/

/-- Every integer of a value can be written, so that a message may quote it. -/
def Quotable (j : Json) : Prop := ∀ n ∈ j.integers, Writable n

section

variable {items : List Json} {fields : List (String × Json)} {n : ℤ}

@[simp] lemma mem_integers_arr : n ∈ integers (.arr items) ↔ ∃ j ∈ items, n ∈ j.integers := by
  rw [integers]
  induction items with
  | nil => simp [integersOfItems]
  | cons j items ih => simp [integersOfItems, ih]

@[simp] lemma mem_integers_obj : n ∈ integers (.obj fields) ↔ ∃ f ∈ fields, n ∈ f.2.integers := by
  rw [integers]
  induction fields with
  | nil => simp [integersOfFields]
  | cons f fields ih =>
      rw [integersOfFields, List.mem_append, ih, List.exists_mem_cons_iff]

lemma integers_subset_arr {j : Json} (h : j ∈ items) : j.integers ⊆ integers (.arr items) :=
  fun _ hn => mem_integers_arr.mpr ⟨j, h, hn⟩

lemma integers_arr_mono {items' : List Json} (h : items ⊆ items') :
    integers (.arr items) ⊆ integers (.arr items') := by
  intro n hn
  obtain ⟨j, hj, hn⟩ := mem_integers_arr.mp hn
  exact integers_subset_arr (h hj) hn

lemma integers_subset_obj {f : String × Json} (h : f ∈ fields) :
    f.2.integers ⊆ integers (.obj fields) :=
  fun _ hn => mem_integers_obj.mpr ⟨f, h, hn⟩

lemma integers_obj_mono {fields' : List (String × Json)} (h : fields ⊆ fields') :
    integers (.obj fields) ⊆ integers (.obj fields') := by
  intro n hn
  obtain ⟨f, hf, hn⟩ := mem_integers_obj.mp hn
  exact integers_subset_obj (h hf) hn

lemma Quotable.of_integers {j : Json} (h : j.integers = []) : j.Quotable := by
  rw [Quotable, h]
  exact nofun

lemma Quotable.int (h : Writable n) : Quotable (.int n) := by
  simpa [Quotable, integers] using h

lemma Quotable.arr (h : ∀ j ∈ items, Quotable j) : Quotable (.arr items) := by
  intro n hn
  obtain ⟨j, hj, hn⟩ := mem_integers_arr.mp hn
  exact h j hj n hn

lemma Quotable.obj (h : ∀ f ∈ fields, Quotable f.2) : Quotable (.obj fields) := by
  intro n hn
  obtain ⟨f, hf, hn⟩ := mem_integers_obj.mp hn
  exact h f hf n hn

end

/-- The integers of a token can be written. -/
def Token.Quotable : Token → Prop
  | .scalar j => j.Quotable
  | _ => True

lemma quotable_of_mem_words {w : List Char × Json} (h : w ∈ words) : w.2.Quotable := by
  fin_cases h <;> exact .of_integers rfl

lemma quotable_scanWord? {text rest : List Char} {t : Token} (h : scanWord? text = some (t, rest)) :
    t.Quotable := by
  obtain ⟨w, hw, hfound⟩ := List.exists_of_findSome?_eq_some h
  obtain ⟨_, -, heq⟩ := Option.map_eq_some_iff.mp hfound
  cases heq
  exact quotable_of_mem_words hw

/-- The integers of a number at the start of a text can be written. -/
lemma quotable_scanNumber? {text rest : List Char} {t : Token}
    (h : scanNumber? text = some (t, rest)) : t.Quotable := by
  unfold scanNumber? at h
  split at h
  rename_i negative digits _
  split at h
  · cases h
  · rename_i whole after _ hwhole
    have hdigits : ∀ c ∈ whole, isAsciiDigit c = true := by
      intro c hc
      refine isAsciiDigit_of_mem_scanWhole digits c ?_
      rwa [hwhole]
    split at h
    split at h
    · -- neither fraction nor exponent: the digits are counted
      split_ifs at h with hlength hsign
      · cases h
        exact .int (writable_neg (writable_asciiValue hdigits hlength))
      · cases h
        exact .int (writable_asciiValue hdigits hlength)
      · cases h
        exact trivial
    · cases h
      exact .of_integers rfl
    · cases h
      exact .of_integers rfl

lemma quotable_scanText? {text rest : List Char} {t : Token} (h : scanText? text = some (t, rest)) :
    t.Quotable := by
  obtain ⟨⟨units, after⟩, -, h⟩ := Option.bind_eq_some_iff.mp h
  obtain ⟨found, -, h⟩ := Option.bind_eq_some_iff.mp h
  cases h
  exact trivial

/-- The integers of the first token of a text can be written. -/
lemma quotable_tokenAt (text : List Char) : (tokenAt text).1.Quotable := by
  unfold tokenAt
  split
  · exact trivial
  · rename_i c rest
    split_ifs
    · exact trivial
    · exact trivial
    · exact trivial
    · exact trivial
    · exact trivial
    · exact trivial
    · cases htext : scanText? rest with
      | some found => exact quotable_scanText? htext
      | none => exact trivial
    · cases hword : scanWord? (c :: rest) with
      | some found => exact quotable_scanWord? hword
      | none =>
          cases hnumber : scanNumber? (c :: rest) with
          | some found => exact quotable_scanNumber? hnumber
          | none => exact trivial

/-- The integers of the next token can be written. -/
lemma quotable_nextToken (text : List Char) : (nextToken text).1.Quotable :=
  quotable_tokenAt (text.dropWhile isSpace)

/-- Setting a field adds no value but its own. -/
lemma quotable_setField {name : String} {j : Json} {fields : List (String × Json)}
    (h : ∀ f ∈ fields, f.2.Quotable) (hj : j.Quotable) :
    ∀ f ∈ setField name j fields, f.2.Quotable := by
  induction fields with
  | nil => simpa [setField] using hj
  | cons first rest ih =>
      obtain ⟨n, v⟩ := first
      rw [List.forall_mem_cons] at h
      rw [setField]
      split_ifs with hname
      · exact List.forall_mem_cons.mpr ⟨hj, h.2⟩
      · exact List.forall_mem_cons.mpr ⟨h.1, ih h.2⟩

lemma quotable_ofFields {mentions : List (String × Json)} (h : ∀ m ∈ mentions, m.2.Quotable) :
    ∀ f ∈ ofFields mentions, f.2.Quotable := by
  have hfold : ∀ fields : List (String × Json), (∀ f ∈ fields, f.2.Quotable) →
      ∀ f ∈ mentions.foldl (fun fields m => setField m.1 m.2 fields) fields, f.2.Quotable := by
    induction mentions with
    | nil => exact fun fields hfields => hfields
    | cons m rest ih =>
        rw [List.forall_mem_cons] at h
        exact fun fields hfields => ih h.2 _ (quotable_setField hfields h.1)
  exact hfold [] (by simp)

/-! ### The reader -/

/-- The integers that wait in an open array or object can be written. -/
def Open.Quotable : Open → Prop
  | .array items => ∀ j ∈ items, j.Quotable
  | .object fields _ => ∀ f ∈ fields, f.2.Quotable

namespace Reader

/-- The integers that the reader has read so far can be written. -/
def Quotable : Reader → Prop
  | .value outer | .firstItem outer | .firstName outer => ∀ o ∈ outer, o.Quotable
  | .nextName outer fields | .colon outer fields _ | .afterField outer fields =>
      (∀ o ∈ outer, o.Quotable) ∧ ∀ f ∈ fields, f.2.Quotable
  | .afterItem outer items => (∀ o ∈ outer, o.Quotable) ∧ ∀ j ∈ items, j.Quotable
  | .finished j => j.Quotable

variable {depth : ℕ} {outer : List Open} {t : Token} {state next : Reader} {j : Json}

lemma quotable_put (hj : j.Quotable) (h : ∀ o ∈ outer, o.Quotable) : (put j outer).Quotable := by
  cases outer with
  | nil => exact hj
  | cons innermost outer =>
      rw [List.forall_mem_cons] at h
      cases innermost with
      | array items => exact ⟨h.2, List.forall_mem_cons.mpr ⟨hj, h.1⟩⟩
      | object fields name => exact ⟨h.2, List.forall_mem_cons.mpr ⟨hj, h.1⟩⟩

/-- A token keeps the invariant where a value is due. -/
lemma quotable_begin (ht : t.Quotable) (h : ∀ o ∈ outer, o.Quotable)
    (hbegin : begin depth outer t = .ok next) : next.Quotable := by
  unfold begin at hbegin
  split at hbegin
  · cases hbegin
    exact quotable_put ht h
  · cases hbegin
    exact quotable_put (.of_integers rfl) h
  · split_ifs at hbegin
    cases hbegin
    exact h
  · split_ifs at hbegin
    cases hbegin
    exact h
  · cases hbegin
  · cases hbegin

/-- A token keeps the invariant. -/
lemma Quotable.step (h : state.Quotable) (ht : t.Quotable) (hstep : step depth state t = .ok next) :
    next.Quotable := by
  unfold Reader.step at hstep
  split at hstep
  · exact quotable_begin ht h hstep
  · cases hstep
    exact quotable_put (.arr (by simp)) h
  · exact quotable_begin ht (List.forall_mem_cons.mpr ⟨by simp [Open.Quotable], h⟩) hstep
  · cases hstep
    exact quotable_put (.obj (by simp)) h
  · cases hstep
    exact ⟨h, by simp⟩
  · cases hstep
    exact h
  · cases hstep
    exact List.forall_mem_cons.mpr ⟨h.2, h.1⟩
  · cases hstep
    exact List.forall_mem_cons.mpr ⟨h.2, h.1⟩
  · cases hstep
    exact quotable_put (.arr fun j hj => h.2 j (List.mem_reverse.mp hj)) h.1
  · cases hstep
    exact h
  · cases hstep
    exact quotable_put (.obj (quotable_ofFields fun f hf => h.2 f (List.mem_reverse.mp hf))) h.1
  · cases hstep

/-- A whole run keeps the invariant. -/
lemma quotable_run {fuel : ℕ} {text : List Char} (h : state.Quotable)
    (hrun : run depth fuel state text = .ok j) : j.Quotable := by
  induction fuel generalizing state text with
  | zero => cases hrun
  | succ fuel ih =>
      unfold run at hrun
      split at hrun
      · cases hrun
        exact h
      · rename_i state _ _ t rest _ htoken
        have ht : t.Quotable := by
          have := quotable_nextToken text
          rwa [htoken] at this
        cases hstep : step depth state t with
        | error e =>
            rw [hstep] at hrun
            cases hrun
        | ok next =>
            rw [hstep] at hrun
            exact ih (h.step ht hstep) hrun

end Reader

/-- **Every integer of a value that is read can be written.** -/
theorem quotable_of_parseWithin {depth : ℕ} {text : List Char} {j : Json}
    (h : parseWithin depth text = .ok j) : j.Quotable := by
  have hstart : Reader.Quotable (.value []) := by simp [Reader.Quotable]
  exact Reader.quotable_run hstart h

end Json

end StarkCalldata
