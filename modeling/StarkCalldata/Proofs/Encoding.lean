import StarkCalldata.Proofs.Document
import StarkCalldata.Proofs.PublicInput.Vector
import StarkCalldata.Proofs.Text.Numeral

/-!
The document as an encoding: when there is one, what it says, and that nothing else says the same.

A verifier input of integers is refused for a challenge that is not canonical, and otherwise for its
first negative integer. The words of that refusal quote the integer in decimal, so they cannot be
found when it is too long to be written:

* `Content`, `VerifierInput.Holds`: the integers that a verifier input holds, as far as they are
  written;
* `verdict`, `refuse`, `verdict_encode`: which fault the encoding is, if it is one;
* `Json.IsSpelled`: all texts of a value are spellings of numbers;
* `Content.IsWrittenBy`: a document says what the content is, in the one spelling of its numbers;
* `document_encodes_content`: the encoding is faithful, canonical and injective.
-/

namespace StarkCalldata

open Text Memory

/-- What a verifier input of integers holds, as far as it is written. The regular page is given by
addresses and values in turn, every other page by its start and its values. -/
structure Content where
  proofParams : List ℤ
  proof : List ℤ
  publicInput : List ℤ
  z : ℤ
  alpha : ℤ
  pairs : Option (List ℤ)
  pages : List (ℤ × List ℤ)
  tasks : List ℤ
  layout : Option String
  deriving Repr, DecidableEq

/-- The integers of a content in the order in which they are written. -/
def Content.words (c : Content) : List ℤ :=
  c.proofParams ++ c.proof ++ c.publicInput ++ [c.z, c.alpha] ++ c.pairs.getD [] ++
    c.pages.flatMap (fun p => p.1 :: p.2) ++ c.tasks

/-- A verifier input has nothing but integers, and these are they. -/
structure VerifierInput.Holds (v : VerifierInput) (c : Content) : Prop where
  proofParams : v.proofParams = c.proofParams.map .int
  proof : v.proof = c.proof.map .int
  publicInput : v.publicInput = c.publicInput.map .int
  z : v.z = .int c.z
  alpha : v.alpha = .int c.alpha
  pairs : v.facts.pairs = c.pairs
  pages : v.facts.continuous.map (fun p => (p.start, p.values)) = c.pages
  tasks : v.tasks = c.tasks.map .int
  layout : v.layout = c.layout

/-! ### Refusals -/

variable {α β : Type}

/-- What an outcome is apart from its result: no fault, or which one. -/
def verdict (x : Except Fault α) : Except Fault Unit := x.map fun _ => ()

lemma verdict_eq_ok {x : Except Fault α} : verdict x = .ok () ↔ ∃ a, x = .ok a := by
  cases x <;> simp [verdict, Except.map]

lemma verdict_eq_error {x : Except Fault α} {f : Fault} : verdict x = .error f ↔ x = .error f := by
  cases x <;> simp [verdict, Except.map]

lemma verdict_unit (x : Except Fault Unit) : verdict x = x := by
  cases x <;> rfl

lemma verdict_bind {x : Except Fault α} {g : α → Except Fault β} {y : Except Fault Unit}
    (h : ∀ a, verdict (g a) = y) : verdict (x >>= g) = (verdict x).bind fun _ => y := by
  cases x with
  | error f => rfl
  | ok a => exact h a

/-- A result that is only put into another form. -/
@[simp] lemma verdict_bind_pure {x : Except Fault α} {g : α → β} :
    verdict (x >>= fun a => pure (g a)) = verdict x := by
  cases x <;> rfl

/-- The refusal of the first negative integer of a row. -/
def refuse (ns : List ℤ) : Except Fault Unit :=
  match ns.find? (· < 0) with
  | some n => .error (Fault.quoting [n] (.negativeWord n))
  | none => .ok ()

/-- A row of two parts is refused for the first part before the second one. -/
lemma refuse_append (ms ns : List ℤ) : refuse (ms ++ ns) = (refuse ms).bind fun _ => refuse ns := by
  rw [refuse, refuse, List.find?_append]
  cases ms.find? (· < 0) <;> rfl

lemma refuse_eq_ok {ns : List ℤ} : refuse ns = .ok () ↔ ∀ n ∈ ns, 0 ≤ n := by
  rw [refuse]
  cases hfirst : ns.find? (· < 0) with
  | none => simpa using hfirst
  | some n =>
      have hneg : n < 0 := by simpa using List.find?_some hfirst
      have hmem := List.mem_of_find?_eq_some hfirst
      simpa using ⟨n, hmem, hneg⟩

lemma refuse_eq_error {ns : List ℤ} {f : Fault} :
    refuse ns = .error f ↔
      ∃ n ∈ ns.find? (· < 0), f = Fault.quoting [n] (.negativeWord n) := by
  rw [refuse]
  cases ns.find? (· < 0) with
  | none => simp
  | some n => simp [eq_comm]

namespace VerifierInput

lemma verdict_hexString (n : ℤ) : verdict (hexString (.int n)) = refuse [n] := by
  rw [hexString, verdict_bind_pure]
  by_cases hneg : n < 0
  · simp [Entry.hex, refuse, hneg, verdict_eq_error]
  · simp [Entry.hex, refuse, hneg, verdict_eq_ok]

lemma verdict_hexStrings (ns : List ℤ) : verdict (hexStrings (ns.map .int)) = refuse ns := by
  induction ns with
  | nil => rfl
  | cons n ns ih =>
      rw [List.map_cons, hexStrings, verdict_bind fun _ => verdict_bind_pure.trans ih,
        verdict_hexString, ← refuse_append, List.singleton_append]

lemma verdict_hexList (ns : List ℤ) : verdict (hexList (ns.map .int)) = refuse ns := by
  rw [hexList, verdict_bind_pure, verdict_hexStrings]

lemma verdict_encodePage (p : ContinuousPage) :
    verdict (encodePage p) = refuse (p.start :: p.values) := by
  rw [encodePage, verdict_bind fun _ => verdict_bind_pure.trans (verdict_hexList p.values),
    verdict_hexString, ← refuse_append, List.singleton_append]

lemma verdict_encodePages (ps : List ContinuousPage) :
    verdict (encodePages ps) =
      refuse ((ps.map fun p => (p.start, p.values)).flatMap fun p => p.1 :: p.2) := by
  induction ps with
  | nil => rfl
  | cons p ps ih =>
      rw [encodePages, verdict_bind fun _ => verdict_bind_pure.trans ih, verdict_encodePage,
        ← refuse_append, List.map_cons, List.flatMap_cons]

lemma verdict_encodeFacts (facts : PageFacts) :
    verdict (encodeFacts facts) = (refuse (facts.pairs.getD [])).bind fun _ =>
      refuse ((facts.continuous.map fun p => (p.start, p.values)).flatMap fun p => p.1 :: p.2) := by
  rw [encodeFacts, ← verdict_encodePages]
  cases facts.pairs with
  | none => exact verdict_bind_pure
  | some pairs =>
      rw [Option.getD_some, ← verdict_hexList]
      exact verdict_bind fun _ => verdict_bind_pure

variable {v : VerifierInput} {c : Content}

/-- **The verdict on a verifier input**: the challenges are checked first, and then the first
negative integer is refused. -/
lemma verdict_encode (h : v.Holds c) :
    verdict v.encode = (PublicInput.canonical .z c.z).bind fun _ =>
      (PublicInput.canonical .alpha c.alpha).bind fun _ => refuse c.words := by
  have hwords : refuse c.words =
      (refuse c.proofParams).bind fun _ => (refuse c.proof).bind fun _ =>
        (refuse c.publicInput).bind fun _ => (refuse [c.z]).bind fun _ =>
          (refuse [c.alpha]).bind fun _ =>
            ((refuse (c.pairs.getD [])).bind fun _ =>
              refuse (c.pages.flatMap fun p => p.1 :: p.2)).bind fun _ => refuse c.tasks := by
    simp only [← refuse_append, Content.words]
    simp
  rw [hwords, ← h.pairs, ← h.pages, ← verdict_encodeFacts, ← verdict_hexList c.proofParams,
    ← verdict_hexList c.proof, ← verdict_hexList c.publicInput, ← verdict_hexString c.z,
    ← verdict_hexString c.alpha, ← verdict_hexList c.tasks,
    ← verdict_unit (PublicInput.canonical .z _), ← verdict_unit (PublicInput.canonical .alpha _)]
  rw [encode, h.proofParams, h.proof, h.publicInput, h.z, h.alpha, h.tasks]
  exact verdict_bind fun _ => verdict_bind fun _ => verdict_bind fun _ => verdict_bind fun _ =>
    verdict_bind fun _ => verdict_bind fun _ => verdict_bind fun _ => verdict_bind fun _ =>
      verdict_bind_pure

lemma exists_encode (h : v.Holds c) :
    (∃ j, v.encode = .ok j) ↔
      Field.IsCanonical c.z ∧ Field.IsCanonical c.alpha ∧ ∀ n ∈ c.words, 0 ≤ n := by
  rw [← verdict_eq_ok, verdict_encode h]
  simp only [Outcome.bind_ok, PublicInput.canonical_eq_ok, refuse_eq_ok, exists_const]

/-- A verifier input without document is refused for a challenge that is not canonical, or else for
its first negative integer. -/
lemma encode_eq_error (h : v.Holds c) {f : Fault} (herror : v.encode = .error f) :
    (¬ Field.IsCanonical c.z ∧ f = .notCanonical .z c.z) ∨
      (Field.IsCanonical c.z ∧ ¬ Field.IsCanonical c.alpha ∧ f = .notCanonical .alpha c.alpha) ∨
      Field.IsCanonical c.z ∧ Field.IsCanonical c.alpha ∧
        ∃ n ∈ c.words.find? (· < 0), f = Fault.quoting [n] (.negativeWord n) := by
  rw [← verdict_eq_error, verdict_encode h] at herror
  by_cases hz : Field.IsCanonical c.z
  · by_cases ha : Field.IsCanonical c.alpha
    · rw [PublicInput.canonical, if_pos hz, PublicInput.canonical, if_pos ha] at herror
      exact .inr (.inr ⟨hz, ha, refuse_eq_error.mp herror⟩)
    · rw [PublicInput.canonical, if_pos hz, PublicInput.canonical, if_neg ha] at herror
      cases herror
      exact .inr (.inl ⟨hz, ha, rfl⟩)
  · rw [PublicInput.canonical, if_neg hz] at herror
    cases herror
    exact .inl ⟨hz, rfl⟩

/-- The refusal is an inconsistency, unless the integer that is refused is too long to be
written. -/
lemma kind_of_encode (h : v.Holds c) {f : Fault} (herror : v.encode = .error f) :
    (f.kind = .inconsistency ∨ f.kind = .value) ∧
      (f.kind = .value ↔ Field.IsCanonical c.z ∧ Field.IsCanonical c.alpha ∧
        ∃ n ∈ c.words.find? (· < 0), ¬ Writable n) := by
  obtain ⟨hz, rfl⟩ | ⟨-, ha, rfl⟩ | ⟨hz, ha, n, hn, hrefused⟩ := encode_eq_error h herror
  · simp [Fault.kind, hz]
  · simp [Fault.kind, ha]
  · rw [hrefused, Fault.kind_quoting]
    simp only [List.forall_mem_singleton]
    split_ifs with hwritable
    · refine ⟨.inl rfl, nofun, fun ⟨_, _, m, hm, hlong⟩ => ?_⟩
      exact absurd (Option.mem_unique hm hn ▸ hwritable) hlong
    · exact ⟨.inr rfl, fun _ => ⟨hz, ha, n, hn, hwritable⟩, fun _ => rfl⟩

end VerifierInput

/-! ### What a document says, and how -/

/-- What a document says, as the content of a verifier input. -/
def Document.content (d : Document) : Content where
  proofParams := d.proofParams.map Nat.cast
  proof := d.proof.map Nat.cast
  publicInput := d.publicInput.map Nat.cast
  z := d.z
  alpha := d.alpha
  pairs := d.pages.regular.map fun pairs => pairs.map Nat.cast
  pages := d.pages.continuous.map fun p => ((p.1 : ℤ), p.2.map Nat.cast)
  tasks := d.tasks.map Nat.cast
  layout := d.layout

/-- The document that describes a verifier input says what it holds. -/
lemma Document.Describes.content_eq {d : Document} {v : VerifierInput} {c : Content}
    (hd : d.Describes v) (h : v.Holds c) : d.content = c := by
  have hvector {words : List ℤ} {ns : List ℕ} (hv : vector ns = words.map .int) :
      ns.map Nat.cast = words := (map_int_eq_vector.mp hv.symm).symm
  obtain ⟨proofParams, proof, publicInput, z, alpha, pairs, pages, tasks, layout⟩ := c
  rw [Document.content, Content.mk.injEq]
  exact ⟨hvector (hd.proofParams.symm.trans h.proofParams), hvector (hd.proof.symm.trans h.proof),
    hvector (hd.publicInput.symm.trans h.publicInput), Json.int.inj (hd.z.symm.trans h.z),
    Json.int.inj (hd.alpha.symm.trans h.alpha), hd.pages.regular.symm.trans h.pairs,
    hd.pages.continuous.symm.trans h.pages, hvector (hd.tasks.symm.trans h.tasks),
    hd.layout.symm.trans h.layout⟩

/-- Documents that say the same content are the same. -/
lemma Document.content_injective : Function.Injective Document.content := by
  have hcast : Function.Injective (List.map (Nat.cast : ℕ → ℤ)) :=
    List.map_injective_iff.mpr Nat.cast_injective
  rintro ⟨proofParams, proof, publicInput, z, alpha, ⟨regular, continuous⟩, tasks, layout⟩
    ⟨proofParams', proof', publicInput', z', alpha', ⟨regular', continuous'⟩, tasks', layout'⟩ h
  obtain ⟨hparams, hproof, hinput, hz, ha, hregular, hcontinuous, htasks, rfl⟩ :=
    Content.mk.inj h
  obtain rfl := hcast hparams
  obtain rfl := hcast hproof
  obtain rfl := hcast hinput
  obtain rfl := Nat.cast_injective hz
  obtain rfl := Nat.cast_injective ha
  obtain rfl := Option.map_injective hcast hregular
  obtain rfl := List.map_injective_iff.mpr (Nat.cast_injective.prodMap hcast) hcontinuous
  obtain rfl := hcast htasks
  rfl

/-- All texts of a value are spellings of numbers. -/
inductive Json.IsSpelled : Json → Prop
  | null : IsSpelled .null
  | str {s : String} {n : ℕ} : Spells s n → IsSpelled (.str s)
  | arr {items : List Json} : (∀ j ∈ items, IsSpelled j) → IsSpelled (.arr items)
  | obj {fields : List (String × Json)} : (∀ f ∈ fields, IsSpelled f.2) → IsSpelled (.obj fields)

/-- A document says what a content is, and spells all numbers of it. -/
structure Content.IsWrittenBy (c : Content) (j : Json) : Prop where
  reads : ∃ d, Document.ofJson? j = some d ∧ d.content = c
  spelled : ∃ fields, j = .obj fields ∧ ∀ f ∈ fields, f.1 ≠ "task_output_layout" → f.2.IsSpelled

namespace Document

lemma isSpelled_numberJson (n : ℕ) : (numberJson n).IsSpelled := .str (spells_iff.mpr rfl)

lemma isSpelled_numbersJson (ns : List ℕ) : (numbersJson ns).IsSpelled :=
  .arr (List.forall_mem_map.mpr fun n _ => isSpelled_numberJson n)

lemma isSpelled_pageJson (p : ℕ × List ℕ) : (pageJson p).IsSpelled := by
  refine .obj ?_
  simp only [List.forall_mem_cons, List.not_mem_nil, false_imp_iff, implies_true, and_true]
  exact ⟨isSpelled_numberJson p.1, isSpelled_numbersJson p.2⟩

lemma isSpelled_regularJson (pairs : Option (List ℕ)) : (regularJson pairs).IsSpelled := by
  cases pairs with
  | none => exact .null
  | some pairs => exact .obj (List.forall_mem_singleton.mpr (isSpelled_numbersJson pairs))

lemma isSpelled_pages (r : Registration) : r.toJson.IsSpelled := by
  refine .obj ?_
  simp only [List.forall_mem_cons, List.not_mem_nil, false_imp_iff, implies_true, and_true]
  exact ⟨isSpelled_regularJson r.regular,
    .arr (List.forall_mem_map.mpr fun p _ => isSpelled_pageJson p)⟩

lemma isWrittenBy_toJson (d : Document) : d.content.IsWrittenBy d.toJson := by
  refine ⟨⟨d, d.ofJson?_toJson, rfl⟩, _, rfl, List.forall_mem_append.mpr ⟨?_, ?_⟩⟩
  · simp only [List.forall_mem_cons, List.not_mem_nil, false_imp_iff, implies_true, and_true]
    exact ⟨fun _ => isSpelled_numbersJson _, fun _ => isSpelled_numbersJson _,
      fun _ => isSpelled_numbersJson _, fun _ => isSpelled_numberJson _,
      fun _ => isSpelled_numberJson _, fun _ => isSpelled_pages _, fun _ => isSpelled_numbersJson _⟩
  · intro f hf hne
    obtain ⟨name, -, rfl⟩ := List.mem_map.mp hf
    exact absurd rfl hne

end Document

/-- **Encoding is faithful, canonical and injective.** A verifier input of integers has a document
exactly when its challenges are canonical and none of its integers is negative. Without a document
it is inconsistent, but for a refused integer that is too long to be quoted. Its document reads back
as what it holds, and has each number in its only spelling; and two verifier inputs have the same
document when they hold the same. -/
theorem document_encodes_content {v : VerifierInput} {c : Content} (h : v.Holds c) :
    ((∃ j, v.encode = .ok j) ↔
        Field.IsCanonical c.z ∧ Field.IsCanonical c.alpha ∧ ∀ n ∈ c.words, 0 ≤ n) ∧
      (∀ f, v.encode = .error f →
        (f.kind = .inconsistency ∨ f.kind = .value) ∧
          (f.kind = .value ↔ Field.IsCanonical c.z ∧ Field.IsCanonical c.alpha ∧
            ∃ n ∈ c.words.find? (· < 0), ¬ Writable n)) ∧
      (∀ j, v.encode = .ok j → c.IsWrittenBy j) ∧
      (∀ (v' : VerifierInput) (c' : Content) (j j' : Json), v'.Holds c' →
        v.encode = .ok j → v'.encode = .ok j' → (j = j' ↔ c = c')) ∧
      ∀ n : ℕ, ∃! s, Spells s n := by
  refine ⟨VerifierInput.exists_encode h, fun f herror => VerifierInput.kind_of_encode h herror,
    fun j hj => ?_, fun v' c' j j' h' hj hj' => ?_, fun n => ?_⟩
  · obtain ⟨d, hd, -, -, rfl⟩ := VerifierInput.encode_eq_ok.mp hj
    exact hd.content_eq h ▸ d.isWrittenBy_toJson
  · obtain ⟨d, hd, -, -, rfl⟩ := VerifierInput.encode_eq_ok.mp hj
    obtain ⟨d', hd', -, -, rfl⟩ := VerifierInput.encode_eq_ok.mp hj'
    rw [← hd.content_eq h, ← hd'.content_eq h']
    constructor
    · intro heq
      have hread := congrArg Document.ofJson? heq
      rw [d.ofJson?_toJson, d'.ofJson?_toJson, Option.some.injEq] at hread
      rw [hread]
    · intro heq
      rw [Document.content_injective heq]
  · exact ⟨hexLiteral n, spells_iff.mpr rfl, fun s hs => spells_iff.mp hs⟩

/-- A verifier input of one slot on the regular page and one page of two values. -/
def slotInput (value : ℤ) : VerifierInput where
  proofParams := [.int 16, .int 0]
  proof := [.int 255]
  publicInput := []
  z := .int 1
  alpha := .int 2
  facts := ⟨some [⟨0, value⟩], [⟨1, 7, [8, 9]⟩], [(0, [⟨0, value⟩]), (1, [⟨7, 8⟩, ⟨8, 9⟩])]⟩
  tasks := [.int 0]
  layout := some "plain"

/-- What that verifier input holds. -/
def slotContent (value : ℤ) : Content :=
  ⟨[16, 0], [255], [], 1, 2, some [0, value], [(7, [8, 9])], [0], some "plain"⟩

lemma holds_slotInput (value : ℤ) : (slotInput value).Holds (slotContent value) :=
  ⟨rfl, rfl, rfl, rfl, rfl, rfl, rfl, rfl, rfl⟩

/-- With a small value in the slot there is a document, which is written to say just this. -/
theorem slotInput_isWritten :
    ∃ j, (slotInput 10).encode = .ok j ∧ (slotContent 10).IsWrittenBy j := by
  obtain ⟨hreturns, -, hwritten, -, -⟩ := document_encodes_content (holds_slotInput 10)
  obtain ⟨j, hj⟩ := hreturns.mpr ⟨by decide, by decide, by decide⟩
  exact ⟨j, hj, hwritten j hj⟩

/-- A negative integer of 4335 decimal digits. -/
def longNegative : ℤ := -16 ^ (36 * 100)

lemma longNegative_neg : longNegative < 0 := by
  rw [longNegative, neg_lt_zero]
  positivity

lemma not_writable_longNegative : ¬ Writable longNegative := by
  have hlong (k : ℕ) : 10 ^ (43 * k) ≤ (-16 ^ (36 * k) : ℤ).natAbs := by
    rw [Int.natAbs_neg, Int.natAbs_pow, pow_mul, pow_mul]
    exact Nat.pow_le_pow_left (by decide) k
  exact not_writable_of_pow_le (hlong 100) (by decide)

/-- With that integer in the slot there is no document, and the fault is no inconsistency: its words
cannot be found. -/
theorem slotInput_not_inconsistent : (slotInput longNegative).Holds (slotContent longNegative) ∧
    (∃ n ∈ (slotContent longNegative).words, n < 0) ∧
      ∃ f, (slotInput longNegative).encode = .error f ∧ f.kind = .value ∧
        f.kind ≠ .inconsistency := by
  have hholds := holds_slotInput longNegative
  have hfirst : (slotContent longNegative).words.find? (· < 0) = some longNegative := by
    simp [Content.words, slotContent, longNegative_neg]
  have hmem := List.mem_of_find?_eq_some hfirst
  refine ⟨hholds, ⟨_, hmem, longNegative_neg⟩, ?_⟩
  cases hencode : (slotInput longNegative).encode with
  | ok j =>
      obtain ⟨-, -, hnonneg⟩ := (VerifierInput.exists_encode hholds).mp ⟨j, hencode⟩
      exact absurd (hnonneg _ hmem) longNegative_neg.not_ge
  | error f =>
      have hkind : f.kind = .value := (VerifierInput.kind_of_encode hholds hencode).2.mpr
        ⟨by decide, by decide, _, hfirst, not_writable_longNegative⟩
      exact ⟨f, rfl, hkind, by rw [hkind]; decide⟩

end StarkCalldata
