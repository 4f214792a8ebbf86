import StarkCalldata.Proofs.Outcome
import StarkCalldata.Proofs.Text.Hex
import StarkCalldata.VerifierInput

/-!
The document and what it says.

A document is read back by turning its strings into the numbers they denote, with nothing else at
hand than the document:

* `Document`, `Registration`: what a document says, and the part of it about the pages; the numbers
  are natural, since no string denotes a negative one;
* `Document.ofJson?`: the reader;
* `Document.toJson`: the one way in which it is written, which reads back (`ofJson?_toJson`);
* `Document.Describes`: a document says what a verifier input holds;
* `encode_eq_ok`: encoding writes the document that describes the verifier input. It has a result
  exactly when there is such a document and the challenges are canonical.
-/

namespace StarkCalldata

open Text Memory

/-- The part of a document about the pages: the regular page as addresses and values in turn, and
start and values of the other pages. -/
structure Registration where
  regular : Option (List ℕ)
  continuous : List (ℕ × List ℕ)
  deriving Repr, DecidableEq

/-- What a document says. -/
structure Document where
  proofParams : List ℕ
  proof : List ℕ
  publicInput : List ℕ
  z : ℕ
  alpha : ℕ
  pages : Registration
  tasks : List ℕ
  layout : Option String
  deriving Repr, DecidableEq

/-! ### Reading -/

namespace Document

/-- The number that a string denotes: hexadecimal digits behind their mark. -/
def number? : Json → Option ℕ
  | .str s => if hasHexMark s.toList then Decoding.hexNumber? s.toList else none
  | _ => none

/-- The numbers of a list. -/
def numbers? : Json → Option (List ℕ)
  | .arr items => items.mapM number?
  | _ => none

/-- Start and values of a page. -/
def page? (j : Json) : Option (ℕ × List ℕ) := do
  let start ← number? (← j.get? "start_addr")
  let values ← numbers? (← j.get? "values")
  return (start, values)

/-- The pages of a list. -/
def pages? : Json → Option (List (ℕ × List ℕ))
  | .arr items => items.mapM page?
  | _ => none

/-- The regular page, null when there is none. -/
def regular? : Json → Option (Option (List ℕ))
  | .null => some none
  | j => do
      let pairs ← numbers? (← j.get? "memory_pairs")
      return some pairs

/-- The layout of the output, which may be left out. -/
def layout? : Option Json → Option (Option String)
  | none => some none
  | some (.str s) => some (some s)
  | some _ => none

end Document

/-- What the part of a document about the pages says. -/
def Registration.ofJson? (j : Json) : Option Registration := do
  let regular ← Document.regular? (← j.get? "regular_page")
  let continuous ← Document.pages? (← j.get? "continuous_pages")
  return ⟨regular, continuous⟩

/-- What a document says. -/
def Document.ofJson? (j : Json) : Option Document := do
  let proofParams ← numbers? (← j.get? "proof_params")
  let proof ← numbers? (← j.get? "proof")
  let publicInput ← numbers? (← j.get? "public_input")
  let z ← number? (← j.get? "z")
  let alpha ← number? (← j.get? "alpha")
  let pages ← Registration.ofJson? (← j.get? "memory_page_facts")
  let tasks ← numbers? (← j.get? "task_metadata")
  let layout ← layout? (j.get? "task_output_layout")
  return ⟨proofParams, proof, publicInput, z, alpha, pages, tasks, layout⟩

/-! ### Writing -/

namespace Document

/-- A number as a string. -/
def numberJson (n : ℕ) : Json := .str (hexLiteral n)

/-- Numbers as a list of strings. -/
def numbersJson (ns : List ℕ) : Json := .arr (ns.map numberJson)

/-- A page other than the regular one. -/
def pageJson (p : ℕ × List ℕ) : Json :=
  .obj [("start_addr", numberJson p.1), ("values", numbersJson p.2)]

/-- The regular page, null when there is none. -/
def regularJson : Option (List ℕ) → Json
  | some pairs => .obj [("memory_pairs", numbersJson pairs)]
  | none => .null

end Document

/-- The part of a document about the pages. -/
def Registration.toJson (r : Registration) : Json :=
  .obj [("regular_page", Document.regularJson r.regular),
    ("continuous_pages", .arr (r.continuous.map Document.pageJson))]

/-- The document that says something. -/
def Document.toJson (d : Document) : Json :=
  .obj ([("proof_params", numbersJson d.proofParams), ("proof", numbersJson d.proof),
    ("public_input", numbersJson d.publicInput), ("z", numberJson d.z),
    ("alpha", numberJson d.alpha), ("memory_page_facts", d.pages.toJson),
    ("task_metadata", numbersJson d.tasks)]
      ++ d.layout.toList.map fun name => ("task_output_layout", Json.str name))

/-! ### Reading what was written -/

namespace Document

lemma mapM_map_eq_some {α β : Type} {write : α → β} {read : β → Option α}
    (h : ∀ a, read (write a) = some a) (l : List α) : (l.map write).mapM read = some l := by
  induction l with
  | nil => rfl
  | cons a l ih => simp [h, ih]

@[simp] lemma number?_numberJson (n : ℕ) : number? (numberJson n) = some n := by
  simp [number?, numberJson, hasHexMark_hexLiteral, hexNumber?_hexLiteral]

@[simp] lemma numbers?_numbersJson (ns : List ℕ) : numbers? (numbersJson ns) = some ns :=
  mapM_map_eq_some number?_numberJson ns

@[simp] lemma page?_pageJson (p : ℕ × List ℕ) : page? (pageJson p) = some p := by
  simp [page?, pageJson, Json.get?, Json.field?, List.lookup_cons]

@[simp] lemma regular?_regularJson (pairs : Option (List ℕ)) :
    regular? (regularJson pairs) = some pairs := by
  cases pairs with
  | none => rfl
  | some pairs => simp [regular?, regularJson, Json.get?, Json.field?]

end Document

/-- The part of a document about the pages reads back. -/
@[simp] lemma Registration.ofJson?_toJson (r : Registration) :
    Registration.ofJson? r.toJson = some r := by
  have hpages : Document.pages? (.arr (r.continuous.map Document.pageJson)) = some r.continuous :=
    Document.mapM_map_eq_some Document.page?_pageJson r.continuous
  simp [Registration.ofJson?, Registration.toJson, Json.get?, Json.field?, List.lookup_cons, hpages]

/-- **A document reads back as what it was written to say.** -/
theorem Document.ofJson?_toJson (d : Document) : Document.ofJson? d.toJson = some d := by
  obtain ⟨proofParams, proof, publicInput, z, alpha, pages, tasks, layout⟩ := d
  cases layout with
  | none =>
      simp [Document.ofJson?, Document.toJson, Json.get?, Json.field?, List.lookup_cons, layout?]
  | some name =>
      simp [Document.ofJson?, Document.toJson, Json.get?, Json.field?, List.lookup_cons, layout?]

/-! ### Encoding -/

/-- Natural numbers as the entries of a vector. -/
def vector (ns : List ℕ) : List Entry := ns.map fun (n : ℕ) => .int n

/-- The part of a document about the pages says what the facts about the pages hold. -/
structure Registration.Describes (r : Registration) (facts : PageFacts) : Prop where
  regular : facts.pairs = r.regular.map fun pairs => pairs.map Nat.cast
  continuous : facts.continuous.map (fun p => (p.start, p.values)) =
    r.continuous.map fun p => ((p.1 : ℤ), p.2.map Nat.cast)

/-- A document says what a verifier input holds. -/
structure Document.Describes (d : Document) (v : VerifierInput) : Prop where
  proofParams : v.proofParams = vector d.proofParams
  proof : v.proof = vector d.proof
  publicInput : v.publicInput = vector d.publicInput
  z : v.z = .int d.z
  alpha : v.alpha = .int d.alpha
  pages : d.pages.Describes v.facts
  tasks : v.tasks = vector d.tasks
  layout : v.layout = d.layout

lemma map_int_eq_vector {words : List ℤ} {ns : List ℕ} :
    words.map Json.int = vector ns ↔ words = ns.map Nat.cast := by
  have hinj : Function.Injective (Json.int : ℤ → Entry) := fun a b h => by simpa using h
  have hvector : vector ns = (ns.map Nat.cast).map Json.int := by simp [vector]
  rw [hvector]
  exact ⟨fun h => List.map_injective_iff.mpr hinj h, fun h => by rw [h]⟩

namespace VerifierInput

open Document Outcome

/-- The entries that can be written are the natural numbers. -/
lemma hexString_eq_ok {e : Entry} {j : Json} :
    hexString e = .ok j ↔ ∃ n : ℕ, e = .int n ∧ j = numberJson n := by
  constructor
  · intro h
    cases e with
    | int n =>
        simp only [hexString, bind_eq_ok, Entry.hex, pure_eq_ok] at h
        obtain ⟨s, hs, rfl⟩ := h
        split_ifs at hs with hneg
        cases hs
        exact ⟨n.toNat, by rw [Int.toNat_of_nonneg (by omega)], by
          rw [numberJson, Int.toNat_of_nonneg (by omega)]⟩
    | _ => cases h
  · rintro ⟨n, rfl, rfl⟩
    have hnonneg : ¬ (n : ℤ) < 0 := by omega
    simp [hexString, Entry.hex, hnonneg, numberJson, bind, Except.bind, pure, Except.pure]

/-- The vectors that can be written are those of natural numbers. -/
lemma hexStrings_eq_ok {entries : List Entry} {js : List Json} :
    hexStrings entries = .ok js ↔ ∃ ns, entries = vector ns ∧ js = ns.map numberJson := by
  induction entries generalizing js with
  | nil =>
      constructor
      · rintro ⟨⟩
        exact ⟨[], rfl, rfl⟩
      · rintro ⟨ns, hns, rfl⟩
        cases ns with
        | nil => rfl
        | cons n ns => cases hns
  | cons e rest ih =>
      simp only [hexStrings, bind_eq_ok, hexString_eq_ok, ih, pure_eq_ok]
      constructor
      · rintro ⟨_, ⟨n, rfl, rfl⟩, _, ⟨ns, rfl, rfl⟩, rfl⟩
        exact ⟨n :: ns, rfl, rfl⟩
      · rintro ⟨ns, hns, rfl⟩
        cases ns with
        | nil => cases hns
        | cons n ns =>
            cases hns
            exact ⟨_, ⟨n, rfl, rfl⟩, _, ⟨ns, rfl, rfl⟩, rfl⟩

lemma hexList_eq_ok {entries : List Entry} {j : Json} :
    hexList entries = .ok j ↔ ∃ ns, entries = vector ns ∧ j = numbersJson ns := by
  simp only [hexList, bind_eq_ok, hexStrings_eq_ok, pure_eq_ok]
  constructor
  · rintro ⟨_, ⟨ns, rfl, rfl⟩, rfl⟩
    exact ⟨ns, rfl, rfl⟩
  · rintro ⟨ns, rfl, rfl⟩
    exact ⟨_, ⟨ns, rfl, rfl⟩, rfl⟩

lemma hexList_map_int {words : List ℤ} {j : Json} :
    hexList (words.map .int) = .ok j ↔
      ∃ ns : List ℕ, words = ns.map Nat.cast ∧ j = numbersJson ns := by
  simp only [hexList_eq_ok, map_int_eq_vector]

lemma encodePage_eq_ok {p : ContinuousPage} {j : Json} :
    encodePage p = .ok j ↔
      ∃ q : ℕ × List ℕ, (p.start, p.values) = ((q.1 : ℤ), q.2.map Nat.cast) ∧ j = pageJson q := by
  simp only [encodePage, bind_eq_ok, hexString_eq_ok, hexList_map_int, pure_eq_ok, Prod.mk.injEq,
    Json.int.injEq]
  constructor
  · rintro ⟨_, ⟨n, hn, rfl⟩, _, ⟨ns, hns, rfl⟩, rfl⟩
    exact ⟨(n, ns), ⟨hn, hns⟩, rfl⟩
  · rintro ⟨⟨n, ns⟩, ⟨hn, hns⟩, rfl⟩
    exact ⟨_, ⟨n, hn, rfl⟩, _, ⟨ns, hns, rfl⟩, rfl⟩

/-- Pages are written one by one. -/
lemma encodePages_eq_ok {pages : List ContinuousPage} {js : List Json} :
    encodePages pages = .ok js ↔
      ∃ qs : List (ℕ × List ℕ), pages.map (fun p => (p.start, p.values)) =
        qs.map (fun q => ((q.1 : ℤ), q.2.map Nat.cast)) ∧ js = qs.map pageJson := by
  induction pages generalizing js with
  | nil =>
      constructor
      · rintro ⟨⟩
        exact ⟨[], rfl, rfl⟩
      · rintro ⟨qs, hqs, rfl⟩
        cases qs with
        | nil => rfl
        | cons q qs => cases hqs
  | cons p rest ih =>
      simp only [encodePages, bind_eq_ok, encodePage_eq_ok, ih, pure_eq_ok]
      constructor
      · rintro ⟨_, ⟨q, hq, rfl⟩, _, ⟨qs, hqs, rfl⟩, rfl⟩
        exact ⟨q :: qs, by rw [List.map_cons, List.map_cons, hq, hqs], rfl⟩
      · rintro ⟨qs, hqs, rfl⟩
        cases qs with
        | nil => cases hqs
        | cons q qs =>
            rw [List.map_cons, List.map_cons, List.cons.injEq] at hqs
            exact ⟨_, ⟨q, hqs.1, rfl⟩, _, ⟨qs, hqs.2, rfl⟩, rfl⟩

/-- The facts about the pages are written as the registration that describes them. -/
lemma encodeFacts_eq_ok {facts : PageFacts} {j : Json} :
    encodeFacts facts = .ok j ↔ ∃ r : Registration, r.Describes facts ∧ j = r.toJson := by
  cases hpairs : facts.pairs with
  | none =>
      simp only [encodeFacts, hpairs, bind_eq_ok, encodePages_eq_ok, pure_eq_ok]
      constructor
      · rintro ⟨_, rfl, _, ⟨qs, hqs, rfl⟩, rfl⟩
        exact ⟨⟨none, qs⟩, ⟨hpairs, hqs⟩, rfl⟩
      · rintro ⟨⟨regular, qs⟩, ⟨hregular, hqs⟩, rfl⟩
        cases regular with
        | none => exact ⟨_, rfl, _, ⟨qs, hqs, rfl⟩, rfl⟩
        | some ns => simp [hpairs] at hregular
  | some pairs =>
      simp only [encodeFacts, hpairs, bind_eq_ok, encodePages_eq_ok, hexList_map_int, pure_eq_ok]
      constructor
      · rintro ⟨_, ⟨ns, hns, rfl⟩, _, rfl, _, ⟨qs, hqs, rfl⟩, rfl⟩
        exact ⟨⟨some ns, qs⟩, ⟨by rw [hpairs, hns]; rfl, hqs⟩, rfl⟩
      · rintro ⟨⟨regular, qs⟩, ⟨hregular, hqs⟩, rfl⟩
        cases regular with
        | none => simp [hpairs] at hregular
        | some ns =>
            rw [hpairs, Option.map_some, Option.some.injEq] at hregular
            exact ⟨_, ⟨ns, hregular, rfl⟩, _, rfl, _, ⟨qs, hqs, rfl⟩, rfl⟩

lemma checkRange_int {name : Challenge.Name} {n : ℤ} {u : Unit} :
    checkRange name (.int n) = .ok u ↔ Field.IsCanonical n := by
  rw [checkRange, PublicInput.canonical]
  split <;> simp_all

/-- **Encoding writes the document that describes the verifier input**, and has a result exactly
when there is one and both challenges are canonical. -/
theorem encode_eq_ok {v : VerifierInput} {j : Json} :
    encode v = .ok j ↔
      ∃ d : Document, d.Describes v ∧ Field.IsCanonical d.z ∧ Field.IsCanonical d.alpha ∧
        j = d.toJson := by
  constructor
  · intro h
    simp only [encode, bind_eq_ok, hexList_eq_ok, hexString_eq_ok, encodeFacts_eq_ok, pure_eq_ok]
      at h
    obtain ⟨_, hz, _, ha, _, ⟨params, hparams, rfl⟩, _, ⟨proof, hproof, rfl⟩, _,
      ⟨input, hinput, rfl⟩, _, ⟨z, hvz, rfl⟩, _, ⟨alpha, hva, rfl⟩, _, ⟨pages, hpages, rfl⟩, _,
      ⟨tasks, htasks, rfl⟩, rfl⟩ := h
    rw [hvz, checkRange_int] at hz
    rw [hva, checkRange_int] at ha
    exact ⟨⟨params, proof, input, z, alpha, pages, tasks, v.layout⟩,
      ⟨hparams, hproof, hinput, hvz, hva, hpages, htasks, rfl⟩, hz, ha, rfl⟩
  · rintro ⟨d, hd, hz, ha, rfl⟩
    simp only [encode, bind_eq_ok, hexList_eq_ok, hexString_eq_ok, encodeFacts_eq_ok, pure_eq_ok]
    refine ⟨(), ?_, (), ?_, _, ⟨_, hd.proofParams, rfl⟩, _, ⟨_, hd.proof, rfl⟩, _,
      ⟨_, hd.publicInput, rfl⟩, _, ⟨_, hd.z, rfl⟩, _, ⟨_, hd.alpha, rfl⟩, _, ⟨_, hd.pages, rfl⟩, _,
      ⟨_, hd.tasks, rfl⟩, ?_⟩
    · rwa [hd.z, checkRange_int]
    · rwa [hd.alpha, checkRange_int]
    · rw [hd.layout]
      rfl

end VerifierInput

end StarkCalldata
