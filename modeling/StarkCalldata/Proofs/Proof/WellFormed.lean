import StarkCalldata.Proofs.Proof.Parsing

/-!
What is checked of a proof when it is parsed.

The decoders refuse a value at its place, so a proof that comes out of a document has passed all of
their checks, whatever the document was:

* `Decoding.nonneg_of_unsignedField`, `Decoding.isCanonical_of_address`,
  `Decoding.isCanonical_of_fieldElement`: the checks of the single values;
* `PublicInput.IsWellFormed`, `ProofParameters.IsWellFormed`, `AnnotatedProof.IsWellFormed`: what
  is known of the public input, of the parameters and of the whole proof;
* `AnnotatedProof.isWellFormed_of_ofJson`: every proof that a document describes is well formed.

Some things are not checked, and so are not in these lists: the bounds of the range check, the
addresses of the segments, the number of friendly layers and the parameters may be as large as they
like.
-/

namespace StarkCalldata

open Memory

/-! ### The values of a document -/

namespace Decoding

variable {j : Json} {path : Path} {name : String} {n : ℤ}

/-- An integer in a field that holds no negative one. -/
lemma nonneg_of_unsignedField (h : unsignedField j path name = .ok n) : 0 ≤ n := by
  obtain ⟨v, -, hn⟩ := Outcome.bind_eq_ok.mp h
  exact (unsigned_eq_ok hn).2

lemma nonneg_of_addressNumeral? {text : List Char} (h : addressNumeral? text = some n) : 0 ≤ n := by
  simp only [addressNumeral?] at h
  split_ifs at h with hmark
  · obtain ⟨m, -, rfl⟩ := Option.map_eq_some_iff.mp h
    exact Int.natCast_nonneg m
  · simpa using (Option.filter_eq_some_iff.mp h).2

lemma isCanonical_of_bound {x : Except Fault ℤ} {d : Defect} (hx : ∀ m, x = .ok m → 0 ≤ m)
    (h : (x >>= fun m => if m < Field.prime then pure m else defect path d) = .ok n) :
    Field.IsCanonical n := by
  obtain ⟨m, hm, h⟩ := Outcome.bind_eq_ok.mp h
  split_ifs at h with hlt
  · cases h
    exact ⟨hx n hm, hlt⟩
  · cases h

/-- An address is an integer of the field. -/
lemma isCanonical_of_address (h : address j path = .ok n) : Field.IsCanonical n := by
  unfold address at h
  cases j with
  | str s =>
      simp only at h
      split at h
      · rename_i m hnumeral
        refine isCanonical_of_bound (x := .ok m) (fun k hk => ?_) h
        exact Except.ok.inj hk ▸ nonneg_of_addressNumeral? hnumeral
      · exact isCanonical_of_bound (fun k hk => by cases hk) h
  | _ => exact isCanonical_of_bound (fun k hk => (unsigned_eq_ok hk).2) h

/-- A field element is an integer of the field. -/
lemma isCanonical_of_fieldElement (h : fieldElement j path = .ok n) : Field.IsCanonical n := by
  unfold fieldElement at h
  cases j with
  | str s =>
      simp only at h
      split at h
      · rename_i m _
        refine isCanonical_of_bound (x := .ok (m : ℤ)) (fun k hk => ?_) h
        exact Except.ok.inj hk ▸ Int.natCast_nonneg m
      · exact isCanonical_of_bound (fun k hk => by cases hk) h
  | _ => exact isCanonical_of_bound (fun k hk => (unsigned_eq_ok hk).2) h

lemma size_dvd_length_fillWord (bytes : List UInt8) : Word.size ∣ (fillWord bytes).length := by
  have hmod : bytes.length % Word.size < Word.size := Nat.mod_lt _ (by decide)
  rw [fillWord, List.length_append, List.length_replicate]
  unfold Word.size at *
  omega

/-- The bytes of a proof fill whole words. -/
lemma size_dvd_of_proofBytes {bytes : List UInt8} (h : proofBytes j path = .ok bytes) :
    Word.size ∣ bytes.length := by
  cases j with
  | str s =>
      simp only [proofBytes] at h
      split_ifs at h
      · cases h
      · split at h
        · cases h
          exact size_dvd_length_fillWord _
        · cases h
  | _ => cases h

end Decoding

/-! ### The parts of a proof -/

/-- What is known of a public input: there are steps, no number is negative, the name of the layout
fits into a word, and the cells hold elements of the field at addresses of the field. -/
structure PublicInput.IsWellFormed (input : PublicInput) : Prop where
  steps_pos : 0 < input.steps
  rangeMin_nonneg : 0 ≤ input.rangeMin
  rangeMax_nonneg : 0 ≤ input.rangeMax
  layout_ascii : input.layout.toList.all Parsing.isAscii = true
  length_layout : input.layout.toList.length ≤ Word.size
  segments_nonneg : ∀ s ∈ input.segments, 0 ≤ s.2.start ∧ 0 ≤ s.2.stop
  memory_ne_nil : input.memory ≠ []
  page_nonneg : ∀ c ∈ input.memory, 0 ≤ c.page
  canonical : ∀ c ∈ input.memory, Field.IsCanonical c.address ∧ Field.IsCanonical c.value

/-- What is known of the parameters: none of them is negative, and the last layer has a degree
bound. -/
structure ProofParameters.IsWellFormed (parameters : ProofParameters) : Prop where
  logCosets_nonneg : 0 ≤ parameters.logCosets
  queries_nonneg : 0 ≤ parameters.queries
  proofOfWorkBits_nonneg : 0 ≤ parameters.proofOfWorkBits
  lastLayer_pos : 0 < parameters.lastLayerDegreeBound
  friSteps_nonneg : ∀ n ∈ parameters.friSteps, 0 ≤ n
  layers_nonneg : ∀ n ∈ parameters.friendlyLayers, 0 ≤ n

/-- What is known of a proof: its bytes fill whole words, and its parts are well formed. -/
structure AnnotatedProof.IsWellFormed (proof : AnnotatedProof) : Prop where
  bytes_whole : Word.size ∣ proof.bytes.length
  input : proof.publicInput.IsWellFormed
  parameters : proof.parameters.IsWellFormed

/-- No number in the vector of well-formed parameters is negative. -/
lemma ProofParameters.IsWellFormed.vector_nonneg {parameters : ProofParameters}
    (h : parameters.IsWellFormed) : ∀ n ∈ parameters.vector, 0 ≤ n := by
  intro n hn
  simp only [vector, List.cons_append, List.nil_append, List.mem_cons] at hn
  rcases hn with rfl | rfl | rfl | rfl | rfl | hn
  · exact h.queries_nonneg
  · exact h.logCosets_nonneg
  · exact h.proofOfWorkBits_nonneg
  · exact Int.natCast_nonneg _
  · exact Int.natCast_nonneg _
  · exact h.friSteps_nonneg n hn

namespace Parsing

open Decoding

variable {j : Json} {path : Path}

lemma memoryCell_eq_ok {c : Cell} (h : memoryCell j path = .ok c) :
    0 ≤ c.page ∧ Field.IsCanonical c.address ∧ Field.IsCanonical c.value := by
  simp only [memoryCell, Outcome.bind_eq_ok, Outcome.pure_eq_ok] at h
  obtain ⟨page, hpage, _, -, address, haddress, _, -, value, hvalue, rfl⟩ := h
  exact ⟨nonneg_of_unsignedField hpage, isCanonical_of_address haddress,
    isCanonical_of_fieldElement hvalue⟩

/-- Public memory has a cell, and its cells are as they must be. -/
lemma memory_eq_ok {cells : List Cell} (h : memory j path = .ok cells) :
    cells ≠ [] ∧
      ∀ c ∈ cells, 0 ≤ c.page ∧ Field.IsCanonical c.address ∧ Field.IsCanonical c.value := by
  obtain ⟨v, -, h⟩ := Outcome.bind_eq_ok.mp h
  split at h
  · cases h
  · rename_i items hitems
    refine ⟨?_, fun c hc => ?_⟩
    · cases items with
      | nil => exact absurd rfl hitems
      | cons item rest =>
          simp only [Decoding.items, Outcome.bind_eq_ok, Outcome.pure_eq_ok] at h
          obtain ⟨first, -, others, -, rfl⟩ := h
          exact List.cons_ne_nil first others
    · obtain ⟨item, -, path, hcell⟩ := exists_of_mem_items h c hc
      exact memoryCell_eq_ok hcell
  · cases h

/-- The addresses of segments are not negative. -/
lemma nonneg_of_segmentFields {fields : List (String × Json)} {found : Segments}
    (h : segmentFields path fields = .ok found) :
    ∀ s ∈ found, 0 ≤ s.2.start ∧ 0 ≤ s.2.stop := by
  induction fields generalizing found with
  | nil =>
      cases h
      simp
  | cons field rest ih =>
      simp only [segmentFields, segment, Outcome.bind_eq_ok, Outcome.pure_eq_ok] at h
      obtain ⟨_, ⟨start, hstart, stop, hstop, rfl⟩, others, hothers, rfl⟩ := h
      refine List.forall_mem_cons.mpr ⟨?_, ih hothers⟩
      exact ⟨nonneg_of_unsignedField hstart, nonneg_of_unsignedField hstop⟩

lemma nonneg_of_segments {found : Segments} (h : (segments j path).outcome = .ok found) :
    ∀ s ∈ found, 0 ≤ s.2.start ∧ 0 ≤ s.2.stop := by
  obtain ⟨fields, -, hfound⟩ := fields_of_segments h
  exact nonneg_of_segmentFields hfound

lemma pos_of_steps {n : ℤ} (h : steps j path = .ok n) : 0 < n := by
  obtain ⟨m, hm, h⟩ := Outcome.bind_eq_ok.mp h
  have hnonneg := nonneg_of_unsignedField hm
  split_ifs at h with hzero
  · cases h
  · cases h
    omega

lemma layout_eq_ok {name : String} (h : layout j path = .ok name) :
    name.toList.all isAscii = true ∧ name.toList.length ≤ Word.size := by
  obtain ⟨v, -, h⟩ := Outcome.bind_eq_ok.mp h
  split at h
  · split_ifs at h with hascii hlength
    · cases h
    · cases h
    · cases h
      exact ⟨by simpa using hascii, by omega⟩
  · cases h

lemma isWellFormed_of_publicInput {input : PublicInput}
    (h : (publicInput j path).outcome = .ok input) : input.IsWellFormed := by
  simp only [publicInput, Run.outcome_bind, Run.outcome_liftM, Run.outcome_pure, Outcome.bind_ok,
    Except.ok.injEq] at h
  obtain ⟨n, hn, name, hname, cells, hcells, low, hlow, high, hhigh, _, -, found, hfound, rfl⟩ := h
  obtain ⟨hascii, hlength⟩ := layout_eq_ok hname
  obtain ⟨hne, hcells⟩ := memory_eq_ok hcells
  exact ⟨pos_of_steps hn, nonneg_of_unsignedField hlow, nonneg_of_unsignedField hhigh, hascii,
    hlength, nonneg_of_segments hfound, hne, fun c hc => (hcells c hc).1,
    fun c hc => (hcells c hc).2⟩

lemma pos_of_lastLayer {n : ℤ} (h : lastLayer j path = .ok n) : 0 < n := by
  obtain ⟨m, hm, h⟩ := Outcome.bind_eq_ok.mp h
  have hnonneg := nonneg_of_unsignedField hm
  split_ifs at h with hzero
  · cases h
  · cases h
    omega

/-- The number of friendly layers is not negative, if it is there. -/
lemma nonneg_of_friendlyLayers {layers : Option ℤ} (h : friendlyLayers j path = .ok layers) :
    ∀ n ∈ layers, 0 ≤ n := by
  simp only [friendlyLayers] at h
  split at h
  · cases h
    simp
  · cases h
    simp
  · obtain ⟨n, hn, h⟩ := Outcome.bind_eq_ok.mp h
    cases h
    simpa using (unsigned_eq_ok hn).2

lemma isWellFormed_of_parameters {params : ProofParameters} (h : parameters j path = .ok params) :
    params.IsWellFormed := by
  simp only [parameters, Outcome.bind_eq_ok, Outcome.pure_eq_ok] at h
  obtain ⟨_, -, _, -, _, -, bound, hbound, layers, hlayers, cosets, hcosets, queries, hqueries,
    bits, hbits, friSteps, hsteps, rfl⟩ := h
  refine ⟨nonneg_of_unsignedField hcosets, nonneg_of_unsignedField hqueries,
    nonneg_of_unsignedField hbits, pos_of_lastLayer hbound, fun n hn => ?_,
    nonneg_of_friendlyLayers hlayers⟩
  obtain ⟨item, -, place, hitem⟩ := exists_of_mem_items hsteps n hn
  exact (unsigned_eq_ok hitem).2

end Parsing

/-- **Every proof that a document describes is well formed.** -/
theorem AnnotatedProof.isWellFormed_of_ofJson {j : Json} {proof : AnnotatedProof}
    (h : (ofJson j).outcome = .ok proof) : proof.IsWellFormed := by
  simp only [ofJson, Run.outcome_bind, Run.outcome_liftM, Run.outcome_pure, Outcome.bind_ok,
    Except.ok.injEq] at h
  obtain ⟨_, -, _, -, _, hbytes, _, -, input, hinput, _, -, params, hparams, rfl⟩ := h
  exact ⟨Decoding.size_dvd_of_proofBytes hbytes, Parsing.isWellFormed_of_publicInput hinput,
    Parsing.isWellFormed_of_parameters hparams⟩

end StarkCalldata
