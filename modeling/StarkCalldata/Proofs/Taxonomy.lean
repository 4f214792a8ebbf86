import StarkCalldata.Proofs.Annotations
import StarkCalldata.Proofs.Challenge.Reference
import StarkCalldata.Proofs.Memory.Registration
import StarkCalldata.Proofs.PublicInput.Range
import StarkCalldata.Proofs.Task.Metadata

/-!
The classes of failures.

A parsed proof can fail to be prepared because its values do not fit together, and these failures
are the codec's own. The one other way to fail is to hash the public input: some of its integers are
bounded by no check, and one that does not fit into a word is refused as a value, by a failure that
belongs to none of the codec's classes:

* `Memory.faultsIn_ofCells`, `Challenges.faultsIn_annotated`, `Challenges.faultsIn_replay`,
  `Challenges.faultsIn_confirm`, `faultsIn_completion`: the failures of the stages, once the
  integers of the public input fit into words;
* `exists_document`: what is prepared is described by a document, so encoding it cannot fail;
* `faultsIn_document_of_fits`, `document_of_not_fits`, `document_of_error`: the whole preparation,
  with public inputs that fit into words, with others, and without pages, put together in
  `faultsIn_document`;
* `document_fault_kinds`: which failures there are, and when one is not of the codec's own.
-/

namespace StarkCalldata

open Text Memory Word Preparation

variable {P : Fault.Kind → Prop}

/-! ### The pages -/

namespace Memory

variable {slots : List Slot} {cells : List Cell} {facts : PageFacts}

/-- A page with slots is too wide, or one of its addresses carries two values; the messages quote
addresses of the field and the number of the page. -/
lemma ContinuousPage.faultsIn_build {page : ℤ} (hinconsistency : P .inconsistency)
    (hmalformed : P .malformedInput) (hne : slots ≠ [])
    (hslots : ∀ s ∈ slots, Field.IsCanonical s.address) (hpage : Writable page ∨ P .value) :
    FaultsIn P (build page slots).outcome := by
  obtain ⟨lo, hi, hlo, hhi⟩ := exists_bounds hne
  obtain ⟨hspan, hstart⟩ := writable_bounds hslots hlo hhi
  rw [outcome_build page hlo hhi]
  split_ifs
  · refine .error (Fault.of_kind_quoting hinconsistency (hpage.imp (fun hw => ?_) id))
    simpa using ⟨hw, hspan, hstart⟩
  · split
    · rename_i old s hconflict
      have hs := hslots s (settle_eq_error hconflict).1
      refine .error (Fault.of_kind_quoting hmalformed (hpage.imp (fun hw => ?_) id))
      simpa using ⟨hw, hs.fits.writable⟩
    · exact .ok _

/-- The failures of the pages. -/
lemma faultsIn_ofCells (hinconsistency : P .inconsistency) (hmalformed : P .malformedInput)
    (hcells : ∀ c ∈ cells, Field.IsCanonical c.address)
    (hpages : ∀ c ∈ cells, Writable c.page ∨ P .value) :
    FaultsIn P (PageFacts.ofCells cells).outcome := by
  rw [PageFacts.outcome_ofCells]
  refine (FaultsIn.mapM fun q hq => ?_).bind fun pages _ => .ok _
  obtain ⟨-, c, hc, rfl⟩ := mem_otherPages.mp hq
  have hne : slotsOn cells c.page ≠ [] := fun hnil => slotsOn_eq_nil.mp hnil c hc rfl
  refine ContinuousPage.faultsIn_build hinconsistency hmalformed hne (fun s hs => ?_) (hpages c hc)
  obtain ⟨c', hc', -, rfl⟩ := mem_slotsOn.mp hs
  exact hcells c' hc'

end Memory

/-! ### The challenges -/

namespace Challenges

/-- A logged element beyond the field is a defect of the proof. -/
lemma faultsIn_annotated (hmalformed : P .malformedProof) (lines : List String) :
    FaultsIn P (annotated lines) := by
  rcases annotated_cases lines with ⟨-, hnone⟩ | ⟨-, d, hd⟩ | ⟨z, alpha, rest, -, -, -, hsome⟩
  · rw [hnone]
    exact .ok none
  · rw [hd]
    exact .error hmalformed
  · rw [hsome]
    exact .ok _

/-- What is not confirmed is a mismatch. -/
lemma faultsIn_confirm (hmismatch : P .challengeMismatch) (known : Option Challenges)
    (replayed : Challenges) : FaultsIn P (confirm known replayed) := by
  intro f hf
  rw [kind_of_confirm hf]
  exact hmismatch

lemma replay_of_hash_error {seed : List Entry} {f : Fault} (h : Entry.hash seed = .error f)
    (words : List ℤ) (retries : Json) : (replay seed words retries).outcome = .error f := by
  have hstart : Channel.ofPublicInput seed = .error f := by
    rw [Channel.ofPublicInput, h]
    rfl
  rw [replay]
  simp only [Run.outcome_bind, Run.outcome_liftM, hstart, Except.bind]

lemma replay_of_not_fits {ns : List ℤ} (h : ¬ ∀ n ∈ ns, Fits n) (words : List ℤ) (retries : Json) :
    ∃ f, (replay (ns.map .int) words retries).outcome = .error f ∧ f.kind = .value := by
  cases hhash : Entry.hashIntegers ns with
  | ok hash => exact absurd (Entry.hashIntegers_eq_ok.mp hhash).1 h
  | error f => exact ⟨f, replay_of_hash_error hhash words retries, Entry.kind_of_hashIntegers hhash⟩

lemma exists_vector_of_fits {ns : List ℤ} (h : ∀ n ∈ ns, Fits n) :
    ∃ ms : List ℕ, ns = ms.map Nat.cast ∧ ∀ m ∈ ms, m < limit := by
  obtain ⟨ms, rfl⟩ := Registration.exists_natCast fun n hn => (h n hn).1
  refine ⟨ms, rfl, fun m hm => ?_⟩
  exact fits_natCast.mp (h m (List.mem_map_of_mem hm))

/-- A replay of a hashed public input runs out of retries, or goes well. -/
lemma faultsIn_replay (hinconsistency : P .inconsistency) {ns words : List ℤ} {retries : ℕ}
    (hns : ∀ n ∈ ns, Fits n) (hwords : ∀ w ∈ words, Fits w) (hretries : retries < 2 ^ 255) :
    FaultsIn P (replay (ns.map .int) words (.int retries)).outcome := by
  obtain ⟨seed, rfl, hseed⟩ := exists_vector_of_fits hns
  obtain ⟨proof, rfl, hproof⟩ := exists_vector_of_fits hwords
  rw [map_int_eq_vector.mpr rfl]
  by_cases h : ∃ m n c, Reference.Yields seed proof m n c ∧ m ≤ retries ∧ n ≤ retries
  · obtain ⟨m, n, c, hyields, hm, hn⟩ := h
    rw [replay_of_yields hseed hproof hretries hyields hm hn]
    exact .ok c
  · rw [replay_of_not_yields hseed hproof hretries
      fun m n c hyields hle => h ⟨m, n, c, hyields, hle⟩]
    exact .error hinconsistency

end Challenges

open Challenges

/-! ### The rest of a preparation -/

lemma AnnotatedProof.fits_words (proof : AnnotatedProof) : ∀ w ∈ proof.words, Fits w := by
  intro w hw
  obtain ⟨n, hn, rfl⟩ := List.mem_map.mp hw
  exact fits_natCast.mpr (lt_of_mem_split hn)

variable {proof : AnnotatedProof} {topologies : Option (List FactTopology)} {config : Config}
  {facts : PageFacts} {ns : List ℤ} {c : Challenges} {v : VerifierInput}

lemma Entry.exists_hash (h : ∀ n ∈ ns, Fits n) : ∃ hash, Entry.hash (ns.map .int) = .ok hash :=
  ⟨_, hashIntegers_eq_ok.mpr ⟨h, rfl⟩⟩

lemma PublicInput.faultsIn_canonical (hinconsistency : P .inconsistency) (name : Challenge.Name)
    (n : ℤ) : FaultsIn P (canonical name n) := by
  rw [canonical]
  split_ifs
  · exact .ok ()
  · exact .error hinconsistency

/-- After the challenges, only the output of the program can be at fault, once the first part of the
public input is hashed. -/
lemma faultsIn_completion {seed : List Entry} (hinconsistency : P .inconsistency)
    (hmalformed : P .malformedInput) (hproof : proof.IsWellFormed)
    (hhash : FaultsIn P (Entry.hash seed)) (hfacts : facts.Fits) (hrows : facts.HasRows)
    (hstart : StartsTooFar proof.publicInput.segments → P .value)
    (hthreshold : ∀ n, Json.exceeds? n config.bootloaderThreshold ≠ none ∨ P .type) :
    FaultsIn P (completion proof topologies config facts seed c) := by
  have hproducts : FaultsIn P (PublicInput.withProducts seed facts c.z c.alpha) := by
    obtain ⟨infos, hinfos, -⟩ := PageFacts.exists_sortedPages hfacts hrows
    refine (PublicInput.faultsIn_canonical hinconsistency .z c.z).bind fun _ _ => ?_
    refine (PublicInput.faultsIn_canonical hinconsistency .alpha c.alpha).bind fun _ _ => ?_
    rw [hinfos]
    exact .ok _
  have htasks : FaultsIn P (TaskMetadata.build proof.publicInput.segments proof.publicInput.memory
      topologies config.bootloaderThreshold).outcome :=
    TaskMetadata.faultsIn_build hmalformed hproof.input.canonical hstart hthreshold
  exact hhash.bind fun _ _ => hproducts.bind fun _ _ => htasks.bind fun _ _ => .ok _

lemma exists_vector (h : ∀ n ∈ ns, 0 ≤ n) : ∃ ms : List ℕ, ns.map Json.int = vector ms := by
  obtain ⟨ms, hms⟩ := Registration.exists_natCast h
  exact ⟨ms, map_int_eq_vector.mpr hms⟩

/-- What is prepared is described by a document. -/
lemma exists_document (hproof : proof.IsWellFormed)
    (htopologies : ∀ given ∈ topologies, ∀ t ∈ given, t.IsWellFormed) (hns : ∀ n ∈ ns, 0 ≤ n)
    (hfacts : (PageFacts.ofCells proof.publicInput.memory).outcome = .ok facts)
    (h : completion proof topologies config facts (ns.map .int) c = .ok v) :
    ∃ d : Document, d.Describes v ∧ Field.IsCanonical d.z ∧ Field.IsCanonical d.alpha := by
  obtain ⟨whole, tasks, hwhole, htasks, rfl⟩ := exists_of_completion h
  obtain ⟨hz, halpha, infos, -, hinput⟩ := PublicInput.withProducts_eq_ok.mp hwhole
  have hcells : ∀ c ∈ proof.publicInput.memory, 0 ≤ c.address ∧ 0 ≤ c.value :=
    fun c hc => ⟨(hproof.input.canonical c hc).1.1, (hproof.input.canonical c hc).2.1⟩
  have hnumbers : ∀ n ∈ ns ++ PublicInput.products infos c.z c.alpha, 0 ≤ n := by
    refine List.forall_mem_append.mpr ⟨hns, fun n hn => ?_⟩
    obtain ⟨info, -, rfl⟩ := List.mem_map.mp hn
    exact Int.natCast_nonneg _
  have htasks_nonneg : ∀ n ∈ tasks.words, 0 ≤ n := by
    refine (TaskMetadata.forall_mem_build le_rfl (fun c hc => (hcells c hc).2) htasks).mpr ?_
    exact fun given hgiven => ⟨Int.natCast_nonneg _, fun t ht =>
      ⟨Int.natCast_nonneg _, (htopologies given hgiven t ht).tree_nonneg⟩⟩
  obtain ⟨params, hparams⟩ := exists_vector hproof.parameters.vector_nonneg
  obtain ⟨words, hwords⟩ := exists_vector fun w hw => (proof.fits_words w hw).1
  obtain ⟨numbers, hnumbers⟩ := exists_vector hnumbers
  obtain ⟨taskNumbers, htaskNumbers⟩ := exists_vector htasks_nonneg
  obtain ⟨pages, hpages⟩ := Registration.exists_describes hcells hfacts
  have hz_nat : ((c.z.toNat : ℕ) : ℤ) = c.z := Int.toNat_of_nonneg hz.1
  have halpha_nat : ((c.alpha.toNat : ℕ) : ℤ) = c.alpha := Int.toNat_of_nonneg halpha.1
  refine ⟨⟨params, words, numbers, c.z.toNat, c.alpha.toNat, pages, taskNumbers, _⟩,
    ⟨hparams, hwords, ?_, ?_, ?_, hpages, htaskNumbers, rfl⟩, ?_, ?_⟩
  · rw [hinput, ← hnumbers, List.map_append]
  · rw [hz_nat]
  · rw [halpha_nat]
  · rw [hz_nat]
    exact hz
  · rw [halpha_nat]
    exact halpha

/-! ### The whole preparation -/

lemma exists_seed (hproof : proof.IsWellFormed)
    (hfacts : (PageFacts.ofCells proof.publicInput.memory).outcome = .ok facts) :
    ∃ padding, proof.publicInput.memory.head?.map Cell.slot = some padding ∧
      groundwork proof {} =
        .ok (facts, (PublicInput.seedNumbers proof facts padding).map .int) := by
  obtain ⟨padding, hpadding, hseed⟩ :=
    PublicInput.outcome_seed_of_isWellFormed hproof hfacts .null
  exact ⟨padding, hpadding, groundwork_eq_ok.mpr ⟨hfacts, hseed⟩⟩

/-- The start of the output segment is an integer of the first part. -/
lemma not_startsTooFar (hproof : proof.IsWellFormed) (hfits : PublicInput.FitsWords proof facts) :
    ¬ StartsTooFar proof.publicInput.segments := by
  rintro ⟨s, hs, -, hlong⟩
  have hknown : s ∈ PublicInput.segmentOrder.filterMap
      fun name => proof.publicInput.segments.lookup name :=
    List.mem_filterMap.mpr ⟨"output", by decide, hs⟩
  have hmem : s.start ∈ PublicInput.knownSegmentWords proof.publicInput.segments :=
    List.mem_flatMap.mpr ⟨s, hknown, .head _⟩
  have hnonneg : 0 ≤ s.start :=
    PublicInput.nonneg_of_mem_knownSegmentWords hproof.input.segments_nonneg _ hmem
  have hstart : Fits s.start := ⟨hnonneg, hfits.segments _ hmem⟩
  exact hlong hstart.writable

/-- The document of a proof with pages whose public input is hashed: the annotations, the replay and
the rest can be at fault, and the encoding cannot. -/
lemma faultsIn_document_of_fits (hown : ∀ k : Fault.Kind, k.isOwn = true → P k)
    (hproof : proof.IsWellFormed)
    (htopologies : ∀ given ∈ topologies, ∀ t ∈ given, t.IsWellFormed)
    (hfacts : (PageFacts.ofCells proof.publicInput.memory).outcome = .ok facts)
    (hfits : PublicInput.FitsWords proof facts) : FaultsIn P (document proof topologies {}) := by
  obtain ⟨padding, hpadding, hground⟩ := exists_seed hproof hfacts
  have hns := (PublicInput.fits_seedNumbers_iff hproof hfacts hpadding).mpr hfits
  have hprepare : FaultsIn P (prepare proof topologies {}).outcome := by
    rw [outcome_prepare_of_verify rfl, hground]
    refine (faultsIn_annotated (hown _ rfl) _).bind fun known _ => ?_
    refine FaultsIn.bind ?_ fun replayed _ => ?_
    · exact faultsIn_replay (hown _ rfl) hns proof.fits_words (by norm_num : 128 < 2 ^ 255)
    refine (faultsIn_confirm (hown _ rfl) known replayed).bind fun c _ => ?_
    obtain ⟨hash, hhash⟩ := Entry.exists_hash hns
    exact faultsIn_completion (hown _ rfl) (hown _ rfl) hproof (hhash ▸ .ok hash)
      (PageFacts.fits_of_canonical hproof.input.canonical hfacts)
      (PageFacts.hasRows_of_ofCells hfacts)
      (fun hlong => absurd hlong (not_startsTooFar hproof hfits)) fun n => .inl nofun
  refine hprepare.bind fun v hv => ?_
  obtain ⟨facts', seed, known, c, hground', -, -, -, hcompletion⟩ := (prepare_eq_ok rfl).mp hv
  obtain ⟨rfl, rfl⟩ := Prod.mk.inj (Except.ok.inj (hground.symm.trans hground'))
  obtain ⟨d, hd, hz, halpha⟩ :=
    exists_document hproof htopologies (fun n hn => (hns n hn).1) hfacts hcompletion
  rw [VerifierInput.encode_eq_ok.mpr ⟨d, hd, hz, halpha, rfl⟩]
  exact .ok _

/-- A proof with pages whose public input is not hashed has no document: the reading of the
annotations goes wrong, or the value is refused. -/
lemma document_of_not_fits (topologies : Option (List FactTopology)) (hproof : proof.IsWellFormed)
    (hfacts : (PageFacts.ofCells proof.publicInput.memory).outcome = .ok facts)
    (hfits : ¬ PublicInput.FitsWords proof facts) :
    (∃ f, annotated proof.annotations = .error f ∧ document proof topologies {} = .error f) ∨
      ∃ known f, annotated proof.annotations = .ok known ∧
        document proof topologies {} = .error f ∧ f.kind = .value := by
  obtain ⟨padding, hpadding, hground⟩ := exists_seed hproof hfacts
  have hns : ¬ ∀ n ∈ PublicInput.seedNumbers proof facts padding, Fits n :=
    fun h => hfits ((PublicInput.fits_seedNumbers_iff hproof hfacts hpadding).mp h)
  obtain ⟨f, hreplay, hkind⟩ := replay_of_not_fits hns proof.words (.int 128)
  have hprepare : (prepare proof topologies {}).outcome =
      (annotated proof.annotations).bind fun _ => .error f := by
    rw [outcome_prepare_of_verify rfl, hground]
    simp only [Except.bind, hreplay]
  rw [document, hprepare]
  cases hknown : annotated proof.annotations with
  | error e => exact .inl ⟨e, rfl, rfl⟩
  | ok known => exact .inr ⟨known, f, rfl, rfl, hkind⟩

/-- A proof without pages fails as its pages do. -/
lemma document_of_error (topologies : Option (List FactTopology)) (config : Config) {f : Fault}
    (h : (PageFacts.ofCells proof.publicInput.memory).outcome = .error f) :
    document proof topologies config = .error f := by
  have hground : groundwork proof config = .error f := by
    rw [groundwork, h]
    rfl
  rw [document, outcome_prepare, hground]
  rfl

/-- The failures of a document are the codec's own, and refused values: those of numbers of pages
that cannot be written, and those of public inputs that do not fit into words. -/
lemma faultsIn_document (hown : ∀ k : Fault.Kind, k.isOwn = true → P k)
    (hproof : proof.IsWellFormed)
    (htopologies : ∀ given ∈ topologies, ∀ t ∈ given, t.IsWellFormed)
    (hpages : ∀ c ∈ proof.publicInput.memory, Writable c.page ∨ P .value)
    (hfits : ∀ facts known, (PageFacts.ofCells proof.publicInput.memory).outcome = .ok facts →
      annotated proof.annotations = .ok known → PublicInput.FitsWords proof facts ∨ P .value) :
    FaultsIn P (document proof topologies {}) := by
  cases hfacts : (PageFacts.ofCells proof.publicInput.memory).outcome with
  | error f =>
      have haddresses : ∀ c ∈ proof.publicInput.memory, Field.IsCanonical c.address :=
        fun c hc => (hproof.input.canonical c hc).1
      rw [document_of_error topologies {} hfacts]
      exact .error (faultsIn_ofCells (hown _ rfl) (hown _ rfl) haddresses hpages f hfacts)
  | ok facts =>
      by_cases hwords : PublicInput.FitsWords proof facts
      · exact faultsIn_document_of_fits hown hproof htopologies hfacts hwords
      · rcases document_of_not_fits topologies hproof hfacts hwords with
          ⟨f, hf, herror⟩ | ⟨known, f, hknown, herror, hkind⟩
        · rw [herror]
          exact .error (faultsIn_annotated (hown _ rfl) _ f hf)
        · have hvalue : P .value := (hfits facts known hfacts hknown).resolve_left hwords
          rw [herror]
          exact .error (hkind ▸ hvalue)

/-- **The failures of a document.** With the standard options, a parsed proof with parsed topologies
fails with one of the codec's own failures or with a refused value. As long as the numbers of its
pages can be written, the value is refused exactly when the pages can be built, the annotations can
be read, and an integer of the public input that no check bounds fits into no word. -/
theorem document_fault_kinds {j : Json} (hproof : (AnnotatedProof.ofJson j).outcome = .ok proof)
    (htopologies : ∀ given ∈ topologies, ∃ k, FactTopology.ofJson k = .ok given) :
    FaultsIn (fun k => k.isOwn = true ∨ k = .value) (document proof topologies {}) ∧
      ((∀ c ∈ proof.publicInput.memory, Writable c.page) →
        ((∃ f, document proof topologies {} = .error f ∧ f.kind.isOwn = false) ↔
          ∃ facts known, (PageFacts.ofCells proof.publicInput.memory).outcome = .ok facts ∧
            annotated proof.annotations = .ok known ∧ ¬ PublicInput.FitsWords proof facts)) := by
  have hwell := AnnotatedProof.isWellFormed_of_ofJson hproof
  have htrees : ∀ given ∈ topologies, ∀ t ∈ given, t.IsWellFormed := by
    intro given hgiven
    obtain ⟨k, hk⟩ := htopologies given hgiven
    exact FactTopology.isWellFormed_of_ofJson hk
  refine ⟨?_, fun hpages => ⟨?_, ?_⟩⟩
  · exact faultsIn_document (fun k hk => .inl hk) hwell htrees (fun _ _ => .inr (.inr rfl))
      fun _ _ _ _ => .inr (.inr rfl)
  · rintro ⟨f, herror, hforeign⟩
    by_contra hnone
    have hfits (facts : PageFacts) (known : Option Challenges)
        (hfacts : (PageFacts.ofCells proof.publicInput.memory).outcome = .ok facts)
        (hknown : annotated proof.annotations = .ok known) : PublicInput.FitsWords proof facts := by
      by_contra hwords
      exact hnone ⟨facts, known, hfacts, hknown, hwords⟩
    have hown : f.kind.isOwn = true :=
      faultsIn_document (P := fun k => k.isOwn = true) (fun k hk => hk) hwell htrees
        (fun c hc => .inl (hpages c hc))
        (fun facts known hfacts hknown => .inl (hfits facts known hfacts hknown)) f herror
    rw [hforeign] at hown
    cases hown
  · rintro ⟨facts, known, hfacts, hknown, hwords⟩
    rcases document_of_not_fits topologies hwell hfacts hwords with
      ⟨e, he, -⟩ | ⟨-, f, -, herror, hkind⟩
    · rw [hknown] at he
      cases he
    · refine ⟨f, herror, ?_⟩
      rw [hkind]
      rfl

lemma isWellFormed_shortProof : shortProof.IsWellFormed := by
  have hproof : (AnnotatedProof.ofJson shortProof.toJson).outcome = .ok shortProof :=
    Outcome.toOption_eq_some.mp (by decide +kernel)
  exact AnnotatedProof.isWellFormed_of_ofJson hproof

/-- The short proof with another upper bound of the range check. -/
def rangeProof (bound : ℤ) : AnnotatedProof :=
  { shortProof with publicInput := { shortProof.publicInput with rangeMax := bound } }

lemma ofJson_rangeProof {bound : ℤ} (h : 0 ≤ bound) :
    (AnnotatedProof.ofJson (rangeProof bound).toJson).outcome = .ok (rangeProof bound) :=
  AnnotatedProof.ofJson_toJson { isWellFormed_shortProof with
    input := { isWellFormed_shortProof.input with rangeMax_nonneg := h } }

lemma ofCells_rangeProof (bound : ℤ) :
    (PageFacts.ofCells (rangeProof bound).publicInput.memory).outcome = .ok shortFacts := rfl

/-- With the limit of a word as the bound, a document is parsed that ends in a refused value. -/
theorem rangeProof_limit_foreign :
    (AnnotatedProof.ofJson (rangeProof limit).toJson).outcome = .ok (rangeProof limit) ∧
      ∃ f, document (rangeProof limit) none {} = .error f ∧ f.kind.isOwn = false := by
  have hproof := ofJson_rangeProof (Int.natCast_nonneg limit)
  have hfits : ¬ PublicInput.FitsWords (rangeProof limit) shortFacts :=
    fun h => lt_irrefl _ h.rangeMax
  refine ⟨hproof, ?_⟩
  rcases document_of_not_fits none (AnnotatedProof.isWellFormed_of_ofJson hproof)
    (ofCells_rangeProof _) hfits with ⟨f, hf, -⟩ | ⟨-, f, -, herror, hkind⟩
  · cases hf
  · refine ⟨f, herror, ?_⟩
    rw [hkind]
    rfl

/-- With the limit of a word as the bound there is a failure that is not the codec's own, and with
the number before it there is none. -/
theorem rangeProof_fault_kinds :
    (∃ f, document (rangeProof limit) none {} = .error f ∧ f.kind.isOwn = false) ∧
      ¬ ∃ f, document (rangeProof (limit - 1)) none {} = .error f ∧ f.kind.isOwn = false := by
  have hproof := ofJson_rangeProof (Int.natCast_nonneg limit)
  have hbelow : (0 : ℤ) ≤ limit - 1 := by decide
  have hproof' := ofJson_rangeProof hbelow
  have htopologies : ∀ given ∈ (none : Option (List FactTopology)), ∃ k,
      FactTopology.ofJson k = .ok given := fun _ h => by cases h
  have hpages (bound : ℤ) : ∀ c ∈ (rangeProof bound).publicInput.memory, Writable c.page := by
    have hfits : ∀ c ∈ shortProof.publicInput.memory, Fits c.page := by decide
    exact fun c hc => (hfits c hc).writable
  constructor
  · refine ((document_fault_kinds hproof htopologies).2 (hpages _)).mpr ?_
    exact ⟨shortFacts, none, ofCells_rangeProof _, rfl, fun h => lt_irrefl _ h.rangeMax⟩
  · intro h
    obtain ⟨facts, known, hfacts, -, hnot⟩ :=
      ((document_fault_kinds hproof' htopologies).2 (hpages _)).mp h
    obtain rfl : shortFacts = facts := Except.ok.inj ((ofCells_rangeProof _).symm.trans hfacts)
    exact hnot ⟨by decide, by decide, by decide, sub_one_lt _, by decide, by decide, by decide⟩

end StarkCalldata
