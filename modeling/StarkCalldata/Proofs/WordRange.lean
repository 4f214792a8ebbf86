import StarkCalldata.Proofs.SelfConsistency
import StarkCalldata.Proofs.Taxonomy

/-!
Which numbers of a document fit into words.

The verifier takes every number of a document as a word. The words of the proof are cut to that
size, the public input has been hashed, and products, challenges and pages are made of elements of the
field. The parameters of the proof and the trees of the topologies are passed on as they are given,
with a check of their signs alone:

* `ProofParameters.FitsWords`, `FactTopology.FitsWords`: the numbers that are passed on;
* `forall_lt_vector_iff`, `forall_lt_tasks_iff`: they alone decide whether the parameters and the
  words about the tasks fit into words;
* `fits_publicInput`, `Registration.Describes.lt_limit`: the public input and the pages always do;
* `document_words`: the numbers of a document, part by part.
-/

namespace StarkCalldata

open Memory Word Preparation

/-! ### Numbers that are passed on -/

/-- The parameters that no check bounds fit into words. -/
structure ProofParameters.FitsWords (p : ProofParameters) : Prop where
  queries : p.queries < limit
  logCosets : p.logCosets < limit
  proofOfWorkBits : p.proofOfWorkBits < limit
  lastLayer : ceilLog2 p.lastLayerDegreeBound < limit
  count : p.friSteps.length < limit
  friSteps : ∀ n ∈ p.friSteps, n < limit

/-- The tree of a topology and the number of its pairs fit into words. -/
structure FactTopology.FitsWords (t : FactTopology) : Prop where
  count : t.pairCount < limit
  tree : ∀ n ∈ t.tree, n < limit

/-- The numbers that make up a registration. -/
def Registration.numbers (r : Registration) : List ℕ :=
  r.regular.getD [] ++ r.continuous.flatMap fun p => p.1 :: p.2

lemma forall_lt_iff_of_vector {words : List ℤ} {ns : List ℕ} (h : words.map .int = vector ns) :
    (∀ n ∈ ns, n < limit) ↔ ∀ w ∈ words, w < limit := by
  rw [map_int_eq_vector.mp h, List.forall_mem_map]
  exact forall₂_congr fun n _ => Nat.cast_lt.symm

namespace ProofParameters

/-- The vector of the parameters fits into words when the parameters do. -/
lemma forall_lt_vector_iff (p : ProofParameters) : (∀ n ∈ p.vector, n < limit) ↔ p.FitsWords := by
  simp only [vector, List.forall_mem_append, List.forall_mem_cons, Nat.cast_lt]
  constructor
  · rintro ⟨⟨hqueries, hcosets, hbits, hlast, hcount, -⟩, hsteps⟩
    exact ⟨hqueries, hcosets, hbits, hlast, hcount, hsteps⟩
  · rintro ⟨hqueries, hcosets, hbits, hlast, hcount, hsteps⟩
    exact ⟨⟨hqueries, hcosets, hbits, hlast, hcount, List.forall_mem_nil _⟩, hsteps⟩

end ProofParameters

variable {proof : AnnotatedProof} {topologies : Option (List FactTopology)} {config : Config}
  {facts : PageFacts} {infos : List PageInfo}

/-- The words about the tasks fit into words when the topologies do. -/
lemma forall_lt_tasks_iff {tasks : TaskMetadata} {segments : Segments} {memory : List Cell}
    {threshold : Json} (hmemory : ∀ c ∈ memory, Field.IsCanonical c.value)
    (h : (TaskMetadata.build segments memory topologies threshold).outcome = .ok tasks) :
    (∀ n ∈ tasks.words, n < limit) ↔
      ∀ given ∈ topologies, given.length < limit ∧ ∀ t ∈ given, t.FitsWords := by
  have hzero : (0 : ℤ) < limit := by decide
  have hvalues : ∀ c ∈ memory, c.value < limit := fun c hc => (hmemory c hc).fits.2
  have htree (t : FactTopology) :
      (t.pairCount < limit ∧ ∀ n ∈ t.tree, n < limit) ↔ t.FitsWords :=
    ⟨fun h => ⟨h.1, h.2⟩, fun h => ⟨h.count, h.tree⟩⟩
  rw [TaskMetadata.forall_mem_build (Q := fun n => n < limit) hzero hvalues h]
  simp only [Nat.cast_lt, htree]

/-! ### Numbers that are made to fit -/

lemma PublicInput.lt_of_mem_products {z alpha n : ℤ} (h : n ∈ products infos z alpha) :
    n < limit := by
  obtain ⟨info, -, rfl⟩ := List.mem_map.mp h
  have hproduct := permutationProduct_lt info.slots z alpha
  have hprime : Field.prime < limit := by decide
  exact Nat.cast_lt.mpr (hproduct.trans hprime)

/-- The numbers of a registration fit into words if those of the pages do. -/
lemma Registration.Describes.lt_limit {r : Registration} (hr : r.Describes facts)
    (hfacts : facts.Fits) : ∀ n ∈ r.numbers, n < limit := by
  have hregular : ∀ n ∈ r.regular.getD [], n < limit := by
    intro n hn
    cases hpairs : r.regular with
    | none => simp [hpairs] at hn
    | some pairs =>
        have hdescribed := hr.regular
        rw [hpairs, PageFacts.pairs] at hdescribed
        obtain ⟨slots, hslots, hinterleave⟩ := Option.map_eq_some_iff.mp hdescribed
        rw [hpairs, Option.getD_some] at hn
        have hmem : (n : ℤ) ∈ interleave slots := hinterleave ▸ List.mem_map_of_mem hn
        exact fits_natCast.mp (hfacts.regular slots hslots _ hmem)
  have hcontinuous : ∀ q ∈ r.continuous, ∀ n ∈ q.1 :: q.2, n < limit := by
    intro q hq
    have hmem : ((q.1 : ℤ), q.2.map Nat.cast) ∈
        facts.continuous.map fun p => (p.start, p.values) := by
      rw [hr.continuous]
      exact List.mem_map_of_mem hq
    obtain ⟨p, hp, hpq⟩ := List.mem_map.mp hmem
    obtain ⟨hstart, hvalues⟩ := Prod.mk.inj hpq
    obtain ⟨hstart_fits, hvalues_fits⟩ := hfacts.continuous p hp
    refine List.forall_mem_cons.mpr ⟨fits_natCast.mp (hstart ▸ hstart_fits), fun n hn => ?_⟩
    have hvalue : (n : ℤ) ∈ p.values := hvalues ▸ List.mem_map_of_mem hn
    exact fits_natCast.mp (hvalues_fits _ hvalue)
  refine List.forall_mem_append.mpr ⟨hregular, fun n hn => ?_⟩
  obtain ⟨q, hq, hn⟩ := List.mem_flatMap.mp hn
  exact hcontinuous q hq n hn

/-- The first part of the public input of a proof with a document fits into words, since it has been
hashed. -/
lemma exists_seed_of_document {j : Json} (hproof : proof.IsWellFormed)
    (hfacts : (PageFacts.ofCells proof.publicInput.memory).outcome = .ok facts)
    (h : document proof topologies {} = .ok j) :
    ∃ ns : List ℤ, groundwork proof {} = .ok (facts, ns.map .int) ∧ ∀ n ∈ ns, Fits n := by
  obtain ⟨padding, hpadding, hground⟩ := exists_seed hproof hfacts
  refine ⟨_, hground, (PublicInput.fits_seedNumbers_iff hproof hfacts hpadding).mpr ?_⟩
  by_contra hfits
  rcases document_of_not_fits topologies hproof hfacts hfits with
    ⟨f, -, herror⟩ | ⟨-, f, -, herror, -⟩
  · rw [herror] at h
    cases h
  · rw [herror] at h
    cases h

/-- **The numbers of a document.** A document that is made of a parsed proof with the standard
options can be read back. Its proof, public input, challenges and pages fit into words; its
parameters do when those of the proof do, and the words about the tasks when the topologies do. -/
theorem document_words {j out : Json} (hproof : (AnnotatedProof.ofJson j).outcome = .ok proof)
    (h : document proof topologies {} = .ok out) :
    ∃ d, Document.ofJson? out = some d ∧
      (∀ n ∈ d.proof ++ d.publicInput ++ [d.z, d.alpha] ++ d.pages.numbers, n < limit) ∧
      ((∀ n ∈ d.proofParams, n < limit) ↔ proof.parameters.FitsWords) ∧
      ((∀ n ∈ d.tasks, n < limit) ↔
        ∀ given ∈ topologies, given.length < limit ∧ ∀ t ∈ given, t.FitsWords) := by
  have hwell := AnnotatedProof.isWellFormed_of_ofJson hproof
  obtain ⟨v, hprepare, hencode⟩ := Outcome.bind_ok.mp h
  obtain ⟨d, hd, hz, halpha, rfl⟩ := VerifierInput.encode_eq_ok.mp hencode
  obtain ⟨facts, seed, -, c, hground, -, -, -, hcompletion⟩ := (prepare_eq_ok rfl).mp hprepare
  obtain ⟨hfacts, -⟩ := groundwork_eq_ok.mp hground
  obtain ⟨ns, hground', hns⟩ := exists_seed_of_document hwell hfacts h
  obtain ⟨-, rfl⟩ := Prod.mk.inj (Except.ok.inj (hground.symm.trans hground'))
  obtain ⟨whole, tasks, hwhole, htasks, rfl⟩ := exists_of_completion hcompletion
  obtain ⟨-, -, infos, -, rfl⟩ := PublicInput.withProducts_eq_ok.mp hwhole
  have hpublicInput : ∀ n ∈ d.publicInput, n < limit := by
    have hvector := hd.publicInput
    rw [← List.map_append] at hvector
    refine (forall_lt_iff_of_vector hvector).mpr (List.forall_mem_append.mpr ⟨?_, ?_⟩)
    · exact fun n hn => (hns n hn).2
    · exact fun n hn => PublicInput.lt_of_mem_products hn
  have hwords : ∀ n ∈ d.proof, n < limit :=
    (forall_lt_iff_of_vector hd.proof).mpr fun w hw => (proof.fits_words w hw).2
  have hchallenges : ∀ n ∈ [d.z, d.alpha], n < limit := by
    simpa using ⟨fits_natCast.mp hz.fits, fits_natCast.mp halpha.fits⟩
  have hpages : ∀ n ∈ d.pages.numbers, n < limit :=
    hd.pages.lt_limit (PageFacts.fits_of_canonical hwell.input.canonical hfacts)
  refine ⟨d, Document.ofJson?_toJson d, ?_, ?_, ?_⟩
  · simp only [List.forall_mem_append]
    exact ⟨⟨⟨hwords, hpublicInput⟩, hchallenges⟩, hpages⟩
  · rw [forall_lt_iff_of_vector hd.proofParams]
    exact proof.parameters.forall_lt_vector_iff
  · rw [forall_lt_iff_of_vector hd.tasks]
    exact forall_lt_tasks_iff (fun c hc => (hwell.input.canonical c hc).2) htasks

/-- The short proof with another number of queries. -/
def queriesProof (queries : ℕ) : AnnotatedProof :=
  { shortProof with parameters := { shortProof.parameters with queries := queries } }

lemma ofJson_queriesProof (queries : ℕ) :
    (AnnotatedProof.ofJson (queriesProof queries).toJson).outcome = .ok (queriesProof queries) :=
  AnnotatedProof.ofJson_toJson { isWellFormed_shortProof with
    parameters := { isWellFormed_shortProof.parameters with
      queries_nonneg := Int.natCast_nonneg queries } }

/-- The document of the short proof with another number of queries. -/
def queriesDocument (queries : ℕ) : Document :=
  { shortDocument with proofParams := [queries, 4, 0, 0, 1, 0] }

/-- The number of queries is passed on, whatever it is. -/
lemma document_queriesProof (queries : ℕ) :
    document (queriesProof queries) none {} = .ok (queriesDocument queries).toJson := by
  let input : VerifierInput := { shortInput with proofParams := vector [queries, 4, 0, 0, 1, 0] }
  have hground : groundwork (queriesProof queries) {} = .ok (shortFacts, shortSeed) :=
    groundwork_shortProof
  have hcompletion : completion (queriesProof queries) none {} shortFacts shortSeed
      shortChallenges = .ok input := by
    have hinput : PublicInput.withProducts shortSeed shortFacts shortChallenges.z
        shortChallenges.alpha = .ok shortInput.publicInput :=
      (completion_eq_ok completion_shortProof).1
    simp only [completion, hash_shortSeed, hinput]
    rfl
  have hprepare : (prepare (queriesProof queries) none {}).outcome = .ok input :=
    (prepare_eq_ok rfl).mpr ⟨shortFacts, shortSeed, none, shortChallenges, hground, rfl,
      replay_shortProof, by simp, hcompletion⟩
  have hdescribes : (queriesDocument queries).Describes input :=
    { describes_shortDocument with proofParams := rfl }
  have hz : Field.IsCanonical shortDocument.z := by decide +kernel
  have halpha : Field.IsCanonical shortDocument.alpha := by decide +kernel
  exact Outcome.bind_ok.mpr ⟨input, hprepare, VerifierInput.encode_eq_ok.mpr
    ⟨queriesDocument queries, hdescribes, hz, halpha, rfl⟩⟩

/-- With the limit of a word as the number of queries, a document is parsed that ends in one with a
number beyond a word. -/
theorem queriesProof_limit_beyond :
    (AnnotatedProof.ofJson (queriesProof limit).toJson).outcome = .ok (queriesProof limit) ∧
      ∃ out d, document (queriesProof limit) none {} = .ok out ∧ Document.ofJson? out = some d ∧
        ∃ n ∈ d.proofParams, ¬ n < limit :=
  ⟨ofJson_queriesProof limit, _, _, document_queriesProof limit, Document.ofJson?_toJson _, limit,
    .head _, lt_irrefl limit⟩

/-- With the limit of a word as the number of queries the parameters of the document do not fit,
with the number before it they do, and the rest fits both times. -/
theorem queriesProof_words :
    (¬ (∀ n ∈ (queriesDocument limit).proofParams, n < limit) ∧
        ∀ n ∈ (queriesDocument limit).publicInput, n < limit) ∧
      (∀ n ∈ (queriesDocument (limit - 1)).proofParams, n < limit) ∧
        ∀ n ∈ (queriesDocument (limit - 1)).tasks, n < limit := by
  constructor
  · obtain ⟨d, hd, hrest, hparams, -⟩ :=
      document_words (ofJson_queriesProof limit) (document_queriesProof limit)
    obtain rfl := Option.some.inj ((Document.ofJson?_toJson _).symm.trans hd)
    refine ⟨fun hall => lt_irrefl _ (hparams.mp hall).queries, fun n hn => hrest n ?_⟩
    simp [hn]
  · obtain ⟨d, hd, -, hparams, htasks⟩ :=
      document_words (ofJson_queriesProof (limit - 1)) (document_queriesProof (limit - 1))
    obtain rfl := Option.some.inj ((Document.ofJson?_toJson _).symm.trans hd)
    refine ⟨hparams.mpr ?_, htasks.mpr fun given h => by cases h⟩
    exact ⟨by decide, by decide, by decide, by decide, by decide, by decide⟩

end StarkCalldata
