import StarkCalldata.Proofs.RangeChecks
import StarkCalldata.Proofs.WordRange

/-!
Whatever is prepared can be written.

A verifier input comes out of values that have been checked where they were read or hashed where
they were put together, so the checks of the encoder find nothing left to refuse:

* `Preparation.fits_of_completion`: the first part of a completed public input has been hashed, so
  it fits into words;
* `exists_document_of_completion`: what is completed is written, its public input fits into words,
  and the products of its pages are elements of the field;
* `exists_document_of_prepare`, `prepared_serializes`: so a prepared verifier input can be written,
  whatever the options, and no run on the way to it or to a failure raises a range check.
-/

namespace StarkCalldata

open Memory Word Preparation

variable {proof : AnnotatedProof} {topologies : Option (List FactTopology)} {config : Config}
  {facts : PageFacts} {ns : List ℤ} {c : Challenges} {v : VerifierInput}

/-- The first part of a completed public input has been hashed. -/
lemma Preparation.fits_of_completion
    (h : completion proof topologies config facts (ns.map .int) c = .ok v) : ∀ n ∈ ns, Fits n := by
  obtain ⟨hash, hhash, -⟩ := Outcome.bind_eq_ok.mp h
  exact (Entry.hashIntegers_eq_ok.mp hhash).1

/-- What is completed is written. Its public input fits into words, and it ends with the products of
the pages, which are elements of the field. -/
lemma exists_document_of_completion (hproof : proof.IsWellFormed)
    (htopologies : ∀ given ∈ topologies, ∀ t ∈ given, t.IsWellFormed)
    (hfacts : (PageFacts.ofCells proof.publicInput.memory).outcome = .ok facts)
    (h : completion proof topologies config facts (ns.map .int) c = .ok v) :
    ∃ (d : Document) (infos : List PageInfo), v.encode = .ok d.toJson ∧ d.Describes v ∧
      v.facts.sortedPages = .ok infos ∧
      d.products = infos.map (fun info => permutationProduct info.slots d.z d.alpha) ∧
      ∀ n ∈ d.publicInput, n < limit := by
  have hns := fits_of_completion h
  obtain ⟨d, hd, hz, halpha⟩ :=
    exists_document hproof htopologies (fun n hn => (hns n hn).1) hfacts h
  obtain ⟨hwhole, hvz, hvalpha, hvfacts, -⟩ := completion_eq_ok h
  obtain ⟨-, -, infos, hinfos, hinput⟩ := PublicInput.withProducts_eq_ok.mp hwhole
  have hc : c = ⟨d.z, d.alpha⟩ := by
    have hdz : c.z = d.z := Json.int.inj (hvz.symm.trans hd.z)
    have hdalpha : c.alpha = d.alpha := Json.int.inj (hvalpha.symm.trans hd.alpha)
    rw [← hdz, ← hdalpha]
  subst hc hvfacts
  obtain ⟨-, hproducts⟩ :=
    Document.seed_products_of_describes (hd.publicInput.symm.trans hinput) hd.pages hinfos
  refine ⟨d, infos, VerifierInput.encode_eq_ok.mpr ⟨d, hd, hz, halpha, rfl⟩, hd, hinfos,
    hproducts, ?_⟩
  have hvector := hd.publicInput
  rw [hinput, ← List.map_append] at hvector
  refine (forall_lt_iff_of_vector hvector).mpr (List.forall_mem_append.mpr ⟨?_, ?_⟩)
  · exact fun n hn => (hns n hn).2
  · exact fun n hn => PublicInput.lt_of_mem_products hn

/-- What is prepared is written, when the number of friendly layers is null or an integer. -/
lemma exists_document_of_prepare (hproof : proof.IsWellFormed)
    (htopologies : ∀ given ∈ topologies, ∀ t ∈ given, t.IsWellFormed)
    (hlayers : config.friendlyLayers = .null ∨ ∃ n, config.friendlyLayers = .int n)
    (h : (prepare proof topologies config).outcome = .ok v) :
    ∃ (d : Document) (infos : List PageInfo), v.encode = .ok d.toJson ∧ d.Describes v ∧
      v.facts.sortedPages = .ok infos ∧
      d.products = infos.map (fun info => permutationProduct info.slots d.z d.alpha) ∧
      ∀ n ∈ d.publicInput, n < limit := by
  rw [outcome_prepare] at h
  obtain ⟨⟨facts, seed⟩, hground, h⟩ := Outcome.bind_ok.mp h
  obtain ⟨c, -, hcompletion⟩ := Outcome.bind_ok.mp h
  obtain ⟨hfacts, hseed⟩ := groundwork_eq_ok.mp hground
  obtain ⟨ns, rfl⟩ := PublicInput.exists_integers_of_seed hlayers hseed
  exact exists_document_of_completion hproof htopologies hfacts hcompletion

/-- **Whatever is prepared can be written.** Let a parsed proof be prepared with parsed topologies
or none, and with any options whose number of friendly layers is null or an integer. A verifier
input that comes out of it is encoded as a document; every number of its public input fits into a
word, and the last ones, which are the products of the pages, are elements of the field. Whether the
run ends with a verifier input or not, no check of a challenge fires in it, and no page reaches
beyond the field. -/
theorem prepared_serializes {j : Json} (hproof : (AnnotatedProof.ofJson j).outcome = .ok proof)
    (htopologies : ∀ given ∈ topologies, ∃ k, FactTopology.ofJson k = .ok given)
    (hlayers : config.friendlyLayers = .null ∨ ∃ n, config.friendlyLayers = .int n) :
    (∀ v, (prepare proof topologies config).outcome = .ok v →
      ∃ (d : Document) (infos : List PageInfo), v.encode = .ok d.toJson ∧ d.Describes v ∧
        v.facts.sortedPages = .ok infos ∧
        d.products = infos.map (fun info => permutationProduct info.slots d.z d.alpha) ∧
        (∀ n ∈ d.publicInput, n < limit) ∧ ∀ n ∈ d.products, n < Field.prime) ∧
    FailsWith Fault.RangesHold (prepare proof topologies config).outcome ∧
    ∀ page slots last, (page, slots) ∈ PageTable.ofCells proof.publicInput.memory →
      (slots.map Slot.address).max? = some last → last < Field.prime := by
  have hwell := AnnotatedProof.isWellFormed_of_ofJson hproof
  have htrees : ∀ given ∈ topologies, ∀ t ∈ given, t.IsWellFormed := by
    intro given hgiven
    obtain ⟨k, hk⟩ := htopologies given hgiven
    exact FactTopology.isWellFormed_of_ofJson hk
  refine ⟨fun v hv => ?_, failsWith_prepare hwell hlayers, fun page slots last hrow hlast => ?_⟩
  · obtain ⟨d, infos, hencode, hd, hinfos, hproducts, hinput⟩ :=
      exists_document_of_prepare hwell htrees hlayers hv
    refine ⟨d, infos, hencode, hd, hinfos, hproducts, hinput, fun n hn => ?_⟩
    rw [hproducts] at hn
    obtain ⟨info, -, rfl⟩ := List.mem_map.mp hn
    exact permutationProduct_lt info.slots d.z d.alpha
  · exact PageTable.last_lt (fun c hc => (hwell.input.canonical c hc).1) hrow hlast

/-- The short proof is prepared, and its verifier input can be written; no range check fires, neither
in this run nor in one with a negative number of friendly layers. -/
theorem shortInput_serializes :
    (prepare shortProof none {}).outcome = .ok shortInput ∧
      (∃ d : Document, shortInput.encode = .ok d.toJson ∧ (∀ n ∈ d.publicInput, n < limit) ∧
        ∀ n ∈ d.products, n < Field.prime) ∧
      FailsWith Fault.RangesHold (prepare shortProof none {}).outcome ∧
      FailsWith Fault.RangesHold
        (prepare shortProof none { friendlyLayers := .int (-1) }).outcome := by
  have hproof := AnnotatedProof.ofJson_toJson isWellFormed_shortProof
  obtain ⟨hwritten, hranges, -⟩ :=
    @prepared_serializes shortProof none {} _ hproof nofun (.inl rfl)
  obtain ⟨-, hranges', -⟩ := @prepared_serializes shortProof none
    { friendlyLayers := .int (-1) } _ hproof nofun (.inr ⟨-1, rfl⟩)
  obtain ⟨d, -, hencode, -, -, -, hinput, hproducts⟩ := hwritten shortInput prepare_shortProof
  exact ⟨prepare_shortProof, ⟨d, hencode, hinput, hproducts⟩, hranges, hranges'⟩

end StarkCalldata
