import StarkCalldata.Proofs.Memory.View
import StarkCalldata.Proofs.SelfConsistency
import StarkCalldata.Proofs.Taxonomy

/-!
The document depends on public memory only through what may be seen of it.

Two proofs that differ in nothing but their public memories are prepared side by side. As long as
the memories look the same and no page is too wide, every stage has the same results in both runs up
to what is not written, or fails in both with faults of one class. A page that is too wide ends both
runs at once, with a message that quotes the number of the page:

* `AnnotatedProof.withMemory`: a proof with another public memory;
* `agree_groundwork`, `agree_completion`, `encode_congr`: the stages;
* `kind_document_of_isLeast`: the failure of a page that is too wide;
* `document_of_sameView`: the two documents are identical, or there is none and the failures are of
  one class, unless their messages cannot be found alike.
-/

namespace StarkCalldata

open Text Memory Preparation

/-- A proof with another public memory. -/
def AnnotatedProof.withMemory (proof : AnnotatedProof) (memory : List Cell) : AnnotatedProof :=
  { proof with publicInput := { proof.publicInput with memory := memory } }

variable {proof : AnnotatedProof} {m m' : List Cell} {facts facts' : PageFacts}

/-! ### The words of the tasks -/

lemma readMemory_congr (h : lastValue? m = lastValue? m') (count : ℕ) (start : ℤ) :
    readMemory m count start = readMemory m' count start := by
  induction count generalizing start with
  | zero => rfl
  | succ count ih => rw [readMemory, readMemory, h, ih]

/-- Memories with the same value at every address hold the same tasks. -/
lemma build_congr (h : lastValue? m = lastValue? m') (segments : Segments)
    (topologies : Option (List FactTopology)) (threshold : Json) :
    TaskMetadata.build segments m topologies threshold =
      TaskMetadata.build segments m' topologies threshold := by
  have houtput : programOutput segments m = programOutput segments m' := by
    unfold programOutput
    split
    · rfl
    · exact readMemory_congr h _ _
  unfold TaskMetadata.build
  rw [houtput]

/-! ### The stages of two runs -/

/-- The first parts of the public inputs are the same, if the pages look the same. -/
lemma agree_seed (h : SameView proof.publicInput.memory m) (hfacts : facts.SameView facts')
    (layers : Json) :
    Agree (· = ·) (PublicInput.seed proof facts layers).outcome
      (PublicInput.seed (proof.withMemory m) facts' layers).outcome := by
  rw [PublicInput.outcome_seed, PublicInput.outcome_seed]
  refine (Agree.rfl Eq.refl (PublicInput.layoutNumber proof.publicInput.layout)).bind ?_
  rintro layout _ rfl
  have hpadding := h.padding
  cases hhead : proof.publicInput.memory.head? with
  | none =>
      rw [hhead] at hpadding
      have hhead' : (proof.withMemory m).publicInput.memory.head? = none :=
        Option.map_eq_none_iff.mp hpadding.symm
      rw [hhead']
      exact .fault rfl
  | some padding =>
      rw [hhead] at hpadding
      obtain ⟨padding', hhead', hslot⟩ := Option.map_eq_some_iff.mp hpadding.symm
      have hhead'' : (proof.withMemory m).publicInput.memory.head? = some padding' := hhead'
      rw [hhead'']
      refine hfacts.agree_sortedPages.bind fun infos infos' hinfos => .result ?_
      rw [hslot, hfacts.count_eq, pageWords_congr hinfos]
      rfl

/-- The groundwork of two runs: without a page that is too wide the pages look the same, and the
first parts of the public inputs are the same. -/
lemma agree_groundwork (h : SameView proof.publicInput.memory m)
    (hsingle : SingleValued (proof.publicInput.memory.map Cell.slot))
    (hcanonical : ∀ c ∈ proof.publicInput.memory, Field.IsCanonical c.address)
    (hwide : widePages proof.publicInput.memory = ∅) (config : Config) :
    Agree (fun ground ground' => ground.1.SameView ground'.1 ∧ ground.2 = ground'.2)
      (groundwork proof config) (groundwork (proof.withMemory m) config) := by
  refine (agree_ofCells h hsingle hcanonical hwide).bind fun facts facts' hfacts => ?_
  refine (agree_seed h hfacts config.friendlyLayers).bind ?_
  rintro seed _ rfl
  exact .result ⟨hfacts, rfl⟩

lemma agree_withProducts (hfacts : facts.SameView facts') (seed : List Entry) (z alpha : ℤ) :
    Agree (· = ·) (PublicInput.withProducts seed facts z alpha)
      (PublicInput.withProducts seed facts' z alpha) := by
  refine (Agree.rfl Eq.refl _).bind fun _ _ _ => (Agree.rfl Eq.refl _).bind fun _ _ _ => ?_
  refine hfacts.agree_sortedPages.bind fun infos infos' hinfos => .result ?_
  rw [products_congr hinfos]

/-- Two verifier inputs look the same: they are the same but for the numbers of the pages. -/
structure VerifierInput.SameView (v v' : VerifierInput) : Prop where
  rest : v' = { v with facts := v'.facts }
  facts : v.facts.SameView v'.facts

/-- The rest of two runs, from the same challenges. -/
lemma agree_completion (hvalues : lastValue? proof.publicInput.memory = lastValue? m)
    (hfacts : facts.SameView facts') (topologies : Option (List FactTopology)) (config : Config)
    (seed : List Entry) (c : Challenges) :
    Agree VerifierInput.SameView (completion proof topologies config facts seed c)
      (completion (proof.withMemory m) topologies config facts' seed c) := by
  refine (Agree.rfl Eq.refl (Entry.hash seed)).bind fun _ _ _ => ?_
  refine (agree_withProducts hfacts seed c.z c.alpha).bind ?_
  rintro publicInput _ rfl
  rw [build_congr hvalues]
  refine (Agree.rfl Eq.refl _).bind ?_
  rintro tasks _ rfl
  exact .result ⟨rfl, hfacts⟩

lemma encodePages_congr {pages pages' : List ContinuousPage}
    (h : List.Forall₂ (fun p p' => p.start = p'.start ∧ p.values = p'.values) pages pages') :
    VerifierInput.encodePages pages = VerifierInput.encodePages pages' := by
  induction h with
  | nil => rfl
  | cons hp _ ih =>
      rw [VerifierInput.encodePages, VerifierInput.encodePages, ih, VerifierInput.encodePage,
        VerifierInput.encodePage, hp.1, hp.2]

lemma encodeFacts_congr (h : facts.SameView facts') :
    VerifierInput.encodeFacts facts = VerifierInput.encodeFacts facts' := by
  have hpages := encodePages_congr (h.continuous.imp fun _ _ hp => ⟨hp.1, hp.2.1⟩)
  rw [VerifierInput.encodeFacts, VerifierInput.encodeFacts, h.pairs_eq, hpages]

/-- Verifier inputs that look the same are written alike. -/
lemma encode_congr {v v' : VerifierInput} (h : v.SameView v') : v.encode = v'.encode := by
  rw [h.rest, VerifierInput.encode, VerifierInput.encode, encodeFacts_congr h.facts]

/-- Without a page that is too wide, proofs whose memories look the same have the same document, or
both fail with faults of one class. -/
lemma agree_document (hview : SameView proof.publicInput.memory m)
    (hsingle : SingleValued (proof.publicInput.memory.map Cell.slot))
    (hsingle' : SingleValued (m.map Cell.slot))
    (hcanonical : ∀ c ∈ proof.publicInput.memory, Field.IsCanonical c.address)
    (hwide : widePages proof.publicInput.memory = ∅)
    (topologies : Option (List FactTopology)) (config : Config) :
    Agree (· = ·) (document proof topologies config)
      (document (proof.withMemory m) topologies config) := by
  have hvalues := lastValue?_congr hsingle hsingle' fun s => hview.mem_map_slot_iff
  have hground := agree_groundwork hview hsingle hcanonical hwide config
  have hprepare : Agree VerifierInput.SameView (prepare proof topologies config).outcome
      (prepare (proof.withMemory m) topologies config).outcome := by
    rw [outcome_prepare, outcome_prepare]
    refine hground.bind ?_
    rintro ⟨facts, seed⟩ ⟨facts', _⟩ ⟨hfacts, rfl⟩
    refine (Agree.rfl Eq.refl _).bind ?_
    rintro c _ rfl
    exact agree_completion hvalues hfacts topologies config seed c
  refine hprepare.bind fun v v' hv => ?_
  rw [encode_congr hv]
  exact Agree.rfl Eq.refl _

/-! ### Pages that are too wide -/

/-- A page that is too wide fails the whole preparation, and the message quotes the number of the
least such page. -/
lemma kind_document_of_isLeast {q : ℤ} (hproof : proof.IsWellFormed)
    (hsingle : SingleValued (proof.publicInput.memory.map Cell.slot))
    (hq : IsLeast (widePages proof.publicInput.memory) q)
    (topologies : Option (List FactTopology)) (config : Config) :
    (document proof topologies config).mapError Fault.kind =
      .error (if Writable q then .inconsistency else .value) := by
  have hcanonical : ∀ c ∈ proof.publicInput.memory, Field.IsCanonical c.address :=
    fun c hc => (hproof.input.canonical c hc).1
  obtain ⟨f, hf, hkind⟩ := kind_ofCells_of_isLeast hsingle hcanonical hq
  rw [document_of_error topologies config hf, ← hkind]
  rfl

lemma class_eq_iff {P Q : Prop} [Decidable P] [Decidable Q] :
    (if P then Fault.Kind.inconsistency else .value) =
      (if Q then Fault.Kind.inconsistency else .value) ↔ (P ↔ Q) := by
  by_cases hP : P <;> by_cases hQ : Q <;> simp [hP, hQ]

/-- **The document depends on public memory only through what may be seen of it.** Take two accepted
proofs that differ in nothing but their public memories, none of which carries two values at one
address. If the memories look the same, then for all topologies and options the two proofs have the
same document, or neither has one.

If neither has one, both fail with faults of one class, but for one thing that the classes give
away. A message about a page that is too wide quotes its number, and it cannot be found when the
number is too long to be written. So the classes differ exactly when that is the case for the least
page that is too wide in one of the memories, and not in the other. -/
theorem document_of_sameView {j j' : Json} (hproof : (AnnotatedProof.ofJson j).outcome = .ok proof)
    (hproof' : (AnnotatedProof.ofJson j').outcome = .ok (proof.withMemory m))
    (hsingle : SingleValued (proof.publicInput.memory.map Cell.slot))
    (hsingle' : SingleValued (m.map Cell.slot)) (hview : SameView proof.publicInput.memory m)
    (topologies : Option (List FactTopology)) (config : Config) :
    (document proof topologies config).toOption =
        (document (proof.withMemory m) topologies config).toOption ∧
      ((document proof topologies config).mapError Fault.kind =
          (document (proof.withMemory m) topologies config).mapError Fault.kind ↔
        ∀ q q', IsLeast (widePages proof.publicInput.memory) q → IsLeast (widePages m) q' →
          (Writable q ↔ Writable q')) ∧
      ∀ q, IsLeast (widePages proof.publicInput.memory) q →
        (document proof topologies config).mapError Fault.kind =
          .error (if Writable q then .inconsistency else .value) := by
  have hwell := AnnotatedProof.isWellFormed_of_ofJson hproof
  have hwell' := AnnotatedProof.isWellFormed_of_ofJson hproof'
  have hkind {q : ℤ} (hq : IsLeast (widePages proof.publicInput.memory) q) :=
    kind_document_of_isLeast hwell hsingle hq topologies config
  have hkind' {q' : ℤ} (hq' : IsLeast (widePages m) q') :=
    kind_document_of_isLeast hwell' hsingle' hq' topologies config
  rcases (widePages proof.publicInput.memory).eq_empty_or_nonempty with hnone | hsome
  · have hagree := agree_document hview hsingle hsingle'
      (fun c hc => (hwell.input.canonical c hc).1) hnone topologies config
    have hempty {q : ℤ} : ¬ IsLeast (widePages proof.publicInput.memory) q :=
      fun hq => Set.notMem_empty q (hnone ▸ hq.1)
    have hsame := agree_eq_iff_mapError.mp hagree
    refine ⟨?_, iff_of_true hsame fun q _ hq => absurd hq hempty, fun q => hkind⟩
    have hresults := congrArg Except.toOption hsame
    simpa only [Outcome.toOption_mapError] using hresults
  · obtain ⟨q, hq⟩ := exists_isLeast_widePages hsome
    obtain ⟨q', hq'⟩ := exists_isLeast_widePages (hview.widePages_nonempty.mp hsome)
    have hresults : (document proof topologies config).toOption =
        (document (proof.withMemory m) topologies config).toOption := by
      rw [← Outcome.toOption_mapError Fault.kind, hkind hq,
        ← Outcome.toOption_mapError Fault.kind, hkind' hq']
      simp only [Except.toOption]
    refine ⟨hresults, ?_, fun q => hkind⟩
    rw [hkind hq, hkind' hq', Except.error.injEq, class_eq_iff]
    constructor
    · intro h r r' hr hr'
      rwa [hr.unique hq, hr'.unique hq']
    · exact fun h => h q q' hq hq'

/-- The memory of the short proof with the pages apart, the second one from its end and with another
number. -/
def regroupedMemory : List Cell := [⟨0, 1, 5⟩, ⟨0, 2, 6⟩, ⟨7, 6, 8⟩, ⟨7, 4, 7⟩]

/-- The short proof has the same document with its memory regrouped. -/
theorem document_regroupedMemory :
    (document (shortProof.withMemory regroupedMemory) none {}).toOption =
      some shortDocument.toJson := by
  have hproof : (AnnotatedProof.ofJson shortProof.toJson).outcome = .ok shortProof :=
    AnnotatedProof.ofJson_toJson isWellFormed_shortProof
  have hregrouped : (shortProof.withMemory regroupedMemory).IsWellFormed :=
    { isWellFormed_shortProof with
      input := { isWellFormed_shortProof.input with
        memory_ne_nil := by decide, page_nonneg := by decide, canonical := by decide } }
  have hview : SameView shortProof.publicInput.memory regroupedMemory :=
    ⟨rfl, rfl, .cons (List.Perm.swap _ _ _) .nil⟩
  obtain ⟨hsame, -, -⟩ := document_of_sameView hproof (AnnotatedProof.ofJson_toJson hregrouped)
    (by decide) (by decide) hview none {}
  rw [← hsame, document_shortProof]
  rfl

/-! ### What the classes give away -/

/-- A memory with one page that is too wide. -/
def spreadMemory (page : ℤ) : List Cell := [⟨0, 1, 5⟩, ⟨page, 0, 0⟩, ⟨page, 0x10000000, 0⟩]

/-- The short proof with that memory. -/
def spreadProof (page : ℤ) : AnnotatedProof := shortProof.withMemory (spreadMemory page)

section

variable {q : ℤ}

lemma isWellFormed_spreadProof (h : 0 < q) : (spreadProof q).IsWellFormed := by
  have hpages : ∀ c ∈ spreadMemory q, 0 ≤ c.page := by simp [spreadMemory, h.le]
  have hcells : ∀ c ∈ spreadMemory q, Field.IsCanonical c.address ∧ Field.IsCanonical c.value := by
    simp only [spreadMemory, List.forall_mem_cons]
    decide
  exact { isWellFormed_shortProof with
    input := { isWellFormed_shortProof.input with
      memory_ne_nil := List.cons_ne_nil _ _, page_nonneg := hpages, canonical := hcells } }

lemma slotsOn_spreadMemory (h : 0 < q) : slotsOn (spreadMemory q) regularPage = [⟨1, 5⟩] ∧
    slotsOn (spreadMemory q) q = [⟨0, 0⟩, ⟨0x10000000, 0⟩] := by
  simp [slotsOn, spreadMemory, regularPage, Cell.slot, h.ne, h.ne']

lemma otherPages_spreadMemory (h : 0 < q) : otherPages (spreadMemory q) = [q] := by
  refine (pairwise_otherPages _).eq_of_mem_iff (List.pairwise_singleton _ q) fun r => ?_
  rw [mem_otherPages, List.mem_singleton]
  simp only [spreadMemory, List.exists_mem_cons_iff, List.not_mem_nil, false_and, exists_false,
    or_false, or_self, regularPage]
  omega

lemma isLeast_widePages_spreadMemory (h : 0 < q) : IsLeast (widePages (spreadMemory q)) q := by
  have hwide : IsTooWide (slotsOn (spreadMemory q) q) := by
    rw [(slotsOn_spreadMemory h).2]
    exact ⟨⟨0, 0⟩, by simp, ⟨0x10000000, 0⟩, by simp, by decide⟩
  refine ⟨⟨h.ne', hwide⟩, fun r hr => ?_⟩
  have hmem : r ∈ otherPages (spreadMemory q) := (mem_widePages.mp hr).1
  rw [otherPages_spreadMemory h] at hmem
  exact (List.mem_singleton.mp hmem).ge

lemma sameView_spreadMemory {q' : ℤ} (h : 0 < q) (h' : 0 < q') :
    SameView (spreadMemory q) (spreadMemory q') where
  padding := rfl
  regular := (slotsOn_spreadMemory h).1.trans (slotsOn_spreadMemory h').1.symm
  continuous := by
    rw [otherPages_spreadMemory h, otherPages_spreadMemory h']
    refine .cons ?_ .nil
    rw [(slotsOn_spreadMemory h).2, (slotsOn_spreadMemory h').2]

end

/-- Two memories that look the same are told apart by the class of the failure, if the number of the
page is too long to be written in one of them. -/
theorem spreadMemory_told_apart :
    (AnnotatedProof.ofJson (spreadProof 1).toJson).outcome = .ok (spreadProof 1) ∧
      (AnnotatedProof.ofJson (spreadProof firstLong).toJson).outcome =
        .ok ((spreadProof 1).withMemory (spreadMemory firstLong)) ∧
      SingleValued ((spreadProof 1).publicInput.memory.map Cell.slot) ∧
      SingleValued ((spreadMemory firstLong).map Cell.slot) ∧
      SameView (spreadProof 1).publicInput.memory (spreadMemory firstLong) ∧
      (document (spreadProof 1) none {}).mapError Fault.kind = .error .inconsistency ∧
      (document ((spreadProof 1).withMemory (spreadMemory firstLong)) none {}).mapError
        Fault.kind = .error .value := by
  have hone : (0 : ℤ) < 1 := one_pos
  have hsingle (q : ℤ) : SingleValued ((spreadMemory q).map Cell.slot) :=
    (by decide : SingleValued [(⟨1, 5⟩ : Slot), ⟨0, 0⟩, ⟨0x10000000, 0⟩])
  have hproof := isWellFormed_spreadProof hone
  have hproof' := isWellFormed_spreadProof firstLong_pos
  have hclass := kind_document_of_isLeast hproof (hsingle 1) (isLeast_widePages_spreadMemory hone)
    none {}
  have hclass' := kind_document_of_isLeast hproof' (hsingle firstLong)
    (isLeast_widePages_spreadMemory firstLong_pos) none {}
  have hshort : Writable 1 := Word.Fits.writable (by decide)
  rw [if_pos hshort] at hclass
  rw [if_neg not_writable_firstLong] at hclass'
  exact ⟨AnnotatedProof.ofJson_toJson hproof, AnnotatedProof.ofJson_toJson hproof', hsingle 1,
    hsingle firstLong, sameView_spreadMemory hone firstLong_pos, hclass, hclass'⟩

end StarkCalldata
