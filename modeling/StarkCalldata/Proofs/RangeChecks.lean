import StarkCalldata.Proofs.Channel.Orbit
import StarkCalldata.Proofs.Taxonomy

/-!
Range checks that never fire.

Some checks guard values that have been derived: that the challenges are elements of the field, and
that a page does not reach beyond the field. The values of a parsed proof, the channel and the
reading of the annotations see to it that none of them fires in any run, whether it comes to a
result or not:

* `Fault.RangesHold`: a fault that is none of these checks; `FaultsIn.rangesHold`: they are all
  inconsistencies, so that the other classes need no closer look;
* `Memory.failsWith_ofCells`, `PublicInput.faultsIn_seed`, `Challenges.failsWith_derive`,
  `failsWith_completion`: the stages;
* `Challenges.canonical_of_derive`: what is drawn or read is an element of the field;
* `failsWith_prepare`: the whole preparation.
-/

namespace StarkCalldata

open Text Memory Word Preparation

variable {α : Type} {P : Fault.Kind → Prop}

/-- No range check of a derived value has fired: the fault is not about a challenge, and a page that
it calls too wide spreads over more addresses than a page may. -/
structure Fault.RangesHold (f : Fault) : Prop where
  ne_notCanonical : ∀ name n, f ≠ .notCanonical name n
  wide : ∀ page span start, f = .pageTooWide page span start → maxSpan < span

lemma Fault.rangesHold_of_kind {f : Fault} (h : f.kind ≠ .inconsistency) : f.RangesHold := by
  refine ⟨?_, ?_⟩
  · rintro name n rfl
    exact h rfl
  · rintro page span start rfl
    exact absurd rfl h

/-- Without inconsistencies no range check has fired. -/
lemma FaultsIn.rangesHold {x : Except Fault α} (h : FaultsIn (· ≠ .inconsistency) x) :
    FailsWith Fault.RangesHold x := fun f hf => Fault.rangesHold_of_kind (h f hf)

/-! ### The pages -/

namespace Memory

variable {slots : List Slot} {cells : List Cell} {page last : ℤ}

lemma PageTable.last_lt (hcells : ∀ c ∈ cells, Field.IsCanonical c.address)
    (hrow : (page, slots) ∈ ofCells cells) (hlast : (slots.map Slot.address).max? = some last) :
    last < Field.prime := by
  obtain ⟨s, hs, rfl⟩ := List.mem_map.mp (List.max?_eq_some_iff.mp hlast).1
  have hslots : slots = slotsOn cells page := (tabulates_ofCells cells).slots_eq _ hrow
  obtain ⟨c, hc, -, rfl⟩ := mem_slotsOn.mp (hslots ▸ hs)
  exact (hcells c hc).2

/-- A page of addresses of the field is refused for its width alone. -/
lemma ContinuousPage.failsWith_build (page : ℤ) (hslots : ∀ s ∈ slots, s.address < Field.prime) :
    FailsWith Fault.RangesHold (build page slots).outcome := by
  by_cases hne : slots = []
  · subst hne
    exact .error (Fault.rangesHold_of_kind nofun)
  · obtain ⟨lo, hi, hlo, hhi⟩ := exists_bounds hne
    obtain ⟨s, hs, hs_address⟩ := List.mem_map.mp (List.max?_eq_some_iff.mp hhi).1
    have hlt : hi < Field.prime := hs_address ▸ hslots s hs
    rw [outcome_build page hlo hhi]
    split_ifs with hsize
    · have hwide : maxSpan < hi - lo + 1 := by
        rcases hsize with hwide | hbeyond
        · exact hwide
        · omega
      have htooWide : Fault.RangesHold (.pageTooWide page (hi - lo + 1) lo) :=
        ⟨nofun, fun _ _ _ h => by cases h; exact hwide⟩
      exact .error (Fault.of_quoting htooWide (Fault.rangesHold_of_kind nofun))
    · split
      · exact .error (Fault.of_quoting (Fault.rangesHold_of_kind nofun)
          (Fault.rangesHold_of_kind nofun))
      · exact .ok _

/-- The pages of cells of the field are refused for their widths or values alone. -/
lemma failsWith_ofCells (hcells : ∀ c ∈ cells, Field.IsCanonical c.address) :
    FailsWith Fault.RangesHold (PageFacts.ofCells cells).outcome := by
  rw [PageFacts.outcome_ofCells]
  refine (FailsWith.mapM fun q _ => ?_).bind fun pages _ => .ok _
  refine ContinuousPage.failsWith_build q fun s hs => ?_
  obtain ⟨c, hc, -, rfl⟩ := mem_slotsOn.mp hs
  exact (hcells c hc).2

end Memory

/-! ### The public input -/

lemma Entry.faultsIn_hashIntegers (hvalue : P .value) (ns : List ℤ) :
    FaultsIn P (Entry.hashIntegers ns) := by
  intro f hf
  rw [kind_of_hashIntegers hf]
  exact hvalue

/-- What is said about the pages fails as the hashes do, or for a row that is missing. -/
lemma Memory.PageFacts.faultsIn_sortedPages (hvalue : P .value) (hoffset : P .offset)
    (facts : PageFacts) : FaultsIn P facts.sortedPages := by
  have hrow : ∀ q, FaultsIn P (facts.table.row q) := by
    intro q
    rw [PageTable.row]
    cases facts.table.lookup q with
    | some slots => exact .ok slots
    | none => exact .error hoffset
  have hregular : ∀ slots ∈ facts.regular.toList, FaultsIn P (facts.regularInfo slots) :=
    fun _ _ => (Entry.faultsIn_hashIntegers hvalue _).bind fun _ _ =>
      (hrow _).bind fun _ _ => .ok _
  have hcontinuous : ∀ p ∈ facts.continuous, FaultsIn P (facts.continuousInfo p) :=
    fun _ _ => (Entry.faultsIn_hashIntegers hvalue _).bind fun _ _ =>
      (hrow _).bind fun _ _ => .ok _
  exact (FaultsIn.mapM hregular).bind fun _ _ => (FaultsIn.mapM hcontinuous).bind fun _ _ => .ok _

namespace PublicInput

variable {proof : AnnotatedProof} {facts : PageFacts} {layers : Json} {first : List Entry}

/-- The first part of the public input fails with the name of the layout, without a padding cell,
or with a hash. -/
lemma faultsIn_seed (proof : AnnotatedProof) (facts : PageFacts) (layers : Json) :
    FaultsIn (· ≠ .inconsistency) (seed proof facts layers).outcome := by
  rw [outcome_seed]
  refine FaultsIn.bind ?_ fun layout _ => ?_
  · rw [layoutNumber]
    split_ifs
    · exact .ok _
    · exact .error (by decide)
  · split
    · exact .error (by decide)
    · exact (facts.faultsIn_sortedPages (by decide) (by decide)).bind fun pages _ => .ok _

/-- With null or an integer as the number of friendly layers, the first part holds integers. -/
lemma exists_integers_of_seed (hlayers : layers = .null ∨ ∃ n, layers = .int n)
    (h : (seed proof facts layers).outcome = .ok first) : ∃ ns : List ℤ, first = ns.map .int := by
  have hentry : ∃ n, layersEntry proof.parameters layers = .int n := by
    rcases hlayers with rfl | ⟨n, rfl⟩
    · exact ⟨_, rfl⟩
    · exact ⟨n, rfl⟩
  obtain ⟨n, hn⟩ := hentry
  rw [outcome_seed, hn] at h
  obtain ⟨layout, -, h⟩ := Outcome.bind_ok.mp h
  split at h
  · cases h
  · obtain ⟨pages, -, h⟩ := Outcome.bind_ok.mp h
    cases h
    exact ⟨n :: _, rfl⟩

end PublicInput

/-! ### The channel -/

lemma Word.faultsIn_encode (hvalue : P .value) (n : ℤ) : FaultsIn P (encode n) := by
  intro f hf
  rw [kind_of_encode hf]
  exact hvalue

namespace Channel

variable {retries : Json} {n : ℕ}

lemma faultsIn_ofPublicInput (hvalue : P .value) {entries : List Entry}
    (hhash : FaultsIn P (Entry.hash entries)) : FaultsIn P (ofPublicInput entries) := by
  refine hhash.bind fun hash _ => ?_
  rw [ofDigest]
  split_ifs
  · exact .ok _
  · exact .error hvalue

lemma faultsIn_mix (hvalue : P .value) (c : Channel) (word : ℤ) : FaultsIn P (c.mix word) :=
  (faultsIn_encode hvalue word).bind fun _ _ => .ok _

lemma faultsIn_advance (hvalue : P .value) (c : Channel) : FaultsIn P c.advance :=
  (faultsIn_encode hvalue c.counter).bind fun _ _ => .ok _

/-- A value that is no number allows no number of rejections. -/
lemma faultsIn_attempts (hretries : (∃ n, attempts retries = .ok n) ∨ P .type) :
    FaultsIn P (attempts retries) := by
  rcases hretries with ⟨n, hn⟩ | htype
  · rw [hn]
    exact .ok n
  · rw [attempts.eq_def]
    split
    any_goals exact .ok _
    · split
      · exact .ok _
      · exact .ok _
    · exact .error htype

lemma kind_exhausted (hvalue : P .value) (harithmetic : P .arithmetic) (retries : Json) :
    P (exhausted retries).kind := by
  rw [exhausted.eq_def]
  split
  · exact Fault.of_kind_quoting harithmetic (.inr hvalue)
  · exact harithmetic

/-- Seeking ends as the hashes do, or runs out of retries. -/
lemma faultsIn_seek (hvalue : P .value) (harithmetic : P .arithmetic) (retries : Json) (n : ℕ)
    (c : Channel) : FaultsIn P (seek (exhausted retries) n c).1 := by
  induction n generalizing c with
  | zero =>
      rw [seek]
      split_ifs
      · exact .ok _
      · exact .error (kind_exhausted hvalue harithmetic retries)
  | succ n ih =>
      rw [seek]
      split_ifs
      · exact .ok _
      · split
        · exact ih _
        · rename_i f hf
          exact .error (c.faultsIn_advance hvalue f hf)

lemma faultsIn_accept (hvalue : P .value) (c : Channel) : FaultsIn P c.accept.1 := by
  rw [accept]
  split
  · exact .ok _
  · rename_i f hf
    exact .error (c.faultsIn_advance hvalue f hf)

/-- A draw fails as its hashes do, or for its retries. -/
lemma faultsIn_draw (hvalue : P .value) (harithmetic : P .arithmetic)
    (hretries : (∃ n, attempts retries = .ok n) ∨ P .type) (c : Channel) :
    FaultsIn P (c.draw retries).1 := by
  rw [draw]
  split_ifs
  · exact c.faultsIn_accept hvalue
  · split
    · rename_i f hf
      exact .error (faultsIn_attempts hretries f hf)
    · rename_i attempts _
      split
      · exact faultsIn_accept hvalue _
      · rename_i f last hseek
        have hf := faultsIn_seek hvalue harithmetic retries attempts c f (congrArg Prod.fst hseek)
        exact .error hf

/-- A row of draws fails as its draws do. -/
lemma faultsIn_drawMany (hvalue : P .value) (harithmetic : P .arithmetic)
    (hretries : (∃ n, attempts retries = .ok n) ∨ P .type) (count : ℕ) (c : Channel) :
    FaultsIn P (drawMany retries count c).1 := by
  induction count generalizing c with
  | zero => exact .ok []
  | succ count ih =>
      rw [drawMany]
      split
      · rename_i f last hdraw
        have hf := c.faultsIn_draw hvalue harithmetic hretries f (congrArg Prod.fst hdraw)
        exact .error hf
      · rename_i element next hdraw
        split
        · exact .ok _
        · rename_i f last hothers
          exact .error (ih next f (congrArg Prod.fst hothers))

end Channel

/-! ### The challenges -/

namespace Challenges

variable {lines : List String} {ns words : List ℤ} {retries : Json} {verify : Bool}
  {c : Challenges}

/-- Both challenges are elements of the field. -/
def IsCanonical (c : Challenges) : Prop := Field.IsCanonical c.z ∧ Field.IsCanonical c.alpha

lemma canonical_of_ofValues {z alpha : ℤ} (h : ofValues z alpha = .ok c) : c.IsCanonical := by
  simp only [ofValues, Outcome.bind_eq_ok, PublicInput.canonical_eq_ok, Outcome.pure_eq_ok] at h
  obtain ⟨_, hz, _, halpha, rfl⟩ := h
  exact ⟨hz, halpha⟩

/-- A pair that is read in the annotations is canonical. -/
lemma canonical_of_annotated (h : annotated lines = .ok (some c)) : c.IsCanonical := by
  rcases annotated_cases lines with ⟨-, hnone⟩ | ⟨-, d, hd⟩ |
    ⟨z, alpha, -, -, hz, halpha, hsome⟩
  · rw [hnone] at h
    cases h
  · rw [hd] at h
    cases h
  · rw [hsome] at h
    cases h
    exact ⟨⟨Int.natCast_nonneg z, Int.ofNat_lt.mpr hz⟩,
      ⟨Int.natCast_nonneg alpha, Int.ofNat_lt.mpr halpha⟩⟩

lemma canonical_of_ofDraws {answer : Except Fault (List ℕ)} (h : ofDraws answer = .ok c) :
    c.IsCanonical := by
  unfold ofDraws at h
  split at h
  · exact canonical_of_ofValues h
  · cases h
  · cases h

/-- Elements of the field pass the checks of the challenges, and running out of retries is none of
these checks. -/
lemma failsWith_ofDraws {answer : Except Fault (List ℕ)}
    (hfault : FaultsIn (· ≠ .inconsistency) answer)
    (hlt : ∀ elements, answer = .ok elements → ∀ n ∈ elements, n < Field.prime) :
    FailsWith Fault.RangesHold (ofDraws answer) := by
  match answer with
  | .error f =>
      refine .error ?_
      have hf : f.RangesHold := Fault.rangesHold_of_kind (hfault f rfl)
      cases f with
      | drawExhausted => exact ⟨nofun, nofun⟩
      | _ => exact hf
  | .ok [] | .ok [_] | .ok (_ :: _ :: _ :: _) => exact .error (Fault.rangesHold_of_kind nofun)
  | .ok [z, alpha] =>
      have hz : z < Field.prime := hlt _ rfl z (by simp)
      have halpha : alpha < Field.prime := hlt _ rfl alpha (by simp)
      rw [ofDraws, ofValues_of_lt hz halpha]
      exact .ok _

/-- A replay fails elsewhere than in the checks of its challenges. -/
lemma failsWith_replay (ns words : List ℤ) (retries : Json) :
    FailsWith Fault.RangesHold (replay (ns.map .int) words retries).outcome := by
  rw [outcome_replay_of_draws]
  have hhash := Entry.faultsIn_hashIntegers (P := (· ≠ .inconsistency)) (by decide) ns
  refine (Channel.faultsIn_ofPublicInput (by decide) hhash).rangesHold.bind fun start _ => ?_
  refine FailsWith.bind ?_ fun channel _ => ?_
  · cases words with
    | nil => exact .ok start
    | cons word rest =>
        exact (start.faultsIn_mix (P := (· ≠ .inconsistency)) (by decide) word).rangesHold
  · exact failsWith_ofDraws (Channel.faultsIn_drawMany (by decide) (by decide)
      (.inr (by decide)) 2 channel) fun elements helements => Channel.lt_of_mem_drawMany helements

lemma canonical_of_replay {seed : List Entry} (h : (replay seed words retries).outcome = .ok c) :
    c.IsCanonical := by
  rw [outcome_replay_of_draws] at h
  obtain ⟨start, -, h⟩ := Outcome.bind_ok.mp h
  obtain ⟨channel, -, h⟩ := Outcome.bind_ok.mp h
  exact canonical_of_ofDraws h

/-- The checks of the challenges do not fire, wherever the pair comes from. -/
lemma failsWith_derive (lines : List String) (ns words : List ℤ) (verify : Bool)
    (retries : Json) :
    FailsWith Fault.RangesHold (derive lines (ns.map .int) words verify retries).outcome := by
  rw [outcome_derive]
  refine (faultsIn_annotated (P := (· ≠ .inconsistency)) (by decide) lines).rangesHold.bind
    fun known _ => ?_
  split
  · exact .ok _
  · refine (failsWith_replay ns words retries).bind fun replayed _ => ?_
    exact (faultsIn_confirm (P := (· ≠ .inconsistency)) (by decide) known replayed).rangesHold

/-- The pair that is used is canonical, wherever it comes from. -/
lemma canonical_of_derive {seed : List Entry}
    (h : (derive lines seed words verify retries).outcome = .ok c) : c.IsCanonical := by
  rw [outcome_derive] at h
  obtain ⟨known, hknown, h⟩ := Outcome.bind_ok.mp h
  split at h
  · cases h
    exact canonical_of_annotated hknown
  · obtain ⟨replayed, hreplay, h⟩ := Outcome.bind_ok.mp h
    obtain ⟨rfl, -⟩ := confirm_eq_ok.mp h
    exact canonical_of_replay hreplay

end Challenges

/-! ### The whole preparation -/

variable {proof : AnnotatedProof} {topologies : Option (List FactTopology)} {config : Config}
  {facts : PageFacts} {ns : List ℤ} {c : Challenges}

/-- After the challenges no range check fires, since these are canonical. -/
lemma failsWith_completion (hproof : proof.IsWellFormed) (hc : c.IsCanonical) :
    FailsWith Fault.RangesHold (completion proof topologies config facts (ns.map .int) c) := by
  have hproducts : FaultsIn (· ≠ .inconsistency)
      (PublicInput.withProducts (ns.map .int) facts c.z c.alpha) := by
    have hz : PublicInput.canonical .z c.z = .ok () := PublicInput.canonical_eq_ok.mpr hc.1
    have halpha : PublicInput.canonical .alpha c.alpha = .ok () :=
      PublicInput.canonical_eq_ok.mpr hc.2
    rw [PublicInput.withProducts, hz, halpha]
    exact (facts.faultsIn_sortedPages (by decide) (by decide)).bind fun pages _ => .ok _
  have htasks : FaultsIn (· ≠ .inconsistency) (TaskMetadata.build proof.publicInput.segments
      proof.publicInput.memory topologies config.bootloaderThreshold).outcome :=
    TaskMetadata.faultsIn_build (by decide) hproof.input.canonical (fun _ => by decide)
      fun _ => .inr (by decide)
  refine FaultsIn.rangesHold ?_
  exact (Entry.faultsIn_hashIntegers (by decide) ns).bind fun _ _ => hproducts.bind fun _ _ =>
    htasks.bind fun _ _ => .ok _

/-- **No range check fires in a preparation**, whether it comes to a result or not, when the number
of friendly layers is null or an integer. -/
theorem failsWith_prepare (hproof : proof.IsWellFormed)
    (hlayers : config.friendlyLayers = .null ∨ ∃ n, config.friendlyLayers = .int n) :
    FailsWith Fault.RangesHold (prepare proof topologies config).outcome := by
  have hground : FailsWith Fault.RangesHold (groundwork proof config) := by
    refine (failsWith_ofCells fun c hc => (hproof.input.canonical c hc).1).bind fun facts _ => ?_
    exact (PublicInput.faultsIn_seed proof facts _).rangesHold.bind fun seed _ => .ok _
  rw [outcome_prepare]
  refine hground.bind fun ground hground => ?_
  obtain ⟨ns, hns⟩ := PublicInput.exists_integers_of_seed hlayers (groundwork_eq_ok.mp hground).2
  rw [hns]
  refine (Challenges.failsWith_derive _ ns _ _ _).bind fun c hc => ?_
  exact failsWith_completion hproof (Challenges.canonical_of_derive hc)

end StarkCalldata
