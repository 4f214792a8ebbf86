import StarkCalldata.Proofs.Challenge.Replay
import StarkCalldata.Proofs.Keccak.Rows
import StarkCalldata.Proofs.Preparation

/-!
Annotations cannot steer a verified run.

The annotations of a proof may log the challenges, but with verification on the logged values are
only ever compared with the replayed ones. A run is set beside the run of the same proof without
annotations:

* `outcome_derive_of_verify`, `outcome_derive`: the derivation reads the logged pair, replays the
  channel, and confirms the one by the other, unless a logged pair is to be trusted;
* `confirm_eq_ok`: what is confirmed is the replayed pair;
* `annotated_cases`: what the reading of the logged pair can come to;
* `verified_run_ignores_annotations`: the annotations decide whether the run ends with a fault, and
  with which, but never what it yields.
-/

namespace StarkCalldata

open Memory Preparation

variable {lines : List String} {seed : List Entry} {words : List ℤ} {retries : Json}
  {proof : AnnotatedProof} {topologies : Option (List FactTopology)} {config : Config}
  {facts : PageFacts} {v : VerifierInput}

namespace Challenges

/-! ### The logged pair and the replayed one -/

/-- The pair to be used, from the logged one, if there is one, and the replayed one. -/
def confirm : Option Challenges → Challenges → Except Fault Challenges
  | none, replayed => .ok replayed
  | some known, replayed => do
      compare .z known replayed
      compare .alpha known replayed
      return known

@[simp] lemma outcome_checkCommitment (lines : List String) (words : List ℤ) :
    (checkCommitment lines words).outcome = .ok () := by
  unfold checkCommitment
  split
  · split <;> rfl
  · rfl

/-- With verification on, the logged pair is read, the channel is replayed, and the one is confirmed
by the other. -/
lemma outcome_derive_of_verify (lines : List String) (seed : List Entry) (words : List ℤ)
    (retries : Json) :
    (derive lines seed words true retries).outcome =
      (annotated lines).bind fun known =>
        (replay seed words retries).outcome.bind fun replayed => confirm known replayed := by
  rw [derive]
  simp only [Run.outcome_bind, Run.outcome_liftM]
  cases annotated lines with
  | error e => rfl
  | ok known =>
      cases known with
      | none =>
          simp only [Except.bind, Run.outcome_bind, outcome_checkCommitment]
          cases (replay seed words retries).outcome <;> rfl
      | some known =>
          simp only [Except.bind, Run.outcome_bind, outcome_checkCommitment]
          cases (replay seed words retries).outcome with
          | error e => rfl
          | ok replayed =>
              simp only [confirm, Run.outcome_liftM, bind, Except.bind]
              cases compare .z known replayed with
              | error e => rfl
              | ok _ => cases compare .alpha known replayed <;> rfl

/-- Where the pair comes from: it is trusted, or replayed and compared with the logged one. -/
lemma outcome_derive (lines : List String) (seed : List Entry) (words : List ℤ) (verify : Bool)
    (retries : Json) :
    (derive lines seed words verify retries).outcome =
      (annotated lines).bind fun known =>
        match known, verify with
        | some c, false => .ok c
        | known, _ => (replay seed words retries).outcome.bind fun replayed =>
            confirm known replayed := by
  cases verify with
  | true =>
      rw [outcome_derive_of_verify]
      cases annotated lines with
      | error f => rfl
      | ok known => cases known <;> rfl
  | false =>
      rw [derive]
      simp only [Run.outcome_bind, Run.outcome_liftM]
      cases annotated lines with
      | error f => rfl
      | ok known =>
          cases known with
          | some c => rfl
          | none =>
              simp only [Except.bind, Run.outcome_bind, outcome_checkCommitment]
              cases (replay seed words retries).outcome <;> rfl

lemma compare_eq_ok {name : Challenge.Name} {c d : Challenges} {u : Unit} :
    compare name c d = .ok u ↔ c.get name = d.get name := by
  rw [compare]
  split <;> simp_all

lemma kind_of_compare {name : Challenge.Name} {c d : Challenges} {e : Fault}
    (h : compare name c d = .error e) : e.kind = .challengeMismatch := by
  rw [compare] at h
  split at h
  · cases h
  · cases h
    rfl

/-- What is confirmed is the replayed pair, whatever was logged. -/
lemma confirm_eq_ok {known : Option Challenges} {replayed c : Challenges} :
    confirm known replayed = .ok c ↔ c = replayed ∧ ∀ k, known = some k → k = replayed := by
  cases known with
  | none => simp [confirm, eq_comm]
  | some k =>
      obtain ⟨z, alpha⟩ := k
      obtain ⟨z', alpha'⟩ := replayed
      simp only [confirm, Outcome.bind_eq_ok, compare_eq_ok, Outcome.pure_eq_ok, get]
      constructor
      · rintro ⟨_, rfl, _, rfl, rfl⟩
        exact ⟨rfl, fun k hk => (Option.some.inj hk).symm⟩
      · rintro ⟨rfl, h⟩
        cases h _ rfl
        exact ⟨(), rfl, (), rfl, rfl⟩

/-- What is not confirmed is a mismatch. -/
lemma kind_of_confirm {known : Option Challenges} {replayed : Challenges} {e : Fault}
    (h : confirm known replayed = .error e) : e.kind = .challengeMismatch := by
  cases known with
  | none => cases h
  | some k =>
      simp only [confirm, bind, Except.bind] at h
      cases hz : compare .z k replayed with
      | error e' =>
          rw [hz] at h
          cases h
          exact kind_of_compare hz
      | ok _ =>
          rw [hz] at h
          cases ha : compare .alpha k replayed with
          | error e' =>
              rw [ha] at h
              cases h
              exact kind_of_compare ha
          | ok _ =>
              rw [ha] at h
              cases h

/-! ### What the annotations log -/

/-- Two logged elements of which one is no field element. -/
def BeyondField (elements : List ℕ) : Prop :=
  ∃ z alpha rest, elements = z :: alpha :: rest ∧ (Field.prime ≤ z ∨ Field.prime ≤ alpha)

/-- The elements that a run uses, if two are logged at all, are the logged ones. -/
def Confirms (elements : List ℕ) (v : VerifierInput) : Prop :=
  ∀ z alpha rest, elements = z :: alpha :: rest → v.z = .int z ∧ v.alpha = .int alpha

lemma beyondField_cons {z alpha : ℕ} {rest : List ℕ} :
    BeyondField (z :: alpha :: rest) ↔ Field.prime ≤ z ∨ Field.prime ≤ alpha := by
  constructor
  · rintro ⟨_, _, _, he, hlarge⟩
    cases he
    exact hlarge
  · exact fun hlarge => ⟨z, alpha, rest, rfl, hlarge⟩

lemma confirms_cons {z alpha : ℕ} {rest : List ℕ} {v : VerifierInput} :
    Confirms (z :: alpha :: rest) v ↔ v.z = .int z ∧ v.alpha = .int alpha := by
  constructor
  · exact fun hconf => hconf z alpha rest rfl
  · rintro hpair _ _ _ he
    cases he
    exact hpair

lemma confirms_of_length_lt {elements : List ℕ} (h : elements.length < 2) (v : VerifierInput) :
    Confirms elements v := by
  rintro z alpha rest rfl
  simp at h

lemma checkAnnotated_of_lt {n : ℕ} (h : n < Field.prime) (position : ℕ) :
    checkAnnotated position n = .ok () := if_pos h

lemma checkAnnotated_of_not_lt {n : ℕ} (h : ¬ n < Field.prime) (position : ℕ) :
    checkAnnotated position n =
      .error (.malformedProof "annotations" (.challengeTooLarge position n)) := if_neg h

/-- Two elements at least: the first two are the pair if both are below the prime, and otherwise the
first of them that is not is refused. -/
lemma annotated_of_elements {z alpha : ℕ} {rest : List ℕ}
    (h : Transcript.elements lines = z :: alpha :: rest) :
    (z < Field.prime → alpha < Field.prime → annotated lines = .ok (some ⟨z, alpha⟩)) ∧
    (Field.prime ≤ z →
      annotated lines = .error (.malformedProof "annotations" (.challengeTooLarge 0 z))) ∧
    (z < Field.prime → Field.prime ≤ alpha →
      annotated lines = .error (.malformedProof "annotations" (.challengeTooLarge 1 alpha))) := by
  rw [annotated, h]
  refine ⟨fun hz ha => ?_, fun hz => ?_, fun hz ha => ?_⟩
  · simp only [checkAnnotated_of_lt hz, checkAnnotated_of_lt ha, ofValues_of_lt hz ha]
    rfl
  · simp only [checkAnnotated_of_not_lt (Nat.not_lt.mpr hz)]
    rfl
  · simp only [checkAnnotated_of_lt hz, checkAnnotated_of_not_lt (Nat.not_lt.mpr ha)]
    rfl

/-- The reading of the logged pair: fewer than two elements are none, elements beyond the field are
refused, and two others are the pair. -/
lemma annotated_cases (lines : List String) :
    ((Transcript.elements lines).length < 2 ∧ annotated lines = .ok none) ∨
      (BeyondField (Transcript.elements lines) ∧
        ∃ d, annotated lines = .error (.malformedProof "annotations" d)) ∨
      ∃ (z alpha : ℕ) (rest : List ℕ), Transcript.elements lines = z :: alpha :: rest ∧
        z < Field.prime ∧ alpha < Field.prime ∧ annotated lines = .ok (some ⟨z, alpha⟩) := by
  match he : Transcript.elements lines with
  | [] => exact .inl ⟨by simp, by rw [annotated, he]⟩
  | [_] => exact .inl ⟨by simp, by rw [annotated, he]⟩
  | z :: alpha :: rest =>
      obtain ⟨hok, hfirst, hsecond⟩ := annotated_of_elements he
      right
      rcases lt_or_ge z Field.prime with hz | hz
      · rcases lt_or_ge alpha Field.prime with ha | ha
        · exact .inr ⟨z, alpha, rest, rfl, hz, ha, hok hz ha⟩
        · exact .inl ⟨⟨z, alpha, rest, rfl, .inr ha⟩, _, hsecond hz ha⟩
      · exact .inl ⟨⟨z, alpha, rest, rfl, .inl hz⟩, _, hfirst hz⟩

end Challenges

open Challenges

/-! ### The run with annotations beside the run without -/

/-- A verified preparation, with the reading of the logged pair and the replay in view. -/
lemma outcome_prepare_of_verify (hv : config.verifyChallenges.isTruthy = true) :
    (prepare proof topologies config).outcome =
      (groundwork proof config).bind fun ground =>
        (annotated proof.annotations).bind fun known =>
          (replay ground.2 proof.words config.maxChallengeRetries).outcome.bind fun replayed =>
            (confirm known replayed).bind fun c =>
              completion proof topologies config ground.1 ground.2 c := by
  rw [outcome_prepare, hv]
  cases groundwork proof config with
  | error e => rfl
  | ok ground =>
      simp only [Except.bind, outcome_derive_of_verify]
      cases annotated proof.annotations with
      | error e => rfl
      | ok known =>
          cases (replay ground.2 proof.words config.maxChallengeRetries).outcome <;> rfl

/-- A result of a verified preparation is completed from the replayed pair, and the logged one, if
there is one, is the same. -/
lemma prepare_eq_ok (hv : config.verifyChallenges.isTruthy = true) :
    (prepare proof topologies config).outcome = .ok v ↔
      ∃ facts seed known c, groundwork proof config = .ok (facts, seed) ∧
        annotated proof.annotations = .ok known ∧
        (replay seed proof.words config.maxChallengeRetries).outcome = .ok c ∧
        (∀ k, known = some k → k = c) ∧
        completion proof topologies config facts seed c = .ok v := by
  rw [outcome_prepare_of_verify hv]
  simp only [Outcome.bind_ok, confirm_eq_ok]
  constructor
  · rintro ⟨⟨facts, seed⟩, hg, known, hk, c, hr, _, ⟨rfl, heq⟩, hc⟩
    exact ⟨facts, seed, known, _, hg, hk, hr, heq, hc⟩
  · rintro ⟨facts, seed, known, c, hg, hk, hr, heq, hc⟩
    exact ⟨(facts, seed), hg, known, hk, c, hr, c, ⟨rfl, heq⟩, hc⟩

/-- Elements beyond the field are confirmed by no run. -/
lemma not_confirms_of_beyondField (elements : List ℕ) {c : Challenges}
    (hz : v.z = .int c.z) (ha : v.alpha = .int c.alpha) (hzc : Field.IsCanonical c.z)
    (hac : Field.IsCanonical c.alpha) (hb : BeyondField elements) : ¬ Confirms elements v := by
  intro hconf
  obtain ⟨z, alpha, rest, rfl, hlarge⟩ := hb
  obtain ⟨hz', ha'⟩ := confirms_cons.mp hconf
  rw [hz, Json.int.injEq] at hz'
  rw [ha, Json.int.injEq] at ha'
  have hzlt : z < Field.prime := Int.ofNat_lt.mp (hz' ▸ hzc.2)
  have halt : alpha < Field.prime := Int.ofNat_lt.mp (ha' ▸ hac.2)
  rcases hlarge with h | h
  · exact absurd hzlt (Nat.not_lt.mpr h)
  · exact absurd halt (Nat.not_lt.mpr h)

/-- The run of a proof whose challenges replay to `c`, which complete it to `v`: it yields `v`, or
refuses the annotations, or ends with a mismatch, each in its own case of what is logged. -/
lemma prepare_cases (proof : AnnotatedProof) {c : Challenges}
    (hv : config.verifyChallenges.isTruthy = true)
    (hg : groundwork proof config = .ok (facts, seed))
    (hr : (replay seed proof.words config.maxChallengeRetries).outcome = .ok c)
    (hc : completion proof topologies config facts seed c = .ok v) :
    (Confirms (Transcript.elements proof.annotations) v ∧
      ¬ BeyondField (Transcript.elements proof.annotations) ∧
      (prepare proof topologies config).outcome = .ok v) ∨
    (BeyondField (Transcript.elements proof.annotations) ∧
      ¬ Confirms (Transcript.elements proof.annotations) v ∧
      ∃ d, (prepare proof topologies config).outcome =
        .error (.malformedProof "annotations" d)) ∨
    (¬ BeyondField (Transcript.elements proof.annotations) ∧
      ¬ Confirms (Transcript.elements proof.annotations) v ∧
      ∃ f, (prepare proof topologies config).outcome = .error f ∧ f.kind = .challengeMismatch) := by
  obtain ⟨hproducts, hz, ha, -, -⟩ := completion_eq_ok hc
  obtain ⟨hzc, hac, -⟩ := PublicInput.withProducts_eq_ok.mp hproducts
  have hrun : (prepare proof topologies config).outcome =
      (annotated proof.annotations).bind fun known => (confirm known c).bind fun c' =>
        completion proof topologies config facts seed c' := by
    rw [outcome_prepare_of_verify hv, hg]
    simp only [Except.bind, hr]
  have hbeyond_confirms :=
    not_confirms_of_beyondField (Transcript.elements proof.annotations) hz ha hzc hac
  rcases annotated_cases proof.annotations with ⟨hlen, hnone⟩ | ⟨hbeyond, d, hd⟩ |
    ⟨z, alpha, rest, he, hzlt, halt, hsome⟩
  · -- no pair is logged
    have hconf := confirms_of_length_lt hlen v
    refine .inl ⟨hconf, fun hb => hbeyond_confirms hb hconf, ?_⟩
    rw [hrun, hnone]
    exact hc
  · -- a logged element is no field element
    refine .inr (.inl ⟨hbeyond, hbeyond_confirms hbeyond, d, ?_⟩)
    rw [hrun, hd]
    rfl
  · -- a pair of field elements is logged
    have hbeyond : ¬ BeyondField (Transcript.elements proof.annotations) := by
      rw [he, beyondField_cons]
      omega
    have hpair : Confirms (Transcript.elements proof.annotations) v ↔
        c.z = z ∧ c.alpha = alpha := by
      rw [he, confirms_cons, hz, ha, Json.int.injEq, Json.int.injEq]
    rw [hsome] at hrun
    cases hcf : confirm (some ⟨z, alpha⟩) c with
    | ok c' =>
        obtain ⟨rfl, heq⟩ := confirm_eq_ok.mp hcf
        cases heq _ rfl
        refine .inl ⟨hpair.mpr ⟨rfl, rfl⟩, hbeyond, ?_⟩
        rw [hrun]
        simp only [Except.bind, hcf]
        exact hc
    | error f =>
        refine .inr (.inr ⟨hbeyond, fun hconf => ?_, f, ?_, kind_of_confirm hcf⟩)
        · obtain ⟨hz', ha'⟩ := hpair.mp hconf
          have hok : confirm (some ⟨z, alpha⟩) c = .ok c := by
            rw [confirm_eq_ok, ← hz', ← ha']
            simp
          rw [hok] at hcf
          cases hcf
        · rw [hrun]
          simp only [Except.bind, hcf]

/-- **Annotations cannot steer a verified run.** Set beside the run of the same proof without
annotations, a verified run fails wherever that one does. Where that one yields `v`, it yields `v`
too if it logs no pair or the pair of `v`, refuses the annotations if a logged element is no field
element, and ends with a mismatch in every other case. So whatever a verified run yields, its
challenges are the replayed ones. -/
theorem verified_run_ignores_annotations (proof : AnnotatedProof)
    (topologies : Option (List FactTopology)) (config : Config)
    (hv : config.verifyChallenges.isTruthy = true) :
    (∀ e, (prepare { proof with annotations := [] } topologies config).outcome = .error e →
      ∃ f, (prepare proof topologies config).outcome = .error f) ∧
    (∀ v, (prepare { proof with annotations := [] } topologies config).outcome = .ok v →
      (Confirms (Transcript.elements proof.annotations) v →
        (prepare proof topologies config).outcome = .ok v) ∧
      (BeyondField (Transcript.elements proof.annotations) →
        ∃ f, (prepare proof topologies config).outcome = .error f ∧
          f.kind = .malformedProof ∧ f.field? = some "annotations") ∧
      (¬ Confirms (Transcript.elements proof.annotations) v →
        ¬ BeyondField (Transcript.elements proof.annotations) →
        ∃ f, (prepare proof topologies config).outcome = .error f ∧
          f.kind = .challengeMismatch)) ∧
    ∀ v, (prepare proof topologies config).outcome = .ok v →
      ∃ facts seed c, (PageFacts.ofCells proof.publicInput.memory).outcome = .ok facts ∧
        (PublicInput.seed proof facts config.friendlyLayers).outcome = .ok seed ∧
        (replay seed proof.words config.maxChallengeRetries).outcome = .ok c ∧
        v.z = .int c.z ∧ v.alpha = .int c.alpha := by
  refine ⟨fun e he => ?_, fun v hbare => ?_, fun v h => ?_⟩
  · -- a result with the annotations would be one without them
    cases hA : (prepare proof topologies config).outcome with
    | error f => exact ⟨f, rfl⟩
    | ok v =>
        obtain ⟨facts, seed, known, c, hg, _, hr, _, hc⟩ := (prepare_eq_ok hv).mp hA
        have hbare : (prepare { proof with annotations := [] } topologies config).outcome = .ok v :=
          (prepare_eq_ok hv).mpr ⟨facts, seed, none, c, hg, rfl, hr, by simp, hc⟩
        rw [hbare] at he
        cases he
  · obtain ⟨facts, seed, _, c, hg, _, hr, _, hc⟩ := (prepare_eq_ok hv).mp hbare
    rcases prepare_cases proof hv hg hr hc with ⟨hconf, hbeyond, hok⟩ |
      ⟨hbeyond, hconf, d, herr⟩ | ⟨hbeyond, hconf, f, herr, hkind⟩
    · exact ⟨fun _ => hok, fun h => absurd h hbeyond, fun h => absurd hconf h⟩
    · exact ⟨fun h => absurd h hconf, fun _ => ⟨_, herr, rfl, rfl⟩, fun _ h => absurd hbeyond h⟩
    · exact ⟨fun h => absurd h hconf, fun h => absurd h hbeyond, fun _ _ => ⟨f, herr, hkind⟩⟩
  · obtain ⟨facts, seed, _, c, hg, _, hr, _, hc⟩ := (prepare_eq_ok hv).mp h
    obtain ⟨hf, hs⟩ := groundwork_eq_ok.mp hg
    obtain ⟨-, hz, ha, -, -⟩ := completion_eq_ok hc
    exact ⟨facts, seed, c, hf, hs, hr, hz, ha⟩

/-! ### A short run -/

/-- A proof of one word and two pages, the second one with a gap. -/
def shortProof : AnnotatedProof where
  annotations := []
  bytes := List.replicate 32 1
  publicInput :=
    { steps := 16, rangeMin := 0, rangeMax := 9, layout := "tiny", segments := []
      memory := [⟨0, 1, 5⟩, ⟨1, 4, 7⟩, ⟨0, 2, 6⟩, ⟨1, 6, 8⟩] }
  parameters := ⟨4, 2, 0, 1, [0], none⟩

/-- The pages of the short proof. -/
def shortFacts : PageFacts :=
  ⟨some [⟨1, 5⟩, ⟨2, 6⟩], [⟨1, 4, [7, 0, 8]⟩], PageTable.ofCells shortProof.publicInput.memory⟩

/-- What is said about the pages of the short proof. -/
def shortInfos : List PageInfo :=
  [⟨0, 2, 0xdea788dc851b5cf90e638c082cc2a3e598af63cb656c31a4e4e47d511d7aae0d, none,
      [⟨1, 5⟩, ⟨2, 6⟩]⟩,
    ⟨1, 3, 0x31f94f6453b447f311d84e7365473e40e013bf965521cf957be79743dcc5ca91, some 4,
      [⟨4, 7⟩, ⟨6, 8⟩]⟩]

/-- The public input of the short proof, up to the products. -/
def shortSeed : List Entry :=
  ([0, 4, 0, 9, 0x74696e79, 1, 5, 2] ++ shortInfos.flatMap PublicInput.pageWords).map .int

/-- The hash of that part. -/
def shortHash : ℕ := 0x523d8e1f76ef2996121b2ed0ebb730bf9515f60fc16c96f74bee4dbbdc5f0b4a

/-- The channel after the word of the proof, and after the first draw. -/
def shortChannels : Channel × Channel :=
  (⟨Word.bytes 0x148c39935c1a22b16e4500314189ee63c273dd2a48f3f0f3eeff34a8429cd548, 0⟩,
    ⟨Word.bytes 0xc69e4b5c08ca5b875d000c0921cc5387e2eadd5601496d1dbc75d6c59be0b5d0, 1⟩)

/-- The challenges of the short proof. -/
def shortChallenges : Challenges :=
  ⟨0x53322cc8828039655877288b44290c8f575dd1538f8bd876d6568be5b81923,
    0x1e9a7be1a890dbe559c73981a2ec93693e7dc7a1164289100839e93bd40bb59⟩

/-- The verifier input of the short proof. -/
def shortInput : VerifierInput where
  proofParams := [2, 4, 0, 0, 1, 0].map .int
  proof := shortProof.words.map .int
  publicInput := shortSeed
    ++ (PublicInput.products shortInfos shortChallenges.z shortChallenges.alpha).map .int
  z := .int shortChallenges.z
  alpha := .int shortChallenges.alpha
  facts := shortFacts
  tasks := [.int 0]
  layout := none

lemma sortedPages_shortFacts : shortFacts.sortedPages = .ok shortInfos := by
  have hregular : Entry.hashIntegers [1, 5, 2, 6] =
      .ok 0xdea788dc851b5cf90e638c082cc2a3e598af63cb656c31a4e4e47d511d7aae0d :=
    Entry.hash_eq_ok (by decide +kernel)
  have hcontinuous : Entry.hashIntegers [7, 0, 8] =
      .ok 0x31f94f6453b447f311d84e7365473e40e013bf965521cf957be79743dcc5ca91 :=
    Entry.hash_eq_ok (by decide +kernel)
  exact PageFacts.sortedPages_eq_ok.mpr ⟨[_], [_],
    .cons (PageFacts.regularInfo_eq_ok.mpr ⟨_, _, hregular, rfl, rfl⟩) .nil,
    .cons (PageFacts.continuousInfo_eq_ok.mpr ⟨_, _, hcontinuous, rfl, rfl⟩) .nil, rfl⟩

lemma groundwork_shortProof : groundwork shortProof {} = .ok (shortFacts, shortSeed) := by
  refine groundwork_eq_ok.mpr ⟨rfl, ?_⟩
  rw [PublicInput.outcome_seed, sortedPages_shortFacts]
  rfl

lemma hash_shortSeed : Entry.hash shortSeed = .ok shortHash :=
  Entry.hash_eq_ok (by decide +kernel)

/-- The challenges of the short proof are those of a replay. -/
lemma replay_shortProof :
    (replay shortSeed shortProof.words (.int 128)).outcome = .ok shortChallenges := by
  have hwords : shortProof.words =
      [((0x101010101010101010101010101010101010101010101010101010101010101 : ℕ) : ℤ)] := by
    decide +kernel
  have hmix : Channel.mix ⟨Word.bytes shortHash, 0⟩
      (0x101010101010101010101010101010101010101010101010101010101010101 : ℕ) =
        .ok shortChannels.1 := by
    rw [Channel.mix_eq _ (by decide +kernel), Keccak.digest_eq]
    exact congrArg Except.ok (by decide +kernel)
  have hnext : shortChannels.1.advance = .ok shortChannels.2 := by
    refine (Channel.advance_eq _ 0 (by decide +kernel)).trans ?_
    rw [Keccak.digest_eq]
    exact congrArg Except.ok (by decide +kernel)
  have hlast := Channel.advance_eq shortChannels.2.digest 1 (by decide +kernel)
  have hvalues : (⟨Field.ofMontgomery shortChannels.1.candidate,
      Field.ofMontgomery shortChannels.2.candidate⟩ : Challenges) = shortChallenges := by
    decide +kernel
  rw [hwords, ← hvalues]
  exact replay_of_acceptable _ (Channel.ofPublicInput_eq hash_shortSeed) hmix
    (by decide +kernel) hnext (by decide +kernel) hlast

lemma completion_shortProof :
    completion shortProof none {} shortFacts shortSeed shortChallenges = .ok shortInput := by
  have hinput : PublicInput.withProducts shortSeed shortFacts shortChallenges.z
      shortChallenges.alpha = .ok shortInput.publicInput :=
    PublicInput.withProducts_eq_ok.mpr ⟨by decide +kernel, by decide +kernel, shortInfos,
      sortedPages_shortFacts, rfl⟩
  simp only [completion, hash_shortSeed, hinput]
  rfl

lemma prepare_shortProof : (prepare shortProof none {}).outcome = .ok shortInput :=
  (prepare_eq_ok rfl).mpr ⟨shortFacts, shortSeed, none, shortChallenges, groundwork_shortProof, rfl,
    replay_shortProof, by simp, completion_shortProof⟩

/-- The short proof with a line for each of two interaction elements. -/
def loggingProof (z alpha : ℕ) : AnnotatedProof :=
  let line (position value : ℕ) : String :=
    "V->P: /cpu air/STARK/Interaction: Interaction element #" ++ toString position
      ++ ": Field Element(" ++ Text.hexLiteral value ++ ")"
  { shortProof with annotations := [line 0 z, line 1 alpha] }

/-- The short proof with its own challenges logged, with an element beyond the field, and with
elements that are not its challenges. -/
theorem loggingProof_ignores_annotations :
    (prepare (loggingProof shortChallenges.z.toNat shortChallenges.alpha.toNat) none {}).outcome =
      .ok shortInput ∧
    (∃ f, (prepare (loggingProof Field.prime 0) none {}).outcome = .error f ∧
      f.kind = .malformedProof ∧ f.field? = some "annotations") ∧
    ∃ f, (prepare (loggingProof 1 2) none {}).outcome = .error f ∧ f.kind = .challengeMismatch := by
  have hown : Transcript.elements
      (loggingProof shortChallenges.z.toNat shortChallenges.alpha.toNat).annotations =
        [shortChallenges.z.toNat, shortChallenges.alpha.toNat] := by decide +kernel
  have hlarge : Transcript.elements (loggingProof Field.prime 0).annotations =
      [Field.prime, 0] := by decide +kernel
  have hother : Transcript.elements (loggingProof 1 2).annotations = [1, 2] := by decide +kernel
  have hrun (z alpha : ℕ) :=
    (verified_run_ignores_annotations (loggingProof z alpha) none {} rfl).2.1 shortInput
      prepare_shortProof
  refine ⟨(hrun _ _).1 ?_, (hrun _ _).2.1 ?_, (hrun _ _).2.2 ?_ ?_⟩
  · rw [hown]
    rintro z alpha rest h
    cases h
    exact ⟨rfl, rfl⟩
  · rw [hlarge]
    exact ⟨_, _, _, rfl, .inl le_rfl⟩
  · rw [hother]
    intro h
    obtain ⟨hz, -⟩ := h 1 2 [] rfl
    rw [shortInput, Json.int.injEq] at hz
    revert hz
    decide +kernel
  · rw [hother]
    rintro ⟨z, alpha, rest, h, hlarge⟩
    cases h
    revert hlarge
    decide +kernel

end StarkCalldata
