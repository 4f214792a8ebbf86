import StarkCalldata.Proofs.Annotations
import StarkCalldata.Proofs.Challenge.Transcript

/-!
Logged challenges in the place of replayed ones.

The challenges of a verified run come out of a replay. When the transcript logs the same pair, among
whatever other lines, the run may compare it with the replay or take it as it is, and both end in
the same verifier input:

* `Challenges.annotated_of_logsPair`: a logged pair of field elements is read;
* `Challenges.outcome_derive_of_known`: it is what the run uses, without a replay, and with a replay
  that yields it as well;
* `logged_challenges_interchangeable`: the annotations of a verified run may be exchanged for lines
  that log its challenges, whether these are then verified or not.
-/

namespace StarkCalldata

open Memory Preparation Transcript

variable {lines : List String} {seed : List Entry} {words : List ℤ} {retries : Json}
  {proof : AnnotatedProof} {topologies : Option (List FactTopology)} {config : Config}
  {v : VerifierInput} {z alpha : ℕ}

namespace Challenges

variable {c : Challenges}

/-- A logged pair of field elements is read. -/
lemma annotated_of_logsPair (h : LogsPair z alpha lines) (hz : z < Field.prime)
    (halpha : alpha < Field.prime) : annotated lines = .ok (some ⟨z, alpha⟩) :=
  (annotated_of_elements h.elements_eq).1 hz halpha

/-- A pair that is read and that a replay yields is used, verified or not. -/
lemma outcome_derive_of_known (verify : Bool) (hknown : annotated lines = .ok (some c))
    (hreplay : (replay seed words retries).outcome = .ok c) :
    (derive lines seed words verify retries).outcome = .ok c := by
  rw [outcome_derive, hknown]
  cases verify with
  | false => rfl
  | true =>
      have hconfirm : confirm (some c) c = .ok c := confirm_eq_ok.mpr ⟨rfl, by simp⟩
      rw [hreplay]
      exact hconfirm

end Challenges

open Challenges

/-- **Logged, replayed and trusted challenges are interchangeable when they agree.** The challenges
of a verified run are natural numbers. When the annotations of its proof are exchanged for lines
that log this pair among any lines without an element, the run yields the same verifier input,
whatever the option of verification is set to. -/
theorem logged_challenges_interchangeable (proof : AnnotatedProof)
    (topologies : Option (List FactTopology)) (config : Config)
    (hv : config.verifyChallenges.isTruthy = true)
    (h : (prepare proof topologies config).outcome = .ok v) :
    ∃ z alpha : ℕ, v.z = .int z ∧ v.alpha = .int alpha ∧
      ∀ lines, LogsPair z alpha lines → ∀ verify : Json,
        (prepare { proof with annotations := lines } topologies
          { config with verifyChallenges := verify }).outcome = .ok v := by
  obtain ⟨facts, seed, -, c, hground, -, hreplay, -, hcompletion⟩ := (prepare_eq_ok hv).mp h
  obtain ⟨hproducts, hz, halpha, -, -⟩ := completion_eq_ok hcompletion
  obtain ⟨hzc, hac, -⟩ := PublicInput.withProducts_eq_ok.mp hproducts
  obtain ⟨z, hzn⟩ := Int.eq_ofNat_of_zero_le hzc.1
  obtain ⟨alpha, han⟩ := Int.eq_ofNat_of_zero_le hac.1
  have hpair : c = ⟨z, alpha⟩ := by rw [← hzn, ← han]
  refine ⟨z, alpha, hzn ▸ hz, han ▸ halpha, fun lines hlines verify => ?_⟩
  have hknown : annotated lines = .ok (some c) := by
    have hz : z < Field.prime := Int.ofNat_lt.mp (hzn ▸ hzc.2)
    have halpha : alpha < Field.prime := Int.ofNat_lt.mp (han ▸ hac.2)
    rw [hpair]
    exact annotated_of_logsPair hlines hz halpha
  have hderive := outcome_derive_of_known verify.isTruthy hknown hreplay
  -- neither the pages and the seed nor what follows the challenges look at annotations or option
  have hground' : groundwork { proof with annotations := lines }
      { config with verifyChallenges := verify } = .ok (facts, seed) := hground
  rw [outcome_prepare]
  exact Outcome.bind_ok.mpr ⟨_, hground', Outcome.bind_ok.mpr ⟨c, hderive, hcompletion⟩⟩

/-- The transcript of a run of the short proof: its challenges among a commitment to the trace that
is not the one of the proof, an element that breaks off, and an empty line. -/
def shortTranscript : List String :=
  ["P->V[0:32]: /cpu air/STARK/Original/Commit on Trace: Hash(0x5a)",
    elementLine 0 shortChallenges.z.toNat,
    "V->P: /cpu air/STARK/Interaction: Interaction element #0: Field Element(0x5a", "",
    elementLine 1 shortChallenges.alpha.toNat,
    "V->P: /cpu air/STARK/Interaction: Interaction element #: Field Element(0x5a)"]

lemma logsPair_shortTranscript :
    LogsPair shortChallenges.z.toNat shortChallenges.alpha.toNat shortTranscript := by
  refine ⟨[_], [_, _], [_], fun line hline => isSilent_iff.mpr ?_, rfl⟩
  fin_cases hline <;> decide +kernel

/-- With this transcript the short proof is prepared as before, with verification on and off. -/
theorem shortTranscript_interchangeable :
    (prepare { shortProof with annotations := shortTranscript } none {}).outcome =
        .ok shortInput ∧
      (prepare { shortProof with annotations := shortTranscript } none
        { verifyChallenges := .bool false }).outcome = .ok shortInput := by
  obtain ⟨z, alpha, hz, halpha, hrun⟩ :=
    logged_challenges_interchangeable shortProof none {} rfl prepare_shortProof
  have hz' : shortChallenges.z.toNat = z := by
    rw [shortInput, Json.int.injEq] at hz
    rw [hz, Int.toNat_natCast]
  have halpha' : shortChallenges.alpha.toNat = alpha := by
    rw [shortInput, Json.int.injEq] at halpha
    rw [halpha, Int.toNat_natCast]
  have hlines : LogsPair z alpha shortTranscript := by
    rw [← hz', ← halpha']
    exact logsPair_shortTranscript
  exact ⟨hrun _ hlines (.bool true), hrun _ hlines (.bool false)⟩

end StarkCalldata
