import StarkCalldata.Preparation
import StarkCalldata.Proofs.Outcome
import StarkCalldata.Proofs.PublicInput.Vector

/-!
The stages of a preparation.

Between the pages and the seed on one side and the products, the tasks and the vectors on the
other stand the challenges, and they are the only point where the annotations of the proof are
read. `outcome_prepare` cuts the preparation at that point:

* `groundwork`: the pages and the seed;
* `completion`: everything after the challenges, as a function of them;
* `completion_eq_ok`: what a completed preparation holds;
* `document`: the preparation with the encoding after it.
-/

namespace StarkCalldata

open Memory

namespace Preparation

/-- The facts about the pages and the first part of the public input. -/
def groundwork (proof : AnnotatedProof) (config : Config) :
    Except Fault (PageFacts × List Entry) := do
  let facts ← (PageFacts.ofCells proof.publicInput.memory).outcome
  let seed ← (PublicInput.seed proof facts config.friendlyLayers).outcome
  return (facts, seed)

/-- The verifier input, once the challenges are known. -/
def completion (proof : AnnotatedProof) (topologies : Option (List FactTopology))
    (config : Config) (facts : PageFacts) (seed : List Entry) (c : Challenges) :
    Except Fault VerifierInput := do
  let _ ← Entry.hash seed
  let publicInput ← PublicInput.withProducts seed facts c.z c.alpha
  let tasks ← (TaskMetadata.build proof.publicInput.segments proof.publicInput.memory topologies
    config.bootloaderThreshold).outcome
  return {
    proofParams := proof.parameters.vector.map .int
    proof := proof.words.map .int
    publicInput := publicInput
    z := .int c.z
    alpha := .int c.alpha
    facts := facts
    tasks := tasks.words.map .int
    layout := tasks.layout.map OutputLayout.label }

variable {proof : AnnotatedProof} {topologies : Option (List FactTopology)} {config : Config}
  {facts : PageFacts} {seed : List Entry} {c : Challenges} {v : VerifierInput}

/-- The preparation, cut at the challenges. -/
theorem outcome_prepare (proof : AnnotatedProof) (topologies : Option (List FactTopology))
    (config : Config) :
    (prepare proof topologies config).outcome =
      (groundwork proof config).bind fun ground =>
        (Challenges.derive proof.annotations ground.2 proof.words
          config.verifyChallenges.isTruthy config.maxChallengeRetries).outcome.bind fun c =>
            completion proof topologies config ground.1 ground.2 c := by
  rw [prepare, groundwork]
  simp only [Run.outcome_bind]
  cases hf : (PageFacts.ofCells proof.publicInput.memory).outcome with
  | error e => rfl
  | ok facts =>
      simp only [Except.bind, bind]
      cases hs : (PublicInput.seed proof facts config.friendlyLayers).outcome with
      | error e => rfl
      | ok seed => rfl

lemma groundwork_eq_ok :
    groundwork proof config = .ok (facts, seed) ↔
      (PageFacts.ofCells proof.publicInput.memory).outcome = .ok facts ∧
        (PublicInput.seed proof facts config.friendlyLayers).outcome = .ok seed := by
  simp only [groundwork, Outcome.bind_eq_ok, Outcome.pure_eq_ok, Prod.mk.injEq]
  constructor
  · rintro ⟨_, hf, _, hs, rfl, rfl⟩
    exact ⟨hf, hs⟩
  · rintro ⟨hf, hs⟩
    exact ⟨facts, hf, seed, hs, rfl, rfl⟩

lemma exists_of_completion (h : completion proof topologies config facts seed c = .ok v) :
    ∃ publicInput tasks, PublicInput.withProducts seed facts c.z c.alpha = .ok publicInput ∧
      (TaskMetadata.build proof.publicInput.segments proof.publicInput.memory topologies
        config.bootloaderThreshold).outcome = .ok tasks ∧
      v = ⟨proof.parameters.vector.map .int, proof.words.map .int, publicInput, .int c.z,
        .int c.alpha, facts, tasks.words.map .int, tasks.layout.map OutputLayout.label⟩ := by
  simp only [completion, Outcome.bind_eq_ok, Outcome.pure_eq_ok] at h
  obtain ⟨_, _, publicInput, hp, tasks, ht, rfl⟩ := h
  exact ⟨publicInput, tasks, hp, ht, rfl⟩

/-- What a completed preparation holds: the challenges are canonical, the products follow the seed,
and the vectors are those of the proof and of the tasks. -/
lemma completion_eq_ok (h : completion proof topologies config facts seed c = .ok v) :
    PublicInput.withProducts seed facts c.z c.alpha = .ok v.publicInput ∧
      v.z = .int c.z ∧ v.alpha = .int c.alpha ∧ v.facts = facts ∧
      v.proof = proof.words.map .int := by
  obtain ⟨publicInput, tasks, hp, -, rfl⟩ := exists_of_completion h
  exact ⟨hp, rfl, rfl, rfl, rfl⟩

end Preparation

/-- The document of a proof: the preparation with the encoding after it. -/
def document (proof : AnnotatedProof) (topologies : Option (List FactTopology)) (config : Config) :
    Except Fault Json :=
  (prepare proof topologies config).outcome.bind VerifierInput.encode

end StarkCalldata
