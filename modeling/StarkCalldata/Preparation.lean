/-
From an annotated proof to the verifier input.

The stages are the memory pages, the public input without products, the challenges, the products and
the task metadata.

* `prepare`: the verifier input of a proof;
* `AnnotatedProof.load`, `FactTopology.load`: the documents of files;
* `prepareFileUnder`, `prepareFile`: the verifier input of a file, written to another one, whatever
  comes in its way, and with nothing in its way.
-/
import StarkCalldata.Config
import StarkCalldata.Task.Metadata
import StarkCalldata.VerifierInput

namespace StarkCalldata

open Memory

/-- The verifier input of a proof. -/
def prepare (proof : AnnotatedProof) (topologies : Option (List FactTopology))
    (config : Config) : Run VerifierInput := do
  let input := proof.publicInput
  let facts ← PageFacts.ofCells input.memory
  Run.note (.proofParsed proof.bytes.length proof.annotations.length input.layout input.steps
    input.memory.length facts.count)
  let seed ← PublicInput.seed proof facts config.friendlyLayers
  let challenges ← Challenges.derive proof.annotations seed proof.words
    config.verifyChallenges.isTruthy config.maxChallengeRetries
  let hash ← Entry.hash seed
  Run.note (.publicInputHash hash)
  Run.note (.challengeKnown .z challenges.z)
  Run.note (.challengeKnown .alpha challenges.alpha)
  let publicInput ← PublicInput.withProducts seed facts challenges.z challenges.alpha
  let tasks ←
    TaskMetadata.build input.segments input.memory topologies config.bootloaderThreshold
  return {
    proofParams := proof.parameters.vector.map .int
    proof := proof.words.map .int
    publicInput := publicInput
    z := .int challenges.z
    alpha := .int challenges.alpha
    facts := facts
    tasks := tasks.words.map .int
    layout := tasks.layout.map OutputLayout.label }

/-- The annotated proof of a file. Text that is no JSON is a defect of the proof. -/
def AnnotatedProof.load (disk : Disk) (path : String) (limits : NestingLimits := {}) :
    Run AnnotatedProof :=
  match disk.readJson limits.proof path with
  | .ok j => AnnotatedProof.ofJson j
  | .error .jsonSyntax => Run.fail (.malformedProof path .invalidJson)
  | .error fault => Run.fail fault

/-- The fact topologies of a file. Text that is no JSON is a defect of the input. -/
def FactTopology.load (disk : Disk) (path : String) (limits : NestingLimits := {}) :
    Except Fault (List FactTopology) :=
  match disk.readJson limits.topologies path with
  | .ok j => FactTopology.ofJson j
  | .error .jsonSyntax => .error (.malformedInput path .invalidJson)
  | .error fault => .error fault

/-- The topologies of a file, if one is named. -/
def loadTopologies (disk : Disk) (limits : NestingLimits) :
    Option String → Run (Option (List FactTopology))
  | none => return none
  | some path => do
      let found ← FactTopology.load disk path limits
      Run.note (.topologiesLoaded found.length path)
      return some found

/-- The verifier input of a file. -/
def prepareFrom (disk : Disk) (proofPath : String) (topologiesPath : Option String)
    (config : Config) (limits : NestingLimits := {}) : Run VerifierInput := do
  Run.note (.preparing proofPath)
  let proof ← AnnotatedProof.load disk proofPath limits
  let topologies ← loadTopologies disk limits topologiesPath
  let v ← prepare proof topologies config
  Run.note (.inputComplete v.proofParams.length v.proof.length v.publicInput.length
    v.tasks.length)
  return v

/-- The verifier input of a file, written to another one when it is complete. -/
def prepareFileUnder (c : Disk.Circumstances) (disk : Disk) (proofPath outputPath : String)
    (topologiesPath : Option String) (config : Config) (limits : NestingLimits := {}) :
    Run VerifierInput × Disk :=
  let computed := prepareFrom disk proofPath topologiesPath config limits
  match computed.outcome with
  | .error _ => (computed, disk)
  | .ok v =>
      match v.saveUnder c disk outputPath with
      | (.ok (), saved) => (⟨computed.journal ++ [.written outputPath], .ok v⟩, saved)
      | (.error fault, left) => (⟨computed.journal, .error fault⟩, left)

/-- The verifier input of a file, written to another one, with nothing in the way. -/
def prepareFile (disk : Disk) (proofPath outputPath : String) (topologiesPath : Option String)
    (config : Config) (limits : NestingLimits := {}) : Run VerifierInput × Disk :=
  prepareFileUnder disk.standard disk proofPath outputPath topologiesPath config limits

end StarkCalldata
