/-
The challenges of the memory argument and where they come from.

The verifier draws two field elements right after it has read the commitment to the trace. They are
known in two ways: the annotations of the proof may hold them, and the channel can be replayed from
the public input. Where both are at hand they must agree.

* `Challenges`: the pair `z` and `alpha`;
* `Challenges.annotated`: the pair in the annotations, if it is there;
* `Challenges.replay`: the pair that the channel of the verifier yields;
* `Challenges.checkCommitment`: a note if the annotated commitment is not the first word of the
  proof;
* `Challenges.derive`: the pair to be used.
-/
import StarkCalldata.Challenge.Transcript
import StarkCalldata.Channel
import StarkCalldata.PublicInput.Vector

namespace StarkCalldata

/-- The two challenges of the memory argument. -/
structure Challenges where
  z : Int
  alpha : Int
  deriving Repr, DecidableEq

namespace Challenges

/-- The challenge with a given name. -/
def get (c : Challenges) : Challenge.Name → Int
  | .z => c.z
  | .alpha => c.alpha

/-- The pair of two canonical field elements. -/
def ofValues (z alpha : Int) : Except Fault Challenges := do
  PublicInput.canonical .z z
  PublicInput.canonical .alpha alpha
  return ⟨z, alpha⟩

/-- An annotated value that is a field element. -/
def checkAnnotated (position value : Nat) : Except Fault Unit :=
  if value < Field.prime then .ok ()
  else .error (.malformedProof "annotations" (.challengeTooLarge position value))

/-- The first two interaction elements of the annotations; nothing if there are fewer. -/
def annotated (lines : List String) : Except Fault (Option Challenges) :=
  match Transcript.elements lines with
  | z :: alpha :: _ => do
      checkAnnotated 0 z
      checkAnnotated 1 alpha
      return some (← ofValues z alpha)
  | _ => .ok none

/-- The fault of a replay: running out of retries is a fault of the derived values. -/
def replayFault : Fault → Fault
  | .drawExhausted retries => .replayExhausted retries
  | fault => fault

/-- The pair that the channel yields after it has read the first word of the proof. -/
def replay (seed : List Entry) (proofWords : List Int) (retries : Json) : Run Challenges := do
  let start ← Channel.ofPublicInput seed
  let channel ← match proofWords with
    | word :: _ => Run.ofExcept (start.mix word)
    | [] => do
        Run.note .noProofWords
        pure start
  match channel.drawMany retries 2 with
  | (.ok [z, alpha], _) => ofValues z alpha
  | (.ok _, _) => Run.fail .offsetOutOfRange
  | (.error fault, _) => Run.fail (replayFault fault)

/-- A note if the annotated commitment to the trace is not the first word of the proof. -/
def checkCommitment (lines : List String) (proofWords : List Int) : Run Unit :=
  match Transcript.commitment? lines, proofWords with
  | some annotated, word :: _ =>
      if (annotated : Int) = word then pure () else Run.note (.commitmentDiffers annotated word)
  | _, _ => pure ()

/-- The annotated challenge must be the replayed one. -/
def compare (name : Challenge.Name) (annotated replayed : Challenges) : Except Fault Unit :=
  if annotated.get name = replayed.get name then .ok ()
  else .error (.challengeMismatch name (annotated.get name) (replayed.get name))

/-- The challenges to be used: the annotated ones if they are there, otherwise the replayed ones.
Annotated ones are checked against a replay unless that is not asked for. -/
def derive (lines : List String) (seed : List Entry) (proofWords : List Int) (verify : Bool)
    (retries : Json) : Run Challenges := do
  match ← annotated lines, verify with
  | some known, false => do
      Run.note .replaySkipped
      return known
  | some known, true => do
      checkCommitment lines proofWords
      let replayed ← replay seed proofWords retries
      compare .z known replayed
      compare .alpha known replayed
      Run.note .challengesConfirmed
      return known
  | none, _ => do
      checkCommitment lines proofWords
      let replayed ← replay seed proofWords retries
      Run.note .challengesReplayed
      return replayed

end Challenges

end StarkCalldata
