/-
Annotated proofs.

* `AnnotatedProof`: the transcript of the prover with the bytes of the proof, the public input and
  the parameters;
* `PublicInput`: the trace, the layout, the memory segments and the public memory;
* `ProofParameters`: the parameters of the proof system;
* `AnnotatedProof.words`: the proof as words;
* `ProofParameters.vector`: the parameters in the order in which the verifier takes them.
-/
import StarkCalldata.Memory.Cell
import StarkCalldata.Word

namespace StarkCalldata

open Memory

/-- The addresses of a memory segment, from `start` to below `stop`. -/
structure Segment where
  start : Int
  stop : Int
  deriving Repr, DecidableEq

/-- Segments by name, in the order of the document. -/
abbrev Segments := List (String × Segment)

/-- The public input of a run. -/
structure PublicInput where
  /-- The number of steps of the trace. -/
  steps : Int
  /-- The bounds of the range check. -/
  rangeMin : Int
  rangeMax : Int
  layout : String
  segments : Segments
  /-- The cells in the order of the prover. -/
  memory : List Cell
  deriving Repr, DecidableEq

/-- The parameters a proof was made with. -/
structure ProofParameters where
  logCosets : Int
  queries : Int
  proofOfWorkBits : Int
  lastLayerDegreeBound : Int
  friSteps : List Int
  /-- How many layers of the commitments are friendly to the verifier, if the proof says so. -/
  friendlyLayers : Option Int
  deriving Repr, DecidableEq

/-- A proof with the transcript of its making. -/
structure AnnotatedProof where
  /-- The lines of the transcript. -/
  annotations : List String
  /-- The bytes of the proof, filled up to whole words. -/
  bytes : List UInt8
  publicInput : PublicInput
  parameters : ProofParameters
  deriving Repr, DecidableEq

/-- The proof as words. -/
def AnnotatedProof.words (proof : AnnotatedProof) : List Int :=
  (Word.split proof.bytes).map Int.ofNat

/-- The number of binary digits of the absolute value of an integer. -/
def bitLength (n : Int) : Nat := if n = 0 then 0 else n.natAbs.log2 + 1

/-- The least power of two that is not below a positive integer, by its exponent. -/
def ceilLog2 (n : Int) : Nat := bitLength (n - 1)

/-- The parameters in the order in which the verifier takes them; the steps come last, with their
number in front. -/
def ProofParameters.vector (p : ProofParameters) : List Int :=
  [p.queries, p.logCosets, p.proofOfWorkBits, ceilLog2 p.lastLayerDegreeBound, p.friSteps.length]
    ++ p.friSteps

end StarkCalldata
