/-
Annotated proofs from JSON documents.

The parts are checked in a fixed order, and the first defect is reported: the annotations, the bytes
of the proof, the public input and the parameters. Within the public input the trace length and the
layout come first, then the cells, the bounds and the segments.

* `memoryCell`, `segments`, `publicInput`, `parameters`: the parts;
* `AnnotatedProof.ofJson`: the whole proof.
-/
import StarkCalldata.Proof.Basic
import StarkCalldata.Proof.Decoding
import StarkCalldata.Run

namespace StarkCalldata

namespace Parsing

open Decoding Memory

/-- Segments that every proper run has. -/
def requiredSegments : List String := ["program", "execution"]

/-- One cell of public memory. -/
def memoryCell (j : Json) (path : Path) : Except Fault Cell := do
  let page ← unsignedField j path "page"
  let address ← address (← require j path "address") (path.key "address")
  let value ← fieldElement (← require j path "value") (path.key "value")
  return ⟨page, address, value⟩

/-- One segment. -/
def segment (j : Json) (path : Path) : Except Fault Segment := do
  let start ← unsignedField j path "begin_addr"
  let stop ← unsignedField j path "stop_ptr"
  return ⟨start, stop⟩

/-- The segments that the fields of an object describe. -/
def segmentFields (path : Path) : List (String × Json) → Except Fault Segments
  | [] => .ok []
  | (name, j) :: rest => do
      let first ← segment j (path.key name)
      let others ← segmentFields path rest
      return (name, first) :: others

/-- The names of the required segments that are not there. -/
def missingSegments (segments : Segments) : List String :=
  requiredSegments.filter fun name => (segments.lookup name).isNone

/-- All segments. A run without the required ones is noted. -/
def segments (j : Json) (path : Path) : Run Segments :=
  match j with
  | .obj fields => do
      let found ← segmentFields path fields
      let missing := missingSegments found
      if !missing.isEmpty then Run.note (.segmentsMissing missing)
      return found
  | _ => Run.ofExcept (defect path .notAnObject)

/-- The number of steps, which is positive. -/
def steps (j : Json) (path : Path) : Except Fault Int := do
  let n ← unsignedField j path "n_steps"
  if n = 0 then defect (path.key "n_steps") .notPositive else return n

/-- A character of ASCII. -/
def isAscii (c : Char) : Bool := c.toNat < 0x80

/-- The name of the layout, an ASCII text that fits into a word. -/
def layout (j : Json) (path : Path) : Except Fault String := do
  let place := path.key "layout"
  match ← require j path "layout" with
  | .str s =>
      if !s.toList.all isAscii then defect place .notAsciiString
      else if s.toList.length > Word.size then defect place (.longerThan Word.size)
      else return s
  | _ => defect place .notAsciiString

/-- The public memory, which holds at least one cell. -/
def memory (j : Json) (path : Path) : Except Fault (List Cell) := do
  let place := path.key "public_memory"
  match ← require j path "public_memory" with
  | .arr [] => defect place .emptyList
  | .arr cells => items memoryCell place 0 cells
  | _ => defect place .notAList

/-- The public input. -/
def publicInput (j : Json) (path : Path) : Run PublicInput := do
  let n ← steps j path
  let name ← layout j path
  let cells ← memory j path
  let low ← unsignedField j path "rc_min"
  let high ← unsignedField j path "rc_max"
  let found ← segments (← require j path "memory_segments") (path.key "memory_segments")
  return ⟨n, low, high, name, found, cells⟩

/-- The items of a field that must be a list. -/
def listField (j : Json) (path : Path) (name : String) : Except Fault (List Json) := do
  match ← require j path name with
  | .arr found => return found
  | _ => defect (path.key name) .notAList

/-- The degree bound of the last layer, which is positive. -/
def lastLayer (fri : Json) (path : Path) : Except Fault Int := do
  let bound ← unsignedField fri path "last_layer_degree_bound"
  if bound = 0 then defect (path.key "last_layer_degree_bound") .notPositive else return bound

/-- The number of friendly layers; a field without a value counts as absent. -/
def friendlyLayers (j : Json) (path : Path) : Except Fault (Option Int) :=
  let name := "n_verifier_friendly_commitment_layers"
  match j.get? name with
  | none | some .null => .ok none
  | some value => do return some (← unsigned value (path.key name))

/-- The parameters of the proof. -/
def parameters (j : Json) (path : Path) : Except Fault ProofParameters := do
  let stark ← require j path "stark"
  let starkPath := path.key "stark"
  let fri ← require stark starkPath "fri"
  let friPath := starkPath.key "fri"
  let stepItems ← listField fri friPath "fri_step_list"
  let bound ← lastLayer fri friPath
  let layers ← friendlyLayers j path
  let cosets ← unsignedField stark starkPath "log_n_cosets"
  let queries ← unsignedField fri friPath "n_queries"
  let bits ← unsignedField fri friPath "proof_of_work_bits"
  let found ← items unsigned (friPath.key "fri_step_list") 0 stepItems
  return ⟨cosets, queries, bits, bound, found, layers⟩

/-- The text of a string. -/
def string? : Json → Option String
  | .str s => some s
  | _ => none

/-- The annotations, a list of texts. -/
def annotations (j : Json) : Except Fault (List String) := do
  let refused : Except Fault (List String) := defect (Path.root.key "annotations") .notStrings
  match ← require j .root "annotations" with
  | .arr lines =>
      match lines.mapM string? with
      | some texts => return texts
      | none => refused
  | _ => refused

end Parsing

/-- The annotated proof that a document describes. -/
def AnnotatedProof.ofJson (j : Json) : Run AnnotatedProof := do
  let lines ← Parsing.annotations j
  let bytes ← Decoding.proofBytes (← Decoding.require j .root "proof_hex") (.key .root "proof_hex")
  let input ←
    Parsing.publicInput (← Decoding.require j .root "public_input") (.key .root "public_input")
  let params ← Parsing.parameters (← Decoding.require j .root "proof_parameters")
    (.key .root "proof_parameters")
  return ⟨lines, bytes, input, params⟩

end StarkCalldata
