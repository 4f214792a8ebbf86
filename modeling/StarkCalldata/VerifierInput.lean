/-
The verifier input: everything the call of the verifier contract takes.

* `VerifierInput`: the vectors, the challenges and the pages;
* `VerifierInput.encode`: the document in which they are handed over, every integer in hexadecimal
  without leading zeros;
* `VerifierInput.text`: the document as the text of a file;
* `VerifierInput.saveUnder`, `VerifierInput.save`: the file, whatever comes in its way, and with
  nothing in its way.
-/
import StarkCalldata.Challenge.Basic
import StarkCalldata.Disk
import StarkCalldata.Json.Writer

namespace StarkCalldata

open Memory

/-- What the call of the verifier takes. -/
structure VerifierInput where
  proofParams : List Entry
  proof : List Entry
  publicInput : List Entry
  z : Entry
  alpha : Entry
  facts : PageFacts
  tasks : List Entry
  /-- The layout of the output of a bootloader run. -/
  layout : Option String
  deriving Repr

namespace VerifierInput

/-- A number from zero to below the prime. -/
def inRange (x : Binary64) : Bool :=
  match x.compareInt 0, x.compareInt Field.prime with
  | some low, some high => low != .lt && high == .lt
  | _, _ => false

/-- A challenge must be a number from zero to below the prime. -/
def checkRange (name : Challenge.Name) : Entry → Except Fault Unit
  | .int n => PublicInput.canonical name n
  | .bool _ => .ok ()
  | .float x => if inRange x then .ok () else .error .hexOfFloat
  | _ => .error .wrongType

/-- An entry as a string of the document. -/
def hexString (e : Entry) : Except Fault Json := do return .str (← e.hex)

/-- A vector as a list of the document; the first entry at fault decides. -/
def hexStrings : List Entry → Except Fault (List Json)
  | [] => .ok []
  | e :: rest => do
      let first ← hexString e
      let others ← hexStrings rest
      return first :: others

/-- A vector as a value of the document. -/
def hexList (entries : List Entry) : Except Fault Json := do return .arr (← hexStrings entries)

/-- A continuous page in the document. -/
def encodePage (p : ContinuousPage) : Except Fault Json := do
  let start ← hexString (.int p.start)
  let values ← hexList (p.values.map .int)
  return .obj [("start_addr", start), ("values", values)]

/-- The continuous pages in the document. -/
def encodePages : List ContinuousPage → Except Fault (List Json)
  | [] => .ok []
  | p :: rest => do
      let first ← encodePage p
      let others ← encodePages rest
      return first :: others

/-- The pages in the form in which they are registered. -/
def encodeFacts (facts : PageFacts) : Except Fault Json := do
  let regular ← match facts.pairs with
    | some pairs => do
        let words ← hexList (pairs.map .int)
        pure (Json.obj [("memory_pairs", words)])
    | none => pure Json.null
  let continuous ← encodePages facts.continuous
  return .obj [("regular_page", regular), ("continuous_pages", .arr continuous)]

/-- The document. -/
def encode (v : VerifierInput) : Except Fault Json := do
  checkRange .z v.z
  checkRange .alpha v.alpha
  let params ← hexList v.proofParams
  let proof ← hexList v.proof
  let input ← hexList v.publicInput
  let z ← hexString v.z
  let alpha ← hexString v.alpha
  let facts ← encodeFacts v.facts
  let tasks ← hexList v.tasks
  let layout := v.layout.toList.map fun name => ("task_output_layout", Json.str name)
  return .obj ([("proof_params", params), ("proof", proof), ("public_input", input), ("z", z),
    ("alpha", alpha), ("memory_page_facts", facts), ("task_metadata", tasks)] ++ layout)

/-- A document as the text of a file. -/
def text (document : Json) : List Char := document.pretty 0 ++ ['\n']

/-- The disk after the document has been written to a path. Nothing is written before the document is
complete. -/
def saveUnder (c : Disk.Circumstances) (v : VerifierInput) (disk : Disk) (path : String) :
    Except Fault Unit × Disk :=
  match v.encode with
  | .ok document => disk.saveUnder c path (Text.Utf8.encode (text document))
  | .error fault => (.error fault, disk)

/-- The disk after the document has been written to a path, with nothing in the way. -/
def save (v : VerifierInput) (disk : Disk) (path : String) : Except Fault Unit × Disk :=
  v.saveUnder disk.standard disk path

end VerifierInput

end StarkCalldata
