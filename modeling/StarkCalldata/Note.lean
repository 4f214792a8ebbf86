/-
Notes: what a run reports besides its result.

* `Note`: the events worth a line, each with its data;
* `Note.level`, `Note.source`, `Note.wording`: how urgent a note is, which part of the program it
  comes from, and what it says;
* `Note.integers`: the integers that a note quotes;
* `Note.lineWith`: a note as a line of the log.
-/
import StarkCalldata.Fault

namespace StarkCalldata

open Text

/-- How urgent a note is. -/
inductive Level
  | debug
  | info
  | warning
  | error
  deriving Repr, DecidableEq

/-- A level as it stands in front of a line. -/
def Level.label : Level → String
  | .debug => "DEBUG"
  | .info => "INFO"
  | .warning => "WARNING"
  | .error => "ERROR"

/-- The part of the program that a note comes from. -/
inductive Source
  /-- The command line. -/
  | command
  | proof
  | memoryPages
  | publicInput
  | interaction
  | taskMetadata
  | prepare
  /-- The checkpoints between the stages. -/
  | pipeline
  deriving Repr, DecidableEq

/-- The name of a source within the program; the command line speaks for the whole of it. -/
def Source.label : Source → String
  | .command => ""
  | .proof => "proof"
  | .memoryPages => "memory_pages"
  | .publicInput => "public_input"
  | .interaction => "interaction"
  | .taskMetadata => "task_metadata"
  | .prepare => "prepare"
  | .pipeline => "pipeline"

/-- The name of a source with the name of the program in front. -/
def Source.fullLabel (s : Source) : String :=
  if s.label = "" then "verifier_input" else "verifier_input." ++ s.label

/-- An event worth a line. -/
inductive Note
  /-- Segments that every proper run has are missing. -/
  | segmentsMissing (names : List String)
  /-- Addresses of a page that no cell has were filled with zero. -/
  | gapsFilled (page : Int) (count : Int)
  /-- The pages are complete; `regular` is the size of the regular page. -/
  | pagesBuilt (regular : Option Nat) (continuous : Nat)
  | stepsNotPowerOfTwo (steps : Int)
  | segmentsIgnored (names : List String)
  | noProofWords
  | commitmentDiffers (annotated : Nat) (actual : Int)
  | replaySkipped
  | challengesReplayed
  | challengesConfirmed
  | outputLayout (layout : String) (first : Int)
  /-- The output declares another number of tasks than there are topologies. -/
  | topologyMismatch (declared : Int) (supplied : Nat)
  | preparing (path : String)
  | topologiesLoaded (count : Nat) (path : String)
  | written (path : String)
  | proofParsed (bytes annotations : Nat) (layout : String) (steps : Int) (cells pages : Nat)
  | publicInputHash (hash : Nat)
  | challengeKnown (name : Challenge.Name) (value : Int)
  | inputComplete (params proof publicInput tasks : Nat)
  | vectorLength (name : String) (length : Nat)
  | stepsRead (path : String) (steps : Int)
  | degreeFound (steps bound degree : Int)
  | failed (words : String)
  deriving Repr

namespace Note

/-- How urgent a note is. -/
def level : Note → Level
  | .gapsFilled .. | .pagesBuilt .. | .segmentsIgnored .. | .noProofWords => .debug
  | .segmentsMissing .. | .stepsNotPowerOfTwo .. | .commitmentDiffers ..
  | .topologyMismatch .. => .warning
  | .failed .. => .error
  | _ => .info

/-- The part of the program that a note comes from. -/
def source : Note → Source
  | .segmentsMissing .. => .proof
  | .gapsFilled .. | .pagesBuilt .. => .memoryPages
  | .stepsNotPowerOfTwo .. | .segmentsIgnored .. => .publicInput
  | .noProofWords | .commitmentDiffers .. | .replaySkipped | .challengesReplayed
  | .challengesConfirmed => .interaction
  | .outputLayout .. | .topologyMismatch .. => .taskMetadata
  | .preparing .. | .topologiesLoaded .. | .written .. => .prepare
  | .proofParsed .. | .publicInputHash .. | .challengeKnown .. | .inputComplete .. => .pipeline
  | .vectorLength .. | .stepsRead .. | .degreeFound .. | .failed .. => .command

/-- What a note says. -/
def wording : Note → String
  | .segmentsMissing names =>
      "Memory segments " ++ quotedList names ++ " are missing; treating proof as trivial"
  | .gapsFilled page count =>
      "Continuous page " ++ toString page ++ ": filled " ++ toString count
        ++ " missing addresses with zero"
  | .pagesBuilt regular continuous =>
      "Memory pages: regular=" ++ (match regular with | some n => toString n | none => "None")
        ++ ", continuous=" ++ toString continuous
  | .stepsNotPowerOfTwo steps =>
      "n_steps=" ++ toString steps ++ " is not a power of two; using floor(log2)"
  | .segmentsIgnored names =>
      "Segments not part of the public input layout: " ++ quotedList names
  | .noProofWords =>
      "Proof has no words; deriving challenges without a trace commitment"
  | .commitmentDiffers annotated actual =>
      "Annotated trace commitment " ++ hexLiteral annotated ++ " differs from first proof word "
        ++ hexLiteral actual
  | .replaySkipped => "Using interaction elements from annotations (replay skipped)"
  | .challengesReplayed => "No interaction elements in annotations; using replayed values"
  | .challengesConfirmed => "Interaction elements from annotations match the PRNG replay"
  | .outputLayout layout first =>
      "Program output layout: " ++ layout ++ " (first word " ++ hexLiteral first ++ ")"
  | .topologyMismatch declared supplied =>
      "TopologyMismatch: program output declares " ++ toString declared ++ " tasks but "
        ++ toString supplied ++ " fact topologies were supplied; using the fact topologies"
  | .preparing path => "Preparing input from " ++ path
  | .topologiesLoaded count path =>
      "Loaded " ++ toString count ++ " fact topologies from " ++ path
  | .written path => "Verifier input written to " ++ path
  | .proofParsed bytes annotations layout steps cells pages =>
      "Parsed proof: " ++ toString bytes ++ " bytes, " ++ toString annotations
        ++ " annotations, layout=" ++ layout ++ ", n_steps=" ++ toString steps ++ ", "
        ++ toString cells ++ " public memory cells in " ++ toString pages ++ " pages"
  | .publicInputHash hash =>
      "Public input hash: 0x" ++ String.ofList (hexPadded 64 hash)
  | .challengeKnown name value => name.label ++ " = " ++ hexLiteral value
  | .inputComplete params proof publicInput tasks =>
      "Verifier input: proof_params=" ++ toString params ++ ", proof=" ++ toString proof
        ++ ", public_input=" ++ toString publicInput ++ ", task_metadata=" ++ toString tasks
        ++ " words"
  | .vectorLength name length => name ++ " length: " ++ toString length
  | .stepsRead path steps => "Read n_steps from " ++ path ++ ": " ++ toString steps
  | .degreeFound steps bound degree =>
      "n_steps=" ++ toString steps ++ " degree_bound=" ++ toString bound ++ " fri_degree="
        ++ toString degree
  | .failed words => words

/-- The integers that a note quotes in decimal digits and that may be of any size. -/
def integers : Note → List Int
  | .gapsFilled page count => [page, count]
  | .stepsNotPowerOfTwo steps => [steps]
  | .topologyMismatch declared _ => [declared]
  | .proofParsed _ _ _ steps _ _ => [steps]
  | .stepsRead _ steps => [steps]
  | .degreeFound steps bound degree => [steps, bound, degree]
  | _ => []

/-- A note as a line of the log, with the name its source is given. -/
def lineWith (label : Source → String) (n : Note) : String :=
  n.level.label ++ " " ++ label n.source ++ ": " ++ n.wording

end Note

end StarkCalldata
