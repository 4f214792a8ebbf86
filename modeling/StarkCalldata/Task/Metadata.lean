/-
Task metadata: what the verifier must know about the tasks of a bootloader run.

The output of a bootloader is a row of task outputs. It may start with a configuration, whose first
word is then a program hash, far above any number of tasks. Each task begins with the size of its
output, which counts this word too, and the hash of its program.

* `programOutput`: the words of the output segment, read from public memory;
* `OutputLayout`: with or without configuration;
* `TaskMetadata`: the words, and how they were found;
* `TaskMetadata.build`: the metadata of an output with given topologies.
-/
import StarkCalldata.Proof.Basic
import StarkCalldata.Run
import StarkCalldata.Task.Topology

namespace StarkCalldata

open Memory

/-! ### The output of a program -/

/-- The place that defects of the output are reported at. -/
def outputPlace : String := "public_input.memory_segments.output"

/-- A defect of the output. -/
def outputDefect (d : Defect) : Except Fault α := .error (.malformedInput outputPlace d)

/-- The value at an address of public memory; of several cells the last one counts. -/
def lastValue? (memory : List Cell) (address : Int) : Option Int :=
  (memory.reverse.find? fun c => c.address = address).map Cell.value

/-- The values at `count` addresses from `start` on, all of which must be in public memory. -/
def readMemory (memory : List Cell) : Nat → Int → Except Fault (List Int)
  | 0, _ => .ok []
  | count + 1, start =>
      match lastValue? memory start with
      | none =>
          .error (Fault.quoting [start]
            (.malformedInput "public_input.public_memory" (.outputNotInMemory start)))
      | some value => do
          let others ← readMemory memory count (start + 1)
          return value :: others

/-- The words of the output segment. -/
def programOutput (segments : Segments) (memory : List Cell) : Except Fault (List Int) :=
  match segments.lookup "output" with
  | none => outputDefect .noOutputSegment
  | some s => readMemory memory (s.stop - s.start).toNat s.start

/-! ### Layouts of the output -/

/-- How the task count is framed in the output. -/
inductive OutputLayout
  /-- The count of tasks comes first. -/
  | plain
  /-- A program hash and a configuration hash come before the count of tasks. -/
  | bootloaderConfig
  deriving Repr, DecidableEq

namespace OutputLayout

/-- The name of a layout. -/
def label : OutputLayout → String
  | .plain => "plain"
  | .bootloaderConfig => "bootloader_config"

/-- Where the task count stands. -/
def countOffset : OutputLayout → Nat
  | .plain => 0
  | .bootloaderConfig => 2

/-- Where the first task starts. -/
def tasksOffset (layout : OutputLayout) : Nat := layout.countOffset + 1

/-- The layout of an output, from the size of its first word. -/
def detect (output : List Int) (threshold : Json) : Except Fault OutputLayout :=
  match output with
  | [] => outputDefect .emptyOutput
  | first :: _ =>
      match Json.exceeds? first threshold with
      | some true => .ok .bootloaderConfig
      | some false => .ok .plain
      | none => .error .wrongType

end OutputLayout

/-! ### The metadata -/

/-- The words about the tasks, and how they were found. -/
structure TaskMetadata where
  words : List Int
  layout : Option OutputLayout
  /-- The number of tasks that the output declares. -/
  declared : Option Int
  deriving Repr

/-- The word of the output at an offset; an offset below zero counts back from the end. -/
def wordAt (output : List Int) (offset : Int) : Except Fault Int :=
  let place := if offset < 0 then offset + output.length else offset
  if place < 0 then .error .offsetOutOfRange
  else
    match output[place.toNat]? with
    | some word => .ok word
    | none => .error .offsetOutOfRange

namespace TaskMetadata

/-- The metadata of a run without tasks. -/
def noTasks : TaskMetadata := ⟨[0], none, none⟩

/-- The words of the tasks from number `task` on, the first of which starts at `offset`: output
size, program hash, number of tree pairs and tree of each. The size leads to the next task. -/
def taskWords (output : List Int) : List FactTopology → Nat → Int → Except Fault (List Int)
  | [], _, _ => .ok []
  | topology :: rest, task, offset =>
      if offset + 1 ≥ output.length then
        .error (Fault.quoting [offset]
          (.malformedInput outputPlace (.taskPastEnd task offset output.length)))
      else do
        let size ← wordAt output offset
        let program ← wordAt output (offset + 1)
        let others ← taskWords output rest (task + 1) (offset + size)
        return [size, program, (topology.pairCount : Int)] ++ topology.tree ++ others

/-- The metadata of an output. The topologies decide how many tasks there are; another number in
the output is noted. -/
def ofOutput (output : List Int) (topologies : List FactTopology) (threshold : Json) :
    Run TaskMetadata := do
  let layout ← OutputLayout.detect output threshold
  Run.note (.outputLayout layout.label (output.headD 0))
  match output[layout.countOffset]? with
  | none => (outputDefect (.noTaskCount output.length layout.countOffset) : Except Fault _)
  | some declared => do
      if declared ≠ topologies.length then
        Run.note (.topologyMismatch declared topologies.length)
      let words ← taskWords output topologies 0 layout.tasksOffset
      return ⟨(topologies.length : Int) :: words, some layout, some declared⟩

/-- The metadata of a run; without topologies it has no tasks. -/
def build (segments : Segments) (memory : List Cell) (topologies : Option (List FactTopology))
    (threshold : Json) : Run TaskMetadata := do
  match topologies with
  | none => return noTasks
  | some given => do
      let output ← programOutput segments memory
      ofOutput output given threshold

end TaskMetadata

end StarkCalldata
