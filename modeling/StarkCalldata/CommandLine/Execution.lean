/-
What the program does with its arguments.

* `Report`: what a run leaves behind: its output, the notes it reports, the disk, and how it ended;
* `Action.perform`: an action, its output and its effect on the disk;
* `execute`: the whole program. A failure that is about the given proof and options is reported and
  ends the run with status 1; any other one breaks it off.
-/
import StarkCalldata.CommandLine.Command
import StarkCalldata.Fri
import StarkCalldata.Preparation

namespace StarkCalldata.CommandLine

/-- How a run of the program ends. -/
inductive Ending
  /-- The arguments are no command; the status tells whether the usage was asked for. -/
  | usage (status : Nat)
  | status (code : Nat)
  /-- The run breaks off. -/
  | aborted (fault : Fault)
  deriving Repr

/-- What a run of the program leaves behind. -/
structure Report where
  output : String
  notes : List Note
  disk : Disk
  ending : Ending
  deriving Repr

/-- The lines of the log. -/
def Report.lines (r : Report) : List String := r.notes.map (Note.lineWith Source.fullLabel)

/-- The configuration of a run of `prepare`. -/
def configOf (disk : Disk) (path : Option String) (trust : Bool) (limits : NestingLimits := {}) :
    Except Fault Config := do
  let config ← match path with
    | some path => Config.load disk path limits
    | none => pure {}
  return if trust then { config with verifyChallenges := .bool false } else config

/-- The notes about the lengths of a verifier input. -/
def lengthNotes (v : VerifierInput) : List Note :=
  [.vectorLength "Proof params" v.proofParams.length, .vectorLength "Proof" v.proof.length,
   .vectorLength "Public input" v.publicInput.length]

/-- The trace length, given or read from a file. A row of no values is neither a number nor a
path. -/
def traceLength (disk : Disk) (limits : NestingLimits) (steps : Option (Given Int))
    (publicInput : Option (Given String)) : Run Int :=
  match steps, publicInput with
  | some (.value n), _ => return n
  | none, some (.value path) => do
      let n ← (disk.readJson limits.publicInput path).bind Fri.traceLength
      Run.note (.stepsRead path n)
      return n
  | none, none => Run.fail .traceLengthNotGiven
  | _, _ => Run.fail .wrongType

/-- The degree bound that goes with a trace length. A row of no values is no number; a trace length
that is not positive is found before it. -/
def degreeBound (n : Int) : Given Int → Except Fault Int
  | .value bound => .ok bound
  | .emptyRow =>
      if n ≤ 0 then .error (Fault.quoting [n] (.notPositiveSteps n none)) else .error .wrongType

/-- The folding steps for a trace length, as the line that is printed. -/
def friLine (disk : Disk) (limits : NestingLimits) (steps : Option (Given Int))
    (publicInput : Option (Given String)) (given : Given Int) : Run String := do
  let n ← traceLength disk limits steps publicInput
  let bound ← degreeBound n given
  let found ← Fri.steps n bound
  let degree ← Fri.degree n bound
  Run.note (.degreeFound n bound degree)
  return String.ofList (Json.arr (found.map .int)).compact ++ "\n"

/-- An action: what it prints, and the disk after it. -/
def Action.perform (disk : Disk) (limits : NestingLimits) : Action → Run String × Disk
  | .prepare proof output topologies config trust =>
      match configOf disk config trust limits with
      | .error fault => (Run.fail fault, disk)
      | .ok config =>
          let (run, left) := prepareFile disk proof output topologies config limits
          match run.outcome with
          | .ok v => (⟨run.journal ++ lengthNotes v, .ok ""⟩, left)
          | .error fault => (⟨run.journal, .error fault⟩, left)
  | .friSteps steps publicInput bound => (friLine disk limits steps publicInput bound, disk)

/-- Whether a note is reported; details are left out unless they are asked for. -/
def isReported (verbose : Bool) (n : Note) : Bool := verbose || n.level != .debug

/-- A command, with what it leaves behind. -/
def Command.execute (command : Command) (disk : Disk) (limits : NestingLimits) : Report :=
  let (run, left) := command.action.perform disk limits
  let notes := run.journal.filter (isReported command.verbose)
  match run.outcome with
  | .ok output => ⟨output, notes, left, .status 0⟩
  | .error fault =>
      if fault.kind.isReported then ⟨"", notes ++ [.failed fault.line], left, .status 1⟩
      else ⟨"", notes, left, .aborted fault⟩

/-- The status of arguments that are no command. -/
def Exit.status : Exit → Nat
  | .help => 0
  | .rejected => 2

/-- The whole program. -/
def execute (arguments : List String) (disk : Disk) (limits : NestingLimits := {})
    (c : Conventions := {}) : Report :=
  match Command.ofArguments arguments c with
  | .ok command => command.execute disk limits
  | .error exit => ⟨"", [], disk, .usage exit.status⟩

end StarkCalldata.CommandLine
