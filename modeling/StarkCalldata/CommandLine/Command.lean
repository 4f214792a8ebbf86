/-
The commands of the program.

* `Command`: preparing the verifier input, or computing folding steps;
* `Command.ofArguments`: the command that arguments spell;
* `normalPath`: a path without empty names and names of the present directory.
-/
import StarkCalldata.CommandLine.Grammar
import StarkCalldata.Disk.Location

namespace StarkCalldata.CommandLine

open Text

/-- What the command line asks for. -/
inductive Action
  /-- The verifier input of a proof is written to a file. -/
  | prepare (proof output : String) (topologies config : Option String) (trust : Bool)
  /-- The folding steps for a trace length, given or read from a file, are printed. -/
  | friSteps (steps : Option (Given Int)) (publicInput : Option (Given String))
      (bound : Given Int)
  deriving Repr, DecidableEq

/-- An action, and whether every note is reported. -/
structure Command where
  verbose : Bool
  action : Action
  deriving Repr, DecidableEq

/-- A path without empty names and names of the present directory. -/
def normalPath (path : String) : String :=
  let names := (Location.segments path).filter fun name => name ≠ "" ∧ name ≠ "."
  let start :=
    if path.startsWith "//" && !path.startsWith "///" then "//"
    else if path.startsWith "/" then "/"
    else ""
  let text := start ++ String.intercalate "/" names
  if text = "" then "." else text

/-! ### Options -/

/-- The option that asks for the usage. -/
def helpSwitch : Switch := ⟨.help, ["-h", "--help"], .nothing⟩

/-- The options in front of the command. -/
def mainSwitches : List Switch := [helpSwitch, ⟨.verbose, ["-v", "--verbose"], .nothing⟩]

/-- The options of `prepare`. -/
def prepareSwitches : List Switch :=
  [helpSwitch,
   ⟨.output, ["-o", "--output"], .path⟩,
   ⟨.topologies, ["--fact-topologies"], .path⟩,
   ⟨.config, ["--config"], .path⟩,
   ⟨.trustAnnotations, ["--no-verify-challenges"], .nothing⟩]

/-- The options of `fri-steps`. -/
def friSwitches : List Switch :=
  [helpSwitch,
   ⟨.steps, ["--n-steps"], .integer⟩,
   ⟨.publicInput, ["--public-input"], .path⟩,
   ⟨.degreeBound, ["--degree-bound"], .integer⟩]

/-! ### Commands -/

/-- The path given for an option. -/
def Scan.path? (s : Scan) (key : Key) : Option (Given String) :=
  (s.given? key).map fun given => given.map normalPath

/-- The integer given for an option. -/
def Scan.integer? (s : Scan) (key : Key) : Option (Given Int) :=
  (s.given? key).map fun given => given.map fun text => (decimal? text.toList).getD 0

/-- The path of the output. A row of no values is written as one. -/
def outputPath : Option (Given String) → String
  | none => "input.json"
  | some (.value path) => path
  | some .emptyRow => "[]"

/-- The scan of the arguments of a command, nothing stray among them. -/
def scanCommand (c : Conventions) (switches : List Switch) (room : Nat)
    (arguments : List String) : Except Exit Scan := do
  let pieces ← classifyAll c switches arguments
  let s ← scan c switches room {} pieces
  if s.stray then .error .rejected else return s

/-- The action `prepare`. -/
def prepareAction (c : Conventions) (arguments : List String) : Except Exit Action := do
  let s ← scanCommand c prepareSwitches 1 arguments
  match s.words with
  | [proof] =>
      return .prepare (normalPath proof) (outputPath (s.path? .output))
        ((s.path? .topologies).bind Given.toOption) ((s.path? .config).bind Given.toOption)
        (s.has .trustAnnotations)
  | _ => .error .rejected

/-- The action `fri-steps`. -/
def friAction (c : Conventions) (arguments : List String) : Except Exit Action := do
  let s ← scanCommand c friSwitches 0 arguments
  match s.integer? .degreeBound with
  | some bound => return .friSteps (s.integer? .steps) (s.path? .publicInput) bound
  | none => .error .rejected

/-- The action with a given name. -/
def actionNamed (c : Conventions) (name : String) (arguments : List String) :
    Except Exit Action :=
  if name = "prepare" then prepareAction c arguments
  else if name = "fri-steps" then friAction c arguments
  else .error .rejected

/-- The action after the options in front of it. Something stray among them is wrong, but only when
the action does not ask for the usage. -/
def mainAction (c : Conventions) (s : Scan) : List (String × Piece) → Except Exit Command
  | [] => .error .rejected
  | (name, .word _) :: rest => do
      let action ← actionNamed c name (rest.map Prod.fst)
      if s.stray then .error .rejected else return ⟨s.has .verbose, action⟩
  | (_, .separator) :: _ => .error .rejected
  | (_, .unknown) :: rest => mainAction c { s with stray := true } rest
  | (_, .known switch joins attached) :: rest =>
      match (resolve mainSwitches switch joins attached).bind s.take with
      | .error e => .error e
      | .ok s => mainAction c s rest

/-- The command that arguments spell. -/
def Command.ofArguments (arguments : List String) (c : Conventions := {}) :
    Except Exit Command := do
  let pieces ← classifyAll c mainSwitches arguments
  mainAction c {} (arguments.zip pieces)

end StarkCalldata.CommandLine
