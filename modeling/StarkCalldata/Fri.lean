/-
The steps in which the verifier folds the trace.

* `Fri.degree`: the rounded logarithm of the trace length over the degree bound, with an offset;
* `Fri.stepsOfDegree`, `Fri.steps`: a zero step, then folds by four, then the remainder;
* `Fri.traceLength`: the trace length that a public input document names.
-/
import StarkCalldata.Binary64.Logarithm
import StarkCalldata.Fault
import StarkCalldata.Json.Path

namespace StarkCalldata.Fri

/-- The number of bits a full step folds. -/
def foldStep : Int := 4

/-- The additional degree of the constraints. -/
def degreeOffset : Int := 4

/-- The degree to be folded: the quotient of trace length and bound is rounded to a floating point
number, its logarithm to an integer. -/
def degree (steps bound : Int) : Except Fault Int :=
  if steps ≤ 0 ∨ bound ≤ 0 then
    .error (Fault.quoting [steps, bound] (.notPositiveSteps steps (some bound)))
  else
    match Binary64.nearest? steps.toNat bound.toNat with
    | none => .error .quotientTooLarge
    | some (0, _) => .error .logarithmOfZero
    | some (m, e) => .ok (Binary64.roundedLog2 m e + degreeOffset)

/-- The steps of a degree. The first layer takes a zero step, and a degree below zero leaves full
steps out. -/
def stepsOfDegree (d : Int) : List Int :=
  let remainder := d % foldStep
  0 :: List.replicate (d / foldStep).toNat foldStep
    ++ if remainder = 0 then [] else [remainder]

/-- The steps for a trace length and a degree bound. -/
def steps (n bound : Int) : Except Fault (List Int) := do
  let d ← degree n bound
  return stepsOfDegree d

/-! ### The trace length of a document -/

/-- The places at which a document may name its trace length, with what stands there. -/
def candidates (j : Json) : List (Path × Option Json) :=
  let memory := Path.root.key "public_memory"
  [(Path.root.key "n_steps", j.get? "n_steps"),
   (Path.root.key "trace_length", j.get? "trace_length"),
   (memory.key "trace_length", (j.get? "public_memory").bind fun m => m.get? "trace_length")]

/-- The first value among places with their values; null counts as no value. -/
def firstValue? : List (Path × Option Json) → Option (Path × Json)
  | [] => none
  | (_, none) :: rest => firstValue? rest
  | (_, some .null) :: rest => firstValue? rest
  | (path, some j) :: _ => some (path, j)

/-- The fault of a value that is no trace length; its words show the value. -/
def notPositive (path : Path) (value : Json) : Except Fault Int :=
  .error (Fault.quoting value.integers (.malformedInput path.render (.notPositiveInteger value)))

/-- The trace length that a public input document names. -/
def traceLength (j : Json) : Except Fault Int :=
  match j with
  | .obj _ =>
      match firstValue? (candidates j) with
      | none => .error (.malformedInput "n_steps" .noTraceLength)
      | some (path, .int n) => if 0 < n then .ok n else notPositive path (.int n)
      | some (path, value) => notPositive path value
  | _ => .error (.malformedInput "public_input" .notAnObject)

end StarkCalldata.Fri
