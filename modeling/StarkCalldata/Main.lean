/-
The program.

It takes a snapshot of the files that its arguments name, computes what is to be reported and
written, and does that.

* `snapshot`: the files and directories along paths, as a `Disk`;
* `store`: the files that a run has changed;
* `main`: the run itself.
-/
import StarkCalldata.CommandLine.Execution

namespace StarkCalldata.CommandLine

/-- The paths that an action reads or writes. -/
def Action.paths : Action → List String
  | .prepare proof output topologies config _ =>
      [proof, output] ++ topologies.toList ++ config.toList
  | .friSteps _ publicInput _ => (publicInput.bind Given.toOption).toList

/-- The paths that arguments name. -/
def argumentPaths (arguments : List String) : List String :=
  match Command.ofArguments arguments with
  | .ok command => command.action.paths
  | .error _ => []

/-- A location as a path. -/
def pathOf (location : Location) : String :=
  match location with
  | "/" :: rest => "/" ++ String.intercalate "/" rest
  | names => String.intercalate "/" names

/-- The locations on the way to the end of a path, the end included. -/
def locationsOn (path : String) : List Location :=
  let (start, names) := Location.names path
  (names.foldl (fun found name => found ++ [Location.follow (found.getLast?.getD start) name]) [])
    |>.filter fun location => !location.isAbove && location != Location.top

/-- What stands at a location, as far as it can be read. -/
def nodeAt (location : Location) : IO (Option Disk.Node) := do
  try
    let bytes ← IO.FS.readBinFile (pathOf location)
    return some (.file bytes.toList)
  catch
    | .noFileOrDirectory .. => return none
    | _ => return some .directory

/-- The files and directories along paths. -/
def snapshot (paths : List String) : IO Disk := do
  let mut disk : Disk := ⟨[]⟩
  for location in (paths.flatMap locationsOn).eraseDups do
    if let some node ← nodeAt location then
      disk := disk.put location node
  return disk

/-- The files in which one disk differs from an earlier one are written as a whole. -/
def store (before after : Disk) : IO Unit := do
  for (location, node) in after.nodes do
    if before.node? location ≠ some node then
      if let .file bytes := node then
        let fresh := pathOf (location.dropLast ++ [Disk.freshName before.freshDraw])
        IO.FS.writeBinFile fresh ⟨bytes.toArray⟩
        IO.FS.rename fresh (pathOf location)

/-- The usage in short. -/
def usage : String :=
  "usage: [-h] [-v] prepare | fri-steps ..."

end StarkCalldata.CommandLine

open StarkCalldata CommandLine in
/-- Runs the program on its arguments. -/
def main (arguments : List String) : IO UInt32 := do
  let disk ← snapshot (argumentPaths arguments)
  let report := execute arguments disk
  store disk report.disk
  for line in report.lines do
    IO.eprintln line
  IO.print report.output
  match report.ending with
  | .usage status =>
      IO.eprintln usage
      return status.toUInt32
  | .status code => return code.toUInt32
  | .aborted fault =>
      IO.eprintln fault.line
      return 1
