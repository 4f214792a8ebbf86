/-
The files a run reads and writes.

* `Disk`: files and directories by location, seen from the working directory;
* `Disk.walk`, `Disk.locate`: the location that a path leads to, name by name through directories;
* `Disk.read`, `Disk.readText`, `Disk.readJson`: the contents of a file;
* `NestingLimits`: how deep the documents of files may nest, by what they are for;
* `Disk.Circumstances`: what the writer of a file does not decide: the name that is drawn for a
  fresh file, and an interruption;
* `Disk.saveUnder`: a file written as a whole. The contents go into a fresh file of the same
  directory, which then takes the place of the target; when that fails the fresh file is removed;
* `Disk.save`: the same without an interruption.
-/
import StarkCalldata.Disk.Location

namespace StarkCalldata

open Text

namespace Disk

/-- What stands at a location. -/
inductive Node
  | file (bytes : List UInt8)
  | directory
  deriving Repr, DecidableEq

end Disk

/-- How many arrays and objects of a document may be open at once. What is left of the stack decides
this, so it depends on where the document is read, and on the machine. -/
structure NestingLimits where
  proof : Nat := 987
  topologies : Nat := 987
  config : Nat := 988
  publicInput : Nat := 989
  deriving Repr, DecidableEq

/-- Files and directories by location. The working directory and those above it are always there,
and nothing else is known of what lies outside. -/
structure Disk where
  nodes : List (Location × Disk.Node)
  deriving Repr, DecidableEq

namespace Disk

open Location

/-- What stands at a location. -/
def node? (disk : Disk) (location : Location) : Option Node :=
  if location.isAbove ∨ location = top then some .directory else disk.nodes.lookup location

/-- The disk with a node set: in place if the location is taken, otherwise at the end. -/
def put (disk : Disk) (location : Location) (node : Node) : Disk :=
  if disk.nodes.any (·.1 == location) then
    ⟨disk.nodes.map fun m => if m.1 = location then (location, node) else m⟩
  else ⟨disk.nodes ++ [(location, node)]⟩

/-- The disk without the node at a location. -/
def remove (disk : Disk) (location : Location) : Disk :=
  ⟨disk.nodes.filter fun m => m.1 ≠ location⟩

/-! ### Paths -/

/-- The location that names lead to from a location. Every one but the last must be a directory, and
none may be too long. Faults speak of the given path. -/
def walk (disk : Disk) (path : String) (location : Location) : List String → Except Fault Location
  | [] => .ok location
  | name :: rest =>
      match disk.node? location with
      | some .directory =>
          if fits name then walk disk path (follow location name) rest
          else .error (.nameTooLong path)
      | some (.file _) => .error (.notDirectory path)
      | none => .error (.notFound path)

/-- The location that a path leads to. -/
def locate (disk : Disk) (path : String) : Except Fault Location := do
  checkPath path
  let (start, found) := names path
  walk disk path start found

/-! ### Reading -/

/-- The bytes of a file. -/
def read (disk : Disk) (path : String) : Except Fault (List UInt8) := do
  let location ← disk.locate path
  match disk.node? location with
  | some (.file bytes) => return bytes
  | some .directory => .error (.isDirectory path)
  | none => .error (.notFound path)

/-- The text of a file. -/
def readText (disk : Disk) (path : String) : Except Fault (List Char) := do
  let bytes ← disk.read path
  match Utf8.decode bytes with
  | .ok text => return text
  | .error malformation => .error (.undecodable malformation)

/-- The JSON value of a file in which at most `depth` arrays and objects are open at once. -/
def readJson (disk : Disk) (depth : Nat) (path : String) : Except Fault Json := do
  let text ← disk.readText path
  match Json.parseWithin depth text with
  | .ok j => return j
  | .error failure => .error (Fault.ofJson failure)

/-! ### Writing -/

/-- What can come in the way of a file that is written. -/
inductive Interruption
  /-- The fresh file is not made. -/
  | creating (fault : Fault)
  /-- The fresh file is given up when it holds so many bytes. -/
  | filling (written : Nat) (fault : Fault)
  /-- The fresh file does not take the place of the target. -/
  | replacing (fault : Fault)
  deriving Repr

/-- What the writer of a file does not decide. -/
structure Circumstances where
  /-- The characters that are drawn for the name of the fresh file. -/
  drawn : String
  /-- What comes in the way, if anything does. -/
  interruption : Option Interruption
  deriving Repr

/-- The name of a fresh file with some characters drawn. -/
def freshName (drawn : String) : String := ".verifier_input." ++ drawn ++ ".json"

/-- The zeros that may be drawn: eight of them or more. -/
def zeros (i : Nat) : String := String.ofList (List.replicate (8 + i) '0')

/-- The names on the way to the files and directories of the disk. -/
def takenNames (disk : Disk) : List String := disk.nodes.flatMap Prod.fst

/-- As few zeros as make a name that is not taken. -/
def freshDraw (disk : Disk) : String :=
  (((List.range (disk.takenNames.length + 1)).map zeros).find? fun drawn =>
    !disk.takenNames.contains (freshName drawn)).getD ""

/-- Nothing comes in the way, and a name that is not taken is drawn. -/
def standard (disk : Disk) : Circumstances := ⟨disk.freshDraw, none⟩

/-- The location of a file with a given name in the directory that a path names. -/
def freshLocation (disk : Disk) (name path : String) : Except Fault Location := do
  let found := parent path ++ [name]
  if found.any holdsEnd then .error .endWithinPath
  else if (String.intercalate "/" found).utf8ByteSize > longestPath then
    .error (.nameTooLong path)
  else walk disk path [] found

/-- The location of the file that a path names. The path must end in the name of the file, and no
directory may stand there. -/
def target (disk : Disk) (path : String) : Except Fault Location := do
  checkPath path
  let (start, found) := names path
  let spelled := found.filter (· ≠ "")
  let location ← walk disk path start spelled
  match spelled.getLast? with
  | none | some "." | some ".." => .error (.busy path)
  | some _ =>
      if found.getLast? = some "" then .error (.notDirectory path)
      else
        match disk.node? location with
        | some .directory => .error (.isDirectory path)
        | _ => return location

/-- The disk after the file at a location has taken the place that a path names. -/
def rename (disk : Disk) (source : Location) (path : String) : Except Fault Disk := do
  let location ← disk.target path
  match disk.node? source with
  | some node => return (disk.remove source).put location node
  | none => .error (.notFound path)

/-- Where the fresh file is made. -/
def create (c : Circumstances) (disk : Disk) (path : String) : Except Fault Location :=
  match c.interruption with
  | some (.creating fault) => .error fault
  | _ => disk.freshLocation (freshName c.drawn) path

/-- The disk after the fresh file has been filled, and how that ended. -/
def fill (c : Circumstances) (disk : Disk) (fresh : Location) (bytes : List UInt8) :
    Except Fault Unit × Disk :=
  match c.interruption with
  | some (.filling written fault) => (.error fault, disk.put fresh (.file (bytes.take written)))
  | _ => (.ok (), disk.put fresh (.file bytes))

/-- The disk after the fresh file has taken the place that a path names. -/
def replace (c : Circumstances) (disk : Disk) (fresh : Location) (path : String) :
    Except Fault Disk :=
  match c.interruption with
  | some (.replacing fault) => .error fault
  | _ => disk.rename fresh path

/-- The disk after bytes have been written to a path as a whole; after a fault the fresh file is
removed. -/
def saveUnder (c : Circumstances) (disk : Disk) (path : String) (bytes : List UInt8) :
    Except Fault Unit × Disk :=
  match disk.create c path with
  | .error fault => (.error fault, disk)
  | .ok fresh =>
      match (disk.put fresh (.file [])).fill c fresh bytes with
      | (.error fault, filled) => (.error fault, filled.remove fresh)
      | (.ok (), filled) =>
          match filled.replace c fresh path with
          | .error fault => (.error fault, filled.remove fresh)
          | .ok replaced => (.ok (), replaced)

/-- The disk after bytes have been written to a path, with nothing in the way. -/
def save (disk : Disk) (path : String) (bytes : List UInt8) : Except Fault Unit × Disk :=
  disk.saveUnder disk.standard path bytes

end Disk

end StarkCalldata
