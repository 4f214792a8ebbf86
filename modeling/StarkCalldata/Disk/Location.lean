/-
Paths, and the locations they spell.

A location is reached from the working directory. The names `..` at its front lead to the
directories above; the root of all files is a name of its own at the front.

* `Location.follow`: a location one name further;
* `Location.isAbove`: the locations that hold the working directory, and itself;
* `Location.segments`: the names between the separators of a path;
* `Location.names`: where a path starts, and its names;
* `Location.checkPath`: what no path may be, whatever stands on the disk;
* `Location.parent`: the directory that a path puts its last name into, read off the names alone.
-/
import StarkCalldata.Fault

namespace StarkCalldata

/-- The names that lead to a file or directory. -/
abbrev Location := List String

namespace Location

/-- The location of the root of all files. -/
def top : Location := ["/"]

/-- The working directory and the directories above it. -/
def isAbove (location : Location) : Bool := location.all (· == "..")

/-- Whether a location lies in the working directory. -/
def isInside (location : Location) : Bool :=
  match location with
  | [] => true
  | first :: _ => first != ".." && first != "/"

/-- The location one name further. The present directory stays, the directory above drops a name,
and nothing is above the root. -/
def follow (location : Location) (name : String) : Location :=
  if name = "" ∨ name = "." then location
  else if name = ".." then
    if location.isAbove then location ++ [".."]
    else if location = top then top
    else location.dropLast
  else location ++ [name]

/-- The number of bytes that a name may have. -/
def longestName : Nat := 255

/-- The number of bytes that a path may have. -/
def longestPath : Nat := 4095

/-- Whether a name is short enough to be a name of a file. -/
def fits (name : String) : Bool := name.utf8ByteSize ≤ longestName

/-- The names between the separators of a path, the empty ones included. -/
def segments (path : String) : List String := (path.toList.splitOn '/').map String.ofList

/-- Where a path starts, and its names, the empty ones included. -/
def names (path : String) : Location × List String :=
  match segments path with
  | "" :: rest@(_ :: _) => (top, rest)
  | found => ([], found)

/-- The directory that a path puts its last name into, read off the names alone. -/
def parent (path : String) : Location :=
  let (start, found) := names path
  follow (found.foldl follow start) ".."

/-- Whether a text holds the character that ends texts for the system. -/
def holdsEnd (text : String) : Bool := text.toList.contains '\x00'

/-- A path must not hold the character that ends texts, must not be empty, and must not be too
long. -/
def checkPath (path : String) : Except Fault Unit :=
  if holdsEnd path then .error .endWithinPath
  else if path = "" then .error (.notFound path)
  else if path.utf8ByteSize > longestPath then .error (.nameTooLong path)
  else .ok ()

end Location

end StarkCalldata
