/-
Places in a JSON document.

A path leads from the root through names of fields and indices of items.

* `Path.render`: a path as text, such as `public_input.public_memory[0].page`;
* `Json.at?`: the value at a path;
* `Json.replaceAt`: the document with another value at a path.
-/
import StarkCalldata.Json.Basic

namespace StarkCalldata

/-- A place in a JSON document, seen from the place. -/
inductive Path
  | root
  /-- The field `name` of the object at `parent`. -/
  | key (parent : Path) (name : String)
  /-- The item with index `i` of the array at `parent`. -/
  | index (parent : Path) (i : Nat)
  deriving Repr, DecidableEq

namespace Path

/-- A path as text: names are joined by points, indices stand in brackets. The root is empty. -/
def render : Path → String
  | .root => ""
  | .key .root name => name
  | .key parent name => parent.render ++ "." ++ name
  | .index parent i => parent.render ++ "[" ++ toString i ++ "]"

/-- A path as text; the root is called the document. -/
def place : Path → String
  | .root => "<document>"
  | path => path.render

end Path

namespace Json

/-- The value at a path, if the path leads to one. -/
def at? (document : Json) : Path → Option Json
  | .root => some document
  | .key parent name => (document.at? parent).bind fun j => j.get? name
  | .index parent i =>
      match document.at? parent with
      | some (.arr items) => items[i]?
      | _ => none

/-- The document in which the value at a path is the result of a function on the present one. A
path that leads nowhere changes nothing. -/
def modifyAt (document : Json) (path : Path) (f : Json → Json) : Json :=
  match path with
  | .root => f document
  | .key parent name =>
      document.modifyAt parent fun
        | .obj fields => .obj (fields.map fun m => if m.1 = name then (m.1, f m.2) else m)
        | j => j
  | .index parent i =>
      document.modifyAt parent fun
        | .arr items => .arr (items.modify i f)
        | j => j

/-- The document with another value at a path. -/
def replaceAt (document : Json) (path : Path) (value : Json) : Json :=
  document.modifyAt path fun _ => value

/-- The document without the field that a path leads to. -/
def eraseAt (document : Json) : Path → Json
  | .key parent name =>
      document.modifyAt parent fun
        | .obj fields => .obj (fields.filter fun m => m.1 ≠ name)
        | j => j
  | _ => document

end Json

end StarkCalldata
