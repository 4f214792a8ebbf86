/-
Values shown in messages.

Strings stand in quotation marks, null, the truth values and numbers have their own spellings, and
arrays and objects are written out in order.

* `display`: a value within a message;
* `displayPlain`: the same, but a string is shown without its marks;
* `integers`: the integers that are shown with a value.
-/
import StarkCalldata.Binary64.Shortest
import StarkCalldata.Json.Basic
import StarkCalldata.Text.Quoted

namespace StarkCalldata.Json

open Text

mutual

/-- A value within a message. -/
def display : Json → String
  | .null => "None"
  | .bool b => if b then "True" else "False"
  | .int n => toString n
  | .float x => x.text
  | .str s => quoted s
  | .arr items => "[" ++ displayItems items ++ "]"
  | .obj fields => "\x7b" ++ displayFields fields ++ "\x7d"

/-- The items of an array, separated by commas. -/
def displayItems : List Json → String
  | [] => ""
  | [j] => display j
  | j :: rest => display j ++ ", " ++ displayItems rest

/-- The fields of an object, separated by commas. -/
def displayFields : List (String × Json) → String
  | [] => ""
  | [(name, j)] => quoted name ++ ": " ++ display j
  | (name, j) :: rest => quoted name ++ ": " ++ display j ++ ", " ++ displayFields rest

end

/-- A value as running text: a string stands without its marks. -/
def displayPlain : Json → String
  | .str s => s
  | j => display j

mutual

/-- The integers that are shown with a value. -/
def integers : Json → List Int
  | .int n => [n]
  | .arr items => integersOfItems items
  | .obj fields => integersOfFields fields
  | _ => []

/-- The integers that are shown with the items of an array. -/
def integersOfItems : List Json → List Int
  | [] => []
  | j :: rest => integers j ++ integersOfItems rest

/-- The integers that are shown with the fields of an object. -/
def integersOfFields : List (String × Json) → List Int
  | [] => []
  | (_, j) :: rest => integers j ++ integersOfFields rest

end

end StarkCalldata.Json
