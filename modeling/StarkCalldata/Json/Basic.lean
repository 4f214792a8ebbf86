/-
JSON values.

A number is an integer of any size or a floating point number, as its literal was written. The
fields of an object keep their order, and no name occurs twice.

* `Json.typeName`: the name messages give to the kind of a value;
* `Json.get?`: the value of a field;
* `Json.setField`, `Json.ofFields`: fields in the order of their first mention, each with the value
  of its last one;
* `Json.isTruthy`: whether a value counts as yes where a yes or no is asked for;
* `Json.exceeds?`: whether an integer is greater than a number.
-/
import StarkCalldata.Binary64.Basic

namespace StarkCalldata

/-- A JSON value. -/
inductive Json
  | null
  | bool (value : Bool)
  | int (value : Int)
  | float (value : Binary64)
  | str (value : String)
  | arr (items : List Json)
  | obj (fields : List (String × Json))
  deriving Repr, BEq

namespace Json

instance : Inhabited Json := ⟨.null⟩

/-- The name of the kind of a value. -/
def typeName : Json → String
  | .null => "NoneType"
  | .bool _ => "bool"
  | .int _ => "int"
  | .float _ => "float"
  | .str _ => "str"
  | .arr _ => "list"
  | .obj _ => "dict"

/-- The value under a name in a list of fields. -/
def field? (fields : List (String × Json)) (name : String) : Option Json := fields.lookup name

/-- The value of a field of an object; nothing for other values and absent fields. -/
def get? : Json → String → Option Json
  | .obj fields, name => field? fields name
  | _, _ => none

/-- The fields with one of them set: in place if its name is there, otherwise at the end. -/
def setField (name : String) (value : Json) : List (String × Json) → List (String × Json)
  | [] => [(name, value)]
  | (n, v) :: rest =>
      if n = name then (n, value) :: rest else (n, v) :: setField name value rest

/-- The fields of an object that are mentioned in a row. -/
def ofFields (mentions : List (String × Json)) : List (String × Json) :=
  mentions.foldl (fun fields m => setField m.1 m.2 fields) []

/-- Whether a value counts as yes: everything does but null, false, zero and what is empty. -/
def isTruthy : Json → Bool
  | .null => false
  | .bool b => b
  | .int n => n ≠ 0
  | .float x => !x.isZero
  | .str s => s ≠ ""
  | .arr items => !items.isEmpty
  | .obj fields => !fields.isEmpty

/-- Whether an integer is greater than a number; nothing when the value is no number. A truth value
counts as zero or one, and no integer is greater than a number that is none. -/
def exceeds? (n : Int) : Json → Option Bool
  | .int bound => some (n > bound)
  | .bool b => some (n > if b then 1 else 0)
  | .float x => some (x.compareInt n == some .lt)
  | _ => none

end Json

end StarkCalldata
