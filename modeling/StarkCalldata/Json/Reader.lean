/-
Reading JSON text.

The reader goes from token to token. Its state says what may come next and which arrays and objects
around that place are still open; a complete value is put into the innermost of them.

* `Failure`: why a text is no JSON value: its syntax, an integer too long to be read, or arrays and
  objects nested too deep;
* `Open`: an array or object that is not closed yet;
* `Reader`: what may come next, with everything read so far;
* `Reader.step`: what a token does;
* `parseWithin`: the value of a whole text with a bound on the nesting.
-/
import StarkCalldata.Json.Token

namespace StarkCalldata.Json

/-- Why a text is no JSON value. -/
inductive Failure
  /-- A token stands where it may not, or is none. -/
  | malformed
  /-- An integer has more digits than are read. -/
  | tooLong (digits : Nat)
  /-- More arrays and objects are open at once than are read. -/
  | tooDeep
  deriving Repr, DecidableEq

/-- An array or object that is not closed yet, its contents in reverse order. -/
inductive Open
  | array (items : List Json)
  /-- An object whose field `name` is waiting for its value. -/
  | object (fields : List (String × Json)) (name : String)

/-- What may come next; `outer` holds the open arrays and objects, the innermost one first. -/
inductive Reader
  /-- A value. -/
  | value (outer : List Open)
  /-- The first item of an array, or its end. -/
  | firstItem (outer : List Open)
  /-- The first name of an object, or its end. -/
  | firstName (outer : List Open)
  /-- A further name of an object. -/
  | nextName (outer : List Open) (fields : List (String × Json))
  /-- The colon after a name. -/
  | colon (outer : List Open) (fields : List (String × Json)) (name : String)
  /-- A comma between items, or the end of the array. -/
  | afterItem (outer : List Open) (items : List Json)
  /-- A comma between fields, or the end of the object. -/
  | afterField (outer : List Open) (fields : List (String × Json))
  /-- Nothing more: the text is a value. -/
  | finished (value : Json)

namespace Reader

/-- The state after a complete value. -/
def put (j : Json) : List Open → Reader
  | [] => .finished j
  | .array items :: outer => .afterItem outer (j :: items)
  | .object fields name :: outer => .afterField outer ((name, j) :: fields)

/-- The state after a token at a place where a value is due. At most `depth` arrays and objects may
be open at once. -/
def begin (depth : Nat) (outer : List Open) : Token → Except Failure Reader
  | .scalar j => .ok (put j outer)
  | .text s => .ok (put (.str s) outer)
  | .openBracket => if outer.length < depth then .ok (.firstItem outer) else .error .tooDeep
  | .openBrace => if outer.length < depth then .ok (.firstName outer) else .error .tooDeep
  | .tooLong digits => .error (.tooLong digits)
  | _ => .error .malformed

/-- The state after a token. -/
def step (depth : Nat) : Reader → Token → Except Failure Reader
  | .value outer, t => begin depth outer t
  | .firstItem outer, .closeBracket => .ok (put (.arr []) outer)
  | .firstItem outer, t => begin depth (.array [] :: outer) t
  | .firstName outer, .closeBrace => .ok (put (.obj []) outer)
  | .firstName outer, .text s => .ok (.colon outer [] s)
  | .nextName outer fields, .text s => .ok (.colon outer fields s)
  | .colon outer fields name, .colon => .ok (.value (.object fields name :: outer))
  | .afterItem outer items, .comma => .ok (.value (.array items :: outer))
  | .afterItem outer items, .closeBracket => .ok (put (.arr items.reverse) outer)
  | .afterField outer fields, .comma => .ok (.nextName outer fields)
  | .afterField outer fields, .closeBrace => .ok (put (.obj (ofFields fields.reverse)) outer)
  | _, _ => .error .malformed

/-- The value that a text completes, reading at most `fuel` tokens. -/
def run (depth : Nat) : Nat → Reader → List Char → Except Failure Json
  | 0, _, _ => .error .malformed
  | fuel + 1, state, text =>
      match state, nextToken text with
      | .finished j, (.finish, _) => .ok j
      | _, (t, rest) =>
          match step depth state t with
          | .ok state => run depth fuel state rest
          | .error e => .error e

end Reader

/-- The JSON value of a text in which at most `depth` arrays and objects are open at once. Every
token but the end takes a character, so one token more than characters is enough. -/
def parseWithin (depth : Nat) (text : List Char) : Except Failure Json :=
  Reader.run depth (text.length + 1) (.value []) text

end StarkCalldata.Json
