/-
Arguments of a command line.

An argument is a word, an option, or the separator `--`, after which all are words. A long option
may be shortened as long as it stays the only one with that beginning; its value follows, or is
attached by an equals sign. Short options that take no value may be joined, to each other and to a last one
that takes a value.

* `Conventions`: where readers of arguments differ;
* `Switch`: an option, with its names and what it takes;
* `Given`: what an option is given;
* `Piece`, `classify`: what an argument is within a set of options;
* `Scan`, `scan`: the words and options of a row of arguments.

Only the outcome matters to a caller that gives wrong arguments, so all of those are alike
(`Exit.rejected`).
-/
import StarkCalldata.Text.Numeral

namespace StarkCalldata.CommandLine

open Text

/-- Where readers of arguments differ. Older ones drop a separator that is attached to an option and
read letters after an equals sign as joined options; newer ones keep the separator as a value and
refuse such letters. -/
structure Conventions where
  /-- A separator attached to an option is dropped, and a row of no values is left. -/
  dropsSeparator : Bool := true
  /-- Short options may be joined to one that takes nothing by an equals sign. -/
  joinsAfterEquals : Bool := true
  deriving Repr, DecidableEq

/-- What an option is for. -/
inductive Key
  | help
  | verbose
  | output
  | topologies
  | config
  | trustAnnotations
  | steps
  | publicInput
  | degreeBound
  deriving Repr, DecidableEq

/-- What an option takes. -/
inductive Takes
  | nothing
  | path
  | integer
  deriving Repr, DecidableEq

/-- An option. -/
structure Switch where
  key : Key
  names : List String
  takes : Takes
  deriving Repr

/-- What an option is given: a value, or a row of no values, which a separator attached to the
option may leave behind. -/
inductive Given (α : Type)
  | value (a : α)
  | emptyRow
  deriving Repr, DecidableEq

namespace Given

/-- What the text attached to an option, or following it, gives. -/
def ofText (c : Conventions) (text : String) : Given String :=
  if c.dropsSeparator ∧ text = "--" then .emptyRow else .value text

/-- The value, if there is one. -/
def toOption : Given α → Option α
  | .value a => some a
  | .emptyRow => none

/-- A function applied to the value. -/
def map (f : α → β) : Given α → Given β
  | .value a => .value (f a)
  | .emptyRow => .emptyRow

end Given

/-- How a run ends before it starts. -/
inductive Exit
  /-- The usage was asked for. -/
  | help
  /-- The arguments are wrong. -/
  | rejected
  deriving Repr, DecidableEq

/-- What an argument is. -/
inductive Piece
  | word (text : String)
  | separator
  /-- An option with what is attached to it, and whether further options may be joined to it. -/
  | known (switch : Switch) (joins : Bool) (attached : Option (List Char))
  /-- An option that there is not. -/
  | unknown

/-- The switch with a given name. -/
def named? (switches : List Switch) (name : List Char) : Option Switch :=
  switches.find? fun s => s.names.any fun n => n.toList = name

/-- The switches with a long name that starts in a given way, once for each such name. -/
def startingWith (switches : List Switch) (start : List Char) : List Switch :=
  switches.flatMap fun s => (s.names.filter fun n => start.isPrefixOf n.toList).map fun _ => s

/-- A text before and after its first equals sign. -/
def splitEquals (text : List Char) : List Char × Option (List Char) :=
  match text.span (· ≠ '=') with
  | (before, _ :: after) => (before, some after)
  | (before, []) => (before, none)

/-- A text without the line end it may close with. -/
def dropLineEnd (text : List Char) : List Char :=
  if text.getLast? = some '\n' then text.dropLast else text

/-- A negative number, which is no option: digits, or a fraction. A line end may follow it. -/
def isNegativeNumber (text : List Char) : Bool :=
  match dropLineEnd text with
  | '-' :: digits =>
      match digits.span isDecimalDigit with
      | (whole, []) => !whole.isEmpty
      | (_, '.' :: fraction) => !fraction.isEmpty && fraction.all isDecimalDigit
      | _ => false
  | _ => false

/-- An argument that starts with a dash and is no name of an option. -/
def classifyOther (text : List Char) : Piece :=
  if isNegativeNumber text || text.contains ' ' then .word (String.ofList text) else .unknown

/-- An argument with two dashes: a name of an option or the beginning of one. Several options with
that beginning are wrong. -/
def classifyLong (switches : List Switch) (text : List Char) : Except Exit Piece :=
  let (name, attached) := splitEquals text
  match named? switches name with
  | some s => .ok (.known s false attached)
  | none =>
      match startingWith switches name with
      | [s] => .ok (.known s false attached)
      | [] => .ok (classifyOther text)
      | _ => .error .rejected

/-- An argument with one dash: a short option, with what is attached to it. -/
def classifyShort (c : Conventions) (switches : List Switch) (text : List Char) : Piece :=
  let (name, attached) := splitEquals text
  match named? switches name with
  | some s => .known s c.joinsAfterEquals attached
  | none =>
      match named? switches (text.take 2) with
      | some s => .known s true (some (text.drop 2))
      | none => classifyOther text

/-- What an argument is, unless it is the separator. -/
def classify (c : Conventions) (switches : List Switch) (argument : String) : Except Exit Piece :=
  match argument.toList with
  | '-' :: '-' :: rest => classifyLong switches ('-' :: '-' :: rest)
  | '-' :: letter :: rest => .ok (classifyShort c switches ('-' :: letter :: rest))
  | _ => .ok (.word argument)

/-- What the arguments of a row are; after the first separator all are words. -/
def classifyAll (c : Conventions) (switches : List Switch) :
    List String → Except Exit (List Piece)
  | [] => .ok []
  | argument :: rest =>
      if argument = "--" then .ok (.separator :: rest.map .word)
      else do
        let first ← classify c switches argument
        let others ← classifyAll c switches rest
        return first :: others

/-! ### Scanning -/

/-- The words and options found so far. -/
structure Scan where
  words : List String := []
  /-- Options with what they are given, the last one first. -/
  given : List (Key × Given String) := []
  /-- Whether there was anything that does not belong there. -/
  stray : Bool := false
  deriving Repr

/-- Whether an option was given. -/
def Scan.has (s : Scan) (key : Key) : Bool := (s.given.lookup key).isSome

/-- What was given last for an option. -/
def Scan.given? (s : Scan) (key : Key) : Option (Given String) := s.given.lookup key

/-- Whether what is given suits an option: the value for an integer is a decimal numeral. -/
def Switch.suits (switch : Switch) (given : Given String) : Bool :=
  match switch.takes, given with
  | .integer, .value text => (decimal? text.toList).isSome
  | _, _ => true

/-- The scan with one more option and what it is given. -/
def Scan.add (s : Scan) (switch : Switch) (given : Given String) : Except Exit Scan :=
  if switch.suits given then .ok { s with given := (switch.key, given) :: s.given }
  else .error .rejected

/-- The scan with one more option that takes nothing. Asking for the usage ends everything. -/
def Scan.flag (s : Scan) (switch : Switch) : Except Exit Scan :=
  if switch.key = .help then .error .help else s.add switch .emptyRow

/-- The scan with several options that take nothing. -/
def Scan.flags (s : Scan) : List Switch → Except Exit Scan
  | [] => .ok s
  | switch :: rest => do (← s.flag switch).flags rest

/-- The options that one argument holds. -/
structure Joined where
  /-- Those that take nothing. -/
  flags : List Switch
  /-- The last one, if it takes a value, with what is attached to it. -/
  valued : Option (Switch × Option (List Char))

/-- The options of an argument that holds a single one. -/
def Joined.single (switch : Switch) (attached : Option (List Char)) : Joined :=
  if switch.takes = .nothing then ⟨[switch], none⟩ else ⟨[], some (switch, attached)⟩

/-- The options of an argument with one more in front that takes nothing. -/
def Joined.cons (switch : Switch) (j : Joined) : Joined := { j with flags := switch :: j.flags }

/-- Short options that follow one that takes nothing, letter by letter. What follows the first one
that takes a value is attached to it. -/
def unjoin (switches : List Switch) (switch : Switch) : List Char → Except Exit Joined
  | [] => .error .rejected
  | c :: rest =>
      match named? switches ['-', c] with
      | none => .error .rejected
      | some next =>
          match next.takes, rest with
          | _, [] => .ok ((Joined.single next none).cons switch)
          | .nothing, c' :: rest' => (unjoin switches next (c' :: rest')).map (Joined.cons switch)
          | _, attached => .ok ((Joined.single next (some attached)).cons switch)

/-- The options of an argument. What is attached to an option that takes nothing must be short
options that are joined to it. -/
def resolve (switches : List Switch) (switch : Switch) (joins : Bool)
    (attached : Option (List Char)) : Except Exit Joined :=
  match attached with
  | some text =>
      if switch.takes = .nothing then
        if joins then unjoin switches switch text else .error .rejected
      else .ok (Joined.single switch attached)
  | none => .ok (Joined.single switch none)

/-- The scan with the options of an argument that take nothing. -/
def Scan.take (s : Scan) (j : Joined) : Except Exit Scan := s.flags j.flags

/-- The words and options of a row of pieces, of which at most `room` may be words. A separator may
stand next to the words only. -/
def scan (c : Conventions) (switches : List Switch) (room : Nat) (s : Scan) :
    List Piece → Except Exit Scan
  | [] => .ok s
  | .word w :: .separator :: rest =>
      if s.words.length < room then scan c switches room { s with words := s.words ++ [w] } rest
      else scan c switches room { s with stray := true } rest
  | .word w :: rest =>
      if s.words.length < room then scan c switches room { s with words := s.words ++ [w] } rest
      else scan c switches room { s with stray := true } rest
  | .separator :: rest =>
      if s.words.length < room then scan c switches room s rest
      else scan c switches room { s with stray := true } rest
  | .unknown :: rest => scan c switches room { s with stray := true } rest
  | .known switch joins attached :: rest =>
      match resolve switches switch joins attached with
      | .error e => .error e
      | .ok found =>
          match found.valued, rest with
          | none, rest =>
              match s.take found with
              | .error e => .error e
              | .ok s => scan c switches room s rest
          | some (last, some value), rest =>
              match (s.take found).bind fun s => s.add last (.ofText c (String.ofList value)) with
              | .error e => .error e
              | .ok s => scan c switches room s rest
          | some (last, none), .word value :: rest =>
              match (s.take found).bind fun s => s.add last (.ofText c value) with
              | .error e => .error e
              | .ok s => scan c switches room s rest
          | some (_, none), _ => .error .rejected

end StarkCalldata.CommandLine
