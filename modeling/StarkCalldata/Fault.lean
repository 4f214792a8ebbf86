/-
Everything that can go wrong, by cause.

* `Defect`: what is wrong with a part of a document that is named by its place;
* `Fault`: the cause of a failure;
* `Fault.kind`: the class a failure belongs to, on which callers branch;
* `Fault.field?`: the place that a failure names;
* `Fault.line`: a failure in words, as the command line reports it;
* `Fault.message?`: the words that belong to a failure itself, nothing for a failure that is only
  known by its kind;
* `Fault.quoting`: a failure whose words quote integers can only be put into words when all of them
  are `Text.Writable`.
-/
import StarkCalldata.Challenge.Name
import StarkCalldata.Json.Display
import StarkCalldata.Json.Reader
import StarkCalldata.Text.Utf8

namespace StarkCalldata

open Text

/-! ### Defects of a document -/

/-- What is wrong at some place of a document. -/
inductive Defect
  | notAnObject
  | missingField
  | notAnInteger (typeName : String)
  | negative (value : Int)
  | addressNotNumeric (given : String)
  | addressTooLarge
  | elementNotHex (given : String)
  | elementTooLarge
  | notHexString
  | oddHexDigits (count : Nat)
  | notHexDigits
  | notPositive
  | notAsciiString
  | longerThan (bytes : Nat)
  | notAList
  | emptyList
  | notStrings
  | invalidJson
  /-- A challenge in the annotations is no field element. -/
  | challengeTooLarge (position value : Nat)
  /-- One address carries two values. -/
  | conflictingValues (first second : Int)
  | notNonNegativeIntegers
  | oddCount
  | noOutputSegment
  | outputNotInMemory (address : Int)
  | emptyOutput
  | noTaskCount (length offset : Nat)
  | taskPastEnd (task : Nat) (offset : Int) (length : Nat)
  | configNotAnObject
  | unknownKeys (names : List String)
  | notPositiveInteger (given : Json)
  | noTraceLength
  deriving Repr

/-- A defect in words. -/
def Defect.wording : Defect → String
  | .notAnObject => "expected a JSON object"
  | .missingField => "missing required field"
  | .notAnInteger typeName => "expected an integer, got " ++ typeName
  | .negative value => "expected a non-negative integer, got " ++ toString value
  | .addressNotNumeric given => "non-numeric address " ++ quoted given
  | .addressTooLarge => "address is not below the Cairo prime"
  | .elementNotHex given => "non-hex field element " ++ quoted given
  | .elementTooLarge => "field element is not reduced modulo the Cairo prime"
  | .notHexString => "expected a hex string"
  | .oddHexDigits count => "odd number of hex digits (" ++ toString count ++ ")"
  | .notHexDigits => "not a hex string"
  | .notPositive => "must be positive"
  | .notAsciiString => "expected an ASCII string"
  | .longerThan bytes => "longer than " ++ toString bytes ++ " bytes"
  | .notAList => "expected a list"
  | .emptyList => "must not be empty"
  | .notStrings => "expected a list of strings"
  | .invalidJson => "invalid JSON: <json error>"
  | .challengeTooLarge position value =>
      "interaction element #" ++ toString position ++ " " ++ hexLiteral value
        ++ " is not below the Cairo prime"
  | .conflictingValues first second =>
      "conflicting values " ++ hexLiteral first ++ " and " ++ hexLiteral second
  | .notNonNegativeIntegers => "expected a list of non-negative integers"
  | .oddCount => "must hold an even number of values"
  | .noOutputSegment => "missing output segment"
  | .outputNotInMemory address =>
      "output address " ++ toString address ++ " is not in public memory"
  | .emptyOutput => "program output is empty"
  | .noTaskCount length offset =>
      "output of length " ++ toString length ++ " has no task count at offset " ++ toString offset
  | .taskPastEnd task offset length =>
      "task " ++ toString task ++ " header at offset " ++ toString offset
        ++ " is past the end of the output (" ++ toString length ++ " words)"
  | .configNotAnObject => "config must be a JSON object"
  | .unknownKeys names => "unknown config keys " ++ quotedList names
  | .notPositiveInteger given => "expected a positive integer, got " ++ given.display
  | .noTraceLength => "could not find n_steps or trace_length in public input"

/-! ### Faults -/

/-- The cause of a failure. -/
inductive Fault
  /-- The annotated proof is malformed at the named place. -/
  | malformedProof (field : String) (defect : Defect)
  /-- Another input is malformed at the named place. -/
  | malformedInput (field : String) (defect : Defect)
  /-- A challenge is no canonical field element. -/
  | notCanonical (name : Challenge.Name) (value : Int)
  /-- A page spreads over more addresses than memory can hold. -/
  | pageTooWide (page span start : Int)
  /-- A negative number was to be written as a word. -/
  | negativeWord (value : Int)
  /-- The replayed transcript found no acceptable digest within its retries. -/
  | replayExhausted (retries : Json)
  /-- The annotated and the replayed challenge differ. -/
  | challengeMismatch (name : Challenge.Name) (annotated replayed : Int)
  /-- The command line names no trace length. -/
  | traceLengthNotGiven
  /-- A channel found no acceptable digest within its retries. -/
  | drawExhausted (retries : Json)
  | digestLength (length : Nat)
  | wordRange (value : Int)
  /-- A trace length or a degree bound is not positive; the bound may be no number at all. -/
  | notPositiveSteps (steps : Int) (bound : Option Int)
  /-- A value that is no integer was to be written as one. -/
  | notAnInteger (typeName : String)
  /-- A value of this kind has no order, or stands for no integer. -/
  | wrongType
  /-- A text stands for no integer. -/
  | noInteger (given : String)
  /-- A numeral is too long to be read, with its number of digits, or too long to be written. -/
  | numeralTooLong (digits : Option Nat)
  | integerOfNan
  | integerOfInfinity
  /-- A number that is no integer was to be quoted in hexadecimal. -/
  | hexOfFloat
  /-- A page without cells has no addresses. -/
  | emptyPage
  | logarithmOfZero
  | quotientTooLarge
  | offsetOutOfRange
  /-- A page was looked up that has no cell. -/
  | unknownPage (page : Int)
  | notAscii
  | undecodable (malformation : Utf8.Malformation)
  | jsonSyntax
  /-- Arrays and objects of a document are nested too deep. -/
  | nestedTooDeep
  | notFound (path : String)
  | isDirectory (path : String)
  | notDirectory (path : String)
  /-- A path, or a name in it, is too long. -/
  | nameTooLong (path : String)
  /-- A path ends in no name that a file could take. -/
  | busy (path : String)
  /-- A path holds the character that ends texts. -/
  | endWithinPath
  deriving Repr

namespace Fault

/-- The class of a failure. -/
inductive Kind
  | malformedProof
  | malformedInput
  | inconsistency
  | challengeMismatch
  | usage
  | value
  | type
  | arithmetic
  | overflow
  | offset
  | textEncoding
  | textDecoding
  | jsonSyntax
  | nesting
  | notFound
  | isDirectory
  | notDirectory
  | system
  deriving Repr, DecidableEq

/-- The class a failure belongs to. -/
def kind : Fault → Kind
  | .malformedProof .. => .malformedProof
  | .malformedInput .. => .malformedInput
  | .notCanonical .. | .pageTooWide .. | .negativeWord .. | .replayExhausted .. => .inconsistency
  | .challengeMismatch .. => .challengeMismatch
  | .traceLengthNotGiven => .usage
  | .drawExhausted .. => .arithmetic
  | .digestLength .. | .wordRange .. | .notPositiveSteps .. => .value
  | .notAnInteger .. | .wrongType => .type
  | .noInteger .. | .numeralTooLong .. | .integerOfNan | .hexOfFloat | .emptyPage
  | .logarithmOfZero | .endWithinPath => .value
  | .integerOfInfinity | .quotientTooLarge => .overflow
  | .offsetOutOfRange | .unknownPage .. => .offset
  | .notAscii => .textEncoding
  | .undecodable .. => .textDecoding
  | .jsonSyntax => .jsonSyntax
  | .nestedTooDeep => .nesting
  | .notFound .. => .notFound
  | .isDirectory .. => .isDirectory
  | .notDirectory .. => .notDirectory
  | .nameTooLong .. | .busy .. => .system

/-- Whether failures of a class are about the given proof and options, so that the command line
reports them and ends; the others break it off. -/
def Kind.isReported : Kind → Bool
  | .type | .arithmetic | .overflow | .offset | .nesting => false
  | _ => true

/-- Whether a failure is one of the codec's own: the input is malformed, or derived values do not
fit together. -/
def Kind.isOwn : Kind → Bool
  | .malformedProof | .malformedInput | .inconsistency | .challengeMismatch | .usage => true
  | _ => false

/-- The place in a document that a failure names. -/
def field? : Fault → Option String
  | .malformedProof field _ | .malformedInput field _ => some field
  | _ => none

/-- The words of a channel that ran out of retries. -/
def exhaustedWording (retries : Json) : String :=
  "PRNG digest stayed above 31 * p after " ++ retries.displayPlain ++ " retries"

/-- The words of a file error: its number, what happened, and to which path. -/
def fileWording (number : Nat) (what path : String) : String :=
  "[Errno " ++ toString number ++ "] " ++ what ++ ": " ++ quoted path

/-- The words that belong to a failure itself. -/
def message? : Fault → Option String
  | .malformedProof field defect | .malformedInput field defect =>
      some (field ++ ": " ++ defect.wording)
  | .notCanonical name value =>
      some (name.label ++ " is not a canonical field element: " ++ hexLiteral value)
  | .pageTooWide page span start =>
      some ("continuous page " ++ toString page ++ " spans " ++ toString span
        ++ " addresses from " ++ toString start ++ ", which does not fit addressable memory")
  | .negativeWord value =>
      some ("cannot encode negative value " ++ toString value ++ " as uint256")
  | .replayExhausted retries | .drawExhausted retries => some (exhaustedWording retries)
  | .challengeMismatch name annotated replayed =>
      some (name.label ++ " (#" ++ toString name.position ++ ") from annotations "
        ++ hexLiteral annotated ++ " != replayed " ++ hexLiteral replayed)
  | .traceLengthNotGiven => some "either --n-steps or --public-input is required"
  | .digestLength length => some ("digest must be 32 bytes, got " ++ toString length)
  | .wordRange value => some ("value does not fit in a uint256 word: " ++ toString value)
  | .notPositiveSteps steps bound =>
      some ("n_steps and degree_bound must be positive, got " ++ toString steps ++ ", "
        ++ (match bound with | some n => toString n | none => "[]"))
  | .notAnInteger typeName => some ("expected int, got " ++ typeName)
  | .notFound _ => some "No such file or directory"
  | .isDirectory _ => some "Is a directory"
  | .notDirectory _ => some "Not a directory"
  | .nameTooLong _ => some "File name too long"
  | .busy _ => some "Device or resource busy"
  | _ => none

/-- A failure in words, as the command line reports it. -/
def line (fault : Fault) : String :=
  match fault with
  | .noInteger given =>
      "invalid literal for int() with base 10: " ++ ((quoted given).take 200).toString
  | .numeralTooLong digits =>
      "Exceeds the limit (" ++ toString digitLimit ++ " digits) for integer string conversion"
        ++ (match digits with
          | some n => ": value has " ++ toString n ++ " digits"
          | none => "")
        ++ "; use sys.set_int_max_str_digits() to increase the limit"
  | .integerOfNan => "cannot convert float NaN to integer"
  | .logarithmOfZero => "math domain error"
  | .undecodable malformation => malformation.wording
  | .jsonSyntax => "<json error>"
  | .nestedTooDeep => "arrays and objects are nested too deep"
  | .notFound path => fileWording 2 "No such file or directory" path
  | .isDirectory path => fileWording 21 "Is a directory" path
  | .notDirectory path => fileWording 20 "Not a directory" path
  | .nameTooLong path => fileWording 36 "File name too long" path
  | .busy path => fileWording 16 "Device or resource busy" path
  | .endWithinPath => "embedded null byte"
  | fault => fault.message?.getD ""

/-- The fault, whose words quote the given integers; the words themselves fail when one of the
integers is too long to be written. -/
def quoting (integers : List Int) (fault : Fault) : Fault :=
  if ∀ n ∈ integers, Writable n then fault else .numeralTooLong none

/-- The fault of a text that is no JSON value. -/
def ofJson : Json.Failure → Fault
  | .malformed => .jsonSyntax
  | .tooLong digits => .numeralTooLong (some digits)
  | .tooDeep => .nestedTooDeep

end Fault

end StarkCalldata
