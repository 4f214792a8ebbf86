/-
The configuration of a run.

The values are kept as they are given; what they stand for is decided where they are used.

* `Config`: the four options with their defaults;
* `Config.ofJson`: the options that an object sets, an unknown name being a defect;
* `Config.load`: the options of a file.
-/
import StarkCalldata.Disk

namespace StarkCalldata

/-- The options of a run. -/
structure Config where
  /-- Whether the challenges of the annotations are checked against a replay. -/
  verifyChallenges : Json := .bool true
  /-- How many digests may be rejected for each challenge. -/
  maxChallengeRetries : Json := .int 128
  /-- A first word of the output above this belongs to a bootloader configuration. -/
  bootloaderThreshold : Json := .int 0x100000000
  /-- The number of friendly layers; null leaves it to the proof. -/
  friendlyLayers : Json := .null
  deriving Repr

namespace Config

/-- The names of the options. -/
def optionNames : List String :=
  ["verify_challenges", "max_challenge_retries", "bootloader_prefix_threshold",
   "n_verifier_friendly_commitment_layers"]

/-- The options that fields set, the others at their defaults. -/
def ofFields (fields : List (String × Json)) : Config :=
  let standard : Config := {}
  let given (name : String) (default : Json) : Json := (Json.field? fields name).getD default
  { verifyChallenges := given "verify_challenges" standard.verifyChallenges
    maxChallengeRetries := given "max_challenge_retries" standard.maxChallengeRetries
    bootloaderThreshold := given "bootloader_prefix_threshold" standard.bootloaderThreshold
    friendlyLayers :=
      given "n_verifier_friendly_commitment_layers" standard.friendlyLayers }

/-- The names of fields that are no options, ascending. -/
def unknownNames (fields : List (String × Json)) : List String :=
  ((fields.map Prod.fst).filter fun name => !optionNames.contains name).mergeSort
    fun a b => decide (a ≤ b)

/-- The options of a document; defects are reported at the path it came from. -/
def ofJson (path : String) (j : Json) : Except Fault Config :=
  match j with
  | .obj fields =>
      let unknown := unknownNames fields
      if unknown.isEmpty then .ok (ofFields fields)
      else .error (.malformedInput path (.unknownKeys unknown))
  | _ => .error (.malformedInput path .configNotAnObject)

/-- The options of a file. -/
def load (disk : Disk) (path : String) (limits : NestingLimits := {}) : Except Fault Config := do
  let j ← disk.readJson limits.config path
  ofJson path j

end Config

end StarkCalldata
