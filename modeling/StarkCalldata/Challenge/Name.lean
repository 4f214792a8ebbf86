/-
The two challenges of the memory argument, by name.

* `Challenge.Name`: the challenge `z` and the challenge `alpha`;
* `label`: the name in messages;
* `position`: its place in the order in which the verifier draws them.
-/

namespace StarkCalldata.Challenge

/-- One of the two challenges. -/
inductive Name
  | z
  | alpha
  deriving Repr, DecidableEq

/-- The name of a challenge in messages. -/
def Name.label : Name → String
  | .z => "z"
  | .alpha => "alpha"

/-- The place of a challenge in the order in which they are drawn. -/
def Name.position : Name → Nat
  | .z => 0
  | .alpha => 1

end StarkCalldata.Challenge
