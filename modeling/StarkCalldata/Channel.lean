/-
The channel of the verifier: the random numbers it draws from what it has read.

The state is a digest of 32 bytes and a counter. Reading a word of the proof replaces the digest and
resets the counter; drawing hashes digest and counter again and again, rejects digests that would
favour some field elements, and takes the first acceptable one out of its Montgomery form.

* `Channel.ofDigest`, `Channel.ofPublicInput`: the state at the start;
* `Channel.mix`, `Channel.advance`: one word is read, one hash is taken; a fault leaves the state as
  it was;
* `Channel.seek`: hashes are taken until a digest is acceptable;
* `Channel.draw`, `Channel.drawMany`: field elements, with the state that is left behind, also by a
  fault;
* `Channel.Command`, `Channel.obey`: all of these as steps of a longer run.
-/
import StarkCalldata.Entry
import StarkCalldata.Field

namespace StarkCalldata

/-- The state of the verifier's source of random numbers. -/
structure Channel where
  /-- The present digest. -/
  digest : List UInt8
  /-- The number hashed next to the digest. -/
  counter : Int
  deriving Repr, DecidableEq

namespace Channel

/-- The channel with a given digest and counter. -/
def ofDigest (digest : List UInt8) (counter : Int) : Except Fault Channel :=
  if digest.length = Word.size then .ok ⟨digest, counter⟩
  else .error (.digestLength digest.length)

/-- The channel at the start of a verification: its digest is the hash of the public input. -/
def ofPublicInput (publicInput : List Entry) : Except Fault Channel := do
  let hash ← Entry.hash publicInput
  ofDigest (Word.bytes hash) 0

/-- The digest as a number. -/
def candidate (c : Channel) : Nat := Word.ofBytes c.digest

/-- A digest is acceptable below the greatest multiple of the prime. -/
def Acceptable (c : Channel) : Prop := c.candidate < Field.drawBound

instance (c : Channel) : Decidable c.Acceptable :=
  inferInstanceAs (Decidable (c.candidate < Field.drawBound))

/-- The channel after a word of the proof has been read: the digest, increased by one as a word, is
hashed with it. -/
def mix (c : Channel) (word : Int) : Except Fault Channel := do
  let bytes ← Word.encode word
  return ⟨Keccak.digest (Word.bytes ((c.candidate + 1) % Word.limit) ++ bytes), 0⟩

/-- The channel after one more hash: the digest is hashed with the counter. -/
def advance (c : Channel) : Except Fault Channel := do
  let bytes ← Word.encode c.counter
  return ⟨Keccak.digest (c.digest ++ bytes), c.counter + 1⟩

/-! ### Drawing -/

/-- The number of rejections that a value allows. Without an upper end there are as many as the
counter can count. -/
def attempts : Json → Except Fault Nat
  | .int n => .ok n.toNat
  | .bool b => .ok (if b then 1 else 0)
  | .float (.infinite true) => .ok 0
  | .float x =>
      match x.ceil? with
      | some n => .ok n.toNat
      | none => .ok (Word.limit + 1)
  | _ => .error .wrongType

/-- The fault of a draw that has used up its retries. -/
def exhausted (retries : Json) : Fault :=
  match retries with
  | .int n => Fault.quoting [n] (.drawExhausted retries)
  | _ => .drawExhausted retries

/-- Hashes are taken until the digest is acceptable, at most as many as allowed. -/
def seek (fault : Fault) : Nat → Channel → Except Fault Unit × Channel
  | 0, c => if c.Acceptable then (.ok (), c) else (.error fault, c)
  | n + 1, c =>
      if c.Acceptable then (.ok (), c)
      else
        match c.advance with
        | .ok next => seek fault n next
        | .error e => (.error e, c)

/-- The element of an acceptable digest; one hash is taken after it. -/
def accept (c : Channel) : Except Fault Nat × Channel :=
  match c.advance with
  | .ok next => (.ok (Field.ofMontgomery c.candidate), next)
  | .error e => (.error e, c)

/-- One field element. What the number of retries stands for matters only once a digest is
rejected. -/
def draw (c : Channel) (retries : Json) : Except Fault Nat × Channel :=
  if c.Acceptable then c.accept
  else
    match attempts retries with
    | .error e => (.error e, c)
    | .ok n =>
        match seek (exhausted retries) n c with
        | (.ok (), found) => found.accept
        | (.error e, last) => (.error e, last)

/-- Several field elements in a row; a fault ends the row. -/
def drawMany (retries : Json) : Nat → Channel → Except Fault (List Nat) × Channel
  | 0, c => (.ok [], c)
  | n + 1, c =>
      match c.draw retries with
      | (.error e, last) => (.error e, last)
      | (.ok element, next) =>
          match drawMany retries n next with
          | (.ok others, last) => (.ok (element :: others), last)
          | (.error e, last) => (.error e, last)

/-! ### Runs of a channel -/

/-- A step of a run. -/
inductive Command
  | mix (word : Int)
  | advance
  | draw (retries : Json)
  | drawMany (count : Int) (retries : Json)

/-- What a step gives back. -/
inductive Reply
  | nothing
  | element (value : Nat)
  | elements (values : List Nat)
  deriving Repr, DecidableEq

/-- The reply to a step, and the state after it. -/
def obey (c : Channel) : Command → Except Fault Reply × Channel
  | .mix word =>
      match c.mix word with
      | .ok next => (.ok .nothing, next)
      | .error e => (.error e, c)
  | .advance =>
      match c.advance with
      | .ok next => (.ok .nothing, next)
      | .error e => (.error e, c)
  | .draw retries =>
      match c.draw retries with
      | (.ok value, next) => (.ok (.element value), next)
      | (.error e, last) => (.error e, last)
  | .drawMany count retries =>
      match drawMany retries count.toNat c with
      | (.ok values, next) => (.ok (.elements values), next)
      | (.error e, last) => (.error e, last)

/-- The replies to the steps of a run, each with the state after it; a fault does not end the run. -/
def obeyAll (c : Channel) : List Command → List (Except Fault Reply × Channel)
  | [] => []
  | command :: rest =>
      let answer := c.obey command
      answer :: answer.2.obeyAll rest

end Channel

end StarkCalldata
