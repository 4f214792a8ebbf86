/-
Keccak-256, the hash of the verifier contract.

The message is padded with a first byte `0x01` and a last byte `0x80`, cut into blocks of 136 bytes
and absorbed block by block; the digest is the first 32 bytes of the last state.

* `chunks`: a list cut into pieces of one length, the last possibly shorter;
* `pad`: the message with its padding, a whole number of blocks long;
* `digest`: the digest of a message, always `digestSize` bytes (`length_digest`).
-/
import StarkCalldata.Keccak.Permutation

namespace StarkCalldata.Keccak

/-- The number of bytes absorbed at a time. -/
def rate : Nat := 136

/-- The number of bytes of a digest. -/
def digestSize : Nat := 32

/-- The first `k` pieces of `n` elements each. -/
def chunksAux (n : Nat) : Nat → List α → List (List α)
  | 0, _ => []
  | k + 1, xs => xs.take n :: chunksAux n k (xs.drop n)

/-- The list cut into pieces of `n` elements; the last piece holds what is left. -/
def chunks (n : Nat) (xs : List α) : List (List α) :=
  chunksAux n ((xs.length + (n - 1)) / n) xs

/-- The message followed by its padding: `0x01`, zeros and `0x80` up to the end of the block, both
marks in one byte when only one byte is left. -/
def pad (message : List UInt8) : List UInt8 :=
  match rate - message.length % rate with
  | 0 => message
  | 1 => message ++ [0x81]
  | n + 2 => message ++ 0x01 :: List.replicate n 0x00 ++ [0x80]

/-- The number written in a list of bytes, the least significant first. -/
def laneOfBytes (bytes : List UInt8) : UInt64 :=
  bytes.foldr (fun b w => (w <<< 8) ||| b.toUInt64) 0

/-- The eight bytes of a lane, the least significant first. -/
def laneBytes (w : UInt64) : List UInt8 :=
  [w.toUInt8, (w >>> 8).toUInt8, (w >>> 16).toUInt8, (w >>> 24).toUInt8,
   (w >>> 32).toUInt8, (w >>> 40).toUInt8, (w >>> 48).toUInt8, (w >>> 56).toUInt8]

/-- The state with the lanes of one block mixed into its first lanes. -/
def mixBlock (s : Lanes) (block : List UInt8) : Lanes :=
  let lanes := ((chunks 8 block).map laneOfBytes).toArray
  Vector.ofFn fun i => s[i] ^^^ lanes.getD i.val 0

/-- The state after a block has been absorbed. -/
def absorb (s : Lanes) (block : List UInt8) : Lanes := permute (mixBlock s block)

/-- The state after a whole message has been absorbed. -/
def absorbAll (message : List UInt8) : Lanes :=
  (chunks rate (pad message)).foldl absorb (Vector.replicate 25 0)

/-- The first four lanes of a state, as bytes. -/
def squeeze (s : Lanes) : List UInt8 :=
  laneBytes (s.at 0 0) ++ laneBytes (s.at 1 0) ++ laneBytes (s.at 2 0) ++ laneBytes (s.at 3 0)

/-- The Keccak-256 digest of a message. -/
def digest (message : List UInt8) : List UInt8 := squeeze (absorbAll message)

/-- A digest has 32 bytes. -/
@[simp] theorem length_digest (message : List UInt8) : (digest message).length = digestSize := rfl

end StarkCalldata.Keccak
