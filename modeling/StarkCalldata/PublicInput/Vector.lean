/-
The public input as a vector of words.

The vector is put together in two steps. The first part seeds the channel from which the challenges
are drawn; the second part, one permutation product for each page, needs the challenges.

* `log2Steps`: the exponent of the greatest power of two within the trace length;
* `layoutNumber`: the name of the layout as a number;
* `segmentWords`: the addresses of the known segments, in their fixed order;
* `seed`: the first part;
* `withProducts`: the whole vector.
-/
import StarkCalldata.Memory.PageFacts
import StarkCalldata.Memory.PermutationProduct
import StarkCalldata.Proof.Parsing

namespace StarkCalldata.PublicInput

open Memory

/-- The segments of the vector, in order. -/
def segmentOrder : List String :=
  ["program", "execution", "output", "pedersen", "range_check", "ecdsa", "bitwise", "ec_op",
   "keccak", "poseidon"]

/-- Zero and the powers of two: the integers without a binary digit in common with their
predecessor. -/
def isPowerOfTwoOrZero (n : Int) : Bool := 0 ≤ n && n.toNat &&& (n.toNat - 1) == 0

/-- The exponent of the greatest power of two within a trace length. A length that is no power of
two is noted. -/
def log2Steps (n : Int) : Run Int := do
  if !isPowerOfTwoOrZero n then Run.note (.stepsNotPowerOfTwo n)
  return (bitLength n : Int) - 1

/-- The bytes of a name as one number; the name must be ASCII. -/
def layoutNumber (layout : String) : Except Fault Nat :=
  if layout.toList.all Parsing.isAscii then
    .ok (Word.ofBytes (layout.toList.map fun c => UInt8.ofNat c.toNat))
  else .error .notAscii

/-- The addresses of the known segments that are there. -/
def knownSegmentWords (segments : Segments) : List Int :=
  (segmentOrder.filterMap fun name => segments.lookup name).flatMap fun s => [s.start, s.stop]

/-- The names of the segments that are not part of the vector, ascending. -/
def ignoredSegments (segments : Segments) : List String :=
  ((segments.map Prod.fst).filter fun name => !segmentOrder.contains name).mergeSort
    fun a b => decide (a ≤ b)

/-- The addresses of the known segments; segments that are not part of the vector are noted. -/
def segmentWords (segments : Segments) : Run (List Int) := do
  let ignored := ignoredSegments segments
  if !ignored.isEmpty then Run.note (.segmentsIgnored ignored)
  return knownSegmentWords segments

/-- The words that describe a page. -/
def pageWords (p : PageInfo) : List Int :=
  p.start.toList ++ [(p.size : Int), (p.hash : Int)]

/-- The number of friendly layers that goes into the vector: the configured value, unless it is
null, else that of the proof, else zero. -/
def layersEntry (parameters : ProofParameters) (configured : Json) : Entry :=
  match configured with
  | .null => .int (parameters.friendlyLayers.getD 0)
  | value => value

/-- The public input up to the page products. The first cell of the public memory is the padding
cell. -/
def seed (proof : AnnotatedProof) (facts : PageFacts) (layers : Json) : Run (List Entry) := do
  let input := proof.publicInput
  let log2 ← log2Steps input.steps
  let layout ← layoutNumber input.layout
  let segments ← segmentWords input.segments
  match input.memory with
  | [] => Run.fail .offsetOutOfRange
  | padding :: _ => do
      let pages ← facts.sortedPages
      let numbers : List Int :=
        [log2, input.rangeMin, input.rangeMax, (layout : Int)] ++ segments
          ++ [padding.address, padding.value, (facts.count : Int)] ++ pages.flatMap pageWords
      return layersEntry proof.parameters layers :: numbers.map .int

/-- A challenge that is a canonical field element. -/
def canonical (name : Challenge.Name) (value : Int) : Except Fault Unit :=
  if Field.IsCanonical value then .ok () else .error (.notCanonical name value)

/-- The products of the pages, ascending by page. -/
def products (pages : List PageInfo) (z alpha : Int) : List Int :=
  pages.map fun p => (permutationProduct p.slots z alpha : Int)

/-- The first part followed by the product of every page. -/
def withProducts (first : List Entry) (facts : PageFacts) (z alpha : Int) :
    Except Fault (List Entry) := do
  canonical .z z
  canonical .alpha alpha
  let pages ← facts.sortedPages
  return first ++ (products pages z alpha).map .int

end StarkCalldata.PublicInput
