/-
The permutation product of a page.

* `permutationProduct`: the product of `z - (address + alpha * value)` over the slots of a page, in
  the field.
-/
import StarkCalldata.Field
import StarkCalldata.Memory.Cell

namespace StarkCalldata.Memory

/-- The factor that a slot contributes. -/
def factor (z alpha : Int) (s : Slot) : Int := z - (s.address + alpha * s.value)

/-- The product of the factors of all slots, reduced after every step; an empty page has the
product one. -/
def permutationProduct (slots : List Slot) (z alpha : Int) : Nat :=
  slots.foldl (fun product s => Field.residue (product * factor z alpha s)) 1

end StarkCalldata.Memory
