/-
The cells of public memory.

* `Memory.Cell`: an address of a page with the value it holds;
* `Memory.Slot`: address and value alone, the part of a cell that a page registers.
-/

namespace StarkCalldata.Memory

/-- An address with the value it holds. -/
structure Slot where
  address : Int
  value : Int
  deriving Repr, DecidableEq

/-- A public memory cell. -/
structure Cell where
  page : Int
  address : Int
  value : Int
  deriving Repr, DecidableEq

/-- The address and the value of a cell. -/
def Cell.slot (c : Cell) : Slot := ⟨c.address, c.value⟩

end StarkCalldata.Memory
