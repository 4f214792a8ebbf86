/-
The cells of public memory by page.

The table holds one row for each page that has a cell, in ascending order of the page numbers. A row
lists the slots of its page in the order in which the cells came.

* `PageTable.add`: one more cell;
* `PageTable.ofCells`: the table of a list of cells;
* `PageTable.row`: the row of a page, which must have one.
-/
import StarkCalldata.Fault
import StarkCalldata.Memory.Cell

namespace StarkCalldata.Memory

/-- Rows of page number and slots, ascending by page number. -/
abbrev PageTable := List (Int × List Slot)

namespace PageTable

/-- The table with one more cell, at the end of the row of its page. -/
def add (cell : Cell) : PageTable → PageTable
  | [] => [(cell.page, [cell.slot])]
  | (page, slots) :: rest =>
      if cell.page < page then (cell.page, [cell.slot]) :: (page, slots) :: rest
      else if cell.page = page then (page, slots ++ [cell.slot]) :: rest
      else (page, slots) :: add cell rest

/-- The table of a list of cells. -/
def ofCells (cells : List Cell) : PageTable := cells.foldl (fun t c => add c t) []

/-- The row of a page, which must have one. -/
def row (table : PageTable) (page : Int) : Except Fault (List Slot) :=
  match table.lookup page with
  | some slots => .ok slots
  | none => .error (.unknownPage page)

end PageTable

end StarkCalldata.Memory
