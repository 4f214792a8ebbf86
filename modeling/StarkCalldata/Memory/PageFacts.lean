/-
The facts about public memory that are registered with the verifier.

Page zero is the regular page: it is registered as addresses and values in turn, and its hash covers
both. Every other page is continuous.

* `PageFacts.ofCells`: the facts about a list of cells;
* `PageFacts.pairs`: the regular page as it is registered;
* `PageFacts.count`: the number of pages;
* `PageInfo`, `PageFacts.sortedPages`: what the public input says about each page, ascending.
-/
import StarkCalldata.Memory.ContinuousPage
import StarkCalldata.Memory.PageTable

namespace StarkCalldata.Memory

/-- The number of the regular page. -/
def regularPage : Int := 0

/-- The pages of a public memory. -/
structure PageFacts where
  /-- The slots of the regular page, if a cell lies on it. Addresses and values come in pairs, so a
  regular page that registers an odd number of words is not among these. -/
  regular : Option (List Slot)
  /-- The other pages, ascending. -/
  continuous : List ContinuousPage
  /-- The slots of every page, in the order of the cells. -/
  table : PageTable
  deriving Repr

/-- What the public input says about a page. -/
structure PageInfo where
  page : Int
  size : Nat
  hash : Nat
  /-- The first address of a continuous page; the regular page has none. -/
  start : Option Int
  slots : List Slot
  deriving Repr

/-- Addresses and values in turn. -/
def interleave (slots : List Slot) : List Int := slots.flatMap fun s => [s.address, s.value]

namespace PageFacts

/-- The continuous pages of the rows of a table, the regular page left out. -/
def buildContinuous : PageTable → Run (List ContinuousPage)
  | [] => pure []
  | (page, slots) :: rest => do
      if page = regularPage then buildContinuous rest
      else
        let first ← ContinuousPage.build page slots
        let others ← buildContinuous rest
        return first :: others

/-- The facts about a list of cells. -/
def ofCells (cells : List Cell) : Run PageFacts := do
  let table := PageTable.ofCells cells
  let regular := table.lookup regularPage
  let continuous ← buildContinuous table
  Run.note (.pagesBuilt (regular.map List.length) continuous.length)
  return ⟨regular, continuous, table⟩

/-- The regular page as it is registered: addresses and values in turn. -/
def pairs (facts : PageFacts) : Option (List Int) := facts.regular.map interleave

/-- The number of pages. -/
def count (facts : PageFacts) : Nat :=
  (if facts.regular.isSome then 1 else 0) + facts.continuous.length

/-- What is said about the regular page. -/
def regularInfo (facts : PageFacts) (slots : List Slot) : Except Fault PageInfo := do
  let hash ← Entry.hashIntegers (interleave slots)
  let row ← facts.table.row regularPage
  return ⟨regularPage, slots.length, hash, none, row⟩

/-- What is said about a continuous page. -/
def continuousInfo (facts : PageFacts) (p : ContinuousPage) : Except Fault PageInfo := do
  let hash ← p.hash
  let row ← facts.table.row p.page
  return ⟨p.page, p.size, hash, some p.start, row⟩

/-- What the public input says about the pages, ascending by number. -/
def sortedPages (facts : PageFacts) : Except Fault (List PageInfo) := do
  let regular ← facts.regular.toList.mapM facts.regularInfo
  let continuous ← facts.continuous.mapM facts.continuousInfo
  return regular ++ continuous

end PageFacts

end StarkCalldata.Memory
