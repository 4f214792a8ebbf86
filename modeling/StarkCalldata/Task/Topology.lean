/-
Fact topologies: the shapes of the trees in which the outputs of bootloader tasks are hashed.

* `FactTopology`: the tree of one task as a flat list of pairs, with the sizes of its pages;
* `FactTopology.ofJson`: the topologies of a document, a list or an object that wraps one.
-/
import StarkCalldata.Fault
import StarkCalldata.Json.Path

namespace StarkCalldata

/-- The topology of the output of one task. -/
structure FactTopology where
  /-- Pairs of a number of pages and a number of nodes, one after another. -/
  tree : List Int
  pageSizes : List Int
  deriving Repr, DecidableEq

namespace FactTopology

/-- The number of pairs of the tree. -/
def pairCount (t : FactTopology) : Nat := t.tree.length / 2

/-- The defect of topologies at a place. -/
def defect (path : Path) (d : Defect) : Except Fault α := .error (.malformedInput path.render d)

/-- An integer that is not negative. -/
def natural? : Json → Option Int
  | .int n => if 0 ≤ n then some n else none
  | _ => none

/-- A list of integers that are not negative. -/
def naturals (j : Json) (path : Path) : Except Fault (List Int) :=
  match j with
  | .arr items =>
      match items.mapM natural? with
      | some ns => .ok ns
      | none => defect path .notNonNegativeIntegers
  | _ => defect path .notNonNegativeIntegers

/-- One topology. Its tree must be there and hold pairs; the sizes of pages may be left out. -/
def ofEntry (j : Json) (path : Path) : Except Fault FactTopology := do
  let place := path.key "tree_structure"
  match j.get? "tree_structure" with
  | none => defect place .missingField
  | some value =>
      let tree ← naturals value place
      if tree.length % 2 ≠ 0 then defect place .oddCount
      else
        let sizes ← naturals ((j.get? "page_sizes").getD (.arr [])) (path.key "page_sizes")
        return ⟨tree, sizes⟩

/-- The topologies of the items of a list, of which the first one has index `i`. -/
def ofEntries (parent : Path) : Nat → List Json → Except Fault (List FactTopology)
  | _, [] => .ok []
  | i, j :: rest => do
      let first ← ofEntry j (parent.index i)
      let others ← ofEntries parent (i + 1) rest
      return first :: others

/-- The topologies of a list. -/
def ofList (j : Json) : Except Fault (List FactTopology) :=
  let place := Path.root.key "fact_topologies"
  match j with
  | .arr entries => ofEntries place 0 entries
  | _ => defect place .notAList

/-- The topologies of a document: a list, or an object that holds the list. -/
def ofJson (j : Json) : Except Fault (List FactTopology) :=
  match j with
  | .obj fields =>
      match Json.field? fields "fact_topologies" with
      | some value => ofList value
      | none => defect (Path.root.key "fact_topologies") .missingField
  | _ => ofList j

end FactTopology

end StarkCalldata
