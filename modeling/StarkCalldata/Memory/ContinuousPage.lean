/-
Continuous pages: a start address and a dense row of values.

Every page but the regular one is laid out over all addresses from its least to its greatest one;
an address in between without a cell holds zero.

* `settle`: the slots of a page without repeats, or the first address with two different values;
* `ContinuousPage.build`: the page of a list of slots;
* `ContinuousPage.hash`: the commitment to a page, which covers the values only.
-/
import StarkCalldata.Entry
import StarkCalldata.Field
import StarkCalldata.Memory.Cell
import StarkCalldata.Run

namespace StarkCalldata.Memory

/-- A page in the form in which it is registered: the value with index `i` lives at the address
`start + i`. -/
structure ContinuousPage where
  page : Int
  start : Int
  values : List Int
  deriving Repr, DecidableEq

/-- The greatest number of addresses that a page may spread over, `2 ^ 28`. -/
def maxSpan : Int := 0x10000000

/-- The slot with a given address. -/
def slotAt? (slots : List Slot) (address : Int) : Option Slot :=
  slots.find? fun s => s.address = address

/-- The slots without repeats, the last one first, after those of `known`; or the first slot whose
address is known with another value, with that value in front. -/
def settle (known : List Slot) : List Slot → Except (Int × Slot) (List Slot)
  | [] => .ok known
  | s :: rest =>
      match slotAt? known s.address with
      | none => settle (s :: known) rest
      | some old => if old.value = s.value then settle known rest else .error (old.value, s)

/-- The values at `count` addresses from `start` on; an address without a slot holds zero. -/
def layOut (slots : List Slot) (start : Int) (count : Nat) : List Int :=
  (List.range count).map fun (i : Nat) => ((slotAt? slots (start + i)).map Slot.value).getD 0

namespace ContinuousPage

/-- The place that a message names for an address of a page. -/
def place (page address : Int) : String :=
  "public_input.public_memory(page=" ++ toString page ++ ", address=" ++ toString address ++ ")"

/-- The page of a list of slots. It must not spread too wide nor reach beyond the field, and no
address may carry two values. -/
def build (page : Int) (slots : List Slot) : Run ContinuousPage :=
  match (slots.map Slot.address).min?, (slots.map Slot.address).max? with
  | some start, some last => do
      let span := last - start + 1
      if span > maxSpan ∨ last ≥ Field.prime then
        Run.fail (Fault.quoting [page, span, start] (.pageTooWide page span start))
      else
        match settle [] slots with
        | .error (old, s) =>
            Run.fail (Fault.quoting [page, s.address]
              (.malformedInput (place page s.address) (.conflictingValues old s.value)))
        | .ok known => do
            let gaps := span - known.length
            if gaps ≠ 0 then Run.note (.gapsFilled page gaps)
            return ⟨page, start, layOut known start span.toNat⟩
  | _, _ => Run.fail .emptyPage

/-- The number of values a page registers. -/
def size (p : ContinuousPage) : Nat := p.values.length

/-- The commitment to a page: the hash of its values. -/
def hash (p : ContinuousPage) : Except Fault Nat := Entry.hashIntegers p.values

end ContinuousPage

end StarkCalldata.Memory
