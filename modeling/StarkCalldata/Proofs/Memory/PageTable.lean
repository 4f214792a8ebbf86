import Mathlib.Data.List.Dedup
import Mathlib.Data.List.Sort
import Mathlib.Tactic
import StarkCalldata.Memory.PageTable

/-!
The table of pages, row by row.

Cells arrive in any order and with their pages interleaved; the table sorts them into rows. Its
invariant after every cell (`Tabulates`) is that the page numbers ascend strictly, that the row of a
page lists the slots of its cells in the order in which they came, and that every page with a cell
has a row. These determine the table:

* `slotsOn`: the slots of the cells on a page, in order;
* `pageNumbers`: the pages that have a cell, ascending;
* `Tabulates.add`: one more cell keeps the invariant;
* `ofCells_eq`: the table of a list of cells, in closed form;
* `row_ofCells`: the row of a page that has a cell is there, and holds its slots.
-/

namespace StarkCalldata.Memory

/-- The slots of the cells on a page, in the order of the cells. -/
def slotsOn (cells : List Cell) (page : ℤ) : List Slot :=
  (cells.filter fun c => c.page = page).map Cell.slot

/-- The pages that have a cell, ascending. -/
def pageNumbers (cells : List Cell) : List ℤ :=
  (cells.map Cell.page).dedup.insertionSort (· ≤ ·)

/-! ### Pages and their slots -/

@[simp] lemma mem_pageNumbers {cells : List Cell} {q : ℤ} :
    q ∈ pageNumbers cells ↔ ∃ c ∈ cells, c.page = q := by
  simp [pageNumbers]

lemma pairwise_pageNumbers (cells : List Cell) : (pageNumbers cells).Pairwise (· < ·) := by
  have hle : (pageNumbers cells).Pairwise (· ≤ ·) := List.pairwise_insertionSort _ _
  have hne : (pageNumbers cells).Pairwise (· ≠ ·) :=
    (List.perm_insertionSort _ _).nodup_iff.mpr (List.nodup_dedup _)
  exact (hle.and hne).imp fun h => lt_of_le_of_ne h.1 h.2

lemma mem_slotsOn {cells : List Cell} {q : ℤ} {s : Slot} :
    s ∈ slotsOn cells q ↔ ∃ c ∈ cells, c.page = q ∧ c.slot = s := by
  simp [slotsOn, and_assoc]

lemma slotsOn_eq_nil {cells : List Cell} {q : ℤ} :
    slotsOn cells q = [] ↔ ∀ c ∈ cells, c.page ≠ q := by
  simp [slotsOn]

lemma mem_pageNumbers_iff_slotsOn {cells : List Cell} {q : ℤ} :
    q ∈ pageNumbers cells ↔ slotsOn cells q ≠ [] := by
  simp [slotsOn_eq_nil]

lemma slotsOn_append_singleton (cells : List Cell) (c : Cell) (q : ℤ) :
    slotsOn (cells ++ [c]) q =
      if c.page = q then slotsOn cells q ++ [c.slot] else slotsOn cells q := by
  by_cases h : c.page = q <;> simp [slotsOn, h]

/-! ### The invariant of the table -/

namespace PageTable

/-- A table holds the rows of a list of cells: strictly ascending, each with the slots of its page,
and one for every page that has a cell. -/
structure Tabulates (cells : List Cell) (table : PageTable) : Prop where
  ascending : (table.map Prod.fst).Pairwise (· < ·)
  slots_eq : ∀ row ∈ table, row.2 = slotsOn cells row.1
  mem_iff : ∀ q, q ∈ table.map Prod.fst ↔ ∃ c ∈ cells, c.page = q

variable {cells : List Cell} {table : PageTable} {c : Cell}

/-- One more cell adds its page, if it is not there yet. -/
lemma mem_keys_add {q : ℤ} :
    q ∈ (add c table).map Prod.fst ↔ q = c.page ∨ q ∈ table.map Prod.fst := by
  induction table with
  | nil => simp [add]
  | cons row rest ih =>
      obtain ⟨p, slots⟩ := row
      rw [add]
      split_ifs with hlt heq
      · simp
      · simp [heq]
      · simp only [List.map_cons, List.mem_cons, ih]
        tauto

/-- One more cell keeps the rows ascending. -/
lemma ascending_add (h : (table.map Prod.fst).Pairwise (· < ·)) :
    ((add c table).map Prod.fst).Pairwise (· < ·) := by
  induction table with
  | nil => simp [add]
  | cons row rest ih =>
      obtain ⟨p, slots⟩ := row
      obtain ⟨hp, hrest⟩ := List.pairwise_cons.mp h
      rw [add]
      split_ifs with hlt heq
      · refine List.pairwise_cons.mpr ⟨fun q hq => ?_, h⟩
        rcases List.mem_cons.mp hq with rfl | hq
        · exact hlt
        · exact hlt.trans (hp q hq)
      · exact h
      · refine List.pairwise_cons.mpr ⟨fun q hq => ?_, ih hrest⟩
        rcases mem_keys_add.mp hq with rfl | hq
        · omega
        · exact hp q hq

/-- The rows after one more cell: that of its page has one more slot, the others are as before. -/
lemma slots_of_mem_add {f : ℤ → List Slot} (h : (table.map Prod.fst).Pairwise (· < ·))
    (hf : ∀ row ∈ table, row.2 = f row.1)
    (hnew : c.page ∉ table.map Prod.fst → f c.page = []) :
    ∀ row ∈ add c table,
      row.2 = if c.page = row.1 then f row.1 ++ [c.slot] else f row.1 := by
  induction table with
  | nil =>
      intro row hrow
      obtain rfl : row = (c.page, [c.slot]) := by simpa [add] using hrow
      simp [hnew]
  | cons first rest ih =>
      obtain ⟨p, slots⟩ := first
      obtain ⟨hp, hrest⟩ := List.pairwise_cons.mp h
      have hslots : slots = f p := hf (p, slots) List.mem_cons_self
      have hf' : ∀ row ∈ rest, row.2 = f row.1 := fun row hrow => hf row (.tail _ hrow)
      have hlater : ∀ row ∈ rest, p < row.1 := fun row hrow =>
        hp row.1 (List.mem_map_of_mem hrow)
      intro row hrow
      rw [add] at hrow
      split_ifs at hrow with hlt heq
      · -- the page is new and comes first
        have hnot : c.page ∉ ((p, slots) :: rest).map Prod.fst := by
          intro hmem
          rcases List.mem_cons.mp hmem with heq | hmem
          · omega
          · have := hp c.page hmem
            omega
        rcases List.mem_cons.mp hrow with rfl | hrow
        · simp [hnew hnot]
        · rw [if_neg, hf row hrow]
          rintro heq
          exact hnot (heq ▸ List.mem_map_of_mem hrow)
      · -- the page has the first row
        rcases List.mem_cons.mp hrow with rfl | hrow
        · simp [heq, hslots]
        · rw [if_neg, hf' row hrow]
          have := hlater row hrow
          omega
      · -- the page has a later row, or none
        rcases List.mem_cons.mp hrow with rfl | hrow
        · rw [if_neg heq, hslots]
        · refine ih hrest hf' (fun hnot => hnew ?_) row hrow
          intro hmem
          rcases List.mem_cons.mp hmem with h' | h'
          · exact heq h'
          · exact hnot h'

/-- One more cell keeps the invariant. -/
lemma Tabulates.add (h : Tabulates cells table) (c : Cell) :
    Tabulates (cells ++ [c]) (add c table) where
  ascending := ascending_add h.ascending
  slots_eq := by
    intro row hrow
    rw [slotsOn_append_singleton]
    refine slots_of_mem_add h.ascending h.slots_eq (fun hnot => ?_) row hrow
    rw [slotsOn_eq_nil]
    intro d hd hpage
    exact hnot ((h.mem_iff _).mpr ⟨d, hd, hpage⟩)
  mem_iff := by
    intro q
    rw [mem_keys_add, h.mem_iff]
    constructor
    · rintro (rfl | ⟨d, hd, hq⟩)
      · exact ⟨c, by simp, rfl⟩
      · exact ⟨d, by simp [hd], hq⟩
    · rintro ⟨d, hd, hq⟩
      rcases List.mem_append.mp hd with hd | hd
      · exact .inr ⟨d, hd, hq⟩
      · rw [List.mem_singleton.mp hd] at hq
        exact .inl hq.symm

lemma tabulates_ofCells (cells : List Cell) : Tabulates cells (ofCells cells) := by
  induction cells using List.reverseRecOn with
  | nil => exact ⟨by simp [ofCells], by simp [ofCells], by simp [ofCells]⟩
  | append_singleton cells c ih =>
      have hstep : ofCells (cells ++ [c]) = PageTable.add c (ofCells cells) := by
        simp [ofCells, List.foldl_append]
      rw [hstep]
      exact ih.add c

/-- **The table in closed form**: one row for each page that has a cell, ascending, with the slots
of the page in the order of the cells. -/
theorem ofCells_eq (cells : List Cell) :
    ofCells cells = (pageNumbers cells).map fun q => (q, slotsOn cells q) := by
  have h := tabulates_ofCells cells
  have hkeys : (ofCells cells).map Prod.fst = pageNumbers cells :=
    h.ascending.eq_of_mem_iff (pairwise_pageNumbers cells) fun q => by
      rw [h.mem_iff, mem_pageNumbers]
  rw [← hkeys, List.map_map]
  refine (List.map_id _).symm.trans (List.map_congr_left fun row hrow => ?_)
  exact Prod.ext rfl (h.slots_eq row hrow)

/-- The row of a page, if it has a cell. -/
lemma lookup_ofCells (cells : List Cell) (q : ℤ) :
    (ofCells cells).lookup q = if q ∈ pageNumbers cells then some (slotsOn cells q) else none := by
  rw [ofCells_eq]
  induction pageNumbers cells with
  | nil => rfl
  | cons p rest ih =>
      rw [List.map_cons, List.lookup_cons, ih]
      by_cases h : q = p
      · simp [h]
      · have hbeq : (q == p) = false := by simpa using h
        simp [h, hbeq]

lemma row_eq_ok {table : PageTable} {q : ℤ} {slots : List Slot} :
    table.row q = .ok slots ↔ table.lookup q = some slots := by
  rw [row]
  cases table.lookup q <;> simp

lemma eq_slotsOn_of_lookup {cells : List Cell} {q : ℤ} {slots : List Slot}
    (h : (ofCells cells).lookup q = some slots) : slotsOn cells q = slots := by
  rw [lookup_ofCells] at h
  split_ifs at h
  exact Option.some.inj h

/-- The row of a page that has a cell. -/
lemma row_ofCells {cells : List Cell} {q : ℤ} (h : q ∈ pageNumbers cells) :
    (ofCells cells).row q = .ok (slotsOn cells q) := by
  rw [row_eq_ok, lookup_ofCells, if_pos h]

end PageTable

end StarkCalldata.Memory
