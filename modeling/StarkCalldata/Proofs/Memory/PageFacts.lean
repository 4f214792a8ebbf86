import StarkCalldata.Memory.PageFacts
import StarkCalldata.Proofs.Memory.ContinuousPage
import StarkCalldata.Proofs.Memory.PageTable

/-!
The facts about the pages of a memory.

The facts are collected page by page, so they are determined by the rows of the table alone: the row
of the regular page, and the rows of the other pages from the least number upwards.

* `otherPages`: the pages other than the regular one, ascending;
* `outcome_ofCells`: the facts as one row of built pages;
* `ofCells_eq_ok`: when there are facts, and which;
* `forall_mem`: what holds of the numbers of the cells holds of those of the pages;
* `sortedPages_eq_ok`: what the public input says about the pages;
* `hasRows_of_ofCells`: the row that this needs of a page is always there.
-/

namespace StarkCalldata.Memory

/-- The pages other than the regular one that have a cell, ascending. -/
def otherPages (cells : List Cell) : List ℤ :=
  (pageNumbers cells).filter fun q => q ≠ regularPage

@[simp] lemma mem_otherPages {cells : List Cell} {q : ℤ} :
    q ∈ otherPages cells ↔ q ≠ regularPage ∧ ∃ c ∈ cells, c.page = q := by
  simp [otherPages, and_comm]

lemma pairwise_otherPages (cells : List Cell) : (otherPages cells).Pairwise (· < ·) :=
  (pairwise_pageNumbers cells).filter _

lemma forall_mem_interleave {P : ℤ → Prop} {slots : List Slot}
    (h : ∀ s ∈ slots, P s.address ∧ P s.value) : ∀ n ∈ interleave slots, P n := by
  intro n hn
  obtain ⟨s, hs, hn⟩ := List.mem_flatMap.mp hn
  obtain ⟨haddress, hvalue⟩ := h s hs
  rcases List.mem_pair.mp hn with rfl | rfl
  · exact haddress
  · exact hvalue

namespace PageFacts

variable {cells : List Cell} {facts : PageFacts}

/-- The continuous pages of a table are built row by row, without the regular one. -/
lemma outcome_buildContinuous (table : PageTable) :
    (buildContinuous table).outcome =
      (table.filter fun row => row.1 ≠ regularPage).mapM fun row =>
        (ContinuousPage.build row.1 row.2).outcome := by
  induction table with
  | nil => rfl
  | cons row rest ih =>
      obtain ⟨page, slots⟩ := row
      rw [buildContinuous]
      by_cases h : page = regularPage
      · simp [h, ih]
      · rw [if_neg h, List.filter_cons_of_pos (by simpa using h), List.mapM_cons, Run.outcome_bind]
        simp only [Run.outcome_bind, ih]
        rfl

/-- The facts about the pages: every page but the regular one is built, in ascending order. -/
lemma outcome_ofCells (cells : List Cell) :
    (ofCells cells).outcome =
      ((otherPages cells).mapM fun q =>
        (ContinuousPage.build q (slotsOn cells q)).outcome).bind fun pages =>
          .ok ⟨(PageTable.ofCells cells).lookup regularPage, pages, PageTable.ofCells cells⟩ := by
  have hrows : ((PageTable.ofCells cells).filter fun row => row.1 ≠ regularPage) =
      (otherPages cells).map fun q => (q, slotsOn cells q) := by
    rw [PageTable.ofCells_eq, List.filter_map]
    rfl
  rw [ofCells]
  simp only [Run.outcome_bind, outcome_buildContinuous, hrows, List.mapM_map]
  rfl

/-- When there are facts, and which: every page but the regular one can be built. -/
theorem ofCells_eq_ok :
    (ofCells cells).outcome = .ok facts ↔
      List.Forall₂ (fun q p => (ContinuousPage.build q (slotsOn cells q)).outcome = .ok p)
        (otherPages cells) facts.continuous ∧
      facts.regular = (PageTable.ofCells cells).lookup regularPage ∧
      facts.table = PageTable.ofCells cells := by
  rw [outcome_ofCells, Outcome.bind_ok]
  simp only [Outcome.mapM_eq_ok]
  constructor
  · rintro ⟨pages, hpages, h⟩
    cases h
    exact ⟨hpages, rfl, rfl⟩
  · rintro ⟨hpages, hregular, htable⟩
    refine ⟨facts.continuous, hpages, ?_⟩
    rw [← hregular, ← htable]

lemma regular_of_ofCells (h : (ofCells cells).outcome = .ok facts) :
    facts.regular =
      if ∃ c ∈ cells, c.page = regularPage then some (slotsOn cells regularPage) else none := by
  rw [(ofCells_eq_ok.mp h).2.1, PageTable.lookup_ofCells]
  simp only [mem_pageNumbers]

lemma exists_build_of_mem (h : (ofCells cells).outcome = .ok facts) {p : ContinuousPage}
    (hp : p ∈ facts.continuous) :
    ∃ q ∈ otherPages cells, (ContinuousPage.build q (slotsOn cells q)).outcome = .ok p := by
  obtain ⟨hbuilt, -, -⟩ := ofCells_eq_ok.mp h
  obtain ⟨i, hi, rfl⟩ := List.getElem_of_mem hp
  have hi' : i < (otherPages cells).length := hbuilt.length_eq ▸ hi
  exact ⟨_, List.get_mem _ ⟨i, hi'⟩, hbuilt.get hi' hi⟩

/-- What holds of zero and of the numbers of all cells holds of the numbers of the pages. -/
lemma forall_mem {P : ℤ → Prop} (hzero : P 0) (hcells : ∀ c ∈ cells, P c.address ∧ P c.value)
    (h : (ofCells cells).outcome = .ok facts) :
    (∀ slots ∈ facts.regular, ∀ n ∈ interleave slots, P n) ∧
      ∀ p ∈ facts.continuous, P p.start ∧ ∀ v ∈ p.values, P v := by
  have hslots : ∀ q, ∀ s ∈ slotsOn cells q, P s.address ∧ P s.value := by
    intro q s hs
    obtain ⟨c, hc, -, rfl⟩ := mem_slotsOn.mp hs
    exact hcells c hc
  constructor
  · intro slots hregular
    rw [regular_of_ofCells h] at hregular
    split_ifs at hregular
    · cases hregular
      exact forall_mem_interleave (hslots regularPage)
    · cases hregular
  · intro p hp
    obtain ⟨q, -, hq⟩ := exists_build_of_mem h hp
    exact (ContinuousPage.isLaidOut_of_build hq).forall_mem hzero (hslots q)

/-! ### What the public input says about the pages -/

variable {slots : List Slot} {p : ContinuousPage} {info : PageInfo} {infos : List PageInfo}

/-- What is said about the regular page. -/
lemma regularInfo_eq_ok :
    facts.regularInfo slots = .ok info ↔
      ∃ hash row, Entry.hashIntegers (interleave slots) = .ok hash ∧
        facts.table.lookup regularPage = some row ∧
        info = ⟨regularPage, slots.length, hash, none, row⟩ := by
  simp only [regularInfo, Outcome.bind_eq_ok, Outcome.pure_eq_ok, PageTable.row_eq_ok,
    @eq_comm _ info]
  constructor
  · rintro ⟨hash, hhash, row, hrow, hinfo⟩
    exact ⟨hash, row, hhash, hrow, hinfo⟩
  · rintro ⟨hash, row, hhash, hrow, hinfo⟩
    exact ⟨hash, hhash, row, hrow, hinfo⟩

/-- What is said about a continuous page. -/
lemma continuousInfo_eq_ok :
    facts.continuousInfo p = .ok info ↔
      ∃ hash row, Entry.hashIntegers p.values = .ok hash ∧
        facts.table.lookup p.page = some row ∧
        info = ⟨p.page, p.values.length, hash, some p.start, row⟩ := by
  simp only [continuousInfo, ContinuousPage.hash, ContinuousPage.size, Outcome.bind_eq_ok,
    Outcome.pure_eq_ok, PageTable.row_eq_ok, @eq_comm _ info]
  constructor
  · rintro ⟨hash, hhash, row, hrow, hinfo⟩
    exact ⟨hash, row, hhash, hrow, hinfo⟩
  · rintro ⟨hash, row, hhash, hrow, hinfo⟩
    exact ⟨hash, hhash, row, hrow, hinfo⟩

/-- What is said about the pages: first about the regular one, if there is one, then about the
others in their order. -/
lemma sortedPages_eq_ok :
    facts.sortedPages = .ok infos ↔ ∃ regular continuous,
      List.Forall₂ (fun slots info => facts.regularInfo slots = .ok info)
        facts.regular.toList regular ∧
      List.Forall₂ (fun p info => facts.continuousInfo p = .ok info)
        facts.continuous continuous ∧
      infos = regular ++ continuous := by
  simp only [sortedPages, Outcome.bind_eq_ok, Outcome.mapM_eq_ok, Outcome.pure_eq_ok]
  constructor
  · rintro ⟨regular, hregular, continuous, hcontinuous, rfl⟩
    exact ⟨regular, continuous, hregular, hcontinuous, rfl⟩
  · rintro ⟨regular, continuous, hregular, hcontinuous, rfl⟩
    exact ⟨regular, hregular, continuous, hcontinuous, rfl⟩

lemma length_sortedPages (h : facts.sortedPages = .ok infos) : infos.length = facts.count := by
  obtain ⟨regular, continuous, hregular, hcontinuous, rfl⟩ := sortedPages_eq_ok.mp h
  rw [List.length_append, ← hregular.length_eq, ← hcontinuous.length_eq, count]
  cases facts.regular <;> rfl

lemma sortedPages_eq_cons (h : facts.sortedPages = .ok infos)
    (hslots : facts.regular = some slots) :
    ∃ info rest, infos = info :: rest ∧ facts.regularInfo slots = .ok info ∧
      List.Forall₂ (fun p info => facts.continuousInfo p = .ok info) facts.continuous rest := by
  obtain ⟨regular, continuous, hregular, hcontinuous, rfl⟩ := sortedPages_eq_ok.mp h
  rw [hslots] at hregular
  cases hregular with
  | @cons _ info _ _ hinfo hnil =>
      cases hnil
      exact ⟨info, continuous, rfl, hinfo, hcontinuous⟩

/-- Without a regular page only the others are spoken of. -/
lemma sortedPages_of_none (h : facts.sortedPages = .ok infos) (hnone : facts.regular = none) :
    List.Forall₂ (fun p info => facts.continuousInfo p = .ok info) facts.continuous infos := by
  obtain ⟨regular, continuous, hregular, hcontinuous, rfl⟩ := sortedPages_eq_ok.mp h
  rw [hnone] at hregular
  cases hregular
  exact hcontinuous

lemma lookup_regularPage (h : (ofCells cells).outcome = .ok facts)
    (hslots : facts.regular = some slots) : facts.table.lookup regularPage = some slots := by
  obtain ⟨-, hregular, htable⟩ := ofCells_eq_ok.mp h
  rw [htable, ← hregular, hslots]

/-- The table has the row of every page that is registered. -/
structure HasRows (facts : PageFacts) : Prop where
  regular : ∀ slots ∈ facts.regular, ∃ row, facts.table.lookup regularPage = some row
  continuous : ∀ p ∈ facts.continuous, ∃ row, facts.table.lookup p.page = some row

/-- **No row is missing**: the facts about a memory have the rows of their pages. -/
theorem hasRows_of_ofCells (h : (ofCells cells).outcome = .ok facts) : facts.HasRows where
  regular slots hslots := ⟨slots, lookup_regularPage h hslots⟩
  continuous p hp := by
    obtain ⟨q, hq, hbuild⟩ := exists_build_of_mem h hp
    obtain ⟨-, -, htable⟩ := ofCells_eq_ok.mp h
    obtain ⟨lo, hi, -, -, -, -, rfl⟩ := ContinuousPage.build_eq_ok.mp hbuild
    have hmem : q ∈ pageNumbers cells := (List.mem_filter.mp hq).1
    exact ⟨slotsOn cells q, by rw [htable, PageTable.lookup_ofCells, if_pos hmem]⟩

end PageFacts

end StarkCalldata.Memory
