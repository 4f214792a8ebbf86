import StarkCalldata.Proofs.Memory.Commitment

/-!
The partition of a memory into pages.

Three lists speak of the pages of a memory: the table of their slots, the built pages, and what the
public input says about each page, which joins the other two by the number of the page. The join
cannot go wrong because all three run through `pageNumbers` in the same order:

* `pageNumbers_eq`: the regular page comes first, since no page has a lower number;
* `PageInfo.Describes`: what is said about a page is said of its own slots, and of the page that was
  built of them;
* `forall₂_describes`: the n-th thing said describes the n-th page;
* `IsPartition`, `partition_ofCells`: the table, the numbers and the ranges of the pages, and the
  page whose failure is that of the memory.
-/

namespace StarkCalldata.Memory

open Word

variable {cells : List Cell} {facts : PageFacts} {infos : List PageInfo} {q : ℤ}

/-! ### The pages in order -/

/-- The regular page comes first, if it has a cell. -/
lemma pageNumbers_eq (hpages : ∀ c ∈ cells, 0 ≤ c.page) :
    pageNumbers cells =
      (if ∃ c ∈ cells, c.page = regularPage then [regularPage] else []) ++ otherPages cells := by
  have hpositive : ∀ q ∈ otherPages cells, regularPage < q := by
    intro q hq
    obtain ⟨hne, c, hc, rfl⟩ := mem_otherPages.mp hq
    have hnonneg : regularPage ≤ c.page := hpages c hc
    omega
  refine (pairwise_pageNumbers cells).eq_of_mem_iff ?_ fun q => ?_
  · refine List.pairwise_append.mpr ⟨by split_ifs <;> simp, pairwise_otherPages cells, ?_⟩
    intro first hfirst q hq
    split_ifs at hfirst
    · rw [List.mem_singleton.mp hfirst]
      exact hpositive q hq
    · cases hfirst
  · rw [List.mem_append, mem_pageNumbers, mem_otherPages]
    rcases eq_or_ne q regularPage with rfl | hne
    · split_ifs with h <;> simpa using h
    · split_ifs <;> simp [hne]

/-! ### What is said about one page -/

/-- What is said about the page `q` of a memory is about the slots of this page. On the regular page
it is their number and the hash of the row they form; on another one it is the start, the size and
the hash of the page that is built of them. -/
structure PageInfo.Describes (cells : List Cell) (q : ℤ) (info : PageInfo) : Prop where
  page_eq : info.page = q
  slots_eq : info.slots = slotsOn cells q
  regular : q = regularPage → info.start = none ∧ info.size = (slotsOn cells q).length ∧
    Entry.hashIntegers (interleave (slotsOn cells q)) = .ok info.hash
  continuous : q ≠ regularPage → ∃ p : ContinuousPage,
    (ContinuousPage.build q (slotsOn cells q)).outcome = .ok p ∧
      info.start = some p.start ∧ info.size = p.size ∧ p.hash = .ok info.hash

/-- What is said about the regular page describes it. -/
lemma describes_regularInfo {slots : List Slot} {info : PageInfo}
    (h : (PageFacts.ofCells cells).outcome = .ok facts) (hslots : facts.regular = some slots)
    (hinfo : facts.regularInfo slots = .ok info) :
    PageInfo.Describes cells regularPage info := by
  obtain ⟨-, -, htable⟩ := PageFacts.ofCells_eq_ok.mp h
  have hlookup := PageFacts.lookup_regularPage h hslots
  have hrow : slotsOn cells regularPage = slots :=
    PageTable.eq_slotsOn_of_lookup (htable ▸ hlookup)
  obtain ⟨hash, row, hhash, hfound, rfl⟩ := PageFacts.regularInfo_eq_ok.mp hinfo
  obtain rfl : slots = row := Option.some.inj (hlookup.symm.trans hfound)
  refine ⟨rfl, hrow.symm, fun _ => ⟨rfl, ?_, ?_⟩, fun hne => absurd rfl hne⟩
  · rw [hrow]
  · rw [hrow]
    exact hhash

lemma describes_continuousInfo {p : ContinuousPage} {info : PageInfo}
    (h : (PageFacts.ofCells cells).outcome = .ok facts) (hq : q ≠ regularPage)
    (hp : (ContinuousPage.build q (slotsOn cells q)).outcome = .ok p)
    (hinfo : facts.continuousInfo p = .ok info) : PageInfo.Describes cells q info := by
  obtain ⟨-, -, htable⟩ := PageFacts.ofCells_eq_ok.mp h
  obtain ⟨lo, hi, -, -, -, -, rfl⟩ := ContinuousPage.build_eq_ok.mp hp
  obtain ⟨hash, row, hhash, hfound, rfl⟩ := PageFacts.continuousInfo_eq_ok.mp hinfo
  refine ⟨rfl, ?_, fun heq => absurd heq hq, fun _ => ⟨_, hp, rfl, rfl, hhash⟩⟩
  exact (PageTable.eq_slotsOn_of_lookup (htable ▸ hfound)).symm

/-- **The join is in step**: what is said about the pages describes them one after another, in
ascending order. -/
lemma forall₂_describes (hpages : ∀ c ∈ cells, 0 ≤ c.page)
    (h : (PageFacts.ofCells cells).outcome = .ok facts) (hinfos : facts.sortedPages = .ok infos) :
    List.Forall₂ (PageInfo.Describes cells) (pageNumbers cells) infos := by
  obtain ⟨hbuilt, -, -⟩ := PageFacts.ofCells_eq_ok.mp h
  -- the pages other than the regular one, whatever is said before them
  have hothers : ∀ rest : List PageInfo,
      List.Forall₂ (fun p info => facts.continuousInfo p = .ok info) facts.continuous rest →
      List.Forall₂ (PageInfo.Describes cells) (otherPages cells) rest := by
    intro rest hrest
    refine List.forall₂_iff_get.mpr
      ⟨hbuilt.length_eq.trans hrest.length_eq, fun i hi hi' => ?_⟩
    have hmid : i < facts.continuous.length := hbuilt.length_eq ▸ hi
    obtain ⟨hne, -⟩ := mem_otherPages.mp (List.get_mem (otherPages cells) ⟨i, hi⟩)
    exact describes_continuousInfo h hne (hbuilt.get hi hmid) (hrest.get hmid hi')
  have hregular := PageFacts.regular_of_ofCells h
  rw [pageNumbers_eq hpages]
  split_ifs at hregular ⊢ with hcell
  · obtain ⟨info, rest, rfl, hinfo, hrest⟩ := PageFacts.sortedPages_eq_cons hinfos hregular
    exact .cons (describes_regularInfo h hregular hinfo) (hothers rest hrest)
  · exact hothers infos (PageFacts.sortedPages_of_none hinfos hregular)

/-! ### The partition -/

/-- The facts about a memory and what is said about its pages partition the memory: every page has
its own slots in the order of the cells, every page that occurs is spoken of once, in ascending
order, and the slots of a page lie in the range that is registered for it. -/
structure IsPartition (cells : List Cell) (facts : PageFacts) (infos : List PageInfo) : Prop where
  /-- The table has the row of each page that occurs, and no other row. -/
  lookup_eq : ∀ q, facts.table.lookup q =
    if ∃ c ∈ cells, c.page = q then some (slotsOn cells q) else none
  /-- The table has one row for a page. -/
  nodup_keys : (facts.table.map Prod.fst).Nodup
  ascending : (infos.map PageInfo.page).Pairwise (· < ·)
  mem_iff : ∀ q, q ∈ infos.map PageInfo.page ↔ ∃ c ∈ cells, c.page = q
  count_eq : facts.count = infos.length
  lookup_page : ∀ info ∈ infos, facts.table.lookup info.page = some info.slots
  slots_ne_nil : ∀ info ∈ infos, info.slots ≠ []
  /-- What is said of a page is said of what is registered for it. -/
  describes : ∀ info ∈ infos, PageInfo.Describes cells info.page info
  start_eq_none : ∀ info ∈ infos, info.start = none ↔ info.page = regularPage
  address_mem : ∀ info ∈ infos, info.page ≠ regularPage → ∃ start, info.start = some start ∧
    ∀ s ∈ info.slots, start ≤ s.address ∧ s.address < start + info.size

/-- What is said about a page names its start, unless it is the regular one. -/
lemma PageInfo.Describes.start_eq_none {info : PageInfo} (h : PageInfo.Describes cells q info) :
    info.start = none ↔ q = regularPage := by
  constructor
  · intro hnone
    by_contra hne
    obtain ⟨p, -, hstart, -⟩ := h.continuous hne
    rw [hnone] at hstart
    cases hstart
  · intro hq
    exact (h.regular hq).1

lemma PageInfo.Describes.address_mem {info : PageInfo} (h : PageInfo.Describes cells q info)
    (hq : q ≠ regularPage) : ∃ start, info.start = some start ∧
      ∀ s ∈ info.slots, start ≤ s.address ∧ s.address < start + info.size := by
  obtain ⟨p, hp, hstart, hsize, -⟩ := h.continuous hq
  have hlaid := ContinuousPage.isLaidOut_of_build hp
  refine ⟨p.start, hstart, fun s hs => ?_⟩
  rw [h.slots_eq] at hs
  obtain ⟨hge, hlt, -⟩ := hlaid.value_at s hs
  rw [hsize]
  exact ⟨hge, hlt⟩

/-- Facts with what is said about their pages partition the memory. -/
lemma isPartition_of_sortedPages (hpages : ∀ c ∈ cells, 0 ≤ c.page)
    (h : (PageFacts.ofCells cells).outcome = .ok facts) (hinfos : facts.sortedPages = .ok infos) :
    IsPartition cells facts infos := by
  have hdescribes := forall₂_describes hpages h hinfos
  obtain ⟨-, -, htable⟩ := PageFacts.ofCells_eq_ok.mp h
  have hnumbers : infos.map PageInfo.page = pageNumbers cells := by
    refine List.ext_get (by rw [List.length_map, hdescribes.length_eq]) fun i hi hi' => ?_
    have hlt : i < infos.length := by simpa using hi
    simpa using (hdescribes.get hi' hlt).page_eq
  have hmem : ∀ info ∈ infos, info.page ∈ pageNumbers cells ∧
      PageInfo.Describes cells info.page info := by
    intro info hinfo
    obtain ⟨i, hi, rfl⟩ := List.getElem_of_mem hinfo
    have hi' : i < (pageNumbers cells).length := hdescribes.length_eq ▸ hi
    have hget := hdescribes.get hi' hi
    have hpage : infos[i].page = (pageNumbers cells).get ⟨i, hi'⟩ := hget.page_eq
    rw [hpage]
    exact ⟨List.get_mem _ _, hget⟩
  have hlookup : ∀ q, facts.table.lookup q =
      if q ∈ pageNumbers cells then some (slotsOn cells q) else none := by
    rw [htable]
    exact PageTable.lookup_ofCells cells
  exact {
    lookup_eq := by simpa only [mem_pageNumbers] using hlookup
    nodup_keys := by
      rw [htable]
      exact (PageTable.tabulates_ofCells cells).ascending.imp fun hlt => hlt.ne
    ascending := by
      rw [hnumbers]
      exact pairwise_pageNumbers cells
    mem_iff := fun q => by rw [hnumbers, mem_pageNumbers]
    count_eq := (PageFacts.length_sortedPages hinfos).symm
    lookup_page := fun info hinfo => by
      obtain ⟨hpage, hdescribe⟩ := hmem info hinfo
      rw [hlookup, if_pos hpage, hdescribe.slots_eq]
    slots_ne_nil := fun info hinfo => by
      obtain ⟨hpage, hdescribe⟩ := hmem info hinfo
      rw [hdescribe.slots_eq]
      exact mem_pageNumbers_iff_slotsOn.mp hpage
    describes := fun info hinfo => (hmem info hinfo).2
    start_eq_none := fun info hinfo => (hmem info hinfo).2.start_eq_none
    address_mem := fun info hinfo => (hmem info hinfo).2.address_mem }

/-! ### The page that fails -/

/-- A memory has no facts for the reason for which its lowest page that cannot be built has none. -/
lemma PageFacts.ofCells_eq_error {f : Fault} :
    (ofCells cells).outcome = .error f ↔ ∃ q ∈ otherPages cells,
      (ContinuousPage.build q (slotsOn cells q)).outcome = .error f ∧
      ∀ q' ∈ otherPages cells, q' < q →
        ∃ p, (ContinuousPage.build q' (slotsOn cells q')).outcome = .ok p := by
  have hmap : (ofCells cells).outcome = .error f ↔ ((otherPages cells).mapM fun q =>
      (ContinuousPage.build q (slotsOn cells q)).outcome) = .error f := by
    rw [outcome_ofCells]
    cases (otherPages cells).mapM fun q => (ContinuousPage.build q (slotsOn cells q)).outcome <;>
      simp [Except.bind]
  have hascending := pairwise_otherPages cells
  rw [hmap, Outcome.mapM_eq_error]
  constructor
  · rintro ⟨before, q, after, hsplit, hbefore, hq⟩
    rw [hsplit] at hascending ⊢
    refine ⟨q, by simp, hq, fun q' hq' hlt => hbefore q' ?_⟩
    obtain ⟨-, hafter, -⟩ := List.pairwise_append.mp hascending
    rcases List.mem_append.mp hq' with hmem | hmem
    · exact hmem
    · rcases List.mem_cons.mp hmem with rfl | hmem
      · omega
      · have hgt := (List.pairwise_cons.mp hafter).1 q' hmem
        omega
  · rintro ⟨q, hmem, hq, hlower⟩
    obtain ⟨before, after, hsplit⟩ := List.append_of_mem hmem
    refine ⟨before, q, after, hsplit, fun q' hq' => ?_, hq⟩
    rw [hsplit] at hascending hlower
    obtain ⟨-, -, hbefore⟩ := List.pairwise_append.mp hascending
    exact hlower q' (List.mem_append_left _ hq') (hbefore q' hq' q (.head _))

/-- A memory has no facts when one of its pages cannot be built. -/
lemma PageFacts.exists_error_iff :
    (∃ f, (ofCells cells).outcome = .error f) ↔ ∃ q ∈ otherPages cells, ∃ f,
      (ContinuousPage.build q (slotsOn cells q)).outcome = .error f := by
  constructor
  · rintro ⟨f, hf⟩
    obtain ⟨q, hq, herror, -⟩ := ofCells_eq_error.mp hf
    exact ⟨q, hq, f, herror⟩
  · rintro ⟨q, hq, f, herror⟩
    cases h : (ofCells cells).outcome with
    | error e => exact ⟨e, rfl⟩
    | ok facts =>
        obtain ⟨hbuilt, -, -⟩ := ofCells_eq_ok.mp h
        obtain ⟨i, hi, rfl⟩ := List.getElem_of_mem hq
        have hp := hbuilt.get hi (hbuilt.length_eq ▸ hi)
        exact absurd (herror.symm.trans hp) (by simp)

/-- **The partition of a memory into pages**: where the pages are numbered from zero on and the
numbers of the cells fit into words, the facts about the pages can be spoken of and partition the
memory; and there are no facts exactly when a page but the regular one cannot be built, for the
reason of the lowest such page. -/
theorem partition_ofCells (hpages : ∀ c ∈ cells, 0 ≤ c.page)
    (hcells : ∀ c ∈ cells, Fits c.address ∧ Fits c.value) :
    (∀ facts, (PageFacts.ofCells cells).outcome = .ok facts →
      ∃ infos, facts.sortedPages = .ok infos ∧ IsPartition cells facts infos) ∧
    ((∃ f, (PageFacts.ofCells cells).outcome = .error f) ↔ ∃ q ∈ otherPages cells, ∃ f,
      (ContinuousPage.build q (slotsOn cells q)).outcome = .error f) ∧
    ∀ f, (PageFacts.ofCells cells).outcome = .error f → ∃ q ∈ otherPages cells,
      (ContinuousPage.build q (slotsOn cells q)).outcome = .error f ∧
      ∀ q' ∈ otherPages cells, q' < q →
        ∃ p, (ContinuousPage.build q' (slotsOn cells q')).outcome = .ok p := by
  refine ⟨fun facts h => ?_, PageFacts.exists_error_iff,
    fun f hf => PageFacts.ofCells_eq_error.mp hf⟩
  obtain ⟨infos, hinfos, -⟩ := PageFacts.exists_sortedPages (PageFacts.fits_of_cells hcells h)
    (PageFacts.hasRows_of_ofCells h)
  exact ⟨infos, hinfos, isPartition_of_sortedPages hpages h hinfos⟩

/-- A memory whose pages come interleaved, with a gap on page one and no page two. -/
def interleaved : List Cell := [⟨1, 12, 0xC⟩, ⟨0, 1, 5⟩, ⟨3, 7, 2⟩, ⟨1, 10, 0xA⟩, ⟨0, 2, 6⟩]

/-- The interleaved memory has facts, which can be spoken of and partition it. -/
theorem interleaved_partition :
    (∀ c ∈ interleaved, 0 ≤ c.page) ∧ (∀ c ∈ interleaved, Fits c.address ∧ Fits c.value) ∧
    ∃ facts infos, (PageFacts.ofCells interleaved).outcome = .ok facts ∧
      facts.continuous = [⟨1, 10, [0xA, 0, 0xC]⟩, ⟨3, 7, [2]⟩] ∧
      facts.sortedPages = .ok infos ∧ IsPartition interleaved facts infos := by
  have hpages : ∀ c ∈ interleaved, 0 ≤ c.page := by decide
  have hcells : ∀ c ∈ interleaved, Fits c.address ∧ Fits c.value := by decide
  let facts : PageFacts := ⟨some [⟨1, 5⟩, ⟨2, 6⟩], [⟨1, 10, [0xA, 0, 0xC]⟩, ⟨3, 7, [2]⟩],
    [(0, [⟨1, 5⟩, ⟨2, 6⟩]), (1, [⟨12, 0xC⟩, ⟨10, 0xA⟩]), (3, [⟨7, 2⟩])]⟩
  have hfacts : (PageFacts.ofCells interleaved).outcome = .ok facts := by rfl
  obtain ⟨hpartition, -, -⟩ := partition_ofCells hpages hcells
  obtain ⟨infos, hinfos, hinterleaved⟩ := hpartition facts hfacts
  exact ⟨hpages, hcells, facts, infos, hfacts, rfl, hinfos, hinterleaved⟩

end StarkCalldata.Memory
