import StarkCalldata.Proofs.PublicInput.Vector
import StarkCalldata.Proofs.Word

/-!
What the public input says about the pages commits to them.

A page is spoken of by its size and its hash, and a continuous page by its start as well. Nothing of
the pages is lost in this, as long as the hash does not collide on them:

* `PageFacts.Fits`, `PageFacts.fits_of_cells`: the numbers of pages fit into words if those of the
  cells do;
* `PageFacts.words`, `PageFacts.exists_sortedPages`: such pages can be spoken of, in these words;
* `PageFacts.contents`, `PageFacts.CollisionFree`: what is hashed, and that the hash does not
  collide on the contents of two memories;
* `PageFacts.words_congr`, `PageFacts.pages_eq_of_words_eq`: pages with the same addresses and
  values have the same words, and the words determine the pages.
-/

namespace StarkCalldata

open Word

namespace Memory

/-- Of a page of addresses of the field both the span and the start can be written. -/
lemma ContinuousPage.writable_bounds {slots : List Slot} {lo hi : ℤ}
    (hslots : ∀ s ∈ slots, Field.IsCanonical s.address)
    (hlo : (slots.map Slot.address).min? = some lo)
    (hhi : (slots.map Slot.address).max? = some hi) :
    Text.Writable (hi - lo + 1) ∧ Text.Writable lo := by
  have haddress {a : ℤ} (ha : a ∈ slots.map Slot.address) : Field.IsCanonical a := by
    obtain ⟨s, hs, rfl⟩ := List.mem_map.mp ha
    exact hslots s hs
  obtain ⟨hlo_mem, hlo_le⟩ := List.min?_eq_some_iff.mp hlo
  have hhi_mem := (List.max?_eq_some_iff.mp hhi).1
  have hle := hlo_le _ hhi_mem
  have hlo_nonneg := (haddress hlo_mem).1
  have hhi_lt := (haddress hhi_mem).2
  have hprime : (Field.prime : ℤ) < limit := by decide
  have hspan : Fits (hi - lo + 1) := ⟨by omega, by omega⟩
  exact ⟨hspan.writable, (haddress hlo_mem).fits.writable⟩

lemma interleave_injective : Function.Injective interleave := by
  intro slots slots' h
  have hrows := map_eq_of_flatMap_eq (by decide : 0 < 2) (fun _ => rfl) h
  refine eq_of_map_eq (fun s _ t _ hst => ?_) hrows
  obtain ⟨haddress, hvalue⟩ : s.address = t.address ∧ s.value = t.value := by simpa using hst
  cases s
  cases t
  exact congrArg₂ Slot.mk haddress hvalue

namespace PageFacts

variable {cells : List Cell} {facts facts' : PageFacts}

/-! ### The numbers of pages -/

/-- The numbers of the pages fit into words. -/
structure Fits (facts : PageFacts) : Prop where
  regular : ∀ slots ∈ facts.regular, ∀ n ∈ interleave slots, Word.Fits n
  continuous : ∀ p ∈ facts.continuous, Word.Fits p.start ∧ ∀ v ∈ p.values, Word.Fits v

/-- The numbers of the pages fit into words if those of the cells do. -/
lemma fits_of_cells (hcells : ∀ c ∈ cells, Word.Fits c.address ∧ Word.Fits c.value)
    (h : (ofCells cells).outcome = .ok facts) : facts.Fits := by
  have hzero : Word.Fits 0 := by decide
  obtain ⟨hregular, hcontinuous⟩ := forall_mem hzero hcells h
  exact ⟨hregular, hcontinuous⟩

lemma fits_of_canonical
    (hcells : ∀ c ∈ cells, Field.IsCanonical c.address ∧ Field.IsCanonical c.value)
    (h : (ofCells cells).outcome = .ok facts) : facts.Fits :=
  fits_of_cells (fun c hc => ⟨(hcells c hc).1.fits, (hcells c hc).2.fits⟩) h

/-! ### The words about pages -/

/-- The hash of a row of integers that fit into words. -/
def rowHash (row : List ℤ) : ℕ := hashOf (row.map Int.toNat)

/-- The words about the regular page. -/
def regularWords (slots : List Slot) : List ℤ :=
  [(slots.length : ℤ), (rowHash (interleave slots) : ℤ)]

/-- The words about a start with values. -/
def pairWords (q : ℤ × List ℤ) : List ℤ := [q.1, (q.2.length : ℤ), (rowHash q.2 : ℤ)]

/-- The words about a continuous page. -/
def continuousWords (p : ContinuousPage) : List ℤ := pairWords (p.start, p.values)

/-- The words about all pages. -/
def words (facts : PageFacts) : List ℤ :=
  facts.regular.toList.flatMap regularWords ++ facts.continuous.flatMap continuousWords

/-- Pages whose numbers fit into words are spoken of in their words. -/
theorem exists_sortedPages (h : facts.Fits) (hrows : facts.HasRows) :
    ∃ infos, facts.sortedPages = .ok infos ∧
      infos.flatMap PublicInput.pageWords = facts.words := by
  let row (q : ℤ) : List Slot := (facts.table.lookup q).getD []
  let regular (slots : List Slot) : PageInfo :=
    ⟨regularPage, slots.length, rowHash (interleave slots), none, row regularPage⟩
  let continuous (p : ContinuousPage) : PageInfo :=
    ⟨p.page, p.values.length, rowHash p.values, some p.start, row p.page⟩
  refine ⟨facts.regular.toList.map regular ++ facts.continuous.map continuous,
    sortedPages_eq_ok.mpr ⟨_, _, ?_, ?_, rfl⟩, ?_⟩
  · refine List.forall₂_map_right_iff.mpr (List.forall₂_same.mpr fun slots hslots => ?_)
    have hfits := h.regular slots (Option.mem_toList.mp hslots)
    obtain ⟨found, hfound⟩ := hrows.regular slots (Option.mem_toList.mp hslots)
    refine regularInfo_eq_ok.mpr ⟨_, found, Entry.hashIntegers_eq_ok.mpr ⟨hfits, rfl⟩, hfound, ?_⟩
    simp only [regular, row, hfound, Option.getD_some, rowHash]
  · refine List.forall₂_map_right_iff.mpr (List.forall₂_same.mpr fun p hp => ?_)
    have hfits := (h.continuous p hp).2
    obtain ⟨found, hfound⟩ := hrows.continuous p hp
    refine continuousInfo_eq_ok.mpr
      ⟨_, found, Entry.hashIntegers_eq_ok.mpr ⟨hfits, rfl⟩, hfound, ?_⟩
    simp only [continuous, row, hfound, Option.getD_some, rowHash]
  · rw [List.flatMap_append, List.flatMap_map, List.flatMap_map]
    rfl

/-- Pages with the same addresses and values have the same words. -/
lemma words_congr (hregular : facts.pairs = facts'.pairs)
    (hcontinuous : facts.continuous.map (fun p => (p.start, p.values)) =
      facts'.continuous.map fun p => (p.start, p.values)) :
    facts.words = facts'.words := by
  have hslots : facts.regular = facts'.regular :=
    Option.map_injective interleave_injective hregular
  have hpages (pages : List ContinuousPage) : pages.flatMap continuousWords =
      (pages.map fun p => (p.start, p.values)).flatMap pairWords := by
    rw [List.flatMap_map]
    rfl
  rw [words, words, hslots, hpages, hpages, hcontinuous]

/-! ### The pages behind the words -/

/-- The rows of integers that are hashed. -/
def contents (facts : PageFacts) : List (List ℤ) :=
  facts.pairs.toList ++ facts.continuous.map ContinuousPage.values

/-- The hash does not collide on the contents of two memories. -/
def CollisionFree (facts facts' : PageFacts) : Prop :=
  ∀ row ∈ facts.contents, ∀ row' ∈ facts'.contents, ∀ bytes bytes',
    Entry.packIntegers row = .ok bytes → Entry.packIntegers row' = .ok bytes' →
      Keccak.digest bytes = Keccak.digest bytes' → bytes = bytes'

/-- Without collisions the hash of a row determines the row. -/
lemma CollisionFree.row_eq {row row' : List ℤ} (hfree : CollisionFree facts facts')
    (hmem : row ∈ facts.contents) (hmem' : row' ∈ facts'.contents)
    (hrow : ∀ n ∈ row, Word.Fits n) (hrow' : ∀ n ∈ row', Word.Fits n)
    (h : rowHash row = rowHash row') : row = row' := by
  have hlt {l : List ℤ} (hl : ∀ n ∈ l, Word.Fits n) : ∀ m ∈ l.map Int.toNat, m < limit := by
    intro m hm
    obtain ⟨n, hn, rfl⟩ := List.mem_map.mp hm
    obtain ⟨hnonneg, hlimit⟩ := hl n hn
    omega
  have hbytes : packed (row.map Int.toNat) = packed (row'.map Int.toNat) :=
    hfree row hmem row' hmem' _ _ (Entry.packIntegers_eq_ok.mpr ⟨hrow, rfl⟩)
      (Entry.packIntegers_eq_ok.mpr ⟨hrow', rfl⟩) (digest_eq_of_hashOf_eq h)
  refine eq_of_map_eq (fun n hn m hm hnm => ?_) (packed_injective (hlt hrow) (hlt hrow') hbytes)
  rw [← Int.toNat_of_nonneg (hrow n hn).1, hnm, Int.toNat_of_nonneg (hrow' m hm).1]

/-- Without collisions the words about the regular pages determine them. -/
lemma CollisionFree.regular_eq (hfree : CollisionFree facts facts') (hfits : facts.Fits)
    (hfits' : facts'.Fits)
    (h : facts.regular.toList.map regularWords = facts'.regular.toList.map regularWords) :
    facts.regular = facts'.regular := by
  have hcontent {fs : PageFacts} {slots : List Slot} (hslots : slots ∈ fs.regular.toList) :
      interleave slots ∈ fs.contents := by
    have hregular : fs.regular = some slots := Option.mem_toList.mp hslots
    rw [contents, pairs, hregular]
    exact List.mem_append_left _ (.head _)
  have hlist : facts.regular.toList = facts'.regular.toList := by
    refine eq_of_map_eq (fun slots hs slots' hs' hwords => ?_) h
    obtain ⟨-, hhash⟩ : slots.length = slots'.length ∧
        rowHash (interleave slots) = rowHash (interleave slots') := by
      simpa [regularWords] using hwords
    exact interleave_injective (hfree.row_eq (hcontent hs) (hcontent hs')
      (hfits.regular slots (Option.mem_toList.mp hs))
      (hfits'.regular slots' (Option.mem_toList.mp hs')) hhash)
  simpa only [Option.head?_toList] using congrArg List.head? hlist

/-- Without collisions the words about the continuous pages determine starts and values. -/
lemma CollisionFree.continuous_eq (hfree : CollisionFree facts facts') (hfits : facts.Fits)
    (hfits' : facts'.Fits)
    (h : facts.continuous.map continuousWords = facts'.continuous.map continuousWords) :
    facts.continuous.map (fun p => (p.start, p.values)) =
      facts'.continuous.map fun p => (p.start, p.values) := by
  have hcontent {fs : PageFacts} {p : ContinuousPage} (hp : p ∈ fs.continuous) :
      p.values ∈ fs.contents :=
    List.mem_append_right _ (List.mem_map_of_mem hp)
  have hwords : (facts.continuous.map fun p => (p.start, p.values)).map pairWords =
      (facts'.continuous.map fun p => (p.start, p.values)).map pairWords := by
    rw [List.map_map, List.map_map]
    exact h
  refine eq_of_map_eq (fun q hq q' hq' hqq => ?_) hwords
  obtain ⟨p, hp, rfl⟩ := List.mem_map.mp hq
  obtain ⟨p', hp', rfl⟩ := List.mem_map.mp hq'
  obtain ⟨hstart, -, hhash⟩ : p.start = p'.start ∧ p.values.length = p'.values.length ∧
      rowHash p.values = rowHash p'.values := by
    simpa [pairWords] using hqq
  rw [hstart, hfree.row_eq (hcontent hp) (hcontent hp') (hfits.continuous p hp).2
    (hfits'.continuous p' hp').2 hhash]

/-- **The words about the pages bind them**: memories that both have a regular page, or both have
none, and whose pages have the same words, have the same pages, if the hash does not collide on
them. -/
theorem pages_eq_of_words_eq (hfree : CollisionFree facts facts') (hfits : facts.Fits)
    (hfits' : facts'.Fits) (hregular : facts.regular.isSome = facts'.regular.isSome)
    (h : facts.words = facts'.words) :
    facts.regular = facts'.regular ∧ facts.continuous.map (fun p => (p.start, p.values)) =
      facts'.continuous.map fun p => (p.start, p.values) := by
  have hlength : (facts.regular.toList.flatMap regularWords).length =
      (facts'.regular.toList.flatMap regularWords).length := by
    cases hr : facts.regular <;> cases hr' : facts'.regular <;>
      simp_all [regularWords]
  obtain ⟨hfirst, hrest⟩ := List.append_inj h hlength
  have hslots := map_eq_of_flatMap_eq (by decide : 0 < 2) (fun _ => rfl) hfirst
  have hpages := map_eq_of_flatMap_eq (by decide : 0 < 3) (fun _ => rfl) hrest
  exact ⟨hfree.regular_eq hfits hfits' hslots, hfree.continuous_eq hfits hfits' hpages⟩

end PageFacts

end Memory

end StarkCalldata
