import StarkCalldata.Proofs.Memory.Commitment
import StarkCalldata.Proofs.Memory.PermutationProduct
import StarkCalldata.Task.Metadata

/-!
What may be seen of a public memory.

The verifier sees the padding cell, the regular page in its order, and of every other page which
values its addresses carry; it sees neither the numbers of these pages nor the order of their cells.
Two memories that look the same in this sense are told apart by nothing that is computed from them:

* `SameView`: two memories look the same;
* `IsTooWide`, `widePages`: the pages that cannot be registered, since they are too wide;
* `kind_ofCells_of_isLeast`: the least of them is at fault, in a message that quotes its number;
* `agree_ofCells`, `PageFacts.SameView`: without such a page the facts about the pages look the
  same, or neither memory has any;
* `PageFacts.SameView.agree_sortedPages`, `PageInfo.SameView`: so does what the public input says
  about the pages, for which the hashes and the products are the same;
* `lastValue?_congr`: the same value is found at every address.
-/

namespace StarkCalldata

open Text Memory

namespace Memory

variable {m m' : List Cell} {slots slots' : List Slot} {a : ℤ}

/-- Two memories look the same: they have the same padding cell, the same regular page in the same
order, and in ascending order of the other pages the same slots, in any order, on each. -/
structure SameView (m m' : List Cell) : Prop where
  padding : m.head?.map Cell.slot = m'.head?.map Cell.slot
  regular : slotsOn m regularPage = slotsOn m' regularPage
  continuous : List.Forall₂ (fun q q' => (slotsOn m q).Perm (slotsOn m' q'))
    (otherPages m) (otherPages m')

/-! ### The value at an address -/

/-- A slot of a memory is on the regular page or on one of the others. -/
lemma mem_map_slot {s : Slot} :
    s ∈ m.map Cell.slot ↔ s ∈ slotsOn m regularPage ∨ ∃ q ∈ otherPages m, s ∈ slotsOn m q := by
  simp only [List.mem_map, mem_slotsOn, mem_otherPages]
  constructor
  · rintro ⟨c, hc, rfl⟩
    by_cases hq : c.page = regularPage
    · exact .inl ⟨c, hc, hq, rfl⟩
    · exact .inr ⟨c.page, ⟨hq, c, hc, rfl⟩, c, hc, rfl, rfl⟩
  · rintro (⟨c, hc, -, rfl⟩ | ⟨_, -, c, hc, -, rfl⟩)
    · exact ⟨c, hc, rfl⟩
    · exact ⟨c, hc, rfl⟩

lemma exists_mem_iff_of_forall₂ {α β : Type} {P : α → Prop} {Q : β → Prop} {as : List α}
    {bs : List β} (h : List.Forall₂ (fun a b => P a ↔ Q b) as bs) :
    (∃ a ∈ as, P a) ↔ ∃ b ∈ bs, Q b := by
  induction h with
  | nil => simp
  | cons hab _ ih => simp only [List.exists_mem_cons_iff, hab, ih]

lemma SameView.mem_map_slot_iff (h : SameView m m') {s : Slot} :
    s ∈ m.map Cell.slot ↔ s ∈ m'.map Cell.slot := by
  have hother : (∃ q ∈ otherPages m, s ∈ slotsOn m q) ↔ ∃ q ∈ otherPages m', s ∈ slotsOn m' q :=
    exists_mem_iff_of_forall₂ (h.continuous.imp fun _ _ hperm => hperm.mem_iff)
  rw [mem_map_slot, mem_map_slot, h.regular, hother]

lemma SingleValued.slotsOn (h : SingleValued (m.map Cell.slot)) (q : ℤ) :
    SingleValued (slotsOn m q) := by
  have hmem : ∀ s ∈ Memory.slotsOn m q, s ∈ m.map Cell.slot := by
    intro s hs
    obtain ⟨c, hc, -, rfl⟩ := mem_slotsOn.mp hs
    exact List.mem_map_of_mem hc
  exact fun s hs s' hs' => h s (hmem s hs) s' (hmem s' hs')

/-- Where no address carries two values, the value that is found at an address is that of its
slot. -/
lemma lastValue?_eq_some (h : SingleValued (m.map Cell.slot)) {v : ℤ} :
    lastValue? m a = some v ↔ ⟨a, v⟩ ∈ m.map Cell.slot := by
  rw [lastValue?]
  constructor
  · intro hfound
    obtain ⟨c, hc, rfl⟩ := Option.map_eq_some_iff.mp hfound
    have haddress : c.address = a := by simpa using List.find?_some hc
    have hmem := List.mem_reverse.mp (List.mem_of_find?_eq_some hc)
    exact List.mem_map.mpr ⟨c, hmem, by rw [Cell.slot, haddress]⟩
  · intro hmem
    obtain ⟨c, hc, hslot⟩ := List.mem_map.mp hmem
    have haddress : c.address = a := congrArg Slot.address hslot
    have hvalue : c.value = v := congrArg Slot.value hslot
    cases hfind : m.reverse.find? fun c => c.address = a with
    | none =>
        have hnone := List.find?_eq_none.mp hfind c (List.mem_reverse.mpr hc)
        exact absurd haddress (by simpa using hnone)
    | some c' =>
        have haddress' : c'.address = a := by simpa using List.find?_some hfind
        have hc' := List.mem_reverse.mp (List.mem_of_find?_eq_some hfind)
        have heq : c'.slot.value = c.slot.value :=
          h _ (List.mem_map_of_mem hc') _ (List.mem_map_of_mem hc) (haddress'.trans haddress.symm)
        exact congrArg some (heq.trans hvalue)

/-- In memories with the same slots the same value is found at every address. -/
lemma lastValue?_congr (h : SingleValued (m.map Cell.slot)) (h' : SingleValued (m'.map Cell.slot))
    (hslots : ∀ s, s ∈ m.map Cell.slot ↔ s ∈ m'.map Cell.slot) : lastValue? m = lastValue? m' := by
  funext a
  ext v
  rw [lastValue?_eq_some h, lastValue?_eq_some h', hslots]

/-! ### The pages -/

lemma min?_perm {as bs : List ℤ} (h : as.Perm bs) : as.min? = bs.min? := by
  ext lo
  simp only [List.min?_eq_some_iff, h.mem_iff]

lemma max?_perm {as bs : List ℤ} (h : as.Perm bs) : as.max? = bs.max? := by
  ext hi
  simp only [List.max?_eq_some_iff, h.mem_iff]

/-- Two addresses of a page are too far apart for it to be registered. -/
def IsTooWide (slots : List Slot) : Prop :=
  ∃ s ∈ slots, ∃ s' ∈ slots, maxSpan ≤ s'.address - s.address

/-- The pages of a memory that are too wide. -/
def widePages (m : List Cell) : Set ℤ := {q | q ≠ regularPage ∧ IsTooWide (slotsOn m q)}

lemma IsTooWide.perm (h : slots.Perm slots') (hwide : IsTooWide slots) : IsTooWide slots' := by
  obtain ⟨s, hs, s', hs', hfar⟩ := hwide
  exact ⟨s, h.mem_iff.mp hs, s', h.mem_iff.mp hs', hfar⟩

/-- A page of addresses of the field is oversized exactly when it is too wide. -/
lemma oversized_iff_isTooWide {lo hi : ℤ} (hslots : ∀ s ∈ slots, Field.IsCanonical s.address)
    (hlo : (slots.map Slot.address).min? = some lo)
    (hhi : (slots.map Slot.address).max? = some hi) :
    ContinuousPage.Oversized lo hi ↔ IsTooWide slots := by
  obtain ⟨hlo_mem, hlo_le⟩ := List.min?_eq_some_iff.mp hlo
  obtain ⟨hhi_mem, hhi_ge⟩ := List.max?_eq_some_iff.mp hhi
  obtain ⟨first, hfirst, rfl⟩ := List.mem_map.mp hlo_mem
  obtain ⟨last, hlast, rfl⟩ := List.mem_map.mp hhi_mem
  have hbelow := (hslots last hlast).2
  constructor
  · intro hsize
    refine ⟨first, hfirst, last, hlast, ?_⟩
    rw [ContinuousPage.Oversized] at hsize
    omega
  · rintro ⟨s, hs, s', hs', hfar⟩
    have hge := hlo_le _ (List.mem_map_of_mem hs)
    have hle := hhi_ge _ (List.mem_map_of_mem hs')
    rw [ContinuousPage.Oversized]
    omega

/-- Pages with the same slots in any order are built alike, whatever their numbers, unless they are
too wide. -/
lemma ContinuousPage.agree_build {page page' : ℤ} (hslots : slots.Perm slots')
    (hsingle : SingleValued slots) (hne : slots ≠ [])
    (hcanonical : ∀ s ∈ slots, Field.IsCanonical s.address) (hwide : ¬ IsTooWide slots) :
    Agree (fun p p' : ContinuousPage => p.page = page ∧ p'.page = page' ∧ p.start = p'.start ∧
      p.values = p'.values) (build page slots).outcome (build page' slots').outcome := by
  obtain ⟨lo, hi, hlo, hhi⟩ := exists_bounds hne
  have hlo' := (min?_perm (hslots.map Slot.address)).symm.trans hlo
  have hhi' := (max?_perm (hslots.map Slot.address)).symm.trans hhi
  have hsize : ¬ Oversized lo hi := mt (oversized_iff_isTooWide hcanonical hlo hhi).mp hwide
  obtain ⟨known, hknown⟩ := exists_settle hsingle
  obtain ⟨known', hknown'⟩ := exists_settle (hsingle.perm hslots)
  rw [outcome_build page hlo hhi, outcome_build page' hlo' hhi', if_neg hsize, if_neg hsize, hknown,
    hknown']
  exact .result ⟨rfl, rfl, rfl, hsingle.layOut_perm hslots _ _⟩

/-- The facts about pages look the same: they have the same regular page, and correspondingly on the
other pages the same starts and values, and the same slots in any order. -/
structure PageFacts.SameView (facts facts' : PageFacts) : Prop where
  regular : facts.regular = facts'.regular
  table : facts.table.row regularPage = facts'.table.row regularPage
  continuous : List.Forall₂ (fun p p' : ContinuousPage => p.start = p'.start ∧
      p.values = p'.values ∧ Agree List.Perm (facts.table.row p.page) (facts'.table.row p'.page))
    facts.continuous facts'.continuous

lemma forall_address_slotsOn {P : ℤ → Prop} (h : ∀ c ∈ m, P c.address) (q : ℤ) :
    ∀ s ∈ slotsOn m q, P s.address := by
  intro s hs
  obtain ⟨c, hc, -, rfl⟩ := mem_slotsOn.mp hs
  exact h c hc

/-- The pages of memories that look the same look the same, or neither memory has any, as long as
no page is too wide. -/
theorem agree_ofCells (h : SameView m m') (hsingle : SingleValued (m.map Cell.slot))
    (hcanonical : ∀ c ∈ m, Field.IsCanonical c.address) (hwide : widePages m = ∅) :
    Agree PageFacts.SameView (PageFacts.ofCells m).outcome (PageFacts.ofCells m').outcome := by
  rw [PageFacts.outcome_ofCells, PageFacts.outcome_ofCells]
  have hpages : Agree (List.Forall₂ fun p p' : ContinuousPage => p.start = p'.start ∧
      p.values = p'.values ∧ Agree List.Perm ((PageTable.ofCells m).row p.page)
        ((PageTable.ofCells m').row p'.page))
      ((otherPages m).mapM fun q => (ContinuousPage.build q (slotsOn m q)).outcome)
      ((otherPages m').mapM fun q => (ContinuousPage.build q (slotsOn m' q)).outcome) := by
    refine Agree.mapM h.continuous fun q hq q' hq' hperm => ?_
    obtain ⟨hregular, c, hc, hcq⟩ := mem_otherPages.mp hq
    have hne : slotsOn m q ≠ [] := fun hnil => slotsOn_eq_nil.mp hnil c hc hcq
    have hnarrow : ¬ IsTooWide (slotsOn m q) :=
      fun h => (Set.eq_empty_iff_forall_notMem.mp hwide) q ⟨hregular, h⟩
    refine (ContinuousPage.agree_build hperm (hsingle.slotsOn q) hne
      (forall_address_slotsOn hcanonical q) hnarrow).mono ?_
    rintro p p' ⟨rfl, rfl, hstart, hvalues⟩
    refine ⟨hstart, hvalues, ?_⟩
    rw [PageTable.row_ofCells (mem_pageNumbers.mpr (mem_otherPages.mp hq).2),
      PageTable.row_ofCells (mem_pageNumbers.mpr (mem_otherPages.mp hq').2)]
    exact .result hperm
  refine hpages.bind fun pages pages' hsame => .result ⟨?_, ?_, hsame⟩
  · rw [PageTable.lookup_ofCells, PageTable.lookup_ofCells]
    simp only [mem_pageNumbers_iff_slotsOn, h.regular]
  · rw [PageTable.row, PageTable.row, PageTable.lookup_ofCells, PageTable.lookup_ofCells]
    simp only [mem_pageNumbers_iff_slotsOn, h.regular]

/-! ### Pages that are too wide -/

lemma mem_widePages {q : ℤ} : q ∈ widePages m ↔ q ∈ otherPages m ∧ IsTooWide (slotsOn m q) := by
  rw [mem_otherPages]
  constructor
  · rintro ⟨hregular, hwide⟩
    have ⟨s, hs, _⟩ := hwide
    obtain ⟨c, hc, hcq, -⟩ := mem_slotsOn.mp hs
    exact ⟨⟨hregular, c, hc, hcq⟩, hwide⟩
  · rintro ⟨⟨hregular, -⟩, hwide⟩
    exact ⟨hregular, hwide⟩

lemma SameView.widePages_nonempty (h : SameView m m') :
    (widePages m).Nonempty ↔ (widePages m').Nonempty := by
  have hpages : (∃ q ∈ otherPages m, IsTooWide (slotsOn m q)) ↔
      ∃ q' ∈ otherPages m', IsTooWide (slotsOn m' q') :=
    exists_mem_iff_of_forall₂ (h.continuous.imp fun _ _ hperm => ⟨.perm hperm, .perm hperm.symm⟩)
  simpa only [Set.Nonempty, mem_widePages] using hpages

lemma exists_isLeast_widePages (h : (widePages m).Nonempty) : ∃ q, IsLeast (widePages m) q := by
  have hfinite : (widePages m).Finite :=
    (List.finite_toSet (otherPages m)).subset fun q hq => (mem_widePages.mp hq).1
  obtain ⟨q, hq, hle⟩ := Set.exists_min_image (widePages m) id hfinite h
  exact ⟨q, hq, hle⟩

/-- The message about a page that is too wide quotes the number of the page. -/
lemma ContinuousPage.kind_build_of_isTooWide (page : ℤ) (hwide : IsTooWide slots)
    (hcanonical : ∀ s ∈ slots, Field.IsCanonical s.address) :
    ∃ f, (build page slots).outcome = .error f ∧
      f.kind = if Writable page then .inconsistency else .value := by
  have ⟨s, hs, _⟩ := hwide
  obtain ⟨lo, hi, hlo, hhi⟩ := exists_bounds (List.ne_nil_of_mem hs)
  have hsize := (oversized_iff_isTooWide hcanonical hlo hhi).mpr hwide
  have hbounds := writable_bounds hcanonical hlo hhi
  refine ⟨_, by rw [outcome_build page hlo hhi, if_pos hsize], ?_⟩
  rw [Fault.kind_quoting]
  simp only [List.forall_mem_cons, hbounds, List.not_mem_nil, false_imp_iff, implies_true, and_true]
  rfl

lemma ContinuousPage.exists_build (page : ℤ) (hsingle : SingleValued slots) (hne : slots ≠ [])
    (hcanonical : ∀ s ∈ slots, Field.IsCanonical s.address) (hwide : ¬ IsTooWide slots) :
    ∃ p, (build page slots).outcome = .ok p := by
  obtain ⟨lo, hi, hlo, hhi⟩ := exists_bounds hne
  have hsize : ¬ Oversized lo hi := mt (oversized_iff_isTooWide hcanonical hlo hhi).mp hwide
  exact ⟨_, build_eq_ok.mpr ⟨lo, hi, hlo, hhi, hsize, hsingle, rfl⟩⟩

/-- Pages are built in ascending order, so the least that is too wide is at fault. -/
theorem kind_ofCells_of_isLeast {q : ℤ} (hsingle : SingleValued (m.map Cell.slot))
    (hcanonical : ∀ c ∈ m, Field.IsCanonical c.address) (hq : IsLeast (widePages m) q) :
    ∃ f, (PageFacts.ofCells m).outcome = .error f ∧
      f.kind = if Writable q then .inconsistency else .value := by
  obtain ⟨hmem, hwide⟩ := mem_widePages.mp hq.1
  obtain ⟨before, after, hpages⟩ := List.append_of_mem hmem
  obtain ⟨f, hf, hkind⟩ :=
    ContinuousPage.kind_build_of_isTooWide q hwide (forall_address_slotsOn hcanonical q)
  have hbefore : ∀ q' ∈ before, ∃ p, (ContinuousPage.build q' (slotsOn m q')).outcome = .ok p := by
    intro q' hq'
    have hmem' : q' ∈ otherPages m := hpages ▸ List.mem_append_left _ hq'
    have hlt : q' < q := by
      have hascending := hpages ▸ pairwise_otherPages m
      exact (List.pairwise_append.mp hascending).2.2 q' hq' q (.head _)
    have hnarrow : ¬ IsTooWide (slotsOn m q') :=
      fun h => (hq.2 (mem_widePages.mpr ⟨hmem', h⟩)).not_gt hlt
    obtain ⟨-, c, hc, hcq⟩ := mem_otherPages.mp hmem'
    exact ContinuousPage.exists_build q' (hsingle.slotsOn q')
      (fun hnil => slotsOn_eq_nil.mp hnil c hc hcq) (forall_address_slotsOn hcanonical q') hnarrow
  refine ⟨f, ?_, hkind⟩
  rw [PageFacts.outcome_ofCells, Outcome.mapM_eq_error.mpr ⟨before, q, after, hpages, hbefore, hf⟩]
  rfl

/-! ### What the public input says -/

/-- What is said about two pages looks the same: the same but for their numbers, and with the same
slots in any order. -/
structure PageInfo.SameView (info info' : PageInfo) : Prop where
  size : info.size = info'.size
  hash : info.hash = info'.hash
  start : info.start = info'.start
  slots : info.slots.Perm info'.slots

lemma pageWords_congr {infos infos' : List PageInfo}
    (h : List.Forall₂ PageInfo.SameView infos infos') :
    infos.flatMap PublicInput.pageWords = infos'.flatMap PublicInput.pageWords := by
  induction h with
  | nil => rfl
  | cons hinfo _ ih =>
      rw [List.flatMap_cons, List.flatMap_cons, ih, PublicInput.pageWords, PublicInput.pageWords,
        hinfo.size, hinfo.hash, hinfo.start]

lemma products_congr {infos infos' : List PageInfo}
    (h : List.Forall₂ PageInfo.SameView infos infos') (z alpha : ℤ) :
    PublicInput.products infos z alpha = PublicInput.products infos' z alpha := by
  induction h with
  | nil => rfl
  | cons hinfo _ ih =>
      rw [PublicInput.products, PublicInput.products, List.map_cons, List.map_cons,
        permutationProduct_perm hinfo.slots]
      exact congrArg _ ih

namespace PageFacts.SameView

variable {facts facts' : PageFacts}

lemma count_eq (h : facts.SameView facts') : facts.count = facts'.count := by
  rw [count, count, h.regular, h.continuous.length_eq]

lemma pairs_eq (h : facts.SameView facts') : facts.pairs = facts'.pairs := by
  rw [pairs, pairs, h.regular]

/-- About pages that look the same, the public input says the same, or nothing can be said. -/
theorem agree_sortedPages (h : facts.SameView facts') :
    Agree (List.Forall₂ PageInfo.SameView) facts.sortedPages facts'.sortedPages := by
  have hregular : Agree (List.Forall₂ PageInfo.SameView)
      (facts.regular.toList.mapM facts.regularInfo)
      (facts'.regular.toList.mapM facts'.regularInfo) := by
    rw [h.regular]
    refine Agree.mapM (Q := Eq) (List.forall₂_same.mpr fun _ _ => rfl) ?_
    rintro slots _ _ _ rfl
    refine (Agree.rfl Eq.refl (Entry.hashIntegers (interleave slots))).bind ?_
    rintro hash _ rfl
    rw [h.table]
    refine (Agree.rfl Eq.refl _).bind ?_
    rintro row _ rfl
    exact .result ⟨rfl, rfl, rfl, .refl _⟩
  have hcontinuous : Agree (List.Forall₂ PageInfo.SameView)
      (facts.continuous.mapM facts.continuousInfo)
      (facts'.continuous.mapM facts'.continuousInfo) := by
    refine Agree.mapM h.continuous fun p _ p' _ hp => ?_
    obtain ⟨hstart, hvalues, hslots⟩ := hp
    refine Agree.bind (R := Eq) ?_ ?_
    · rw [ContinuousPage.hash, ContinuousPage.hash, hvalues]
      exact Agree.rfl Eq.refl _
    · rintro hash _ rfl
      refine hslots.bind fun row row' hrow => .result ⟨?_, rfl, congrArg some hstart, hrow⟩
      rw [ContinuousPage.size, ContinuousPage.size, hvalues]
  refine hregular.bind fun infos infos' hinfos => hcontinuous.bind fun rest rest' hrest => ?_
  exact .result (List.rel_append hinfos hrest)

end PageFacts.SameView

end Memory

end StarkCalldata
