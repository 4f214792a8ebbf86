import StarkCalldata.Proofs.Memory.DenseLayout
import StarkCalldata.Proofs.Memory.PermutationProduct

/-!
The permutation product of a page and what is registered of it.

The product of a page runs over its slots as they came, with their repeats. What is registered is a
row of values over all addresses, with zeros where no slot lies. The two differ by the repeats and
the gaps and by nothing else: up to their order, the registered slots are the different slots of the
page and, for every gap, the slot that holds zero there.

* `ContinuousPage.registered`, `ContinuousPage.gaps`: the slots that are registered, and those among
  them that no cell is responsible for;
* `mem_registered_iff`, `registered_perm`: the registered slots are the different ones and the gaps;
* `registered_product`: so the product of what is registered is that of the different slots times
  that of the gaps.
-/

namespace StarkCalldata.Memory.ContinuousPage

variable {page a z alpha : ℤ} {p : ContinuousPage} {slots : List Slot} {s : Slot}

/-! ### Registered slots -/

/-- The slots that a page registers, one for each of its values. -/
def registered (p : ContinuousPage) : List Slot := p.values.mapIdx fun i value => ⟨p.start + i, value⟩

/-- The addresses that a page spreads over. -/
def range (p : ContinuousPage) : List ℤ := (List.range p.size).map fun (i : ℕ) => p.start + i

/-- The slots of the addresses in the range of a page that none of the given slots has; they hold
zero. -/
def gaps (p : ContinuousPage) (slots : List Slot) : List Slot :=
  (p.range.filter fun a => a ∉ slots.map Slot.address).map fun a => ⟨a, 0⟩

lemma mem_range : a ∈ p.range ↔ ∃ i < p.size, a = p.start + (i : ℕ) := by
  simp [range, eq_comm]

lemma mem_registered :
    s ∈ p.registered ↔ ∃ i : ℕ, p.values[i]? = some s.value ∧ s.address = p.start + i := by
  rw [registered, List.mem_mapIdx]
  constructor
  · rintro ⟨i, hi, rfl⟩
    exact ⟨i, List.getElem?_eq_getElem hi, rfl⟩
  · rintro ⟨i, hvalue, haddress⟩
    obtain ⟨hi, hvalue⟩ := List.getElem?_eq_some_iff.mp hvalue
    refine ⟨i, hi, ?_⟩
    rw [hvalue, ← haddress]

lemma mem_gaps :
    s ∈ p.gaps slots ↔ s.address ∈ p.range ∧ (∀ s' ∈ slots, s'.address ≠ s.address) ∧
      s.value = 0 := by
  obtain ⟨address, value⟩ := s
  simp [gaps, and_assoc, eq_comm]

lemma address_mem_range (hs : s ∈ p.registered) : s.address ∈ p.range := by
  obtain ⟨i, hvalue, haddress⟩ := mem_registered.mp hs
  exact mem_range.mpr ⟨i, (List.getElem?_eq_some_iff.mp hvalue).1, haddress⟩

lemma nodup_registered (p : ContinuousPage) : p.registered.Nodup := by
  rw [registered, List.nodup_iff_injective_getElem]
  intro i j h
  simp only [List.getElem_mapIdx, Slot.mk.injEq] at h
  exact Fin.ext (by omega)

lemma nodup_gaps (p : ContinuousPage) (slots : List Slot) : (p.gaps slots).Nodup := by
  have hrange : p.range.Nodup :=
    List.nodup_range.map fun i j h => Int.ofNat_inj.mp (add_left_cancel h)
  exact (hrange.filter _).map fun a b h => congrArg Slot.address h

/-! ### Repeats and gaps -/

/-- What a page registers are its slots and its gaps. -/
lemma mem_registered_iff (h : (build page slots).outcome = .ok p) :
    s ∈ p.registered ↔ s ∈ slots ∨ s ∈ p.gaps slots := by
  have hlaid := isLaidOut_of_build h
  have hslots {s' : Slot} (hs' : s' ∈ slots) : s' ∈ p.registered := by
    obtain ⟨hge, -, hvalue⟩ := hlaid.value_at s' hs'
    exact mem_registered.mpr ⟨_, hvalue, by omega⟩
  constructor
  · intro hs
    obtain ⟨i, hvalue, haddress⟩ := mem_registered.mp hs
    by_cases hfree : ∀ s' ∈ slots, s'.address ≠ s.address
    · -- a value at a free address is zero, since any other value is that of a slot
      refine .inr (mem_gaps.mpr ⟨address_mem_range hs, hfree, ?_⟩)
      by_contra hne
      exact hfree _ (hlaid.slot_of_ne_zero i s.value hvalue hne) haddress.symm
    · push Not at hfree
      obtain ⟨s', hs', hsame⟩ := hfree
      obtain ⟨j, hvalue', haddress'⟩ := mem_registered.mp (hslots hs')
      obtain rfl : i = j := by omega
      have heq : s' = s := by
        rw [hvalue] at hvalue'
        show (⟨s'.address, s'.value⟩ : Slot) = s
        rw [hsame, ← Option.some.inj hvalue']
      exact .inl (heq ▸ hs')
  · rintro (hs | hs)
    · exact hslots hs
    · obtain ⟨hrange, hfree, hzero⟩ := mem_gaps.mp hs
      obtain ⟨i, hi, haddress⟩ := mem_range.mp hrange
      refine mem_registered.mpr ⟨i, ?_, haddress⟩
      obtain ⟨v, hv⟩ : ∃ v, p.values[i]? = some v := ⟨_, List.getElem?_eq_getElem hi⟩
      rw [hv, hzero]
      by_contra hne
      have hslot := hlaid.slot_of_ne_zero i v hv fun hv => hne (congrArg some hv)
      exact hfree _ hslot haddress.symm

/-- Up to their order, the registered slots are the different slots of the page and its gaps. -/
lemma registered_perm (h : (build page slots).outcome = .ok p) :
    p.registered.Perm (slots.dedup ++ p.gaps slots) := by
  have hdisjoint : slots.dedup.Disjoint (p.gaps slots) := by
    intro s hs hgap
    exact (mem_gaps.mp hgap).2.1 s (List.mem_dedup.mp hs) rfl
  have hnodup : (slots.dedup ++ p.gaps slots).Nodup :=
    (List.nodup_dedup slots).append (nodup_gaps p slots) hdisjoint
  refine (List.perm_ext_iff_of_nodup (nodup_registered p) hnodup).mpr fun s => ?_
  rw [mem_registered_iff h, List.mem_append, List.mem_dedup]

/-- Where every address of the range is that of one slot, the registered slots are the slots of the
page in another order. -/
lemma registered_perm_of_count (h : (build page slots).outcome = .ok p)
    (hcount : ∀ a ∈ p.range, (slots.map Slot.address).count a = 1) : p.registered.Perm slots := by
  have hgaps : p.gaps slots = [] := by
    refine List.eq_nil_iff_forall_not_mem.mpr fun s hs => ?_
    obtain ⟨hrange, hfree, -⟩ := mem_gaps.mp hs
    have hmem : s.address ∈ slots.map Slot.address := by
      rw [← List.count_pos_iff, hcount _ hrange]
      exact Nat.one_pos
    obtain ⟨s', hs', hsame⟩ := List.mem_map.mp hmem
    exact hfree s' hs' hsame
  have hnodup : (slots.map Slot.address).Nodup := by
    rw [List.nodup_iff_count_le_one]
    intro a
    by_cases ha : a ∈ slots.map Slot.address
    · obtain ⟨s, hs, rfl⟩ := List.mem_map.mp ha
      have hrange := address_mem_range ((mem_registered_iff h).mpr (.inl hs))
      exact (hcount _ hrange).le
    · rw [List.count_eq_zero_of_not_mem ha]
      exact Nat.zero_le 1
  have hperm := registered_perm h
  rwa [hgaps, List.append_nil, hnodup.of_map.dedup] at hperm

/-- **What is registered differs from the permutation product by the gaps and the repeats.** For
every page that is laid out and all challenges, the product of the registered slots is that of the
different slots of the page times that of the gaps. So where every address of the range is that of
exactly one slot, the product of the slots, as they came, is that of the registered ones. -/
theorem registered_product (h : (build page slots).outcome = .ok p) (z alpha : ℤ) :
    permutationProduct p.registered z alpha =
        permutationProduct slots.dedup z alpha * permutationProduct (p.gaps slots) z alpha %
          Field.prime ∧
      ((∀ a ∈ p.range, (slots.map Slot.address).count a = 1) →
        permutationProduct slots z alpha = permutationProduct p.registered z alpha) := by
  constructor
  · rw [permutationProduct_perm (registered_perm h), permutationProduct_append]
  · intro hcount
    exact (permutationProduct_perm (registered_perm_of_count h hcount) z alpha).symm

/-- The scattered slots are registered with the gap at 11 and without the repeat at 12; two slots in
the other order are registered as they are. -/
theorem scattered_registered_product :
    (build 1 scattered).outcome = .ok ⟨1, 10, [0xA, 0, 0xC]⟩ ∧
      permutationProduct [⟨10, 0xA⟩, ⟨11, 0⟩, ⟨12, 0xC⟩] 17 19 =
        permutationProduct [⟨10, 0xA⟩, ⟨12, 0xC⟩] 17 19 * permutationProduct [⟨11, 0⟩] 17 19 %
          Field.prime ∧
      (build 2 [⟨8, 5⟩, ⟨7, 6⟩]).outcome = .ok ⟨2, 7, [6, 5]⟩ ∧
      permutationProduct [⟨8, 5⟩, ⟨7, 6⟩] 17 19 = permutationProduct [⟨7, 6⟩, ⟨8, 5⟩] 17 19 := by
  have hscattered : (build 1 scattered).outcome = .ok ⟨1, 10, [0xA, 0, 0xC]⟩ := rfl
  have hturned : (build 2 [⟨8, 5⟩, ⟨7, 6⟩]).outcome = .ok ⟨2, 7, [6, 5]⟩ := rfl
  exact ⟨hscattered, (registered_product hscattered 17 19).1, hturned,
    (registered_product hturned 17 19).2 (by decide)⟩

end StarkCalldata.Memory.ContinuousPage
