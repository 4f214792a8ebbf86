import Mathlib.Tactic
import StarkCalldata.Memory.ContinuousPage
import StarkCalldata.Proofs.Outcome

/-!
The dense layout of a page.

A page is settled slot by slot, a slot being refused when its address is known with another value,
and what is settled is laid out over all addresses from the least to the greatest. Neither step
depends on more than the question which value, if any, an address carries:

* `SingleValued`: no address carries two values, which is when a page settles
  (`exists_settle`, `singleValued_of_settle`);
* `slotAt?_settle`: settling changes the slot at no address, so `layOut` may be read off the slots
  as they came (`layOut_settle`) and is the same for every order of them (`layOut_perm`);
* `build_eq_ok`: when a page is built, and which page it is;
* `IsLaidOut`, `isLaidOut_of_build`: the values of a page hold its slots at their addresses, zero in
  between, and nothing before the first or after the last.
-/

namespace StarkCalldata.Memory

/-- No address carries two values. -/
def SingleValued (slots : List Slot) : Prop :=
  ∀ s ∈ slots, ∀ s' ∈ slots, s.address = s'.address → s.value = s'.value

instance (slots : List Slot) : Decidable (SingleValued slots) :=
  inferInstanceAs
    (Decidable (∀ s ∈ slots, ∀ s' ∈ slots, s.address = s'.address → s.value = s'.value))

variable {slots slots' known result : List Slot} {s old : Slot} {a : ℤ}

/-! ### The slot at an address -/

lemma mem_of_slotAt? (h : slotAt? slots a = some s) : s ∈ slots ∧ s.address = a :=
  ⟨List.mem_of_find?_eq_some h, by simpa using List.find?_some h⟩

lemma slotAt?_eq_none : slotAt? slots a = none ↔ ∀ s ∈ slots, s.address ≠ a := by
  simp [slotAt?]

lemma slotAt?_cons :
    slotAt? (s :: slots) a = if s.address = a then some s else slotAt? slots a := by
  unfold slotAt?
  rw [List.find?_cons]
  by_cases h : s.address = a <;> simp [h]

lemma SingleValued.slotAt?_eq (h : SingleValued slots) (hs : s ∈ slots) :
    slotAt? slots s.address = some s := by
  cases hfind : slotAt? slots s.address with
  | none => exact absurd rfl (slotAt?_eq_none.mp hfind s hs)
  | some s' =>
      obtain ⟨hs', haddr⟩ := mem_of_slotAt? hfind
      have hvalue := h s' hs' s hs haddr
      obtain ⟨_, _⟩ := s
      obtain ⟨_, _⟩ := s'
      simp_all

lemma SingleValued.perm (h : SingleValued slots) (hp : slots.Perm slots') : SingleValued slots' :=
  fun s hs s' hs' => h s (hp.mem_iff.mpr hs) s' (hp.mem_iff.mpr hs')

lemma SingleValued.slotAt?_perm (h : SingleValued slots) (hp : slots.Perm slots') (a : ℤ) :
    slotAt? slots a = slotAt? slots' a := by
  cases hfind : slotAt? slots' a with
  | none =>
      rw [slotAt?_eq_none] at hfind ⊢
      exact fun s hs => hfind s (hp.mem_iff.mp hs)
  | some s =>
      obtain ⟨hs, rfl⟩ := mem_of_slotAt? hfind
      exact h.slotAt?_eq (hp.mem_iff.mpr hs)

/-! ### Settling -/

/-- Settling changes the slot at no address: what is known stays, and a new address gets its first
slot. -/
lemma slotAt?_settle (h : settle known slots = .ok result) (a : ℤ) :
    slotAt? result a = (slotAt? known a).or (slotAt? slots a) := by
  induction slots generalizing known with
  | nil =>
      cases h
      simp [slotAt?]
  | cons s rest ih =>
      rw [settle] at h
      cases hs : slotAt? known s.address with
      | none =>
          rw [hs] at h
          rw [ih h, slotAt?_cons, slotAt?_cons]
          by_cases ha : s.address = a
          · subst ha
            simp [hs]
          · simp [ha]
      | some old =>
          rw [hs] at h
          simp only at h
          split_ifs at h with hvalue
          rw [ih h, slotAt?_cons]
          by_cases ha : s.address = a
          · subst ha
            simp [hs]
          · simp [ha]

/-- Every slot that was settled is found with its value. -/
lemma value_of_settle (h : settle known slots = .ok result) :
    ∀ s ∈ slots, (slotAt? result s.address).map Slot.value = some s.value := by
  induction slots generalizing known with
  | nil => simp
  | cons s rest ih =>
      have hresult := slotAt?_settle h s.address
      rw [settle] at h
      intro s' hs'
      cases hs : slotAt? known s.address with
      | none =>
          rw [hs] at h hresult
          rcases List.mem_cons.mp hs' with rfl | hs'
          · simp [hresult, slotAt?_cons]
          · exact ih h s' hs'
      | some old =>
          rw [hs] at h hresult
          simp only at h
          split_ifs at h with hvalue
          rcases List.mem_cons.mp hs' with rfl | hs'
          · simp [hresult, hvalue]
          · exact ih h s' hs'

/-- A slot is refused only when its address is known with another value, which is given. -/
lemma settle_eq_error {value : ℤ} (h : settle known slots = .error (value, s)) :
    s ∈ slots ∧ value ≠ s.value ∧ ⟨s.address, value⟩ ∈ known ++ slots := by
  induction slots generalizing known with
  | nil => cases h
  | cons first rest ih =>
      rw [settle] at h
      cases hfirst : slotAt? known first.address with
      | none =>
          rw [hfirst] at h
          obtain ⟨hs, hne, hmem⟩ := ih h
          refine ⟨.tail _ hs, hne, ?_⟩
          simp only [List.mem_append, List.mem_cons] at hmem ⊢
          tauto
      | some old =>
          obtain ⟨hold, haddr⟩ := mem_of_slotAt? hfirst
          rw [hfirst] at h
          simp only at h
          split_ifs at h with hvalue
          · obtain ⟨hs, hne, hmem⟩ := ih h
            refine ⟨.tail _ hs, hne, ?_⟩
            simp only [List.mem_append, List.mem_cons] at hmem ⊢
            tauto
          · cases h
            refine ⟨.head _, hvalue, List.mem_append_left _ ?_⟩
            rw [← haddr]
            exact hold

/-- Slots settle when no address carries two values. -/
lemma exists_settle (h : SingleValued slots) : ∃ result, settle [] slots = .ok result := by
  cases hsettle : settle [] slots with
  | ok result => exact ⟨result, rfl⟩
  | error conflict =>
      obtain ⟨value, s⟩ := conflict
      obtain ⟨hs, hne, hmem⟩ := settle_eq_error hsettle
      exact absurd (h _ hmem s hs rfl) hne

/-- Slots settle only when no address carries two values. -/
lemma singleValued_of_settle (h : settle [] slots = .ok result) : SingleValued slots := by
  intro s hs s' hs' haddr
  have hv := value_of_settle h s hs
  have hv' := value_of_settle h s' hs'
  rw [haddr, hv'] at hv
  exact (Option.some.inj hv).symm

/-! ### Laying out -/

@[simp] lemma length_layOut (slots : List Slot) (start : ℤ) (count : ℕ) :
    (layOut slots start count).length = count := by
  simp [layOut]

lemma getElem?_layOut {slots : List Slot} {start : ℤ} {count i : ℕ} :
    (layOut slots start count)[i]? =
      if i < count then some (((slotAt? slots (start + i)).map Slot.value).getD 0) else none := by
  by_cases h : i < count <;> simp [layOut, h]

/-- What is settled is laid out as the slots are that it was settled from. -/
lemma layOut_settle (h : settle [] slots = .ok result) (start : ℤ) (count : ℕ) :
    layOut result start count = layOut slots start count := by
  rw [layOut]
  refine List.map_congr_left fun i _ => ?_
  rw [slotAt?_settle h]
  simp [slotAt?]

/-- The order of the slots is irrelevant to the layout. -/
lemma SingleValued.layOut_perm (h : SingleValued slots) (hp : slots.Perm slots') (start : ℤ)
    (count : ℕ) : layOut slots start count = layOut slots' start count := by
  rw [layOut]
  exact List.map_congr_left fun i _ => by rw [h.slotAt?_perm hp]

/-! ### Building a page -/

namespace ContinuousPage

variable {page lo hi : ℤ} {p : ContinuousPage}

/-- A page spreads wider than memory or reaches beyond the field. -/
def Oversized (lo hi : ℤ) : Prop := hi - lo + 1 > maxSpan ∨ hi ≥ Field.prime

instance (lo hi : ℤ) : Decidable (Oversized lo hi) :=
  inferInstanceAs (Decidable (hi - lo + 1 > maxSpan ∨ hi ≥ Field.prime))

/-- A page with slots: an oversized one is refused whatever its values, then the first conflict is,
and what settles is laid out from the least to the greatest address. -/
lemma outcome_build (page : ℤ) (hlo : (slots.map Slot.address).min? = some lo)
    (hhi : (slots.map Slot.address).max? = some hi) :
    (build page slots).outcome =
      if Oversized lo hi then
        .error (Fault.quoting [page, hi - lo + 1, lo] (.pageTooWide page (hi - lo + 1) lo))
      else
        match settle [] slots with
        | .error (old, s) =>
            .error (Fault.quoting [page, s.address]
              (.malformedInput (place page s.address) (.conflictingValues old s.value)))
        | .ok _ => .ok ⟨page, lo, layOut slots lo (hi - lo + 1).toNat⟩ := by
  rw [build, hlo, hhi]
  by_cases hsize : Oversized lo hi
  · have hsize' : hi - lo + 1 > maxSpan ∨ hi ≥ Field.prime := hsize
    simp only [if_pos hsize, if_pos hsize']
    rfl
  · have hsize' : ¬ (hi - lo + 1 > maxSpan ∨ hi ≥ Field.prime) := hsize
    simp only [if_neg hsize, if_neg hsize']
    cases hsettle : settle [] slots with
    | error conflict => rfl
    | ok known =>
        simp only [layOut_settle hsettle]
        split_ifs <;> rfl

lemma exists_bounds (h : slots ≠ []) :
    ∃ lo hi, (slots.map Slot.address).min? = some lo ∧ (slots.map Slot.address).max? = some hi := by
  have hne : slots.map Slot.address ≠ [] := by simpa using h
  exact ⟨_, _, List.min?_eq_some_min hne, List.max?_eq_some_max hne⟩

/-- **When a page is built, and which**: it has a slot, its addresses spread over at most `maxSpan`
and stay below the prime, and none of them carries two values; it then starts at the least address
and holds the values laid out up to the greatest. -/
theorem build_eq_ok :
    (build page slots).outcome = .ok p ↔
      ∃ lo hi, (slots.map Slot.address).min? = some lo ∧ (slots.map Slot.address).max? = some hi ∧
        ¬ Oversized lo hi ∧ SingleValued slots ∧
        p = ⟨page, lo, layOut slots lo (hi - lo + 1).toNat⟩ := by
  constructor
  · intro h
    rcases eq_or_ne slots [] with rfl | hne
    · cases h
    · obtain ⟨lo, hi, hlo, hhi⟩ := exists_bounds hne
      rw [outcome_build page hlo hhi] at h
      split_ifs at h with hsize
      cases hsettle : settle [] slots with
      | error conflict =>
          rw [hsettle] at h
          cases h
      | ok known =>
          rw [hsettle] at h
          cases h
          exact ⟨lo, hi, hlo, hhi, hsize, singleValued_of_settle hsettle, rfl⟩
  · rintro ⟨lo, hi, hlo, hhi, hsize, hsingle, rfl⟩
    obtain ⟨known, hsettle⟩ := exists_settle hsingle
    rw [outcome_build page hlo hhi, if_neg hsize, hsettle]

/-! ### What a page holds -/

/-- A row of values from a start address on is the layout of slots: every slot's value is at its
address, every value but zero is that of a slot, and the first and the last address are addresses
of slots. -/
structure IsLaidOut (slots : List Slot) (start : ℤ) (values : List ℤ) : Prop where
  value_at : ∀ s ∈ slots, start ≤ s.address ∧ s.address < start + values.length ∧
    values[(s.address - start).toNat]? = some s.value
  slot_of_ne_zero : ∀ (i : ℕ) (v : ℤ), values[i]? = some v → v ≠ 0 → ⟨start + i, v⟩ ∈ slots
  first_mem : ∃ s ∈ slots, s.address = start
  last_mem : ∃ s ∈ slots, s.address = start + values.length - 1

/-- What holds of zero and of the numbers of all slots holds of the start and the values: every
value but zero is that of a slot. -/
lemma IsLaidOut.forall_mem {P : ℤ → Prop} {start : ℤ} {values : List ℤ}
    (hlaid : IsLaidOut slots start values) (hzero : P 0)
    (h : ∀ s ∈ slots, P s.address ∧ P s.value) : P start ∧ ∀ v ∈ values, P v := by
  obtain ⟨first, hfirst, rfl⟩ := hlaid.first_mem
  refine ⟨(h first hfirst).1, fun v hv => ?_⟩
  rcases eq_or_ne v 0 with rfl | hne
  · exact hzero
  · obtain ⟨i, hi⟩ := List.getElem?_of_mem hv
    exact (h _ (hlaid.slot_of_ne_zero i v hi hne)).2

/-- A page that is built holds the layout of its slots. -/
theorem isLaidOut_of_build (h : (build page slots).outcome = .ok p) :
    IsLaidOut slots p.start p.values := by
  obtain ⟨lo, hi, hlo, hhi, -, hsingle, rfl⟩ := build_eq_ok.mp h
  obtain ⟨hlo_mem, hlo_le⟩ := List.min?_eq_some_iff.mp hlo
  obtain ⟨hhi_mem, hle_hi⟩ := List.max?_eq_some_iff.mp hhi
  obtain ⟨first, hfirst, hfirst_addr⟩ := List.mem_map.mp hlo_mem
  obtain ⟨last, hlast, hlast_addr⟩ := List.mem_map.mp hhi_mem
  have hspan : lo ≤ hi := hlo_le _ hhi_mem
  have hlength : (((hi - lo + 1).toNat : ℕ) : ℤ) = hi - lo + 1 := Int.toNat_of_nonneg (by omega)
  refine ⟨fun s hs => ?_, fun i v hv hne => ?_, ⟨first, hfirst, hfirst_addr⟩,
    ⟨last, hlast, by simp only [length_layOut, hlength]; omega⟩⟩
  · have hge : lo ≤ s.address := hlo_le _ (List.mem_map_of_mem hs)
    have hle : s.address ≤ hi := hle_hi _ (List.mem_map_of_mem hs)
    have hindex : lo + ((s.address - lo).toNat : ℤ) = s.address := by omega
    refine ⟨hge, by simp only [length_layOut, hlength]; omega, ?_⟩
    have hlt : (s.address - lo).toNat < (hi - lo + 1).toNat := by omega
    rw [getElem?_layOut, if_pos hlt, hindex, hsingle.slotAt?_eq hs]
    rfl
  · rw [getElem?_layOut] at hv
    split_ifs at hv
    cases hslot : slotAt? slots (lo + i) with
    | none =>
        rw [hslot] at hv
        exact absurd (Option.some.inj hv).symm hne
    | some s =>
        rw [hslot] at hv
        obtain ⟨hs, haddr⟩ := mem_of_slotAt? hslot
        have hvalue : s.value = v := Option.some.inj hv
        rw [← haddr, ← hvalue]
        exact hs

end ContinuousPage

end StarkCalldata.Memory
