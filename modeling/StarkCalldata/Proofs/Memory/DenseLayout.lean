import StarkCalldata.Proofs.Encoding
import StarkCalldata.Proofs.Memory.Commitment
import StarkCalldata.Proofs.Memory.View

/-!
The dense layout of a page is exact, and the order of its slots is irrelevant.

Whether a page is laid out depends on its least and its greatest address and on `SingleValued`
alone, and so do the values that are laid out; only the words of a conflict depend on the order,
since they name the first address at which one is met. These words have a limit of their own:
integers that they quote may be too long to be written, and then it is this, and not the conflict or
the size, that the failure is about.

* `IsDense`, `isDense_of_build`: what is laid out, address by address;
* `kind_of_oversized`, `exists_conflict`: the two failures, with their classes;
* `build_perm_eq_ok`, `kind_build_perm`: another order of the slots;
* `dense_layout`: the theorem.
-/

namespace StarkCalldata.Memory

open Text

variable {slots slots' : List Slot} {lo hi : ℤ} {p : ContinuousPage} (page : ℤ)

/-- The addresses of slots. -/
def addresses (slots : List Slot) : Set ℤ := {a | ∃ s ∈ slots, s.address = a}

lemma min?_eq_some_of_isLeast (h : IsLeast (addresses slots) lo) :
    (slots.map Slot.address).min? = some lo := by
  obtain ⟨hmem, hle⟩ := h
  refine List.min?_eq_some_iff.mpr ⟨List.mem_map.mpr hmem, fun a ha => ?_⟩
  exact hle (List.mem_map.mp ha)

lemma max?_eq_some_of_isGreatest (h : IsGreatest (addresses slots) hi) :
    (slots.map Slot.address).max? = some hi := by
  obtain ⟨hmem, hle⟩ := h
  refine List.max?_eq_some_iff.mpr ⟨List.mem_map.mpr hmem, fun a ha => ?_⟩
  exact hle (List.mem_map.mp ha)

lemma addresses_perm (h : slots.Perm slots') : addresses slots = addresses slots' := by
  ext a
  simp only [addresses, Set.mem_ofPred_eq, h.mem_iff]

namespace ContinuousPage

/-! ### What is laid out -/

/-- A page is the dense layout of slots between two addresses: it starts at the first and has a
value for each address up to the last, that of the slot at the address and zero if there is none. -/
structure IsDense (page lo hi : ℤ) (slots : List Slot) (p : ContinuousPage) : Prop where
  page_eq : p.page = page
  start_eq : p.start = lo
  length_eq : (p.values.length : ℤ) = hi - lo + 1
  value_at : ∀ s ∈ slots, p.values[(s.address - lo).toNat]? = some s.value
  zero_at : ∀ a, lo ≤ a → a ≤ hi → a ∉ addresses slots → p.values[(a - lo).toNat]? = some 0

/-- When a page is laid out, in terms of its bounds. -/
lemma build_eq_ok_of_bounds (hlo : IsLeast (addresses slots) lo)
    (hhi : IsGreatest (addresses slots) hi) :
    (build page slots).outcome = .ok p ↔ ¬ Oversized lo hi ∧ SingleValued slots ∧
      p = ⟨page, lo, layOut slots lo (hi - lo + 1).toNat⟩ := by
  rw [build_eq_ok, min?_eq_some_of_isLeast hlo, max?_eq_some_of_isGreatest hhi]
  constructor
  · rintro ⟨lo', hi', hlo', hhi', h⟩
    obtain ⟨rfl, rfl⟩ : lo = lo' ∧ hi = hi' := ⟨Option.some.inj hlo', Option.some.inj hhi'⟩
    exact h
  · intro h
    exact ⟨lo, hi, rfl, rfl, h⟩

/-- A page that is laid out is the dense layout of its slots. -/
lemma isDense_of_build (hlo : IsLeast (addresses slots) lo)
    (hhi : IsGreatest (addresses slots) hi) (h : (build page slots).outcome = .ok p) :
    IsDense page lo hi slots p := by
  obtain ⟨-, hsingle, rfl⟩ := (build_eq_ok_of_bounds page hlo hhi).mp h
  have hspan : lo ≤ hi := hlo.2 hhi.1
  have hvalue : ∀ a, lo ≤ a → a ≤ hi →
      (layOut slots lo (hi - lo + 1).toNat)[(a - lo).toNat]? =
        some (((slotAt? slots a).map Slot.value).getD 0) := by
    intro a hge hle
    have hlt : (a - lo).toNat < (hi - lo + 1).toNat := by omega
    have hindex : lo + ((a - lo).toNat : ℤ) = a := by omega
    rw [getElem?_layOut, if_pos hlt, hindex]
  refine ⟨rfl, rfl, ?_, fun s hs => ?_, fun a hge hle hnone => ?_⟩
  · rw [length_layOut, Int.toNat_of_nonneg (by omega)]
  · rw [hvalue s.address (hlo.2 ⟨s, hs, rfl⟩) (hhi.2 ⟨s, hs, rfl⟩), hsingle.slotAt?_eq hs]
    rfl
  · have hslot : slotAt? slots a = none :=
      slotAt?_eq_none.mpr fun s hs haddress => hnone ⟨s, hs, haddress⟩
    rw [hvalue a hge hle, hslot]
    rfl

/-! ### What is refused -/

/-- A page that spreads too wide or reaches beyond the field is refused as inconsistent, if this can
be put into words. -/
lemma kind_of_oversized (hlo : IsLeast (addresses slots) lo)
    (hhi : IsGreatest (addresses slots) hi) (hsize : Oversized lo hi) :
    ∃ f, (build page slots).outcome = .error f ∧
      f.kind = if Writable page ∧ Writable (hi - lo + 1) ∧ Writable lo then .inconsistency
        else .value := by
  have h := outcome_build page (min?_eq_some_of_isLeast hlo) (max?_eq_some_of_isGreatest hhi)
  rw [if_pos hsize] at h
  refine ⟨_, h, ?_⟩
  rw [Fault.kind_quoting]
  exact if_congr (by simp) rfl rfl

/-- A page of a fitting size is refused when an address carries two values, and such an address is
named. -/
lemma exists_conflict (hlo : IsLeast (addresses slots) lo) (hhi : IsGreatest (addresses slots) hi)
    (hsize : ¬ Oversized lo hi) (hconflict : ¬ SingleValued slots) :
    ∃ a v v', ⟨a, v⟩ ∈ slots ∧ ⟨a, v'⟩ ∈ slots ∧ v ≠ v' ∧
      (build page slots).outcome = .error (Fault.quoting [page, a]
        (.malformedInput (place page a) (.conflictingValues v v'))) := by
  have h := outcome_build page (min?_eq_some_of_isLeast hlo) (max?_eq_some_of_isGreatest hhi)
  rw [if_neg hsize] at h
  cases hsettle : settle [] slots with
  | ok result => exact absurd (singleValued_of_settle hsettle) hconflict
  | error conflict =>
      obtain ⟨value, s⟩ := conflict
      obtain ⟨hs, hne, hmem⟩ := settle_eq_error hsettle
      rw [hsettle] at h
      exact ⟨s.address, value, s.value, hmem, hs, hne, h⟩

/-- The class of a conflict, and the place it names. -/
lemma kind_of_conflict (hlo : IsLeast (addresses slots) lo)
    (hhi : IsGreatest (addresses slots) hi) (hsize : ¬ Oversized lo hi)
    (hconflict : ¬ SingleValued slots) :
    ∃ a v v', ⟨a, v⟩ ∈ slots ∧ ⟨a, v'⟩ ∈ slots ∧ v ≠ v' ∧
      ∃ f, (build page slots).outcome = .error f ∧
        (f.kind = if Writable page ∧ Writable a then .malformedInput else .value) ∧
        (f.kind = .malformedInput → f.field? = some (place page a)) := by
  obtain ⟨a, v, v', hv, hv', hne, h⟩ := exists_conflict page hlo hhi hsize hconflict
  refine ⟨a, v, v', hv, hv', hne, _, h, ?_, ?_⟩
  · rw [Fault.kind_quoting]
    exact if_congr (by simp) rfl rfl
  · rw [Fault.quoting]
    split_ifs
    · exact fun _ => rfl
    · intro hkind
      cases hkind

/-! ### Another order -/

/-- A page is laid out in every order of its slots or in none, and always the same. -/
lemma build_perm_eq_ok (hlo : IsLeast (addresses slots) lo) (hhi : IsGreatest (addresses slots) hi)
    (hperm : slots.Perm slots') :
    (build page slots').outcome = .ok p ↔ (build page slots).outcome = .ok p := by
  have hsame := addresses_perm hperm
  rw [build_eq_ok_of_bounds page (hsame ▸ hlo) (hsame ▸ hhi), build_eq_ok_of_bounds page hlo hhi]
  constructor
  · rintro ⟨hsize, hsingle, rfl⟩
    exact ⟨hsize, hsingle.perm hperm.symm, by rw [hsingle.layOut_perm hperm.symm]⟩
  · rintro ⟨hsize, hsingle, rfl⟩
    exact ⟨hsize, hsingle.perm hperm, by rw [hsingle.layOut_perm hperm]⟩

lemma writable_address {a : ℤ} (hlo : Writable lo) (hge : lo ≤ a) (hlt : a < Field.prime) :
    Writable a := by
  rcases le_total 0 a with hnonneg | hneg
  · have hcanonical : Field.IsCanonical a := ⟨hnonneg, hlt⟩
    exact hcanonical.fits.writable
  · have hle : a.natAbs ≤ lo.natAbs := by omega
    exact hle.trans_lt hlo

/-- The class of a conflict is that of malformed input, if the least address can be written. -/
lemma kind_of_conflict_of_writable (hlo : IsLeast (addresses slots) lo)
    (hhi : IsGreatest (addresses slots) hi) (hsize : ¬ Oversized lo hi)
    (hconflict : ¬ SingleValued slots) (hwritable : Writable page → Writable lo) :
    (build page slots).outcome.mapError Fault.kind =
      .error (if Writable page then .malformedInput else .value) := by
  obtain ⟨a, v, v', hv, -, -, f, hf, hkind, -⟩ :=
    kind_of_conflict page hlo hhi hsize hconflict
  have hlt : a < Field.prime := by
    have hle : a ≤ hi := hhi.2 ⟨_, hv, rfl⟩
    rw [Oversized] at hsize
    omega
  have hquoted : Writable page ∧ Writable a ↔ Writable page :=
    ⟨And.left, fun hpage => ⟨hpage, writable_address (hwritable hpage) (hlo.2 ⟨_, hv, rfl⟩) hlt⟩⟩
  simp only [hquoted] at hkind
  rw [hf, ← hkind]
  rfl

/-- A page is refused for the same class of reasons in every order of its slots; only for a conflict
it matters that the addresses can be written. -/
lemma kind_build_perm (hlo : IsLeast (addresses slots) lo) (hhi : IsGreatest (addresses slots) hi)
    (hwritable : ¬ Oversized lo hi → Writable page → Writable lo) (hperm : slots.Perm slots') :
    (build page slots').outcome.mapError Fault.kind =
      (build page slots).outcome.mapError Fault.kind := by
  have hsame := addresses_perm hperm
  have hlo' : IsLeast (addresses slots') lo := hsame ▸ hlo
  have hhi' : IsGreatest (addresses slots') hi := hsame ▸ hhi
  by_cases hsize : Oversized lo hi
  · obtain ⟨f, hf, hkind⟩ := kind_of_oversized page hlo hhi hsize
    obtain ⟨f', hf', hkind'⟩ := kind_of_oversized page hlo' hhi' hsize
    rw [hf, hf', Except.mapError, Except.mapError, hkind, hkind']
  · by_cases hsingle : SingleValued slots
    · have hok := (build_eq_ok_of_bounds page hlo hhi).mpr ⟨hsize, hsingle, rfl⟩
      rw [hok, (build_perm_eq_ok page hlo hhi hperm).mpr hok]
    · have hsingle' : ¬ SingleValued slots' := fun h => hsingle (h.perm hperm.symm)
      rw [kind_of_conflict_of_writable page hlo hhi hsize hsingle (hwritable hsize),
        kind_of_conflict_of_writable page hlo' hhi' hsize hsingle' (hwritable hsize)]

/-! ### The theorem -/

/-- **The dense layout is exact and order-free.** A page is laid out when its addresses spread over
at most `maxSpan`, stay below the prime and carry one value each, and it is then the dense layout of
its slots. If the bounds are not kept, it is inconsistent, whatever its values; if they are kept and
an address carries two values, it is malformed at such an address. In either case this is the class
of the failure unless the page or the addresses it quotes are too long to be written. The order of
the slots changes neither the page nor, where the least address can be written, the class of the
failure. -/
theorem dense_layout (hlo : IsLeast (addresses slots) lo) (hhi : IsGreatest (addresses slots) hi) :
    ((∃ p, (build page slots).outcome = .ok p) ↔
      hi - lo + 1 ≤ maxSpan ∧ hi < Field.prime ∧ SingleValued slots) ∧
    (∀ p, (build page slots).outcome = .ok p → IsDense page lo hi slots p) ∧
    (¬ (hi - lo + 1 ≤ maxSpan ∧ hi < Field.prime) → ∃ f, (build page slots).outcome = .error f ∧
      f.kind = if Writable page ∧ Writable (hi - lo + 1) ∧ Writable lo then .inconsistency
        else .value) ∧
    (hi - lo + 1 ≤ maxSpan → hi < Field.prime → ¬ SingleValued slots →
      ∃ a v v', ⟨a, v⟩ ∈ slots ∧ ⟨a, v'⟩ ∈ slots ∧ v ≠ v' ∧
        ∃ f, (build page slots).outcome = .error f ∧
          (f.kind = if Writable page ∧ Writable a then .malformedInput else .value) ∧
          (f.kind = .malformedInput → f.field? = some (place page a))) ∧
    ∀ slots', slots.Perm slots' →
      (∀ p, (build page slots').outcome = .ok p ↔ (build page slots).outcome = .ok p) ∧
      ((hi - lo + 1 ≤ maxSpan → hi < Field.prime → Writable page → Writable lo) →
        (build page slots').outcome.mapError Fault.kind =
          (build page slots).outcome.mapError Fault.kind) := by
  have hsize : ¬ Oversized lo hi ↔ hi - lo + 1 ≤ maxSpan ∧ hi < Field.prime := by
    rw [Oversized, not_or, not_lt, ge_iff_le, not_le]
  refine ⟨?_, fun p hp => isDense_of_build page hlo hhi hp, fun hlarge => ?_,
    fun hspan hprime hconflict => ?_,
    fun slots' hperm => ⟨fun p => build_perm_eq_ok page hlo hhi hperm, fun hwritable => ?_⟩⟩
  · simp only [build_eq_ok_of_bounds page hlo hhi, hsize, exists_and_left, exists_eq, and_true,
      and_assoc]
  · exact kind_of_oversized page hlo hhi (not_not.mp fun h => hlarge (hsize.mp h))
  · exact kind_of_conflict page hlo hhi (hsize.mpr ⟨hspan, hprime⟩) hconflict
  · refine kind_build_perm page hlo hhi (fun h => ?_) hperm
    obtain ⟨hspan, hprime⟩ := hsize.mp h
    exact hwritable hspan hprime

/-- Slots out of order, with a repeat and a gap. -/
def scattered : List Slot := [⟨12, 0xC⟩, ⟨10, 0xA⟩, ⟨12, 0xC⟩]

/-- The scattered slots are laid out densely from their least to their greatest address. -/
theorem scattered_isDense :
    IsLeast (addresses scattered) 10 ∧ IsGreatest (addresses scattered) 12 ∧
      ∃ p, (build 1 scattered).outcome = .ok p ∧ IsDense 1 10 12 scattered p := by
  have hlo : IsLeast (addresses scattered) 10 :=
    ⟨⟨⟨10, 0xA⟩, by decide, rfl⟩, by rintro _ ⟨s, hs, rfl⟩; revert s; decide⟩
  have hhi : IsGreatest (addresses scattered) 12 :=
    ⟨⟨⟨12, 0xC⟩, by decide, rfl⟩, by rintro _ ⟨s, hs, rfl⟩; revert s; decide⟩
  obtain ⟨hreturns, hdense, -⟩ := dense_layout 1 hlo hhi
  obtain ⟨p, hp⟩ := hreturns.mpr ⟨by decide, by decide, by decide⟩
  exact ⟨hlo, hhi, p, hp, hdense p hp⟩

/-! ### The limit of the words -/

/-- The slots of two addresses that carry two values each. -/
def twice (a b : ℤ) : List Slot := [⟨a, 0⟩, ⟨a, 1⟩, ⟨b, 0⟩, ⟨b, 1⟩]

lemma perm_twice (a b : ℤ) : (twice a b).Perm (twice b a) :=
  (List.perm_append_comm : ([⟨a, 0⟩, ⟨a, 1⟩] ++ [⟨b, 0⟩, ⟨b, 1⟩] : List Slot).Perm _)

lemma bounds_twice (a : ℤ) :
    IsLeast (addresses (twice a (a + 1))) a ∧ IsGreatest (addresses (twice a (a + 1))) (a + 1) := by
  have hboth : ∀ s ∈ twice a (a + 1), a ≤ s.address ∧ s.address ≤ a + 1 := by
    simp [twice]
  refine ⟨⟨⟨⟨a, 0⟩, by simp [twice], rfl⟩, ?_⟩, ⟨⟨⟨a + 1, 0⟩, by simp [twice], rfl⟩, ?_⟩⟩
  · rintro _ ⟨s, hs, rfl⟩
    exact (hboth s hs).1
  · rintro _ ⟨s, hs, rfl⟩
    exact (hboth s hs).2

/-- Of two addresses in conflict the one that comes first is named. -/
lemma kind_build_twice {a b : ℤ} (hlo : IsLeast (addresses (twice a b)) lo)
    (hhi : IsGreatest (addresses (twice a b)) hi) (hsize : ¬ Oversized lo hi)
    (hpage : Writable page) :
    (build page (twice a b)).outcome.mapError Fault.kind =
      .error (if Writable a then .malformedInput else .value) := by
  have h := outcome_build page (min?_eq_some_of_isLeast hlo) (max?_eq_some_of_isGreatest hhi)
  have hsettle : settle [] (twice a b) = .error (0, ⟨a, 1⟩) := by
    simp [twice, settle, slotAt?]
  rw [if_neg hsize, hsettle] at h
  rw [h, Except.mapError, Fault.kind_quoting]
  exact congrArg _ (if_congr (by simp [hpage]) rfl rfl)

/-- The negative integer with the shortest numeral that is too long to be written. -/
def firstUnwritable : ℤ := -(Nat.pow 10 digitLimit : ℕ)

lemma not_writable_firstUnwritable : ¬ Writable firstUnwritable := by
  have habs : firstUnwritable.natAbs = Nat.pow 10 digitLimit := by
    rw [firstUnwritable, Int.natAbs_neg, Int.natAbs_natCast]
  exact fun h => absurd habs h.ne

lemma firstUnwritable_neg : firstUnwritable < 0 := by
  have hpos (k : ℕ) : 0 < Nat.pow 10 k := Nat.pow_pos (by decide)
  have hlimit := hpos digitLimit
  rw [firstUnwritable]
  omega

lemma writable_firstUnwritable_add_one : Writable (firstUnwritable + 1) := by
  have hneg := firstUnwritable_neg
  have habs : (firstUnwritable + 1).natAbs < firstUnwritable.natAbs := by omega
  rw [firstUnwritable, Int.natAbs_neg, Int.natAbs_natCast] at habs
  exact habs

/-- A slot beyond the field is not refused as inconsistent if its address cannot be written. -/
lemma kind_build_far {a : ℤ} (hfar : ¬ Writable a) (hpos : 0 ≤ a) :
    IsLeast (addresses [⟨a, 0⟩]) a ∧ IsGreatest (addresses [⟨a, 0⟩]) a ∧ ¬ a < Field.prime ∧
      (build page [⟨a, 0⟩]).outcome.mapError Fault.kind = .error .value := by
  have hbeyond : ¬ a < Field.prime := by
    intro hlt
    have hcanonical : Field.IsCanonical a := ⟨hpos, hlt⟩
    exact hfar hcanonical.fits.writable
  have hsingleton : addresses [⟨a, 0⟩] = {a} := by
    ext b
    simp [addresses, eq_comm]
  have hlo : IsLeast (addresses [⟨a, 0⟩]) a := hsingleton ▸ isLeast_singleton
  have hhi : IsGreatest (addresses [⟨a, 0⟩]) a := hsingleton ▸ isGreatest_singleton
  obtain ⟨f, hf, hkind⟩ := kind_of_oversized page hlo hhi (.inr (not_lt.mp hbeyond))
  rw [if_neg fun h => hfar h.2.2] at hkind
  exact ⟨hlo, hhi, hbeyond, by rw [hf, ← hkind]; rfl⟩

/-- **The words of a refusal have a limit**: a slot beyond the field is not refused as inconsistent
if its address is too long to be written, and of two addresses in conflict of which one is, it
depends on the order whether the page is malformed. -/
theorem farSlot_not_inconsistent :
    IsLeast (addresses [⟨-longNegative, 0⟩]) (-longNegative) ∧
    IsGreatest (addresses [⟨-longNegative, 0⟩]) (-longNegative) ∧
    ¬ -longNegative < Field.prime ∧
    (build 1 [⟨-longNegative, 0⟩]).outcome.mapError Fault.kind = .error .value ∧
    (twice firstUnwritable (firstUnwritable + 1)).Perm
      (twice (firstUnwritable + 1) firstUnwritable) ∧
    (build 1 (twice firstUnwritable (firstUnwritable + 1))).outcome.mapError Fault.kind =
      .error .value ∧
    (build 1 (twice (firstUnwritable + 1) firstUnwritable)).outcome.mapError Fault.kind =
      .error .malformedInput := by
  have hpage : Writable 1 := writable_of_lt_pow (k := 1) (by decide) (by decide)
  have hfar : ¬ Writable (-longNegative) := by
    intro h
    have hback := writable_neg h
    rw [neg_neg] at hback
    exact not_writable_longNegative hback
  have hpos : 0 ≤ -longNegative := by linarith [longNegative_neg]
  have hneg := firstUnwritable_neg
  have hsize : ¬ Oversized firstUnwritable (firstUnwritable + 1) := by
    rw [Oversized, maxSpan]
    have hprime : 0 < (Field.prime : ℤ) := by decide
    omega
  obtain ⟨hlo, hhi⟩ := bounds_twice firstUnwritable
  have hperm := perm_twice firstUnwritable (firstUnwritable + 1)
  have hsame := addresses_perm hperm
  obtain ⟨hleast, hgreatest, hbeyond, hkind⟩ := kind_build_far 1 hfar hpos
  refine ⟨hleast, hgreatest, hbeyond, hkind, hperm, ?_, ?_⟩
  · rw [kind_build_twice 1 hlo hhi hsize hpage, if_neg not_writable_firstUnwritable]
  · rw [kind_build_twice 1 (hsame ▸ hlo) (hsame ▸ hhi) hsize hpage,
      if_pos writable_firstUnwritable_add_one]

end ContinuousPage

end StarkCalldata.Memory
