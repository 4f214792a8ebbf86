import Mathlib.Algebra.Polynomial.Roots
import StarkCalldata.Proofs.Field
import StarkCalldata.Proofs.Memory.PermutationProduct

/-!
What the permutation product says about a page.

A slot is a line over the field: at the challenge `alpha` it stands at `address + alpha * value`,
and the product is that of the distances of `z` from the lines of all slots. For a fixed `alpha` it
is a polynomial in `z` that has the places of the lines as its roots, so equal products mean equal
places, with their multiplicities. And a line that meets as many lines as there are elements of the
field must meet one of fewer lines twice, which makes it that line:

* `perm_lineAt`: at every `alpha`, equal products mean the same places;
* `mem_of_lineAt_mem`: a line whose place is always taken is one of the lines there;
* `permutationProduct_eq_iff_perm`: the products of two pages agree at all challenges exactly when
  the pages are permutations of each other.
-/

namespace StarkCalldata.Memory

open Polynomial

variable {slots slots' : List Slot} {s s' : Slot} {alpha beta : ZMod Field.prime}

/-- The address and the value of a slot are elements of the field. -/
structure Slot.IsCanonical (s : Slot) : Prop where
  address : Field.IsCanonical s.address
  value : Field.IsCanonical s.value

/-! ### Products and places -/

/-- The polynomial that has the given places as its roots. -/
noncomputable def rootsAt (places : List (ZMod Field.prime)) : (ZMod Field.prime)[X] :=
  ((places : Multiset (ZMod Field.prime)).map fun a => X - C a).prod

lemma eval_rootsAt (places : List (ZMod Field.prime)) (z : ZMod Field.prime) :
    (rootsAt places).eval z = (places.map fun a => z - a).prod := by
  rw [rootsAt, eval_multiset_prod, Multiset.map_map, Multiset.map_coe, Multiset.prod_coe]
  simp [Function.comp_def]

/-- Places are told apart by the products of the distances from them, as long as there are fewer of
them than elements of the field. -/
lemma perm_of_prod_eq {places places' : List (ZMod Field.prime)}
    (hlength : places.length < Field.prime) (hlength' : places'.length < Field.prime)
    (h : ∀ z, (places.map fun a => z - a).prod = (places'.map fun a => z - a).prod) :
    places.Perm places' := by
  have hdegree (l : List (ZMod Field.prime)) : (rootsAt l).natDegree = l.length := by
    rw [rootsAt, natDegree_multiset_prod_X_sub_C_eq_card, Multiset.coe_card]
  have hpoly : rootsAt places = rootsAt places' := by
    refine eq_of_natDegree_lt_card_of_eval_eq _ _ Function.injective_id (fun z => ?_) ?_
    · rw [id, eval_rootsAt, eval_rootsAt, h]
    · rw [hdegree, hdegree, ZMod.card]
      exact max_lt hlength hlength'
  have hroots := congrArg Polynomial.roots hpoly
  rw [rootsAt, rootsAt, roots_multiset_prod_X_sub_C, roots_multiset_prod_X_sub_C] at hroots
  exact Multiset.coe_eq_coe.mp hroots

/-- Pages with the same products at all challenges have the same places at each `alpha`. -/
lemma perm_lineAt (hlength : slots.length < Field.prime) (hlength' : slots'.length < Field.prime)
    (h : ∀ z alpha, Field.IsCanonical z → Field.IsCanonical alpha →
      permutationProduct slots z alpha = permutationProduct slots' z alpha)
    (alpha : ZMod Field.prime) : (slots.map (lineAt alpha)).Perm (slots'.map (lineAt alpha)) := by
  refine perm_of_prod_eq (by simpa using hlength) (by simpa using hlength') fun z => ?_
  obtain ⟨n, hn, rfl⟩ := Field.exists_isCanonical z
  obtain ⟨m, hm, rfl⟩ := Field.exists_isCanonical alpha
  have hcast := congrArg (Nat.cast : ℕ → ZMod Field.prime) (h n m hn hm)
  rw [natCast_permutationProduct, natCast_permutationProduct] at hcast
  rwa [List.map_map, List.map_map]

/-! ### Lines -/

/-- Two lines that meet twice are the same. -/
lemma eq_of_lineAt_eq (hs : s.IsCanonical) (hs' : s'.IsCanonical) (hne : alpha ≠ beta)
    (halpha : lineAt alpha s = lineAt alpha s') (hbeta : lineAt beta s = lineAt beta s') :
    s = s' := by
  simp only [lineAt] at halpha hbeta
  have hslope : (alpha - beta) * ((s.value : ZMod Field.prime) - s'.value) = 0 := by
    linear_combination halpha - hbeta
  have hvalue : (s.value : ZMod Field.prime) = s'.value :=
    sub_eq_zero.mp ((mul_eq_zero.mp hslope).resolve_left (sub_ne_zero.mpr hne))
  have haddress : (s.address : ZMod Field.prime) = s'.address := by
    rw [hvalue] at halpha
    exact add_right_cancel halpha
  obtain ⟨a, v⟩ := s
  obtain ⟨a', v'⟩ := s'
  rw [Slot.mk.injEq]
  exact ⟨hs.address.eq_of_intCast_eq hs'.address haddress,
    hs.value.eq_of_intCast_eq hs'.value hvalue⟩

/-- A line whose place is taken at every challenge, by one of fewer lines than there are challenges,
is one of these. -/
lemma mem_of_lineAt_mem (hs : s.IsCanonical) (hslots : ∀ s' ∈ slots, s'.IsCanonical)
    (hlength : slots.length < Field.prime)
    (h : ∀ alpha, lineAt alpha s ∈ slots.map (lineAt alpha)) : s ∈ slots := by
  choose meet hmeet using fun alpha => List.mem_map.mp (h alpha)
  -- two challenges share the line that is met, since there are more challenges than lines
  have hcard : slots.toFinset.card < (Finset.univ : Finset (ZMod Field.prime)).card := by
    rw [Finset.card_univ, ZMod.card]
    exact (List.toFinset_card_le slots).trans_lt hlength
  obtain ⟨alpha, -, beta, -, hne, hshared⟩ := Finset.exists_ne_map_eq_of_card_lt_of_maps_to hcard
    (f := meet) fun alpha _ => List.mem_toFinset.mpr (hmeet alpha).1
  obtain ⟨hmem, halpha⟩ := hmeet alpha
  have hbeta := (hmeet beta).2
  rw [← hshared] at hbeta
  rw [eq_of_lineAt_eq hs (hslots _ hmem) hne halpha.symm hbeta.symm]
  exact hmem

/-- Lines that take the same places at every challenge are the same. -/
lemma perm_of_perm_lineAt (hslots : ∀ s ∈ slots, s.IsCanonical)
    (hslots' : ∀ s ∈ slots', s.IsCanonical) (hlength' : slots'.length < Field.prime)
    (h : ∀ alpha, (slots.map (lineAt alpha)).Perm (slots'.map (lineAt alpha))) :
    slots.Perm slots' := by
  induction slots generalizing slots' with
  | nil =>
      have hnil : slots'.map (lineAt 0) = [] := (h 0).symm.eq_nil
      rw [List.map_eq_nil_iff.mp hnil]
  | cons s rest ih =>
      obtain ⟨hs, hrest⟩ := List.forall_mem_cons.mp hslots
      have hmem : s ∈ slots' := mem_of_lineAt_mem hs hslots' hlength' fun alpha =>
        (h alpha).subset List.mem_cons_self
      have hsplit : slots'.Perm (s :: slots'.erase s) := List.perm_cons_erase hmem
      -- what is left after the line has been taken out of both takes the same places
      have hleft (alpha : ZMod Field.prime) :
          (rest.map (lineAt alpha)).Perm ((slots'.erase s).map (lineAt alpha)) :=
        ((h alpha).trans (hsplit.map _)).cons_inv
      have herase : (slots'.erase s).length < Field.prime :=
        (List.length_erase_le).trans_lt hlength'
      exact ((ih hrest (fun s' hs' => hslots' s' (List.mem_of_mem_erase hs')) herase hleft).cons
        s).trans hsplit.symm

/-- **Page products identify a page up to order.** Take two lists of fewer slots than the field has
elements, with addresses and values in the field. Their permutation products agree at all challenges
exactly when one list is a permutation of the other. -/
theorem permutationProduct_eq_iff_perm (hslots : ∀ s ∈ slots, s.IsCanonical)
    (hslots' : ∀ s ∈ slots', s.IsCanonical) (hlength : slots.length < Field.prime)
    (hlength' : slots'.length < Field.prime) :
    (∀ z alpha, Field.IsCanonical z → Field.IsCanonical alpha →
        permutationProduct slots z alpha = permutationProduct slots' z alpha) ↔
      slots.Perm slots' := by
  constructor
  · intro h
    exact perm_of_perm_lineAt hslots hslots' hlength' (perm_lineAt hlength hlength' h)
  · intro h z alpha _ _
    exact permutationProduct_perm h z alpha

/-- Two slots in the other order have the same product at all challenges. With their values
exchanged they are another page, and some challenges tell. -/
theorem exchangedValues_told_apart :
    (∀ z alpha, Field.IsCanonical z → Field.IsCanonical alpha →
        permutationProduct [⟨1, 5⟩, ⟨2, 7⟩] z alpha = permutationProduct [⟨2, 7⟩, ⟨1, 5⟩] z alpha) ∧
      ∃ z alpha, Field.IsCanonical z ∧ Field.IsCanonical alpha ∧
        permutationProduct [⟨1, 5⟩, ⟨2, 7⟩] z alpha ≠
          permutationProduct [⟨1, 7⟩, ⟨2, 5⟩] z alpha := by
  have hcanonical (a v b w : ℤ) (ha : Field.IsCanonical a) (hv : Field.IsCanonical v)
      (hb : Field.IsCanonical b) (hw : Field.IsCanonical w) :
      ∀ s ∈ [(⟨a, v⟩ : Slot), ⟨b, w⟩], s.IsCanonical := by
    simp only [List.forall_mem_cons, List.not_mem_nil, false_imp_iff, forall_true_iff, and_true]
    exact ⟨⟨ha, hv⟩, ⟨hb, hw⟩⟩
  have hpage := hcanonical 1 5 2 7 (by decide) (by decide) (by decide) (by decide)
  have hturned := hcanonical 2 7 1 5 (by decide) (by decide) (by decide) (by decide)
  have hexchanged := hcanonical 1 7 2 5 (by decide) (by decide) (by decide) (by decide)
  have hlength : 2 < Field.prime := by decide
  constructor
  · exact (permutationProduct_eq_iff_perm hpage hturned hlength hlength).mpr (by decide)
  · by_contra hnone
    push Not at hnone
    have hperm := (permutationProduct_eq_iff_perm hpage hexchanged hlength hlength).mp hnone
    exact absurd hperm (by decide)

end StarkCalldata.Memory
