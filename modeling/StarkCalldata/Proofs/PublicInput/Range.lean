import StarkCalldata.Proofs.PublicInput.Binding

/-!
Which integers of the public input fit into words.

The first part of the public input is made of integers that are hashed word by word. The elements of
the field, the hashes and the name of the layout fit into words. The other integers are checked for
their signs, but not for their sizes:

* `FitsWords`: those other integers fit into words;
* `fits_seedNumbers_iff`: so all integers of the first part do, and only so.
-/

namespace StarkCalldata

open Memory Word

lemma Memory.ContinuousPage.length_values_le {page : ℤ} {slots : List Slot} {p : ContinuousPage}
    (h : (build page slots).outcome = .ok p) : (p.values.length : ℤ) ≤ maxSpan := by
  obtain ⟨lo, hi, -, -, hsize, -, rfl⟩ := build_eq_ok.mp h
  have hspan : hi - lo + 1 ≤ maxSpan := by
    by_contra hwide
    exact hsize (.inl (by omega))
  have hmax : (0 : ℤ) ≤ maxSpan := by decide
  simp only [length_layOut]
  omega

namespace PublicInput

variable {proof : AnnotatedProof} {facts : PageFacts} {padding : Slot}

/-- The integers of the first part. -/
def seedNumbers (proof : AnnotatedProof) (facts : PageFacts) (padding : Slot) : List ℤ :=
  proof.parameters.friendlyLayers.getD 0 ::
    (openingWords proof.publicInput (layoutWord proof.publicInput.layout) padding
      ++ (facts.count : ℤ) :: facts.words)

/-- The integers of the first part that no check of the proof bounds fit into words. -/
structure FitsWords (proof : AnnotatedProof) (facts : PageFacts) : Prop where
  layers : proof.parameters.friendlyLayers.getD 0 < limit
  log2_steps : Nat.log 2 proof.publicInput.steps.toNat < limit
  rangeMin : proof.publicInput.rangeMin < limit
  rangeMax : proof.publicInput.rangeMax < limit
  segments : ∀ n ∈ knownSegmentWords proof.publicInput.segments, n < limit
  count : facts.count < limit
  size : ∀ slots ∈ facts.regular, slots.length < limit

lemma layoutWord_lt {name : String} (h : name.toList.length ≤ Word.size) :
    layoutWord name < limit := by
  have hlength : (layoutBytes name).length ≤ Word.size := by simpa [layoutBytes] using h
  rw [limit_eq]
  exact (ofBytes_lt _).trans_le (Nat.pow_le_pow_right (by decide) hlength)

lemma nonneg_of_mem_knownSegmentWords {segments : Segments}
    (h : ∀ s ∈ segments, 0 ≤ s.2.start ∧ 0 ≤ s.2.stop) :
    ∀ n ∈ knownSegmentWords segments, 0 ≤ n := by
  intro n hn
  obtain ⟨s, hs, hn⟩ := List.mem_flatMap.mp hn
  obtain ⟨name, -, hlookup⟩ := List.mem_filterMap.mp hs
  obtain ⟨hstart, hstop⟩ := h (name, s) (mem_of_lookup hlookup)
  rcases List.mem_pair.mp hn with rfl | rfl
  · exact hstart
  · exact hstop

/-- The words about the pages fit if the number of slots of the regular page does. -/
lemma fits_words_iff (hfits : facts.Fits)
    (hlength : ∀ p ∈ facts.continuous, (p.values.length : ℤ) ≤ maxSpan) :
    (∀ n ∈ facts.words, Fits n) ↔ ∀ slots ∈ facts.regular, slots.length < limit := by
  have hregular (slots : List Slot) :
      (∀ n ∈ PageFacts.regularWords slots, Fits n) ↔ slots.length < limit := by
    simp [PageFacts.regularWords, fits_natCast, PageFacts.rowHash, hashOf_lt]
  have hcontinuous : ∀ p ∈ facts.continuous, ∀ n ∈ PageFacts.continuousWords p, Fits n := by
    intro p hp n hn
    have hmax : maxSpan < limit := by decide
    have hspan := hlength p hp
    have hcases : n = p.start ∨ n = p.values.length ∨ n = PageFacts.rowHash p.values := by
      simpa [PageFacts.continuousWords, PageFacts.pairWords] using hn
    rcases hcases with rfl | rfl | rfl
    · exact (hfits.continuous p hp).1
    · exact ⟨Int.natCast_nonneg _, by omega⟩
    · exact fits_natCast.mpr (hashOf_lt _)
  have hrest : ∀ n ∈ facts.continuous.flatMap PageFacts.continuousWords, Fits n := by
    intro n hn
    obtain ⟨p, hp, hn⟩ := List.mem_flatMap.mp hn
    exact hcontinuous p hp n hn
  rw [PageFacts.words, List.forall_mem_append]
  cases facts.regular with
  | none => simpa using hrest
  | some slots => simpa [hregular] using fun _ => hrest

/-- The numbers of values of the pages are bounded, since no page may spread too wide. -/
lemma length_values_le_of_ofCells {cells : List Cell}
    (h : (PageFacts.ofCells cells).outcome = .ok facts) :
    ∀ p ∈ facts.continuous, (p.values.length : ℤ) ≤ maxSpan := by
  intro p hp
  obtain ⟨q, -, hq⟩ := PageFacts.exists_build_of_mem h hp
  exact ContinuousPage.length_values_le hq

/-- **The integers of the first part fit into words when those that no check bounds do.** -/
theorem fits_seedNumbers_iff (hproof : proof.IsWellFormed)
    (hfacts : (PageFacts.ofCells proof.publicInput.memory).outcome = .ok facts)
    (hpadding : proof.publicInput.memory.head?.map Cell.slot = some padding) :
    (∀ n ∈ seedNumbers proof facts padding, Fits n) ↔ FitsWords proof facts := by
  have hfits {n : ℤ} (h : 0 ≤ n) : Fits n ↔ n < limit := ⟨fun hn => hn.2, fun hn => ⟨h, hn⟩⟩
  have hlayers : 0 ≤ proof.parameters.friendlyLayers.getD 0 := by
    cases hl : proof.parameters.friendlyLayers with
    | none => exact le_rfl
    | some n => exact hproof.parameters.layers_nonneg n hl
  have hsegments : (∀ n ∈ knownSegmentWords proof.publicInput.segments, Fits n) ↔
      ∀ n ∈ knownSegmentWords proof.publicInput.segments, n < limit :=
    forall₂_congr fun n hn =>
      hfits (nonneg_of_mem_knownSegmentWords hproof.input.segments_nonneg n hn)
  have hpadding_fits : Fits padding.address ∧ Fits padding.value := by
    obtain ⟨c, hc, rfl⟩ := Option.map_eq_some_iff.mp hpadding
    obtain ⟨haddress, hvalue⟩ := hproof.input.canonical c (List.mem_of_head? hc)
    exact ⟨haddress.fits, hvalue.fits⟩
  have hopening : (∀ n ∈ openingWords proof.publicInput (layoutWord proof.publicInput.layout)
      padding, Fits n) ↔ Nat.log 2 proof.publicInput.steps.toNat < limit ∧
        proof.publicInput.rangeMin < limit ∧ proof.publicInput.rangeMax < limit ∧
        ∀ n ∈ knownSegmentWords proof.publicInput.segments, n < limit := by
    simp only [openingWords, List.forall_mem_append, List.forall_mem_cons, hsegments,
      bitLength_sub_one hproof.input.steps_pos, fits_natCast, hfits hproof.input.rangeMin_nonneg,
      hfits hproof.input.rangeMax_nonneg, layoutWord_lt hproof.input.length_layout, hpadding_fits]
    simp [and_assoc]
  have hwords := fits_words_iff (PageFacts.fits_of_canonical hproof.input.canonical hfacts)
    (length_values_le_of_ofCells hfacts)
  simp only [seedNumbers, List.forall_mem_cons, List.forall_mem_append, hopening, hwords,
    hfits hlayers, fits_natCast]
  constructor
  · rintro ⟨hlayers, ⟨hlog2, hmin, hmax, hsegs⟩, hcount, hsize⟩
    exact ⟨hlayers, hlog2, hmin, hmax, hsegs, hcount, hsize⟩
  · rintro ⟨hlayers, hlog2, hmin, hmax, hsegs, hcount, hsize⟩
    exact ⟨hlayers, ⟨hlog2, hmin, hmax, hsegs⟩, hcount, hsize⟩

end PublicInput

end StarkCalldata
