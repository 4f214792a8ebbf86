import StarkCalldata.Proofs.Memory.PageFacts
import StarkCalldata.PublicInput.Vector

/-!
The two parts of the public input.

* `openingWords`, `outcome_seed`: the first part, in closed form: the words about the run, and at
  the end the number of pages with the words about each of them;
* `withProducts_eq_ok`: the second part follows the first for canonical challenges.
-/

namespace StarkCalldata.PublicInput

open Memory

variable {proof : AnnotatedProof} {facts : PageFacts} {layers : Json} {first whole : List Entry}
  {z alpha : ℤ}

/-- The words about the run, with the padding cell at the end. -/
def openingWords (input : PublicInput) (layout : ℕ) (padding : Slot) : List ℤ :=
  [(bitLength input.steps : ℤ) - 1, input.rangeMin, input.rangeMax, (layout : ℤ)]
    ++ knownSegmentWords input.segments ++ [padding.address, padding.value]

@[simp] lemma outcome_log2Steps (n : ℤ) : (log2Steps n).outcome = .ok ((bitLength n : ℤ) - 1) := by
  rw [log2Steps]
  split <;> rfl

/-- The addresses of the known segments are taken whatever other segments there are. -/
@[simp] lemma outcome_segmentWords (segments : Segments) :
    (segmentWords segments).outcome = .ok (knownSegmentWords segments) := by
  rw [segmentWords]
  simp only
  split <;> rfl

/-- The first part of the public input: the name of the layout must be ASCII, there must be a
padding cell, and the pages must be hashed. -/
theorem outcome_seed (proof : AnnotatedProof) (facts : PageFacts) (layers : Json) :
    (seed proof facts layers).outcome =
      (layoutNumber proof.publicInput.layout).bind fun layout =>
        match proof.publicInput.memory.head? with
        | none => .error .offsetOutOfRange
        | some padding => facts.sortedPages.bind fun pages =>
            .ok (layersEntry proof.parameters layers ::
              (openingWords proof.publicInput layout padding.slot
                ++ (facts.count : ℤ) :: pages.flatMap pageWords).map .int) := by
  rw [seed]
  simp only [Run.outcome_bind, outcome_log2Steps, Run.outcome_liftM, outcome_segmentWords]
  cases layoutNumber proof.publicInput.layout with
  | error e => rfl
  | ok layout =>
      simp only [Except.bind]
      cases proof.publicInput.memory with
      | nil => rfl
      | cons padding rest =>
          simp only [Run.outcome_bind, Run.outcome_liftM, List.head?_cons]
          cases facts.sortedPages with
          | error e => rfl
          | ok pages => simp [openingWords, Except.bind, Cell.slot]

/-- The first part ends with the number of pages and the words about each of them. -/
lemma seed_eq_append (h : (seed proof facts layers).outcome = .ok first) :
    ∃ head pages, facts.sortedPages = .ok pages ∧
      first = head ++ ((facts.count : ℤ) :: pages.flatMap pageWords).map .int := by
  rw [outcome_seed, Outcome.bind_ok] at h
  obtain ⟨layout, -, h⟩ := h
  cases hmemory : proof.publicInput.memory.head? with
  | none =>
      rw [hmemory] at h
      cases h
  | some padding =>
      rw [hmemory] at h
      obtain ⟨pages, hpages, h⟩ := Outcome.bind_ok.mp h
      cases h
      refine ⟨layersEntry proof.parameters layers ::
        (openingWords proof.publicInput layout padding.slot).map .int, pages, hpages, ?_⟩
      rw [List.map_append, List.cons_append]

lemma canonical_eq_ok {name : Challenge.Name} {n : ℤ} {u : Unit} :
    canonical name n = .ok u ↔ Field.IsCanonical n := by
  rw [canonical]
  split <;> simp_all

/-- The whole vector is the first part followed by the products, for canonical challenges. -/
lemma withProducts_eq_ok :
    withProducts first facts z alpha = .ok whole ↔
      Field.IsCanonical z ∧ Field.IsCanonical alpha ∧ ∃ pages, facts.sortedPages = .ok pages ∧
        whole = first ++ (products pages z alpha).map .int := by
  simp only [withProducts, Outcome.bind_eq_ok, canonical_eq_ok, Outcome.pure_eq_ok]
  constructor
  · rintro ⟨_, hz, _, ha, pages, hp, rfl⟩
    exact ⟨hz, ha, pages, hp, rfl⟩
  · rintro ⟨hz, ha, pages, hp, rfl⟩
    exact ⟨(), hz, (), ha, pages, hp, rfl⟩

end StarkCalldata.PublicInput
