import StarkCalldata.Proofs.Document
import StarkCalldata.Proofs.Memory.PageFacts

/-!
Public memory in the document.

The part of a document about the pages holds public memory and nothing else. The regular page is
read back two numbers at a time, every other page address by address:

* `Registration.slots?`: the slots that addresses and values in turn stand for;
* `Registration.Holds`: a registration holds the cells of a memory, each where it belongs;
* `Registration.Describes.holds`: the facts about a memory are described by registrations that hold
  it, and by no others;
* `exists_describes`: without negative numbers there is such a registration;
* `memory_reaches_document`: so public memory reaches the document, and comes back from it, without
  loss, duplication or misplacement.
-/

namespace StarkCalldata

open Memory

namespace Registration

/-- The slots that addresses and values in turn stand for; none if an address is left without its
value. -/
def slots? : List ℕ → Option (List Slot)
  | [] => some []
  | [_] => none
  | address :: value :: rest => do
      let slots ← slots? rest
      return ⟨address, value⟩ :: slots

/-- Numbers that stand for addresses and values in turn are read two at a time. -/
lemma slots?_of_interleave {slots : List Slot} {pairs : List ℕ}
    (h : interleave slots = pairs.map Nat.cast) : slots? pairs = some slots := by
  induction slots generalizing pairs with
  | nil =>
      obtain rfl : pairs = [] := by simpa [interleave] using h.symm
      rfl
  | cons s slots ih =>
      match pairs with
      | [] => simp [interleave] at h
      | [_] => simp [interleave] at h
      | address :: value :: rest =>
          obtain ⟨haddress, hvalue, hrest⟩ :
              s.address = address ∧ s.value = value ∧ interleave slots = rest.map Nat.cast := by
            simpa [interleave] using h
          rw [slots?, ih hrest, ← haddress, ← hvalue]
          rfl

/-- A registration holds the cells of a memory: those of the regular page one after another in the
order of the memory, those of the other pages, in ascending order of the pages, each at its
address. -/
structure Holds (r : Registration) (cells : List Cell) : Prop where
  regular_eq_none : r.regular = none ↔ ∀ c ∈ cells, c.page ≠ regularPage
  regular_slots : ∀ pairs, r.regular = some pairs → slots? pairs = some (slotsOn cells regularPage)
  continuous : List.Forall₂
    (fun q page => ContinuousPage.IsLaidOut (slotsOn cells q) page.1 (page.2.map Nat.cast))
    (otherPages cells) r.continuous

variable {r : Registration} {cells : List Cell} {facts : PageFacts}

/-! ### Reading the pages back -/

/-- What describes the facts about a memory holds that memory. -/
theorem Describes.holds (hr : r.Describes facts)
    (h : (PageFacts.ofCells cells).outcome = .ok facts) : r.Holds cells where
  regular_eq_none := by
    have hregular := PageFacts.regular_of_ofCells h
    have hnone : r.regular = none ↔ facts.regular = none := by
      rw [← Option.map_eq_none_iff (f := fun pairs : List ℕ => pairs.map (Nat.cast : ℕ → ℤ)),
        ← hr.regular, PageFacts.pairs, Option.map_eq_none_iff]
    rw [hnone, hregular]
    split_ifs with hcell
    · simpa using hcell
    · simpa using hcell
  regular_slots := by
    intro pairs hpairs
    have hregular := PageFacts.regular_of_ofCells h
    have hdescribed := hr.regular
    rw [hpairs, PageFacts.pairs, hregular] at hdescribed
    split_ifs at hdescribed with hcell
    · exact slots?_of_interleave (Option.some.inj hdescribed)
    · cases hdescribed
  continuous := by
    obtain ⟨hbuilt, -, -⟩ := PageFacts.ofCells_eq_ok.mp h
    have hlaid : List.Forall₂ (fun q p => ContinuousPage.IsLaidOut (slotsOn cells q) p.1 p.2)
        (otherPages cells) (facts.continuous.map fun p => (p.start, p.values)) :=
      List.forall₂_map_right_iff.mpr
        (hbuilt.imp fun _ _ hp => ContinuousPage.isLaidOut_of_build hp)
    rw [hr.continuous] at hlaid
    exact List.forall₂_map_right_iff.mp hlaid

/-! ### Memories without negative numbers -/

lemma exists_natCast {ns : List ℤ} (h : ∀ n ∈ ns, 0 ≤ n) : ∃ ms : List ℕ, ns = ms.map Nat.cast := by
  lift ns to List ℕ using h
  exact ⟨ns, rfl⟩

/-- Pages without negative numbers have natural starts and values. -/
lemma exists_pages {pages : List ContinuousPage}
    (h : ∀ p ∈ pages, 0 ≤ p.start ∧ ∀ v ∈ p.values, 0 ≤ v) :
    ∃ qs : List (ℕ × List ℕ), pages.map (fun p => (p.start, p.values)) =
      qs.map fun q => ((q.1 : ℤ), q.2.map Nat.cast) := by
  induction pages with
  | nil => exact ⟨[], rfl⟩
  | cons p pages ih =>
      obtain ⟨⟨hstart, hvalues⟩, hpages⟩ := List.forall_mem_cons.mp h
      obtain ⟨qs, hqs⟩ := ih hpages
      obtain ⟨start, hstart⟩ := Int.eq_ofNat_of_zero_le hstart
      obtain ⟨values, hvalues⟩ := exists_natCast hvalues
      refine ⟨(start, values) :: qs, ?_⟩
      rw [List.map_cons, List.map_cons, hqs, hstart, hvalues]

/-- The facts about a memory without negative numbers are described by a registration. -/
theorem exists_describes (hnonneg : ∀ c ∈ cells, 0 ≤ c.address ∧ 0 ≤ c.value)
    (h : (PageFacts.ofCells cells).outcome = .ok facts) :
    ∃ r : Registration, r.Describes facts := by
  obtain ⟨hslots, hpages⟩ := PageFacts.forall_mem (le_refl (0 : ℤ)) hnonneg h
  have hregular : ∃ regular : Option (List ℕ),
      facts.pairs = regular.map fun pairs => pairs.map Nat.cast := by
    rw [PageFacts.pairs]
    cases hr : facts.regular with
    | none => exact ⟨none, rfl⟩
    | some slots =>
        obtain ⟨pairs, hpairs⟩ := exists_natCast (hslots slots hr)
        exact ⟨some pairs, congrArg some hpairs⟩
  obtain ⟨regular, hregular⟩ := hregular
  obtain ⟨qs, hqs⟩ := exists_pages hpages
  exact ⟨⟨regular, qs⟩, hregular, hqs⟩

end Registration

open Registration

/-- **Public memory reaches the document without loss, duplication or misplacement.** Whenever a
memory without negative numbers has pages at all, they are written, and what is read back from the
document holds the memory. -/
theorem memory_reaches_document {cells : List Cell} {facts : PageFacts}
    (hnonneg : ∀ c ∈ cells, 0 ≤ c.page ∧ 0 ≤ c.address ∧ 0 ≤ c.value)
    (h : (PageFacts.ofCells cells).outcome = .ok facts) :
    ∃ j r, VerifierInput.encodeFacts facts = .ok j ∧ Registration.ofJson? j = some r ∧
      r.Holds cells := by
  obtain ⟨r, hr⟩ := exists_describes (fun c hc => (hnonneg c hc).2) h
  exact ⟨r.toJson, r, VerifierInput.encodeFacts_eq_ok.mpr ⟨r, hr, rfl⟩, ofJson?_toJson r,
    hr.holds h⟩

/-- A memory with interleaved pages, repeated cells and a gap. -/
def scatteredMemory : List Cell :=
  [⟨0, 1, 9⟩, ⟨5, 3, 1⟩, ⟨2, 7, 6⟩, ⟨0, 1, 9⟩, ⟨2, 5, 4⟩, ⟨0, 0, 2⟩, ⟨2, 7, 6⟩]

/-- The scattered memory reaches the document. -/
theorem scatteredMemory_reaches_document :
    ∃ facts j r, (PageFacts.ofCells scatteredMemory).outcome = .ok facts ∧
      VerifierInput.encodeFacts facts = .ok j ∧ Registration.ofJson? j = some r ∧
      r.Holds scatteredMemory := by
  have h : (PageFacts.ofCells scatteredMemory).outcome =
      .ok ⟨some [⟨1, 9⟩, ⟨1, 9⟩, ⟨0, 2⟩], [⟨2, 5, [4, 0, 6]⟩, ⟨5, 3, [1]⟩],
        PageTable.ofCells scatteredMemory⟩ := rfl
  obtain ⟨j, r, hj, hr, hholds⟩ := memory_reaches_document (by decide) h
  exact ⟨_, j, r, h, hj, hr, hholds⟩

end StarkCalldata
