import StarkCalldata.Proofs.Task.Walk

/-!
Which part of the output each task takes.

The first word of a task is its size, and the next task starts as many words further on. So a task
ends where the next one starts, the parts of the tasks never overlap, and every part but the last
one lies within the output because a task starts behind it. Nothing is said in this way about the
last part, nor about a size that does not even count the two words that were read:

* `extent`, `disjoint_extent`: the part that a task takes, by its place;
* `IsDivided`: every task takes a part of the output of its own, which holds its first two words;
* `tasks_divide_output`: what accepted tasks have of this, and what they lack.
-/

namespace StarkCalldata

namespace TaskMetadata

variable {output : List ℤ} {threshold : ℤ} {count place i j : ℕ}

/-- The part of the output that a task takes which starts at a place: as many words as the first one
says. -/
def extent (output : List ℤ) (place : ℕ) : Finset ℕ :=
  Finset.Ico place (place + (output.getD place 0).toNat)

@[simp] lemma mem_extent {x : ℕ} :
    x ∈ extent output place ↔ place ≤ x ∧ x < nextPlace output place :=
  Finset.mem_Ico

/-- The first two words of a task. -/
def header (place : ℕ) : Finset ℕ := {place, place + 1}

@[simp] lemma mem_header {x : ℕ} : x ∈ header place ↔ x = place ∨ x = place + 1 := by
  simp [header]

lemma taskPlace_succ (threshold : ℤ) (output : List ℤ) (i : ℕ) :
    taskPlace threshold output (i + 1) = nextPlace output (taskPlace threshold output i) :=
  Function.iterate_succ_apply' _ _ _

lemma monotone_taskPlace (threshold : ℤ) (output : List ℤ) :
    Monotone (taskPlace threshold output) :=
  monotone_nat_of_le_succ fun i => by
    rw [taskPlace_succ]
    exact Nat.le_add_right _ _

lemma disjoint_extent_of_lt (h : i < j) :
    Disjoint (extent output (taskPlace threshold output i))
      (extent output (taskPlace threshold output j)) := by
  have hend : nextPlace output (taskPlace threshold output i) ≤ taskPlace threshold output j := by
    rw [← taskPlace_succ]
    exact monotone_taskPlace threshold output h
  rw [Finset.disjoint_left]
  intro x hx hx'
  rw [mem_extent] at hx hx'
  omega

/-- Distinct tasks take disjoint parts. -/
lemma disjoint_extent (h : i ≠ j) :
    Disjoint (extent output (taskPlace threshold output i))
      (extent output (taskPlace threshold output j)) := by
  rcases h.lt_or_gt with hlt | hlt
  · exact disjoint_extent_of_lt hlt
  · exact (disjoint_extent_of_lt hlt).symm

lemma header_subset_extent : header place ⊆ extent output place ↔ 2 ≤ output.getD place 0 := by
  have hends : header place ⊆ extent output place ↔ place + 1 < nextPlace output place := by
    simp only [Finset.subset_iff, mem_header, mem_extent, forall_eq_or_imp, forall_eq]
    omega
  rw [hends, nextPlace]
  omega

/-- Every task takes a part of the output of its own, which holds its first two words. -/
structure IsDivided (threshold : ℤ) (count : ℕ) (output : List ℤ) : Prop where
  headers : ∀ i < count,
    header (taskPlace threshold output i) ⊆ extent output (taskPlace threshold output i)
  inside : ∀ i < count, extent output (taskPlace threshold output i) ⊆ Finset.range output.length
  apart : ∀ i < count, ∀ j < count, i ≠ j →
    Disjoint (extent output (taskPlace threshold output i))
      (extent output (taskPlace threshold output j))

lemma IsWalkable.header_subset (h : IsWalkable threshold count output) (hi : i < count) :
    header (taskPlace threshold output i) ⊆ Finset.range output.length := by
  have hend := h.headers i hi
  intro x hx
  rw [mem_header] at hx
  rw [Finset.mem_range]
  omega

lemma IsWalkable.extent_subset (h : IsWalkable threshold count output) (hi : i + 1 < count) :
    extent output (taskPlace threshold output i) ⊆ Finset.range output.length := by
  have hend := h.headers (i + 1) hi
  rw [taskPlace_succ] at hend
  intro x hx
  rw [mem_extent] at hx
  rw [Finset.mem_range]
  omega

/-- The tasks take parts of their own exactly when every size counts the two words in front and the
walk ends within the output. -/
lemma IsWalkable.isDivided_iff (h : IsWalkable threshold count output) :
    IsDivided threshold count output ↔
      (∀ i < count, 2 ≤ output.getD (taskPlace threshold output i) 0) ∧
        taskPlace threshold output count ≤ output.length := by
  constructor
  · rintro ⟨hheaders, hinside, -⟩
    refine ⟨fun i hi => header_subset_extent.mp (hheaders i hi), ?_⟩
    cases count with
    | zero => exact h.count
    | succ last =>
        -- the last task takes something, so its last word is one of the output
        have hsize := header_subset_extent.mp (hheaders last last.lt_succ_self)
        have hlast : nextPlace output (taskPlace threshold output last) - 1 ∈
            extent output (taskPlace threshold output last) := by
          rw [mem_extent, nextPlace]
          omega
        have hend := Finset.mem_range.mp (hinside last last.lt_succ_self hlast)
        rw [taskPlace_succ]
        omega
  · rintro ⟨hsizes, hend⟩
    refine ⟨fun i hi => header_subset_extent.mpr (hsizes i hi), fun i hi x hx => ?_,
      fun i _ j _ hne => disjoint_extent hne⟩
    have hle := monotone_taskPlace threshold output (show i + 1 ≤ count from hi)
    rw [taskPlace_succ] at hle
    rw [mem_extent] at hx
    rw [Finset.mem_range]
    omega

end TaskMetadata

open TaskMetadata

/-- **Accepted tasks are apart, but they need not be parts of the output.** The first two words of
each task lie within the output, distinct tasks take disjoint parts, and what a task takes lies
within the output when another one follows. For all of the tasks to take parts of the output that
hold their first two words, every size must be at least two, and the walk must end within the
output. -/
theorem tasks_divide_output {proof : AnnotatedProof} {document : Json} {given : List FactTopology}
    {threshold : ℤ} {tasks : TaskMetadata} {output : List ℤ}
    (hproof : (AnnotatedProof.ofJson document).outcome = .ok proof)
    (htasks : (ofProof proof given threshold).outcome = .ok tasks)
    (houtput : IsOutput proof.publicInput.segments proof.publicInput.memory output) :
    (∀ i < given.length, header (taskPlace threshold output i) ⊆ Finset.range output.length) ∧
      (∀ i j, i ≠ j → Disjoint (extent output (taskPlace threshold output i))
        (extent output (taskPlace threshold output j))) ∧
      (∀ i, i + 1 < given.length →
        extent output (taskPlace threshold output i) ⊆ Finset.range output.length) ∧
      (IsDivided threshold given.length output ↔
        (∀ i < given.length, 2 ≤ output.getD (taskPlace threshold output i) 0) ∧
          taskPlace threshold output given.length ≤ output.length) := by
  have hwell := (AnnotatedProof.isWellFormed_of_ofJson hproof).input
  obtain ⟨output', houtput', hwalk, -⟩ :=
    (ofProof_eq_ok fun c hc => (hwell.canonical c hc).2.1).mp htasks
  obtain rfl := houtput.unique houtput'
  exact ⟨fun i hi => hwalk.header_subset hi, fun i j hne => disjoint_extent hne,
    fun i hi => hwalk.extent_subset hi, hwalk.isDivided_iff⟩

/-- The tasks of the proof with a configuration are parts of its output. -/
theorem bootProof_isDivided : IsDivided 100 2 bootOutput := by
  have htasks : (ofProof bootProof bootTopologies 100).outcome =
      .ok (described 100 bootOutput bootTopologies) := rfl
  obtain ⟨-, -, -, hdivided⟩ := tasks_divide_output ofJson_bootProof htasks isOutput_bootOutput
  exact hdivided.mpr ⟨by decide, by decide⟩

/-- A proof whose output holds two tasks: the size of the first one counts only itself, and the size
of the second one goes far beyond the output. -/
def overlongProof : AnnotatedProof :=
  { bootProof with
    publicInput :=
      { bootProof.publicInput with
        segments := [("output", ⟨10, 14⟩)]
        memory := [⟨0, 10, 2⟩, ⟨0, 11, 1⟩, ⟨0, 12, 100⟩, ⟨0, 13, 5⟩] } }

/-- The document of two empty topologies. -/
def emptyTopologiesJson : Json := .arr (List.replicate 2 (.obj [("tree_structure", .arr [])]))

/-- The tasks of that proof are accepted: the first one without its second word, which is the first
word of the other one, and the other one with a hundred words of which the output has two. -/
theorem overlongProof_not_isDivided :
    (∃ document, Json.parseWithin 5 overlongProof.toJson.compact = .ok document ∧
      (AnnotatedProof.ofJson document).outcome = .ok overlongProof) ∧
    ∃ given tasks output,
      FactTopology.ofJson emptyTopologiesJson = .ok given ∧
        (ofProof overlongProof given 0x100000000).outcome = .ok tasks ∧
        IsOutput overlongProof.publicInput.segments overlongProof.publicInput.memory output ∧
        ¬ header (taskPlace 0x100000000 output 0) ⊆ extent output (taskPlace 0x100000000 output 0) ∧
        ¬ extent output (taskPlace 0x100000000 output 1) ⊆ Finset.range output.length ∧
        ¬ IsDivided 0x100000000 given.length output := by
  have hparsed : ((Json.parseWithin 5 overlongProof.toJson.compact).toOption.bind fun document =>
      (AnnotatedProof.ofJson document).outcome.toOption) = some overlongProof := by decide +kernel
  obtain ⟨document, hdocument, hproof⟩ := Option.bind_eq_some_iff.mp hparsed
  have hheader : ¬ header (taskPlace 0x100000000 [2, 1, 100, 5] 0) ⊆
      extent [2, 1, 100, 5] (taskPlace 0x100000000 [2, 1, 100, 5] 0) := by decide
  have hbeyond : ¬ extent [2, 1, 100, 5] (taskPlace 0x100000000 [2, 1, 100, 5] 1) ⊆
      Finset.range [2, 1, 100, 5].length := fun hsubset =>
    absurd (hsubset (mem_extent.mpr (by decide : 2 ≤ 101 ∧ 101 < 102))) (by decide)
  exact ⟨⟨document, Outcome.toOption_eq_some.mp hdocument, Outcome.toOption_eq_some.mp hproof⟩,
    [⟨[], []⟩, ⟨[], []⟩], ⟨[2, 1, 100, 0, 100, 5, 0], some .plain, some 2⟩, [2, 1, 100, 5],
    rfl, rfl, programOutput_eq_ok.mp rfl, hheader, hbeyond,
    fun hdivided => hheader (hdivided.headers 0 (by decide))⟩

end StarkCalldata
