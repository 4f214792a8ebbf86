import StarkCalldata.Proofs.Task.Topology
import StarkCalldata.Proofs.Word
import StarkCalldata.Task.Metadata

/-!
What the task metadata can hold, and how it can fail.

The words about the tasks are read from the output of the program, which is read from public memory,
and from the topologies. So they are numbers of these, and a failure is always a defect of the
output:

* `FactTopology.IsWellFormed`, `FactTopology.isWellFormed_of_ofJson`: what is checked of topologies;
* `HoldsLast`, `IsOutput`: what memory holds at an address, and what the output of a program is;
* `programOutput_eq_ok`, `faultsIn_programOutput`: what is read is the output, and what is not there
  to be read is a defect;
* `StartsTooFar`, `kind_programOutput_of_startsTooFar`: unless the message about it cannot be found;
* `TaskMetadata.forall_mem_build`: what holds of all words of the output holds of all words about
  the tasks when it holds of the numbers of the topologies;
* `TaskMetadata.faultsIn_build`: the failures are defects of the output.
-/

namespace StarkCalldata

open Text Memory

/-! ### Topologies -/

namespace FactTopology

/-- What is known of a topology: its tree holds pairs, and no number is negative. -/
structure IsWellFormed (t : FactTopology) : Prop where
  tree_even : 2 ∣ t.tree.length
  tree_nonneg : ∀ n ∈ t.tree, 0 ≤ n
  pageSizes_nonneg : ∀ n ∈ t.pageSizes, 0 ≤ n

lemma Describes.isWellFormed {entry : Json} {t : FactTopology} (h : Describes entry t) :
    t.IsWellFormed where
  tree_even := h.tree.even
  tree_nonneg := by
    obtain ⟨_, _, -, -, htree⟩ := h.tree.exists_value
    exact htree.nonneg
  pageSizes_nonneg := by
    rcases h.sizes with ⟨-, hnone⟩ | ⟨_, -, hsizes⟩
    · simp [hnone]
    · exact hsizes.nonneg

/-- **The topologies of a document are well formed.** -/
theorem isWellFormed_of_ofJson {j : Json} {given : List FactTopology} (h : ofJson j = .ok given) :
    ∀ t ∈ given, t.IsWellFormed := by
  obtain ⟨entries, -, hgiven⟩ := ofJson_eq_ok.mp h
  clear h
  induction hgiven with
  | nil => simp
  | cons ht _ ih => exact List.forall_mem_cons.mpr ⟨ht.isWellFormed, ih⟩

end FactTopology

/-! ### The output of the program -/

/-- The value that memory holds at an address: the value of the last cell there. -/
def HoldsLast (memory : List Cell) (address value : ℤ) : Prop :=
  ∃ before cell after, memory = before ++ cell :: after ∧ cell.address = address ∧
    cell.value = value ∧ ∀ later ∈ after, later.address ≠ address

/-- The output of a program: there is an output segment, memory holds a value at each of its
addresses, and these are the words of the output. -/
def IsOutput (segments : Segments) (memory : List Cell) (output : List ℤ) : Prop :=
  ∃ s, segments.lookup "output" = some s ∧ output.length = (s.stop - s.start).toNat ∧
    ∀ (i : ℕ) (h : i < output.length), HoldsLast memory (s.start + i) output[i]

variable {memory : List Cell} {segments : Segments} {output : List ℤ} {count : ℕ} {start : ℤ}

/-- The value that is found at an address is the one that memory holds there. -/
lemma lastValue?_eq_some_iff {a v : ℤ} : lastValue? memory a = some v ↔ HoldsLast memory a v := by
  simp only [lastValue?, Option.map_eq_some_iff, List.find?_eq_some_iff_append, decide_eq_true_eq]
  constructor
  · rintro ⟨c, ⟨haddress, as, bs, hsplit, has⟩, hvalue⟩
    refine ⟨bs.reverse, c, as.reverse, ?_, haddress, hvalue, ?_⟩
    · rw [← List.reverse_reverse memory, hsplit]
      simp
    · intro later hlater
      simpa using has later (List.mem_reverse.mp hlater)
  · rintro ⟨before, c, after, rfl, haddress, hvalue, hafter⟩
    refine ⟨c, ⟨haddress, after.reverse, before.reverse, by simp, ?_⟩, hvalue⟩
    intro later hlater
    simpa using hafter later (List.mem_reverse.mp hlater)

/-- Values are read one after another. -/
lemma readMemory_eq_ok_map : readMemory memory count start = .ok output ↔
    output.map some = (List.range count).map fun i : ℕ => lastValue? memory (start + i) := by
  induction count generalizing start output with
  | zero =>
      rw [readMemory, List.range_zero, List.map_nil, List.map_eq_nil_iff, Except.ok.injEq, eq_comm]
  | succ count ih =>
      have hshift (i : ℕ) : start + (i + 1 : ℕ) = start + 1 + i := by
        push_cast
        ring
      rw [readMemory, List.range_succ_eq_map, List.map_cons, List.map_map]
      simp only [Function.comp_def, Nat.succ_eq_add_one, hshift, Nat.cast_zero, add_zero,
        List.map_eq_cons_iff, ← ih]
      split
      · rename_i hnone
        simp [hnone]
      · rename_i v hv
        simp only [hv, Outcome.bind_eq_ok, Outcome.pure_eq_ok, Option.some.injEq]
        constructor
        · rintro ⟨others, hothers, rfl⟩
          exact ⟨v, others, rfl, rfl, hothers⟩
        · rintro ⟨_, others, rfl, rfl, hothers⟩
          exact ⟨others, hothers, rfl⟩

/-- The values that are read are those that memory holds. -/
lemma readMemory_eq_ok :
    readMemory memory count start = .ok output ↔ output.length = count ∧
      ∀ (i : ℕ) (h : i < output.length), HoldsLast memory (start + i) output[i] := by
  simp only [readMemory_eq_ok_map, ← lastValue?_eq_some_iff]
  constructor
  · intro h
    have hlength : output.length = count := by simpa using congrArg List.length h
    refine ⟨hlength, fun i hi => ?_⟩
    have hword := congrArg (·[i]?) h
    simpa [hi, hlength ▸ hi, eq_comm] using hword
  · rintro ⟨rfl, h⟩
    exact List.ext_getElem (by simp) fun i hi _ => by simp [h i (by simpa using hi)]

lemma HoldsLast.exists_mem {a v : ℤ} (h : HoldsLast memory a v) :
    ∃ c ∈ memory, c.address = a ∧ c.value = v := by
  obtain ⟨before, c, after, hmemory, haddress, hvalue, -⟩ := h
  exact ⟨c, by simp [hmemory], haddress, hvalue⟩

/-- What is read as the output is the output. -/
lemma programOutput_eq_ok : programOutput segments memory = .ok output ↔
    IsOutput segments memory output := by
  rw [programOutput, IsOutput]
  cases segments.lookup "output" with
  | none => simp [outputDefect]
  | some s => simp only [readMemory_eq_ok, Option.some.injEq, exists_eq_left']

lemma IsOutput.unique {output' : List ℤ} (h : IsOutput segments memory output)
    (h' : IsOutput segments memory output') : output = output' :=
  Except.ok.inj ((programOutput_eq_ok.mpr h).symm.trans (programOutput_eq_ok.mpr h'))

lemma IsOutput.forall_mem {Q : ℤ → Prop} (h : IsOutput segments memory output)
    (hmemory : ∀ c ∈ memory, Q c.value) : ∀ v ∈ output, Q v := by
  obtain ⟨s, -, -, hholds⟩ := h
  intro v hv
  obtain ⟨i, hi, rfl⟩ := List.getElem_of_mem hv
  obtain ⟨c, hc, -, hvalue⟩ := (hholds i hi).exists_mem
  exact hvalue ▸ hmemory c hc

variable {P : Fault.Kind → Prop}

/-- A value that is not in memory is a defect of it; the address can be written if the first one
can, since those before it are addresses of cells. -/
lemma faultsIn_readMemory (hmalformed : P .malformedInput)
    (hmemory : ∀ c ∈ memory, Field.IsCanonical c.address)
    (hstart : 0 < count → ¬ Writable start → P .value) :
    FaultsIn P (readMemory memory count start) := by
  induction count generalizing start with
  | zero => exact .ok []
  | succ count ih =>
      rw [readMemory]
      split
      · refine .error (Fault.of_kind_quoting hmalformed ?_)
        rw [List.forall_mem_singleton]
        exact or_iff_not_imp_left.mpr (hstart count.succ_pos)
      · rename_i v hv
        obtain ⟨c, hc, rfl, -⟩ := (lastValue?_eq_some_iff.mp hv).exists_mem
        have hnext : Word.Fits (c.address + 1) := by
          obtain ⟨hnonneg, hlt⟩ := hmemory c hc
          have hprime : (Field.prime : ℤ) + 1 < Word.limit := by decide
          exact ⟨by omega, by omega⟩
        exact (ih fun _ hlong => absurd hnext.writable hlong).bind fun others _ => .ok _

/-- The output starts at an address that is too long to be written. -/
def StartsTooFar (segments : Segments) : Prop :=
  ∃ s, segments.lookup "output" = some s ∧ s.start < s.stop ∧ ¬ Writable s.start

/-- A defect of the output. -/
lemma faultsIn_programOutput (hmalformed : P .malformedInput)
    (hmemory : ∀ c ∈ memory, Field.IsCanonical c.address)
    (hstart : StartsTooFar segments → P .value) :
    FaultsIn P (programOutput segments memory) := by
  rw [programOutput]
  split
  · exact .error hmalformed
  · rename_i s hs
    refine faultsIn_readMemory hmalformed hmemory fun hcount hlong => hstart ⟨s, hs, ?_, hlong⟩
    omega

/-- An output that starts too far away is missing from memory at once, and the message that would
say so cannot be found. -/
lemma kind_programOutput_of_startsTooFar (hmemory : ∀ c ∈ memory, Field.IsCanonical c.address)
    (h : StartsTooFar segments) :
    ∃ f, programOutput segments memory = .error f ∧ f.kind = .value := by
  obtain ⟨s, hs, hlt, hlong⟩ := h
  have hne : (s.stop - s.start).toNat ≠ 0 := by omega
  obtain ⟨count, hcount⟩ := Nat.exists_eq_succ_of_ne_zero hne
  have hmissing : lastValue? memory s.start = none := by
    cases hv : lastValue? memory s.start with
    | none => rfl
    | some v =>
        obtain ⟨c, hc, haddress, -⟩ := (lastValue?_eq_some_iff.mp hv).exists_mem
        exact absurd (Word.Fits.writable (haddress ▸ (hmemory c hc).fits)) hlong
  refine ⟨_, by rw [programOutput, hs]; simp only [hcount, readMemory, hmissing]; rfl, ?_⟩
  rw [Fault.kind_quoting, if_neg fun h => hlong (h _ (List.mem_singleton.mpr rfl))]

/-- The words of the output are elements of the field, and there are no more of them than that. -/
lemma IsOutput.canonical (h : IsOutput segments memory output)
    (hmemory : ∀ c ∈ memory, Field.IsCanonical c.address ∧ Field.IsCanonical c.value) :
    (∀ v ∈ output, Field.IsCanonical v) ∧ output.length ≤ Field.prime := by
  refine ⟨h.forall_mem fun c hc => (hmemory c hc).2, ?_⟩
  obtain ⟨s, -, -, hholds⟩ := h
  by_contra hlong
  -- the first and the last address would be too far apart
  obtain ⟨first, hfirst, hfirst_address, -⟩ := (hholds 0 (by omega)).exists_mem
  obtain ⟨last, hlast, hlast_address, -⟩ := (hholds (output.length - 1) (by omega)).exists_mem
  have hfirst_nonneg := (hmemory first hfirst).1.1
  have hlast_lt := (hmemory last hlast).1.2
  omega

/-! ### The words about the tasks -/

lemma wordAt_eq_ok {place : ℕ} {w : ℤ} : wordAt output place = .ok w ↔ output[place]? = some w := by
  have hplace : ¬ (place : ℤ) < 0 := by omega
  rw [wordAt]
  simp only [if_neg hplace, Int.toNat_natCast]
  cases output[place]? <;> simp

lemma wordAt_of_lt (output : List ℤ) {offset : ℤ} (hnonneg : 0 ≤ offset)
    (hlt : offset < output.length) : ∃ w ∈ output, wordAt output offset = .ok w := by
  obtain ⟨place, rfl⟩ := Int.eq_ofNat_of_zero_le hnonneg
  have hplace : place < output.length := by omega
  exact ⟨output[place], List.getElem_mem hplace, wordAt_eq_ok.mpr (by simp)⟩

lemma mem_of_wordAt {offset w : ℤ} (h : wordAt output offset = .ok w) : w ∈ output := by
  simp only [wordAt] at h
  generalize (if offset < 0 then offset + output.length else offset) = place at h
  split_ifs at h
  split at h
  · rename_i found hfound
    cases h
    exact List.mem_of_getElem? hfound
  · cases h

namespace TaskMetadata

variable {Q : ℤ → Prop} {topologies : List FactTopology} {words : List ℤ} {task : ℕ} {offset : ℤ}
  {threshold : Json}

/-- What holds of the words of the output holds of the words about tasks when it holds of the
numbers of their topologies. -/
lemma forall_mem_taskWords (houtput : ∀ v ∈ output, Q v)
    (h : taskWords output topologies task offset = .ok words) :
    (∀ n ∈ words, Q n) ↔ ∀ t ∈ topologies, Q t.pairCount ∧ ∀ n ∈ t.tree, Q n := by
  induction topologies generalizing task offset words with
  | nil =>
      cases h
      simp
  | cons topology topologies ih =>
      rw [taskWords] at h
      split_ifs at h with hend
      simp only [Outcome.bind_eq_ok, Outcome.pure_eq_ok] at h
      obtain ⟨size, hsize, program, hprogram, others, hothers, rfl⟩ := h
      have hsize' := houtput size (mem_of_wordAt hsize)
      have hprogram' := houtput program (mem_of_wordAt hprogram)
      simp only [List.cons_append, List.nil_append, List.forall_mem_cons, List.forall_mem_append,
        ih hothers, hsize', hprogram', true_and, and_assoc]

/-- A task past the end of the output is a defect of it, and nothing else can go wrong, since sizes
of outputs lead forward. -/
lemma faultsIn_taskWords (hmalformed : P .malformedInput)
    (houtput : ∀ v ∈ output, Field.IsCanonical v) (hlength : output.length ≤ Field.prime)
    (hnonneg : 0 ≤ offset) (hoffset : offset ≤ output.length + Field.prime) :
    FaultsIn P (taskWords output topologies task offset) := by
  induction topologies generalizing task offset with
  | nil => exact .ok []
  | cons topology topologies ih =>
      rw [taskWords]
      split_ifs with hend
      · have hfits : Word.Fits offset := by
          have hprime : (Field.prime : ℤ) + Field.prime < Word.limit := by decide
          exact ⟨hnonneg, by omega⟩
        refine .error (Fault.of_kind_quoting hmalformed (.inl ?_))
        simpa using hfits.writable
      · obtain ⟨size, hmem, hsize⟩ := wordAt_of_lt output hnonneg (by omega)
        have hnext : 0 ≤ offset + 1 := by omega
        obtain ⟨program, -, hprogram⟩ := wordAt_of_lt output hnext (by omega)
        obtain ⟨hsize_nonneg, hsize_lt⟩ := houtput size hmem
        rw [hsize, hprogram]
        exact (ih (by omega) (by omega)).bind fun others _ => .ok _

/-- The metadata of an output: its layout, a word for the number of tasks, and the words about the
tasks; whether the output declares as many tasks is only noted. -/
lemma outcome_ofOutput (output : List ℤ) (topologies : List FactTopology) (threshold : Json) :
    (ofOutput output topologies threshold).outcome =
      (OutputLayout.detect output threshold).bind fun layout =>
        match output[layout.countOffset]? with
        | none => outputDefect (.noTaskCount output.length layout.countOffset)
        | some declared => (taskWords output topologies 0 layout.tasksOffset).bind fun words =>
            .ok ⟨(topologies.length : ℤ) :: words, some layout, some declared⟩ := by
  rw [ofOutput]
  simp only [Run.outcome_bind, Run.outcome_liftM, Run.outcome_note]
  cases OutputLayout.detect output threshold with
  | error e => rfl
  | ok layout =>
      simp only [Except.bind]
      cases output[layout.countOffset]? with
      | none => rfl
      | some declared =>
          simp only
          split_ifs
          · simp only [Run.outcome_bind, Run.outcome_liftM, Run.outcome_note, Run.outcome_pure]
            rfl
          · simp only [Run.outcome_bind, Run.outcome_liftM, Run.outcome_pure]
            rfl

/-- An output that is empty or too short is defective; the layout is found if the threshold is a
number, and a threshold that is none is of the wrong type. -/
lemma faultsIn_ofOutput (hmalformed : P .malformedInput)
    (houtput : ∀ v ∈ output, Field.IsCanonical v) (hlength : output.length ≤ Field.prime)
    (hthreshold : ∀ n, Json.exceeds? n threshold ≠ none ∨ P .type) :
    FaultsIn P (ofOutput output topologies threshold).outcome := by
  rw [outcome_ofOutput]
  refine FaultsIn.bind ?_ fun layout _ => ?_
  · cases output with
    | nil => exact .error hmalformed
    | cons first rest =>
        simp only [OutputLayout.detect]
        split
        · exact .ok _
        · exact .ok _
        · rename_i hnone
          exact .error ((hthreshold first).resolve_left fun hsome => hsome hnone)
  · split
    · exact .error hmalformed
    · refine FaultsIn.bind ?_ fun words _ => .ok _
      refine faultsIn_taskWords hmalformed houtput hlength ?_ ?_
      · exact Int.natCast_nonneg _
      · have htasks : layout.tasksOffset ≤ Field.prime := by cases layout <;> decide
        omega

lemma outcome_build (segments : Segments) (memory : List Cell) (given : List FactTopology)
    (threshold : Json) : (build segments memory (some given) threshold).outcome =
      (programOutput segments memory).bind fun output =>
        (ofOutput output given threshold).outcome := by
  rw [build]
  simp only [Run.outcome_bind, Run.outcome_liftM]

/-- **The failures of the task metadata are defects of the output**, unless the threshold is no
number. -/
theorem faultsIn_build {topologies : Option (List FactTopology)} (hmalformed : P .malformedInput)
    (hmemory : ∀ c ∈ memory, Field.IsCanonical c.address ∧ Field.IsCanonical c.value)
    (hstart : StartsTooFar segments → P .value)
    (hthreshold : ∀ n, Json.exceeds? n threshold ≠ none ∨ P .type) :
    FaultsIn P (build segments memory topologies threshold).outcome := by
  cases topologies with
  | none => exact .ok noTasks
  | some given =>
      have haddresses : ∀ c ∈ memory, Field.IsCanonical c.address := fun c hc => (hmemory c hc).1
      rw [outcome_build]
      refine (faultsIn_programOutput hmalformed haddresses hstart).bind fun output houtput => ?_
      obtain ⟨hcanonical, hlength⟩ := (programOutput_eq_ok.mp houtput).canonical hmemory
      exact faultsIn_ofOutput hmalformed hcanonical hlength hthreshold

/-- **The words about the tasks**: what holds of zero and of the numbers of memory holds of all of
them when it holds of the number of the topologies and of the numbers in them. -/
theorem forall_mem_build {topologies : Option (List FactTopology)} {tasks : TaskMetadata}
    (hzero : Q 0) (hmemory : ∀ c ∈ memory, Q c.value)
    (h : (build segments memory topologies threshold).outcome = .ok tasks) :
    (∀ n ∈ tasks.words, Q n) ↔ ∀ given ∈ topologies,
      Q (given.length : ℤ) ∧ ∀ t ∈ given, Q t.pairCount ∧ ∀ n ∈ t.tree, Q n := by
  cases topologies with
  | none =>
      cases h
      simp [noTasks, hzero]
  | some given =>
      simp only [outcome_build, outcome_ofOutput, Outcome.bind_ok] at h
      obtain ⟨output, houtput, layout, -, h⟩ := h
      have hvalues : ∀ v ∈ output, Q v := (programOutput_eq_ok.mp houtput).forall_mem hmemory
      split at h
      · cases h
      · obtain ⟨words, hwords, h⟩ := Outcome.bind_ok.mp h
        cases h
        simp only [List.forall_mem_cons, forall_mem_taskWords hvalues hwords, Option.mem_def,
          Option.some.injEq, forall_eq']

end TaskMetadata

end StarkCalldata
