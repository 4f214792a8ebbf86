import StarkCalldata.Proofs.Proof.WellFormed
import StarkCalldata.Proofs.Proof.Writing
import StarkCalldata.Proofs.Task.Metadata

/-!
The task metadata as a walk over the output.

The first task starts right behind the task count, and the first word of each task says how far it
is to the next one. A task is accepted when its first two words lie within the output, so the walk is
told by its places alone:

* `countPlace`, `taskPlace`: where the task count and the tasks stand;
* `IsWalkable`, `taskWords_eq_ok`: the walk succeeds when no task starts too late, and then its
  words are the records of the tasks in a row;
* `TaskRecord.read?`, `TaskMetadata.read?`: a reader of these words, which needs nothing else to
  find their end;
* `tasks_follow_output`: all of this about the public input of an accepted proof.
-/

namespace StarkCalldata

open Text Memory

variable {output : List ℤ}

/-! ### The records of the tasks -/

/-- What the metadata say about one task. -/
structure TaskRecord where
  size : ℤ
  program : ℤ
  tree : List ℤ
  deriving Repr, DecidableEq

namespace TaskRecord

/-- The words of a record: size, program hash, number of pairs of the tree, and the tree. -/
def words (r : TaskRecord) : List ℤ :=
  [r.size, r.program, (r.tree.length / 2 : ℕ)] ++ r.tree

/-- A record taken off the front of a row of words, as many of which belong to its tree as its
number of pairs says. -/
def read? : List ℤ → Option (TaskRecord × List ℤ)
  | size :: program :: pairs :: rest =>
      let length := 2 * pairs.toNat
      if 0 ≤ pairs ∧ length ≤ rest.length then
        some (⟨size, program, rest.take length⟩, rest.drop length)
      else none
  | _ => none

/-- As many records as asked for, taken off the front of a row of words. -/
def readMany? : ℕ → List ℤ → Option (List TaskRecord × List ℤ)
  | 0, words => some ([], words)
  | count + 1, words => do
      let (first, rest) ← read? words
      let (others, rest) ← readMany? count rest
      return (first :: others, rest)

/-- A record is read back, whatever follows it. -/
lemma read?_words {r : TaskRecord} (h : 2 ∣ r.tree.length) (rest : List ℤ) :
    read? (r.words ++ rest) = some (r, rest) := by
  have hlength : 2 * (r.tree.length / 2) = r.tree.length := Nat.mul_div_cancel' h
  have hcast : ((r.tree.length / 2 : ℕ) : ℤ).toNat = r.tree.length / 2 := Int.toNat_natCast _
  have hnonneg : (0 : ℤ) ≤ (r.tree.length / 2 : ℕ) := Int.natCast_nonneg _
  simp only [words, List.cons_append, List.nil_append, read?, hcast, hlength, hnonneg,
    List.length_append, Nat.le_add_right, and_self, if_true, List.take_left, List.drop_left]

/-- Records in a row are read back, whatever follows them. -/
lemma readMany?_flatMap {rs : List TaskRecord} (h : ∀ r ∈ rs, 2 ∣ r.tree.length)
    (rest : List ℤ) : readMany? rs.length (rs.flatMap words ++ rest) = some (rs, rest) := by
  induction rs with
  | nil => rfl
  | cons r rs ih =>
      obtain ⟨hr, hrs⟩ := List.forall_mem_cons.mp h
      rw [List.flatMap_cons, List.append_assoc, List.length_cons, readMany?, read?_words hr]
      simp [ih hrs]

end TaskRecord

namespace TaskMetadata

/-- The records of task metadata, with the words that are left over. -/
def read? : List ℤ → Option (List TaskRecord × List ℤ)
  | count :: rest => if 0 ≤ count then TaskRecord.readMany? count.toNat rest else none
  | [] => none

/-! ### The walk -/

/-- Where the task count stands: behind the two hashes of a configuration if the first word is above
the threshold, and in front otherwise. -/
def countPlace (threshold : ℤ) (output : List ℤ) : ℕ :=
  if threshold < output.headD 0 then 2 else 0

/-- The place that the word at a place leads to. -/
def nextPlace (output : List ℤ) (place : ℕ) : ℕ := place + (output.getD place 0).toNat

/-- Where the task with a number starts: the first one right behind the task count, and every other
one where the first word of the one before leads. -/
def taskPlace (threshold : ℤ) (output : List ℤ) (i : ℕ) : ℕ :=
  (nextPlace output)^[i] (countPlace threshold output + 1)

/-- The record of a task that starts at a place. -/
def recordAt (output : List ℤ) (place : ℕ) (t : FactTopology) : TaskRecord :=
  ⟨output.getD place 0, output.getD (place + 1) 0, t.tree⟩

/-- The records of the tasks with given topologies. -/
def records (threshold : ℤ) (output : List ℤ) (given : List FactTopology) : List TaskRecord :=
  given.mapIdx fun i t => recordAt output (taskPlace threshold output i) t

/-- An output that holds a number of tasks: it has a task count, and the first two words of each
task lie within it. -/
structure IsWalkable (threshold : ℤ) (tasks : ℕ) (output : List ℤ) : Prop where
  ne_nil : output ≠ []
  count : countPlace threshold output < output.length
  headers : ∀ i < tasks, taskPlace threshold output i + 1 < output.length

variable {given : List FactTopology} {words : List ℤ} {tasks : TaskMetadata} {threshold : ℤ}
  {task place : ℕ}

/-- **The walk**: it has a result when the first two words of each task lie within the output, and
then the result is the records of the tasks in a row. -/
lemma taskWords_eq_ok (houtput : ∀ v ∈ output, 0 ≤ v) :
    taskWords output given task place = .ok words ↔
      (∀ i < given.length, (nextPlace output)^[i] place + 1 < output.length) ∧
        words = (given.mapIdx fun i t => recordAt output ((nextPlace output)^[i] place) t).flatMap
          TaskRecord.words := by
  induction given generalizing task place words with
  | nil => simp [taskWords, eq_comm]
  | cons t given ih =>
      rw [taskWords, List.length_cons, Nat.forall_lt_succ_left]
      simp only [Function.iterate_zero, Function.iterate_succ, Function.comp_apply, id_eq,
        List.mapIdx_cons, List.flatMap_cons]
      split_ifs with hend
      · have hlate : ¬ place + 1 < output.length := by omega
        simp [hlate]
      · have hplace : place + 1 < output.length := by omega
        have hsize : output.getD place 0 = output[place] := by
          simp [show place < output.length by omega]
        have hprogram : output.getD (place + 1) 0 = output[place + 1] := by simp [hplace]
        -- no size is negative, so the walk goes on at a place of the output or behind it
        have hnext : (place : ℤ) + output[place] = nextPlace output place := by
          have hnonneg := houtput output[place] (List.getElem_mem _)
          rw [nextPlace, hsize]
          omega
        have hword : wordAt output place = .ok output[place] := wordAt_eq_ok.mpr (by simp)
        have hword' : wordAt output (place + 1 : ℕ) = .ok output[place + 1] :=
          wordAt_eq_ok.mpr (by simp [hplace])
        rw [Nat.cast_add, Nat.cast_one] at hword'
        have hrecord : [output[place], output[place + 1], (t.pairCount : ℤ)] ++ t.tree =
            (recordAt output place t).words := by
          rw [recordAt, hsize, hprogram, TaskRecord.words, FactTopology.pairCount]
        simp only [hword, hword', Outcome.bind_eq_ok, Except.ok.injEq, exists_eq_left',
          Outcome.pure_eq_ok, hnext, hrecord, ih]
        constructor
        · rintro ⟨others, ⟨hheaders, rfl⟩, rfl⟩
          exact ⟨⟨hplace, hheaders⟩, rfl⟩
        · rintro ⟨⟨-, hheaders⟩, rfl⟩
          exact ⟨_, ⟨hheaders, rfl⟩, rfl⟩

/-- The layout of an output, told by its first word. -/
def layoutOf (threshold : ℤ) (output : List ℤ) : OutputLayout :=
  if threshold < output.headD 0 then .bootloaderConfig else .plain

lemma countOffset_layoutOf (threshold : ℤ) (output : List ℤ) :
    (layoutOf threshold output).countOffset = countPlace threshold output := by
  rw [layoutOf, countPlace]
  split <;> rfl

/-- The layout of an output is found unless the output is empty. -/
lemma detect_eq_ok {layout : OutputLayout} :
    OutputLayout.detect output (.int threshold) = .ok layout ↔
      output ≠ [] ∧ layout = layoutOf threshold output := by
  cases output with
  | nil => simp [OutputLayout.detect, outputDefect]
  | cons first rest =>
      by_cases hlt : threshold < first <;>
        simp [OutputLayout.detect, Json.exceeds?, layoutOf, hlt, eq_comm]

/-- The metadata of an output that holds the tasks of the given topologies. -/
def described (threshold : ℤ) (output : List ℤ) (given : List FactTopology) : TaskMetadata where
  words := given.length :: (records threshold output given).flatMap TaskRecord.words
  layout := some (layoutOf threshold output)
  declared := output[countPlace threshold output]?

/-- An output has metadata when it holds as many tasks as there are topologies. -/
lemma ofOutput_eq_ok (houtput : ∀ v ∈ output, 0 ≤ v) :
    (ofOutput output given (.int threshold)).outcome = .ok tasks ↔
      IsWalkable threshold given.length output ∧ tasks = described threshold output given := by
  have hwalk (words : List ℤ) :
      taskWords output given 0 (layoutOf threshold output).tasksOffset = .ok words ↔
        (∀ i < given.length, taskPlace threshold output i + 1 < output.length) ∧
          words = (records threshold output given).flatMap TaskRecord.words := by
    rw [OutputLayout.tasksOffset, countOffset_layoutOf, taskWords_eq_ok houtput]
    rfl
  rw [outcome_ofOutput, Outcome.bind_ok]
  constructor
  · rintro ⟨layout, hlayout, h⟩
    obtain ⟨hne, rfl⟩ := detect_eq_ok.mp hlayout
    rw [countOffset_layoutOf] at h
    split at h
    · cases h
    · rename_i declared hdeclared
      obtain ⟨hcount, -⟩ := List.getElem?_eq_some_iff.mp hdeclared
      obtain ⟨words, hwords, h⟩ := Outcome.bind_ok.mp h
      obtain ⟨hheaders, rfl⟩ := (hwalk words).mp hwords
      cases h
      exact ⟨⟨hne, hcount, hheaders⟩, by rw [described, hdeclared]⟩
  · rintro ⟨⟨hne, hcount, hheaders⟩, rfl⟩
    have hdeclared := List.getElem?_eq_getElem hcount
    refine ⟨_, detect_eq_ok.mpr ⟨hne, rfl⟩, ?_⟩
    rw [countOffset_layoutOf, hdeclared]
    exact Outcome.bind_ok.mpr ⟨_, (hwalk _).mpr ⟨hheaders, rfl⟩, by rw [described, hdeclared]⟩

/-- What is noted about an output: its layout, and the number of tasks it declares if there are not
as many topologies. -/
lemma journal_ofOutput {declared : ℤ} (hne : output ≠ [])
    (hdeclared : output[countPlace threshold output]? = some declared) :
    (ofOutput output given (.int threshold)).journal =
      .outputLayout (layoutOf threshold output).label (output.headD 0) ::
        if declared ≠ given.length then [.topologyMismatch declared given.length] else [] := by
  have hlayout : (liftM (OutputLayout.detect output (.int threshold)) : Run OutputLayout).outcome =
      .ok (layoutOf threshold output) := detect_eq_ok.mpr ⟨hne, rfl⟩
  rw [ofOutput, Run.journal_bind_of_ok hlayout, Run.journal_bind_of_ok (Run.outcome_note _),
    countOffset_layoutOf, hdeclared]
  have hwords : ((liftM (taskWords output given 0 (layoutOf threshold output).tasksOffset) >>=
      fun words => pure ⟨(given.length : ℤ) :: words, some (layoutOf threshold output),
        some declared⟩ : Run TaskMetadata)).journal = [] := by
    cases taskWords output given 0 (layoutOf threshold output).tasksOffset <;> rfl
  simp only [Run.journal_note]
  split_ifs with hmismatch
  · rw [Run.journal_bind_of_ok (Run.outcome_note _), hwords]
    rfl
  · rw [hwords]
    rfl

/-- The run that finds the metadata of the tasks of a proof. -/
def ofProof (proof : AnnotatedProof) (given : List FactTopology) (threshold : ℤ) :
    Run TaskMetadata :=
  build proof.publicInput.segments proof.publicInput.memory (some given) (.int threshold)

variable {proof : AnnotatedProof}

lemma ofProof_eq_ok (hmemory : ∀ c ∈ proof.publicInput.memory, 0 ≤ c.value) :
    (ofProof proof given threshold).outcome = .ok tasks ↔
      ∃ output, IsOutput proof.publicInput.segments proof.publicInput.memory output ∧
        IsWalkable threshold given.length output ∧ tasks = described threshold output given := by
  rw [ofProof, outcome_build, Outcome.bind_ok]
  refine exists_congr fun output => ?_
  rw [programOutput_eq_ok]
  exact and_congr_right fun houtput => ofOutput_eq_ok (houtput.forall_mem hmemory)

/-- A mismatch is noted when the output declares another number of tasks than there are
topologies. -/
lemma mem_journal_ofProof
    (houtput : IsOutput proof.publicInput.segments proof.publicInput.memory output)
    (hwalk : IsWalkable threshold given.length output) :
    (∃ declared supplied,
        Note.topologyMismatch declared supplied ∈ (ofProof proof given threshold).journal) ↔
      output[countPlace threshold output]? ≠ some (given.length : ℤ) := by
  have hread : (liftM (programOutput proof.publicInput.segments proof.publicInput.memory) :
      Run (List ℤ)).outcome = .ok output := programOutput_eq_ok.mpr houtput
  have hdeclared := List.getElem?_eq_getElem hwalk.count
  have hjournal : (ofProof proof given threshold).journal =
      (ofOutput output given (.int threshold)).journal := Run.journal_bind_of_ok hread _
  rw [hjournal, journal_ofOutput hwalk.ne_nil hdeclared, hdeclared]
  split_ifs with hmismatch
  · simp [hmismatch]
  · simp [not_not.mp hmismatch]

/-- Without an output in reach there are no metadata, whatever the topologies. -/
lemma kind_ofProof_of_startsTooFar
    (hmemory : ∀ c ∈ proof.publicInput.memory, Field.IsCanonical c.address)
    (h : StartsTooFar proof.publicInput.segments) :
    ∃ f, (ofProof proof given threshold).outcome = .error f ∧ f.kind = .value := by
  obtain ⟨f, hf, hkind⟩ := kind_programOutput_of_startsTooFar hmemory h
  refine ⟨f, ?_, hkind⟩
  rw [ofProof, outcome_build, hf]
  rfl

end TaskMetadata

open TaskMetadata

/-- **The task metadata are the walk over the output.** For an accepted proof and accepted
topologies there are metadata exactly when the output is all in memory, has a task count, and holds
the first two words of as many tasks as there are topologies. The metadata are the number of
topologies and the records of the tasks, and they say themselves where they end. A task count other
than that number is noted.

Otherwise the input is malformed, and never is a word sought that the output does not have. One such
input is not reported as malformed: the message about an output that starts too far away quotes an
address that is too long to be written, and a bare refusal of that value is all that is left. -/
theorem tasks_follow_output {proof : AnnotatedProof} {document j : Json} {given : List FactTopology}
    (hproof : (AnnotatedProof.ofJson document).outcome = .ok proof)
    (hgiven : FactTopology.ofJson j = .ok given) (threshold : ℤ) :
    ((∃ tasks, (ofProof proof given threshold).outcome = .ok tasks) ↔
        ∃ output, IsOutput proof.publicInput.segments proof.publicInput.memory output ∧
          IsWalkable threshold given.length output) ∧
      (∀ f, (ofProof proof given threshold).outcome = .error f → f.kind = .malformedInput ∨
        f.kind = .value ∧ StartsTooFar proof.publicInput.segments) ∧
      (StartsTooFar proof.publicInput.segments →
        ∃ f, (ofProof proof given threshold).outcome = .error f ∧ f.kind = .value) ∧
      ∀ tasks output, (ofProof proof given threshold).outcome = .ok tasks →
        IsOutput proof.publicInput.segments proof.publicInput.memory output →
          tasks.words =
              (given.length : ℤ) :: (records threshold output given).flatMap TaskRecord.words ∧
            read? tasks.words = some (records threshold output given, []) ∧
            tasks.declared = output[countPlace threshold output]? ∧
            ((∃ declared supplied,
                Note.topologyMismatch declared supplied ∈ (ofProof proof given threshold).journal) ↔
              tasks.declared ≠ some (given.length : ℤ)) := by
  have hwell := (AnnotatedProof.isWellFormed_of_ofJson hproof).input
  have hok (tasks : TaskMetadata) : (ofProof proof given threshold).outcome = .ok tasks ↔
      ∃ output, IsOutput proof.publicInput.segments proof.publicInput.memory output ∧
        IsWalkable threshold given.length output ∧ tasks = described threshold output given :=
    ofProof_eq_ok fun c hc => (hwell.canonical c hc).2.1
  refine ⟨?_, ?_, kind_ofProof_of_startsTooFar fun c hc => (hwell.canonical c hc).1,
    fun tasks output htasks houtput => ?_⟩
  · simp only [hok]
    constructor
    · rintro ⟨_, output, houtput, hwalk, -⟩
      exact ⟨output, houtput, hwalk⟩
    · rintro ⟨output, houtput, hwalk⟩
      exact ⟨_, output, houtput, hwalk, rfl⟩
  · exact faultsIn_build (P := fun k => k = .malformedInput ∨
      k = .value ∧ StartsTooFar proof.publicInput.segments) (.inl rfl) hwell.canonical
        (fun hfar => .inr ⟨rfl, hfar⟩) fun n => .inl (by simp [Json.exceeds?])
  · obtain ⟨output', houtput', hwalk, rfl⟩ := (hok tasks).mp htasks
    obtain rfl := houtput.unique houtput'
    refine ⟨rfl, ?_, rfl, mem_journal_ofProof houtput hwalk⟩
    have htrees : ∀ r ∈ records threshold output given, 2 ∣ r.tree.length := by
      intro r hr
      obtain ⟨i, hi, rfl⟩ := List.mem_mapIdx.mp hr
      exact (FactTopology.isWellFormed_of_ofJson hgiven _ (List.getElem_mem hi)).tree_even
    have hread := TaskRecord.readMany?_flatMap htrees []
    have hlength : (records threshold output given).length = given.length := List.length_mapIdx
    rw [List.append_nil, hlength] at hread
    simp [described, read?, hread]

/-- A proof whose output holds two tasks behind a configuration and declares three. Its memory is
not in the order of the addresses, and one address of the output is there twice. -/
def bootProof : AnnotatedProof where
  annotations := []
  bytes := List.replicate 32 1
  publicInput :=
    { steps := 16, rangeMin := 0, rangeMax := 9, layout := "tiny"
      segments := [("output", ⟨20, 29⟩)]
      memory := [⟨0, 20, 1⟩, ⟨0, 28, 0xbbb⟩, ⟨0, 1, 5⟩, ⟨0, 23, 4⟩, ⟨0, 24, 0xaaa⟩, ⟨1, 27, 2⟩,
        ⟨0, 20, 0x777⟩, ⟨0, 21, 0x888⟩, ⟨0, 22, 3⟩, ⟨0, 25, 50⟩, ⟨0, 26, 60⟩] }
  parameters := ⟨4, 2, 0, 1, [0], none⟩

/-- The output of that proof. -/
def bootOutput : List ℤ := [0x777, 0x888, 3, 4, 0xaaa, 50, 60, 2, 0xbbb]

/-- Topologies of the two tasks. -/
def bootTopologies : List FactTopology := [⟨[1, 0], [2]⟩, ⟨[2, 1, 0, 2], []⟩]

/-- The document of these topologies. -/
def bootTopologiesJson : Json :=
  .arr [.obj [("tree_structure", .arr [.int 1, .int 0]), ("page_sizes", .arr [.int 2])],
    .obj [("tree_structure", .arr [.int 2, .int 1, .int 0, .int 2])]]

lemma ofJson_bootProof : (AnnotatedProof.ofJson bootProof.toJson).outcome = .ok bootProof :=
  Outcome.toOption_eq_some.mp (by decide +kernel)

lemma isOutput_bootOutput :
    IsOutput bootProof.publicInput.segments bootProof.publicInput.memory bootOutput :=
  programOutput_eq_ok.mp rfl

/-- There are metadata for that proof, with the two tasks in a row and a mismatch noted. -/
theorem bootProof_tasks : ∃ tasks,
    (ofProof bootProof bootTopologies 100).outcome = .ok tasks ∧
      tasks.words = [2, 4, 0xaaa, 1, 1, 0, 2, 0xbbb, 2, 2, 1, 0, 2] ∧
        ∃ declared supplied, Note.topologyMismatch declared supplied ∈
          (ofProof bootProof bootTopologies 100).journal := by
  have hgiven : FactTopology.ofJson bootTopologiesJson = .ok bootTopologies := rfl
  obtain ⟨hreturns, -, -, hresult⟩ := tasks_follow_output ofJson_bootProof hgiven 100
  obtain ⟨tasks, htasks⟩ :=
    hreturns.mpr ⟨bootOutput, isOutput_bootOutput, by decide, by decide, by decide⟩
  obtain ⟨hwords, -, hdeclared, hnoted⟩ := hresult tasks bootOutput htasks isOutput_bootOutput
  exact ⟨tasks, htasks, hwords, hnoted.mpr (by rw [hdeclared]; decide)⟩

/-- That proof with an output of one word somewhere else. -/
def farProof (start : ℤ) : AnnotatedProof :=
  { bootProof with
    publicInput := { bootProof.publicInput with segments := [("output", ⟨start, start + 1⟩)] } }

lemma isWellFormed_farProof {start : ℤ} (h : 0 ≤ start) : (farProof start).IsWellFormed := by
  have hboot := AnnotatedProof.isWellFormed_of_ofJson ofJson_bootProof
  have hsegments : ∀ s ∈ (farProof start).publicInput.segments, 0 ≤ s.2.start ∧ 0 ≤ s.2.stop :=
    List.forall_mem_singleton.mpr ⟨h, Int.le_add_one h⟩
  exact { hboot with input := { hboot.input with segments_nonneg := hsegments } }

lemma startsTooFar_farProof {start : ℤ} (h : ¬ Writable start) :
    StartsTooFar (farProof start).publicInput.segments :=
  ⟨⟨start, start + 1⟩, rfl, lt_add_one start, h⟩

/-- A proof with its output at the first address that is too long to be written is accepted. The
output is not in memory, but the input is not said to be malformed. -/
theorem farProof_not_malformed :
    (AnnotatedProof.ofJson (farProof firstLong).toJson).outcome = .ok (farProof firstLong) ∧
      FactTopology.ofJson (.arr []) = .ok [] ∧
      (¬ ∃ output, IsOutput (farProof firstLong).publicInput.segments
        (farProof firstLong).publicInput.memory output) ∧
      ∃ f, (ofProof (farProof firstLong) [] 100).outcome = .error f ∧
        f.kind ≠ .malformedInput := by
  have hwell := isWellFormed_farProof firstLong_pos.le
  have hfar := startsTooFar_farProof not_writable_firstLong
  have haddresses : ∀ c ∈ (farProof firstLong).publicInput.memory, Field.IsCanonical c.address :=
    fun c hc => (hwell.input.canonical c hc).1
  refine ⟨AnnotatedProof.ofJson_toJson hwell, rfl, ?_, ?_⟩
  · rintro ⟨output, houtput⟩
    obtain ⟨f, hf, -⟩ := kind_programOutput_of_startsTooFar haddresses hfar
    rw [programOutput_eq_ok.mpr houtput] at hf
    cases hf
  · obtain ⟨f, hf, hkind⟩ := kind_ofProof_of_startsTooFar haddresses hfar
    exact ⟨f, hf, by rw [hkind]; decide⟩

end StarkCalldata
