import Mathlib.Tactic
import StarkCalldata.CommandLine.Execution

/-!
What a run takes note of.

The stages note what may be of interest and warn of what is odd, but none of them notes an error: a
failure is the outcome of a run, and it is put into words once, by the command line. So an error
among the notes of a run tells that the run has failed:

* `Run.Calm`: no error is noted; this passes along a chain of runs;
* `calm_ofJson`, `calm_ofCells`, `calm_seed`, `calm_derive`, `calm_build`, `calm_prepareFrom`: the
  stages of a preparation;
* `CommandLine.calm_perform`: every action.
-/

namespace StarkCalldata

variable {α β : Type}

/-- No error is noted. -/
def Run.Calm (r : Run α) : Prop := ∀ n ∈ r.journal, n.level ≠ .error

namespace Run.Calm

lemma ofExcept (o : Except Fault α) : Calm (Run.ofExcept o) := by
  intro n hn
  cases hn

lemma liftM (o : Except Fault α) : Calm (MonadLiftT.monadLift o : Run α) := ofExcept o

lemma pure (a : α) : Calm (Pure.pure a : Run α) := ofExcept (.ok a)

lemma fail (fault : Fault) : Calm (Run.fail fault : Run α) := ofExcept (.error fault)

lemma note {n : Note} (h : n.level ≠ .error) : Calm (Run.note n) := by
  intro m hm
  rw [List.mem_singleton.mp hm]
  exact h

lemma bind {first : Run α} {next : α → Run β} (hfirst : Calm first)
    (hnext : ∀ a, first.outcome = .ok a → Calm (next a)) : Calm (first >>= next) := by
  intro n hn
  cases houtcome : first.outcome with
  | error fault =>
      rw [Run.journal_bind_of_error houtcome] at hn
      exact hfirst n hn
  | ok a =>
      rw [Run.journal_bind_of_ok houtcome, List.mem_append] at hn
      exact hn.elim (hfirst n) (hnext a houtcome n)

/-- A note before the rest of a run. -/
lemma noteThen {n : Note} {next : Unit → Run α} (h : n.level ≠ .error)
    (hnext : ∀ u, Calm (next u)) : Calm (Run.note n >>= next) :=
  (note h).bind fun u _ => hnext u

/-- A note that is taken under a condition, before the rest of a run. -/
lemma noteIf {n : Note} {c : Prop} [Decidable c] {next : Unit → Run α} (h : n.level ≠ .error)
    (hnext : ∀ u, Calm (next u)) : Calm (if c then Run.note n >>= next else next ()) := by
  split_ifs
  · exact noteThen h hnext
  · exact hnext ()

end Run.Calm

open Run

/-! ### The proof -/

namespace Parsing

lemma calm_segments (j : Json) (path : Path) : Calm (segments j path) := by
  rw [segments.eq_def]
  split
  · refine (Calm.liftM _).bind fun found _ => ?_
    exact Calm.noteIf nofun fun _ => .pure _
  · exact .ofExcept _

lemma calm_publicInput (j : Json) (path : Path) : Calm (publicInput j path) := by
  refine (Calm.liftM _).bind fun n _ => (Calm.liftM _).bind fun name _ => ?_
  refine (Calm.liftM _).bind fun cells _ => (Calm.liftM _).bind fun low _ => ?_
  refine (Calm.liftM _).bind fun high _ => (Calm.liftM _).bind fun value _ => ?_
  exact (calm_segments _ _).bind fun found _ => .pure _

end Parsing

lemma AnnotatedProof.calm_ofJson (j : Json) : Calm (ofJson j) := by
  refine (Calm.liftM _).bind fun lines _ => (Calm.liftM _).bind fun hex _ => ?_
  refine (Calm.liftM _).bind fun bytes _ => (Calm.liftM _).bind fun value _ => ?_
  refine (Parsing.calm_publicInput _ _).bind fun input _ => ?_
  refine (Calm.liftM _).bind fun value _ => (Calm.liftM _).bind fun params _ => .pure _

/-! ### The pages -/

namespace Memory

lemma ContinuousPage.calm_build (page : ℤ) (slots : List Slot) : Calm (build page slots) := by
  rw [build]
  split
  · dsimp only
    split_ifs
    · exact .fail _
    · split
      · exact .fail _
      · exact Calm.noteIf nofun fun _ => .pure _
  · exact .fail _

lemma PageFacts.calm_ofCells (cells : List Cell) : Calm (ofCells cells) := by
  have hpages (table : PageTable) : Calm (buildContinuous table) := by
    induction table with
    | nil => exact .pure []
    | cons row rest ih =>
        rw [buildContinuous]
        split_ifs
        · exact ih
        · exact (ContinuousPage.calm_build _ _).bind fun first _ => ih.bind fun others _ => .pure _
  refine (hpages _).bind fun pages _ => ?_
  exact Calm.noteThen nofun fun _ => .pure _

end Memory

/-! ### The public input and the challenges -/

lemma PublicInput.calm_seed (proof : AnnotatedProof) (facts : Memory.PageFacts) (layers : Json) :
    Calm (seed proof facts layers) := by
  have hlog2 (n : ℤ) : Calm (log2Steps n) := Calm.noteIf nofun fun _ => .pure _
  have hsegments (segments : Segments) : Calm (segmentWords segments) :=
    Calm.noteIf nofun fun _ => .pure _
  refine (hlog2 _).bind fun log2 _ => (Calm.liftM _).bind fun layout _ => ?_
  refine (hsegments _).bind fun words _ => ?_
  split
  · exact .fail _
  · exact (Calm.liftM _).bind fun pages _ => .pure _

namespace Challenges

lemma calm_checkCommitment (lines : List String) (words : List ℤ) :
    Calm (checkCommitment lines words) := by
  rw [checkCommitment.eq_def]
  split
  · split_ifs
    · exact .pure ()
    · exact .note nofun
  · exact .pure ()

lemma calm_replay (seed : List Entry) (words : List ℤ) (retries : Json) :
    Calm (replay seed words retries) := by
  refine (Calm.liftM _).bind fun start _ => ?_
  dsimp only
  split
  case' h_1 => refine (Calm.ofExcept _).bind fun channel _ => ?_
  case' h_2 => refine Calm.noteThen nofun fun _ => (Calm.pure _).bind fun channel _ => ?_
  -- In both cases the pair is drawn from the channel that the words lead to.
  all_goals
    split
    · exact .liftM _
    · exact .fail _
    · exact .fail _

lemma calm_derive (lines : List String) (seed : List Entry) (words : List ℤ) (verify : Bool)
    (retries : Json) : Calm (derive lines seed words verify retries) := by
  refine (Calm.liftM _).bind fun known _ => ?_
  split
  · exact Calm.noteThen nofun fun _ => .pure _
  · refine (calm_checkCommitment _ _).bind fun _ _ => (calm_replay _ _ _).bind fun replayed _ => ?_
    refine (Calm.liftM _).bind fun _ _ => (Calm.liftM _).bind fun _ _ => ?_
    exact Calm.noteThen nofun fun _ => .pure _
  · refine (calm_checkCommitment _ _).bind fun _ _ => (calm_replay _ _ _).bind fun replayed _ => ?_
    exact Calm.noteThen nofun fun _ => .pure _

end Challenges

/-! ### The tasks -/

lemma TaskMetadata.calm_build (segments : Segments) (memory : List Memory.Cell)
    (topologies : Option (List FactTopology)) (threshold : Json) :
    Calm (build segments memory topologies threshold) := by
  have houtput (output : List ℤ) (given : List FactTopology) :
      Calm (ofOutput output given threshold) := by
    refine (Calm.liftM _).bind fun layout _ => Calm.noteThen nofun fun _ => ?_
    split
    · exact .liftM _
    · exact Calm.noteIf nofun fun _ => (Calm.liftM _).bind fun words _ => .pure _
  rw [build.eq_def]
  split
  · exact .pure _
  · exact (Calm.liftM _).bind fun output _ => houtput output _

/-! ### The preparation -/

lemma calm_prepare (proof : AnnotatedProof) (topologies : Option (List FactTopology))
    (config : Config) : Calm (prepare proof topologies config) := by
  refine (Memory.PageFacts.calm_ofCells _).bind fun facts _ => Calm.noteThen nofun fun _ => ?_
  refine (PublicInput.calm_seed _ _ _).bind fun seed _ => ?_
  refine (Challenges.calm_derive _ _ _ _ _).bind fun c _ => (Calm.liftM _).bind fun hash _ => ?_
  refine Calm.noteThen nofun fun _ => Calm.noteThen nofun fun _ => ?_
  refine Calm.noteThen nofun fun _ => (Calm.liftM _).bind fun input _ => ?_
  exact (TaskMetadata.calm_build _ _ _ _).bind fun tasks _ => .pure _

/-- **A preparation from files notes no error**, wherever it ends. -/
theorem calm_prepareFrom (disk : Disk) (proofPath : String) (topologiesPath : Option String)
    (config : Config) (limits : NestingLimits) :
    Calm (prepareFrom disk proofPath topologiesPath config limits) := by
  have hload : Calm (AnnotatedProof.load disk proofPath limits) := by
    rw [AnnotatedProof.load]
    split
    · exact AnnotatedProof.calm_ofJson _
    · exact .fail _
    · exact .fail _
  have htopologies : Calm (loadTopologies disk limits topologiesPath) := by
    rw [loadTopologies.eq_def]
    split
    · exact .pure none
    · exact (Calm.liftM _).bind fun found _ => Calm.noteThen nofun fun _ => .pure _
  refine Calm.noteThen nofun fun _ => hload.bind fun proof _ => ?_
  refine htopologies.bind fun topologies _ => (calm_prepare _ _ _).bind fun v _ => ?_
  exact Calm.noteThen nofun fun _ => .pure v

lemma Run.Calm.append {r : Run α} {notes : List Note} (h : Calm r) (o : Except Fault β)
    (hnotes : ∀ n ∈ notes, n.level ≠ .error) : Calm (⟨r.journal ++ notes, o⟩ : Run β) := by
  intro n hn
  exact (List.mem_append.mp hn).elim (h n) (hnotes n)

lemma calm_prepareFile (disk : Disk) (proofPath outputPath : String)
    (topologiesPath : Option String) (config : Config) (limits : NestingLimits) :
    Calm (prepareFile disk proofPath outputPath topologiesPath config limits).1 := by
  have hfrom := calm_prepareFrom disk proofPath topologiesPath config limits
  rw [prepareFile, prepareFileUnder]
  split
  · exact hfrom
  · split
    · exact hfrom.append _ (List.forall_mem_singleton.mpr nofun)
    · exact hfrom

namespace CommandLine

/-- **No action notes an error.** -/
theorem calm_perform (disk : Disk) (limits : NestingLimits) (action : Action) :
    Calm (action.perform disk limits).1 := by
  cases action with
  | prepare proof output topologies config trust =>
      rw [Action.perform]
      split
      · exact .fail _
      · rename_i options _
        have hfile := calm_prepareFile disk proof output topologies options limits
        dsimp only
        split
        · exact hfile.append _ (by simp [lengthNotes, Note.level])
        · exact hfile
  | friSteps steps publicInput bound =>
      have hlength : Calm (traceLength disk limits steps publicInput) := by
        rw [traceLength.eq_def]
        split
        · exact .pure _
        · exact (Calm.liftM _).bind fun n _ => Calm.noteThen nofun fun _ => .pure n
        · exact .fail _
        · exact .fail _
      refine hlength.bind fun n _ => (Calm.liftM _).bind fun bound _ => ?_
      refine (Calm.liftM _).bind fun found _ => (Calm.liftM _).bind fun degree _ => ?_
      exact Calm.noteThen nofun fun _ => .pure _

end CommandLine

end StarkCalldata
