/-
Runs: computations that take notes and may fail.

The notes of a failed run are kept up to the failure.

* `Run`: the journal and the outcome of a computation;
* `Run.note`, `Run.fail`, `Run.ofExcept`: the single steps;
* `Run.bind`: one computation after another, not begun when the first one fails;
* `Run.inWords`: the journal as lines, with the outcome;
* the lemmas say what each of them does to journal and outcome.
-/
import StarkCalldata.Note

namespace StarkCalldata

/-- The journal and the outcome of a computation. -/
structure Run (α : Type) where
  /-- The notes taken, in order. -/
  journal : List Note
  /-- The result, or the fault the computation ended with. -/
  outcome : Except Fault α

namespace Run

/-- A result without notes. -/
protected def pure (a : α) : Run α := ⟨[], .ok a⟩

/-- A fault without notes. -/
def fail (fault : Fault) : Run α := ⟨[], .error fault⟩

/-- A single note. -/
def note (n : Note) : Run Unit := ⟨[n], .ok ()⟩

/-- A computation that takes no notes. -/
def ofExcept (outcome : Except Fault α) : Run α := ⟨[], outcome⟩

/-- One computation after another; a fault ends both. -/
protected def bind (first : Run α) (next : α → Run β) : Run β :=
  match first.outcome with
  | .ok a => ⟨first.journal ++ (next a).journal, (next a).outcome⟩
  | .error fault => ⟨first.journal, .error fault⟩

instance : Monad Run where
  pure := Run.pure
  bind := Run.bind

instance : MonadLift (Except Fault) Run := ⟨ofExcept⟩

/-- Notes as lines with the short names of their sources, and the outcome after them. A note that
quotes an integer too long to be written ends the lines, and that is the outcome then. -/
def putIntoWords (outcome : Except Fault α) : List Note → List String × Except Fault α
  | [] => ([], outcome)
  | n :: rest =>
      if ∀ i ∈ n.integers, Text.Writable i then
        let (lines, last) := putIntoWords outcome rest
        (n.lineWith Source.label :: lines, last)
      else ([], .error (.numeralTooLong none))

/-- The journal of a run in words, and the outcome. -/
def inWords (run : Run α) : List String × Except Fault α := putIntoWords run.outcome run.journal

@[simp] theorem outcome_pure (a : α) : (pure a : Run α).outcome = .ok a := rfl

@[simp] theorem journal_pure (a : α) : (pure a : Run α).journal = [] := rfl

@[simp] theorem outcome_fail (fault : Fault) : (fail fault : Run α).outcome = .error fault := rfl

@[simp] theorem outcome_note (n : Note) : (note n).outcome = .ok () := rfl

@[simp] theorem journal_note (n : Note) : (note n).journal = [n] := rfl

@[simp] theorem outcome_ofExcept (o : Except Fault α) : (ofExcept o).outcome = o := rfl

@[simp] theorem journal_ofExcept (o : Except Fault α) : (ofExcept o).journal = [] := rfl

/-- The outcome of two computations in a row is that of their outcomes. -/
@[simp] theorem outcome_bind (first : Run α) (next : α → Run β) :
    (first >>= next).outcome = first.outcome.bind fun a => (next a).outcome := by
  show (Run.bind first next).outcome = _
  unfold Run.bind
  cases first.outcome <;> rfl

/-- After a result the second journal follows the first. -/
theorem journal_bind_of_ok {first : Run α} {a : α} (h : first.outcome = .ok a)
    (next : α → Run β) : (first >>= next).journal = first.journal ++ (next a).journal := by
  show (Run.bind first next).journal = _
  unfold Run.bind
  rw [h]

/-- After a fault nothing more is noted. -/
theorem journal_bind_of_error {first : Run α} {fault : Fault}
    (h : first.outcome = .error fault) (next : α → Run β) :
    (first >>= next).journal = first.journal := by
  show (Run.bind first next).journal = _
  unfold Run.bind
  rw [h]

end Run

end StarkCalldata
