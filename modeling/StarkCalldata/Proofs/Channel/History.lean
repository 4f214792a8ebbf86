import Mathlib.Data.List.DropRight
import StarkCalldata.Proofs.Channel.Orbit

/-!
The history of a channel.

A run is repeated with a record of what changes the channel: every word that is read and every hash
that is taken, also those inside of draws and those before a fault. The record is kept by the way the
steps are put together, so that one fact is enough for all of them: the recorded events lead from
the channel before to the channel after (`leadsFrom_record`). What the events do to digest and
counter is then a matter of the events alone.

* `Event`, `Leads`: what changes a channel, and that events lead from one channel to another;
* `Leads.counter_eq`, `Leads.length_digest`: what events do to a channel;
* `Recorded`, `record`, `recordAll`: the steps of a run with their record;
* `outcome_record`, `outcome_recordAll`: but for the record they are the steps of the run;
* `history`, `leads_history`: all that has happened up to the end of a step, and where it leads;
* `IsAccounted`, `run_isAccounted`: what holds after each step of a run, whatever was asked for and
  whatever has failed before.
-/

namespace StarkCalldata.Channel

open Word

variable {α β : Type} {c next last : Channel} {fault : Fault} {retries : Json} {n : ℕ}
  {command : Command} {commands : List Command}

/-! ### Events -/

/-- What changes a channel: a word is read, or a hash is taken. -/
inductive Event
  | mixed
  | hashed
  deriving DecidableEq

/-- Events lead from a channel to another one, each by a change that comes about. -/
inductive Leads (c : Channel) : List Event → Channel → Prop
  | none : Leads c [] c
  | mixed {events : List Event} {last next : Channel} {word : ℤ} :
      Leads c events last → last.mix word = .ok next → Leads c (events ++ [.mixed]) next
  | hashed {events : List Event} {last next : Channel} :
      Leads c events last → last.advance = .ok next → Leads c (events ++ [.hashed]) next

/-- Events that follow one another lead on. -/
lemma Leads.trans {events events' : List Event} (h : Leads c events next)
    (h' : Leads next events' last) : Leads c (events ++ events') last := by
  induction h' with
  | none =>
      rw [List.append_nil]
      exact h
  | mixed _ hmix ih =>
      rw [← List.append_assoc]
      exact ih.mixed hmix
  | hashed _ hadvance ih =>
      rw [← List.append_assoc]
      exact ih.hashed hadvance

lemma of_mix {word : ℤ} (h : c.mix word = .ok next) :
    next.digest.length = size ∧ next.counter = 0 := by
  obtain ⟨bytes, -, h⟩ := Outcome.bind_eq_ok.mp h
  cases h
  exact ⟨Keccak.length_digest _, rfl⟩

lemma length_digest_of_advance (h : c.advance = .ok next) : next.digest.length = size := by
  obtain ⟨bytes, -, h⟩ := Outcome.bind_eq_ok.mp h
  cases h
  exact Keccak.length_digest _

/-- Whatever happens to a channel, its digest fills a word. -/
lemma Leads.length_digest {events : List Event} (h : Leads c events last)
    (hc : c.digest.length = size) : last.digest.length = size := by
  cases h with
  | none => exact hc
  | mixed _ hmix => exact (of_mix hmix).1
  | hashed _ hadvance => exact length_digest_of_advance hadvance

/-- The counter is the number of hashes since the last word was read, or from the start on if there
was none. -/
lemma Leads.counter_eq {events : List Event} (h : Leads c events last) :
    last.counter = (if .mixed ∈ events then 0 else c.counter) +
      (events.rtakeWhile (· = .hashed)).length := by
  induction h with
  | none => simp
  | mixed _ hmix _ =>
      rw [(of_mix hmix).2]
      simp
  | hashed _ hadvance ih =>
      rw [counter_of_advance hadvance, ih]
      simp [add_assoc]

/-! ### Records -/

/-- An answer with the channel it leaves behind and what has changed the channel on the way. -/
structure Recorded (α : Type) where
  answer : Except Fault α
  state : Channel
  events : List Event

namespace Recorded

/-- The answer and the channel, without the record. -/
def outcome (r : Recorded α) : Except Fault α × Channel := (r.answer, r.state)

/-- The events of a computation lead from a channel to the one that is left behind. -/
def LeadsFrom (c : Channel) (r : Recorded α) : Prop := Leads c r.events r.state

/-- An answer that changes nothing. -/
def idle (answer : Except Fault α) (c : Channel) : Recorded α := ⟨answer, c, []⟩

/-- A change of a channel. It is an event when it comes about; otherwise the channel stays as it
was. -/
def change (event : Event) (changed : Except Fault Channel) (c : Channel) : Recorded Unit :=
  match changed with
  | .ok next => ⟨.ok (), next, [event]⟩
  | .error fault => ⟨.error fault, c, []⟩

/-- One computation after another, on the channel that the first one leaves; a fault ends both. -/
def andThen (r : Recorded α) (next : α → Channel → Recorded β) : Recorded β :=
  match r.answer with
  | .ok a =>
      ⟨(next a r.state).answer, (next a r.state).state, r.events ++ (next a r.state).events⟩
  | .error fault => ⟨.error fault, r.state, r.events⟩

@[simp] lemma outcome_idle (answer : Except Fault α) (c : Channel) :
    (idle answer c).outcome = (answer, c) := rfl

lemma outcome_change (event : Event) (changed : Except Fault Channel) (c : Channel) :
    (change event changed c).outcome =
      match changed with
      | .ok next => (.ok (), next)
      | .error fault => (.error fault, c) := by
  cases changed <;> rfl

lemma outcome_andThen (r : Recorded α) (next : α → Channel → Recorded β) :
    (r.andThen next).outcome =
      match r.outcome with
      | (.ok a, s) => (next a s).outcome
      | (.error fault, s) => (.error fault, s) := by
  obtain ⟨answer, state, events⟩ := r
  cases answer <;> rfl

lemma leadsFrom_idle (answer : Except Fault α) (c : Channel) : LeadsFrom c (idle answer c) := .none

lemma leadsFrom_advance (c : Channel) : LeadsFrom c (change .hashed c.advance c) := by
  cases h : c.advance with
  | error f => exact .none
  | ok next => exact Leads.none.hashed h

lemma leadsFrom_mix (c : Channel) (word : ℤ) : LeadsFrom c (change .mixed (c.mix word) c) := by
  cases h : c.mix word with
  | error f => exact .none
  | ok next => exact Leads.none.mixed h

lemma LeadsFrom.andThen {r : Recorded α} {next : α → Channel → Recorded β} (h : LeadsFrom c r)
    (hnext : ∀ a s, LeadsFrom s (next a s)) : LeadsFrom c (r.andThen next) := by
  rw [Recorded.andThen]
  split
  · exact Leads.trans h (hnext _ _)
  · exact h

end Recorded

open Recorded

/-! ### Steps with their record -/

/-- Seeking, with its record. -/
def recordSeek (fault : Fault) : ℕ → Channel → Recorded Unit
  | 0, c => idle (if c.Acceptable then .ok () else .error fault) c
  | n + 1, c =>
      if c.Acceptable then idle (.ok ()) c
      else (change .hashed c.advance c).andThen fun _ next => recordSeek fault n next

/-- Taking an element, with its record. -/
def recordAccept (c : Channel) : Recorded ℕ :=
  (change .hashed c.advance c).andThen fun _ next =>
    idle (.ok (Field.ofMontgomery c.candidate)) next

/-- A draw, with its record. -/
def recordDraw (retries : Json) (c : Channel) : Recorded ℕ :=
  if c.Acceptable then c.recordAccept
  else
    (idle (attempts retries) c).andThen fun n c =>
      (recordSeek (exhausted retries) n c).andThen fun _ found => found.recordAccept

/-- Draws in a row, with their record. -/
def recordDrawMany (retries : Json) : ℕ → Channel → Recorded (List ℕ)
  | 0, c => idle (.ok []) c
  | n + 1, c =>
      (recordDraw retries c).andThen fun element next =>
        (recordDrawMany retries n next).andThen fun others last =>
          idle (.ok (element :: others)) last

/-- A step of a run, with its record. -/
def record (c : Channel) : Command → Recorded Reply
  | .mix word => (change .mixed (c.mix word) c).andThen fun _ next => idle (.ok .nothing) next
  | .advance => (change .hashed c.advance c).andThen fun _ next => idle (.ok .nothing) next
  | .draw retries =>
      (recordDraw retries c).andThen fun value next => idle (.ok (.element value)) next
  | .drawMany count retries =>
      (recordDrawMany retries count.toNat c).andThen fun values next =>
        idle (.ok (.elements values)) next

/-- The steps of a run, each with its record. -/
def recordAll (c : Channel) : List Command → List (Recorded Reply)
  | [] => []
  | command :: rest => c.record command :: (c.record command).state.recordAll rest

/-! ### The record changes nothing -/

/-- Seeking ends as without a record. -/
lemma outcome_recordSeek (fault : Fault) (n : ℕ) (c : Channel) :
    (recordSeek fault n c).outcome = seek fault n c := by
  induction n generalizing c with
  | zero =>
      rw [recordSeek, seek, outcome_idle]
      split_ifs <;> rfl
  | succ n ih =>
      rw [recordSeek, seek]
      split_ifs
      · rfl
      · rw [outcome_andThen, outcome_change]
        cases c.advance with
        | error f => rfl
        | ok next => exact ih next

lemma outcome_recordAccept (c : Channel) : c.recordAccept.outcome = c.accept := by
  rw [recordAccept, accept, outcome_andThen, outcome_change]
  cases c.advance <;> rfl

/-- A draw ends as without a record. -/
lemma outcome_recordDraw (retries : Json) (c : Channel) :
    (recordDraw retries c).outcome = c.draw retries := by
  rw [recordDraw, draw]
  split_ifs
  · exact outcome_recordAccept c
  · rw [outcome_andThen, outcome_idle]
    cases attempts retries with
    | error f => rfl
    | ok n =>
        simp only [outcome_andThen, outcome_recordSeek, outcome_recordAccept]
        rcases seek (exhausted retries) n c with ⟨_ | _, found⟩ <;> rfl

lemma outcome_recordDrawMany (retries : Json) (n : ℕ) (c : Channel) :
    (recordDrawMany retries n c).outcome = drawMany retries n c := by
  induction n generalizing c with
  | zero => rfl
  | succ n ih =>
      simp only [recordDrawMany, drawMany, outcome_andThen, outcome_recordDraw, ih, outcome_idle]
      rcases c.draw retries with ⟨_ | element, next⟩
      · rfl
      · simp only
        rcases drawMany retries n next with ⟨_ | others, last⟩ <;> rfl

/-- A step of a run ends as without a record. -/
lemma outcome_record (c : Channel) (command : Command) :
    (c.record command).outcome = c.obey command := by
  cases command with
  | mix word =>
      rw [record, obey, outcome_andThen, outcome_change]
      cases c.mix word <;> rfl
  | advance =>
      rw [record, obey, outcome_andThen, outcome_change]
      cases c.advance <;> rfl
  | draw retries =>
      simp only [record, obey, outcome_andThen, outcome_recordDraw, outcome_idle]
      rcases c.draw retries with ⟨_ | value, next⟩ <;> rfl
  | drawMany count retries =>
      simp only [record, obey, outcome_andThen, outcome_recordDrawMany, outcome_idle]
      rcases drawMany retries count.toNat c with ⟨_ | values, next⟩ <;> rfl

/-- But for the record, the steps are those of the run. -/
lemma outcome_recordAll (c : Channel) (commands : List Command) :
    (c.recordAll commands).map outcome = c.obeyAll commands := by
  induction commands generalizing c with
  | nil => rfl
  | cons command rest ih =>
      have hstate : (c.record command).state = (c.obey command).2 :=
        congrArg Prod.snd (outcome_record c command)
      rw [recordAll, List.map_cons, ih, obeyAll, outcome_record, hstate]

/-! ### The record leads on -/

lemma leadsFrom_recordSeek (fault : Fault) (n : ℕ) (c : Channel) :
    LeadsFrom c (recordSeek fault n c) := by
  induction n generalizing c with
  | zero => exact leadsFrom_idle _ c
  | succ n ih =>
      rw [recordSeek]
      split_ifs
      · exact leadsFrom_idle _ c
      · exact (leadsFrom_advance c).andThen fun _ next => ih next

lemma leadsFrom_recordAccept (c : Channel) : LeadsFrom c c.recordAccept :=
  (leadsFrom_advance c).andThen fun _ next => leadsFrom_idle _ next

lemma leadsFrom_recordDraw (retries : Json) (c : Channel) :
    LeadsFrom c (recordDraw retries c) := by
  rw [recordDraw]
  split_ifs
  · exact leadsFrom_recordAccept c
  · refine (leadsFrom_idle _ c).andThen fun n c => ?_
    exact (leadsFrom_recordSeek _ n c).andThen fun _ found => leadsFrom_recordAccept found

lemma leadsFrom_recordDrawMany (retries : Json) (n : ℕ) (c : Channel) :
    LeadsFrom c (recordDrawMany retries n c) := by
  induction n generalizing c with
  | zero => exact leadsFrom_idle _ c
  | succ n ih =>
      refine (leadsFrom_recordDraw retries c).andThen fun element next => ?_
      exact (ih next).andThen fun _ last => leadsFrom_idle _ last

/-- Every step of a run leads on. -/
lemma leadsFrom_record (c : Channel) (command : Command) : LeadsFrom c (c.record command) := by
  cases command with
  | mix word => exact (leadsFrom_mix c word).andThen fun _ next => leadsFrom_idle _ next
  | advance => exact (leadsFrom_advance c).andThen fun _ next => leadsFrom_idle _ next
  | draw retries =>
      exact (leadsFrom_recordDraw retries c).andThen fun _ next => leadsFrom_idle _ next
  | drawMany count retries =>
      exact (leadsFrom_recordDrawMany retries _ c).andThen fun _ next => leadsFrom_idle _ next

/-- All that has changed the channel in a run up to the end of a step. -/
def history (c : Channel) (commands : List Command) (i : ℕ) : List Event :=
  ((c.recordAll commands).take (i + 1)).flatMap Recorded.events

lemma history_cons (c : Channel) (command : Command) (rest : List Command) (i : ℕ) :
    c.history (command :: rest) (i + 1) =
      (c.record command).events ++ (c.record command).state.history rest i := by
  rw [history, recordAll, List.take_succ_cons, List.flatMap_cons, history]

/-- The history of a run leads from its start to the channel after a step. -/
lemma leads_history {i : ℕ} {r : Recorded Reply} (h : (c.recordAll commands)[i]? = some r) :
    Leads c (c.history commands i) r.state := by
  induction commands generalizing c i with
  | nil => cases h
  | cons command rest ih =>
      have hfirst : Leads c (c.record command).events (c.record command).state :=
        leadsFrom_record c command
      cases i with
      | zero =>
          cases h
          simpa [history, recordAll] using hfirst
      | succ i =>
          rw [history_cons]
          exact hfirst.trans (ih h)

/-! ### Runs -/

/-- The elements in a reply. -/
def Reply.values : Reply → List ℕ
  | .nothing => []
  | .element value => [value]
  | .elements values => values

/-- The elements in a reply are elements of the field. -/
lemma lt_of_obey {reply : Reply} (h : c.obey command = (.ok reply, last)) :
    ∀ v ∈ reply.values, v < Field.prime := by
  cases command with
  | mix word =>
      rw [obey] at h
      split at h <;> cases h
      simp [Reply.values]
  | advance =>
      rw [obey] at h
      split at h <;> cases h
      simp [Reply.values]
  | draw retries =>
      rw [obey] at h
      split at h <;> cases h
      rename_i value hdraw
      simpa [Reply.values] using lt_of_draw (congrArg Prod.fst hdraw)
  | drawMany count retries =>
      rw [obey] at h
      split at h <;> cases h
      rename_i values hdraws
      exact lt_of_mem_drawMany (congrArg Prod.fst hdraws)

lemma eq_of_obey_mix {word : ℤ} (h : c.obey (.mix word) = (.error fault, last)) : last = c := by
  rw [obey] at h
  split at h <;> cases h
  rfl

lemma eq_of_obey_advance (h : c.obey .advance = (.error fault, last)) : last = c := by
  rw [obey] at h
  split at h <;> cases h
  rfl

/-- A step of a run begins where the one before it has ended, at the start if there is none. -/
lemma obey_of_obeyAll {i : ℕ} {out : Except Fault Reply × Channel}
    (h : (c.obeyAll commands)[i]? = some out) : ∃ command before, commands[i]? = some command ∧
      (c :: (c.obeyAll commands).map Prod.snd)[i]? = some before ∧
      before.obey command = out := by
  induction commands generalizing c i with
  | nil => cases h
  | cons command rest ih =>
      cases i with
      | zero =>
          cases h
          exact ⟨command, c, rfl, rfl, rfl⟩
      | succ i => exact ih h

/-- What holds after a step of a run that has begun with a given counter. The digest fills a word,
the counter is the number of hashes since the last word was read, or since the beginning if there is
none, a failed mix or hash has changed nothing, and the elements are elements of the field. -/
structure IsAccounted (counter : ℤ) (events : List Event) (before : Channel) (command : Command)
    (answer : Except Fault Reply) (last : Channel) : Prop where
  length_digest : last.digest.length = size
  counter_eq : last.counter =
    (if .mixed ∈ events then 0 else counter) + (events.rtakeWhile (· = .hashed)).length
  unchanged : ∀ fault, answer = .error fault →
    (command = .advance ∨ ∃ word, command = .mix word) → last = before
  canonical : ∀ reply, answer = .ok reply → ∀ v ∈ reply.values, v < Field.prime

/-- A step of a run is accounted for by the events that have led to its end. -/
lemma isAccounted_of_leads {start before : Channel} {events : List Event}
    {answer : Except Fault Reply} (hstart : start.digest.length = size)
    (hstep : before.obey command = (answer, last)) (h : Leads start events last) :
    IsAccounted start.counter events before command answer last where
  length_digest := h.length_digest hstart
  counter_eq := h.counter_eq
  unchanged := by
    rintro fault rfl (rfl | ⟨word, rfl⟩)
    · exact eq_of_obey_advance hstep
    · exact eq_of_obey_mix hstep
  canonical := by
    rintro reply rfl
    exact lt_of_obey hstep

/-- **Every step of a run is accounted for.** A channel starts with any digest of 32 bytes and any
counter, and whatever is asked of it, and whatever has failed before, after each step the digest has
32 bytes and the counter is that of the history of the run: the words that were read and the hashes
that were taken up to then, one after another, also those inside of draws that have failed. A step
that has failed to read a word or to take a hash has left the channel as it was, and what was drawn
are elements of the field. -/
theorem run_isAccounted {digest : List UInt8} (hdigest : digest.length = size) (counter : ℤ)
    (commands : List Command) :
    ∃ start, ofDigest digest counter = .ok start ∧
      (start.recordAll commands).map outcome = start.obeyAll commands ∧
      ∀ i answer last, (start.obeyAll commands)[i]? = some (answer, last) →
        ∃ command before, commands[i]? = some command ∧
          (start :: (start.obeyAll commands).map Prod.snd)[i]? = some before ∧
          before.obey command = (answer, last) ∧
          Leads start (start.history commands i) last ∧
          IsAccounted counter (start.history commands i) before command answer last := by
  refine ⟨⟨digest, counter⟩, if_pos hdigest, outcome_recordAll _ _, fun i answer last h => ?_⟩
  obtain ⟨command, before, hcommand, hbefore, hstep⟩ := obey_of_obeyAll h
  rw [← outcome_recordAll, List.getElem?_map, Option.map_eq_some_iff] at h
  obtain ⟨r, hr, houtcome⟩ := h
  cases houtcome
  have hleads := leads_history hr
  exact ⟨command, before, hcommand, hbefore, hstep, hleads,
    isAccounted_of_leads hdigest hstep hleads⟩

/-- A run from the highest digest and a counter that no word holds: no hash can be taken, a word that
is too large is not read, and a draw runs out of retries, until a word is read and a hash is taken. -/
def trial : List Command := [.advance, .mix limit, .draw (.int 0), .mix 5, .advance]

lemma history_trial : history ⟨List.replicate size 0xFF, -1⟩ trial 4 = [.mixed, .hashed] := by
  decide +kernel

/-- After the failures of the trial the channel counts from the word that was read. -/
theorem trial_isAccounted :
    (List.replicate size (0xFF : UInt8)).length = size ∧
      ∃ answer last, (obeyAll ⟨List.replicate size 0xFF, -1⟩ trial)[4]? = some (answer, last) ∧
        last.digest.length = size ∧ last.counter = 1 := by
  have hdigest : (List.replicate size (0xFF : UInt8)).length = size := by decide
  obtain ⟨start, hstart, -, hsteps⟩ := run_isAccounted hdigest (-1) trial
  cases hstart
  have hlast : 4 < (obeyAll ⟨List.replicate size 0xFF, -1⟩ trial).length := by
    simp [trial, obeyAll]
  obtain ⟨command, before, -, -, -, -, haccounted⟩ :=
    hsteps 4 _ _ (List.getElem?_eq_getElem hlast)
  refine ⟨hdigest, _, _, List.getElem?_eq_getElem hlast, haccounted.length_digest, ?_⟩
  rw [haccounted.counter_eq, history_trial]
  decide

end StarkCalldata.Channel
