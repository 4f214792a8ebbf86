import StarkCalldata.Proofs.Failures
import StarkCalldata.Proofs.Journal

/-!
How a run of the program ends.

A run delivers what it is asked for and ends with status 0, or it reports an error and ends with
status 1; in the second case it has printed nothing and left the disk alone. Besides, a run may
break off, which also leaves nothing behind. It breaks off when a document nests too deep, when an
option that takes a value is given none, when the quotient of trace length and degree bound is
beyond all floating point numbers, and it may do so when the value of an option is not of its type:

* `Action.Delivered`: what an action is asked for has been delivered;
* `Action.IsTyped`, `Action.BreaksOff`: the options of an action are of their types, and the ways to
  break off that do not depend on it;
* `faultsIn_perform`, `exists_fault_of_breaksOff`: which failures an action can end with;
* `perform_cases`, `outcome_of_delivered`: an action delivers exactly when it does not fail, and it
  leaves the disk alone when it does;
* `Report.Accounts`, `execute_ends`: what the ending of a run tells, and which endings there are.
-/

namespace StarkCalldata.CommandLine

/-- A document nests deeper than its reader allows. -/
def NestsTooDeep (disk : Disk) (depth : ℕ) (path : String) : Prop :=
  disk.readJson depth path = .error .nestedTooDeep

/-- A text is a single line, and that spells a value. -/
def IsLineOf (j : Json) (text : String) : Prop :=
  '\n' ∉ j.compact ∧ text = String.ofList j.compact ++ "\n"

/-- What an action is asked for has been delivered: the document of the prepared verifier input is
what is read at the output path, the disk has not changed elsewhere, and nothing is printed; or the
folding steps are the line that is printed, and the disk has not changed. -/
def Action.Delivered (before after : Disk) (limits : NestingLimits) (text : String) :
    Action → Prop
  | .prepare proof output topologies config trust => ∃ options v document location,
      configOf before config trust limits = .ok options ∧
      (prepareFrom before proof topologies options limits).outcome = .ok v ∧
      v.encode = .ok document ∧ v.save before output = (.ok (), after) ∧
      Delivers before after output document location ∧ text = ""
  | .friSteps steps publicInput bound => ∃ n b found,
      (traceLength before limits steps publicInput).outcome = .ok n ∧ bound = .value b ∧
      Fri.steps n b = .ok found ∧ IsLineOf (.arr (found.map .int)) text ∧ after = before

/-- The options of an action are of their types. -/
def Action.IsTyped (disk : Disk) (limits : NestingLimits) : Action → Prop
  | .prepare _ _ _ config trust =>
      ∀ options, configOf disk config trust limits = .ok options → options.IsTyped
  | .friSteps .. => True

/-- The ways in which an action breaks off whatever the types of its options are. -/
inductive Action.BreaksOff (disk : Disk) (limits : NestingLimits) : Action → Prop
  | config {proof output path : String} {topologies : Option String} {trust : Bool}
      (h : NestsTooDeep disk limits.config path) :
      BreaksOff disk limits (.prepare proof output topologies (some path) trust)
  | proof {proof output : String} {topologies config : Option String} {trust : Bool}
      {options : Config} (hoptions : configOf disk config trust limits = .ok options)
      (h : NestsTooDeep disk limits.proof proof) :
      BreaksOff disk limits (.prepare proof output topologies config trust)
  | topologies {proof output path : String} {config : Option String} {trust : Bool}
      {options : Config} {p : AnnotatedProof}
      (hoptions : configOf disk config trust limits = .ok options)
      (hproof : (AnnotatedProof.load disk proof limits).outcome = .ok p)
      (h : NestsTooDeep disk limits.topologies path) :
      BreaksOff disk limits (.prepare proof output (some path) config trust)
  | publicInput {path : String} {bound : Given ℤ}
      (h : NestsTooDeep disk limits.publicInput path) :
      BreaksOff disk limits (.friSteps none (some (.value path)) bound)
  | noSteps {publicInput : Option (Given String)} {bound : Given ℤ} :
      BreaksOff disk limits (.friSteps (some .emptyRow) publicInput bound)
  | noPath {bound : Given ℤ} : BreaksOff disk limits (.friSteps none (some .emptyRow) bound)
  | noBound {steps : Option (Given ℤ)} {publicInput : Option (Given String)} {n : ℤ}
      (hn : (traceLength disk limits steps publicInput).outcome = .ok n) (hpos : 0 < n) :
      BreaksOff disk limits (.friSteps steps publicInput .emptyRow)
  | quotient {steps : Option (Given ℤ)} {publicInput : Option (Given String)} {n b : ℤ}
      (hn : (traceLength disk limits steps publicInput).outcome = .ok n) (hpos : 0 < n)
      (hbound : 0 < b)
      (hlarge : Binary64.nearest? n.toNat b.toNat = none) :
      BreaksOff disk limits (.friSteps steps publicInput (.value b))

variable {P : Fault.Kind → Prop} {disk : Disk} {path : String} {config topologies : Option String}
  {trust : Bool} {steps : Option (Given ℤ)} {publicInput : Option (Given String)} {n b : ℤ}
  {action : Action} {f : Fault} {limits : NestingLimits}

/-! ### The failures of an action -/

section

variable (hreported : ∀ k : Fault.Kind, k.isReported = true → P k)

include hreported

/-- The failures of the options. -/
lemma faultsIn_configOf
    (hnesting : ∀ path ∈ config, ¬ NestsTooDeep disk limits.config path ∨ P .nesting) :
    FaultsIn P (configOf disk config trust limits) := by
  cases config with
  | none => exact .ok _
  | some path =>
      have hload : FaultsIn P (Config.load disk path limits) := by
        refine (Disk.faultsIn_readJson hreported (hnesting path rfl)).bind fun j _ => ?_
        rw [Config.ofJson.eq_def]
        split
        · dsimp only
          split_ifs
          · exact .ok _
          · exact .error (hreported _ rfl)
        · exact .error (hreported _ rfl)
      exact hload.bind fun options _ => .ok _

/-- The failures of a trace length. -/
lemma faultsIn_traceLength
    (hnesting : ∀ path, steps = none → publicInput = some (.value path) →
      ¬ NestsTooDeep disk limits.publicInput path ∨ P .nesting)
    (hrow : steps ≠ some .emptyRow ∧ (steps = none → publicInput ≠ some .emptyRow) ∨ P .type) :
    FaultsIn P (traceLength disk limits steps publicInput).outcome := by
  have hvalue (path : Path) (value : Json) : FaultsIn P (Fri.notPositive path value) :=
    .error (Fault.of_kind_quoting (hreported _ rfl) (.inr (hreported _ rfl)))
  have hdocument (j : Json) : FaultsIn P (Fri.traceLength j) := by
    rw [Fri.traceLength.eq_def]
    split
    · split
      · exact .error (hreported _ rfl)
      · split_ifs
        · exact .ok _
        · exact hvalue _ _
      · exact hvalue _ _
    · exact .error (hreported _ rfl)
  match steps, publicInput with
  | some (.value n), _ => exact .ok n
  | none, some (.value path) =>
      rw [traceLength, Run.outcome_bind]
      refine FaultsIn.bind ?_ fun n _ => .ok n
      exact (Disk.faultsIn_readJson hreported (hnesting path rfl rfl)).bind fun j _ => hdocument j
  | none, none => exact .error (hreported _ rfl)
  | some .emptyRow, _ => exact .error (hrow.resolve_left fun h => h.1 rfl)
  | none, some .emptyRow => exact .error (hrow.resolve_left fun h => h.2 rfl rfl)

lemma faultsIn_degreeBound {given : Given ℤ} (hrow : 0 < n → given ≠ .emptyRow ∨ P .type) :
    FaultsIn P (degreeBound n given) := by
  cases given with
  | value b => exact .ok b
  | emptyRow =>
      rw [degreeBound]
      split_ifs with hn
      · exact .error (Fault.of_kind_quoting (hreported _ rfl) (.inr (hreported _ rfl)))
      · exact .error ((hrow (by omega)).resolve_left fun h => h rfl)

/-- The failures of the folding steps. -/
lemma faultsIn_steps
    (hlarge : 0 < n → 0 < b → Binary64.nearest? n.toNat b.toNat ≠ none ∨ P .overflow) :
    FaultsIn P (Fri.steps n b) := by
  refine FaultsIn.bind ?_ fun d _ => .ok _
  rw [Fri.degree]
  split_ifs with hpositive
  · exact .error (Fault.of_kind_quoting (hreported _ rfl) (.inr (hreported _ rfl)))
  · split
    · rename_i hnone
      refine .error ((hlarge ?_ ?_).resolve_left fun hne => hne hnone) <;> omega
    · exact .error (hreported _ rfl)
    · exact .ok _

end

/-! ### What an action comes to -/

/-- A number is written without a line break. -/
lemma newline_not_mem_toString (n : ℤ) : '\n' ∉ (toString n).toList := by
  have hnat (m : ℕ) : '\n' ∉ (toString m).toList := by
    intro h
    have hdigit := Nat.isDigit_of_mem_toDigits (by decide) le_rfl (by simpa using h)
    exact absurd hdigit (by decide)
  cases n with
  | ofNat m => exact hnat m
  | negSucc m =>
      have hminus : (toString (Int.negSucc m)).toList = '-' :: (toString (m + 1)).toList := by
        rw [show toString (Int.negSucc m) = "-" ++ toString (m + 1) from rfl, String.toList_append]
        rfl
      rw [hminus, List.mem_cons, not_or]
      exact ⟨by decide, hnat (m + 1)⟩

/-- A list of numbers is written on one line. -/
lemma newline_not_mem_compact (ns : List ℤ) : '\n' ∉ (Json.arr (ns.map .int)).compact := by
  have hitems : '\n' ∉ Json.compactItems (ns.map .int) := by
    induction ns with
    | nil => exact nofun
    | cons n ns ih =>
        have hn : '\n' ∉ (Json.int n).compact := by
          rw [Json.compact]
          · exact newline_not_mem_toString n
          all_goals exact nofun
        cases ns with
        | nil => exact hn
        | cons m ns => simpa [Json.compactItems, hn] using ih
  simp [Json.compact, hitems]

/-- The line that is printed for folding steps. -/
def foldLine (found : List ℤ) : String := String.ofList (Json.arr (found.map .int)).compact ++ "\n"

lemma outcome_friLine (bound : Given ℤ) : (friLine disk limits steps publicInput bound).outcome =
    (traceLength disk limits steps publicInput).outcome.bind fun n =>
      (degreeBound n bound).bind fun b => (Fri.steps n b).map foldLine := by
  simp only [friLine, Run.outcome_bind, Run.outcome_liftM]
  congr! 5 with n b
  rw [Fri.steps]
  cases Fri.degree n b <;> rfl

lemma eq_value_of_degreeBound {bound : Given ℤ} (h : degreeBound n bound = .ok b) :
    bound = .value b := by
  cases bound with
  | value b' =>
      cases h
      rfl
  | emptyRow =>
      rw [degreeBound] at h
      split_ifs at h

lemma perform_of_error {proof output : String} (h : configOf disk config trust limits = .error f) :
    (Action.prepare proof output topologies config trust).perform disk limits =
      (Run.fail f, disk) := by
  rw [Action.perform, h]

lemma perform_of_ok {proof output : String} {options : Config}
    (h : configOf disk config trust limits = .ok options) :
    ((Action.prepare proof output topologies config trust).perform disk limits).1.outcome =
        ((prepareFile disk proof output topologies options limits).1.outcome.map fun _ => "") ∧
      ((Action.prepare proof output topologies config trust).perform disk limits).2 =
        (prepareFile disk proof output topologies options limits).2 := by
  rw [Action.perform, h]
  dsimp only
  cases (prepareFile disk proof output topologies options limits).1.outcome <;> exact ⟨rfl, rfl⟩

lemma outcome_of_prepareFrom_error {proof output : String} {options : Config}
    (hoptions : configOf disk config trust limits = .ok options)
    (h : (prepareFrom disk proof topologies options limits).outcome = .error f) :
    ((Action.prepare proof output topologies config trust).perform disk limits).1.outcome =
      .error f := by
  rw [(perform_of_ok hoptions).1, prepareFile, (prepareFileUnder_of_error h).1]
  rfl

/-- **The failures of an action** are reported, unless an option is not of its type or the action
breaks off. -/
theorem faultsIn_perform (hreported : ∀ k : Fault.Kind, k.isReported = true → P k)
    (htyped : action.IsTyped disk limits ∨ P .type ∧ P .overflow)
    (hbreaks : ¬ action.BreaksOff disk limits ∨ P .nesting ∧ P .type ∧ P .overflow) :
    FaultsIn P (action.perform disk limits).1.outcome := by
  cases action with
  | prepare proof output topologies config trust =>
      have hnesting {path : String} {depth : ℕ} (h : NestsTooDeep disk depth path →
          Action.BreaksOff disk limits (.prepare proof output topologies config trust)) :
          ¬ NestsTooDeep disk depth path ∨ P .nesting := hbreaks.imp (mt h) And.left
      cases hoptions : configOf disk config trust limits with
      | error f =>
          rw [perform_of_error hoptions]
          have hload : FaultsIn P (configOf disk config trust limits) := by
            refine faultsIn_configOf hreported fun path hpath => hnesting fun h => ?_
            rw [Option.mem_def.mp hpath]
            exact .config h
          exact .error (hload f hoptions)
      | ok options =>
          rw [(perform_of_ok hoptions).1]
          refine FaultsIn.bind ?_ fun v _ => .ok ""
          refine faultsIn_prepareFile hreported (htyped.imp_left fun h => h options hoptions)
            (hnesting (.proof hoptions)) fun p hp path hpath => hnesting fun h => ?_
          rw [Option.mem_def.mp hpath]
          exact .topologies hoptions hp h
  | friSteps steps publicInput bound =>
      rw [Action.perform, outcome_friLine]
      refine FaultsIn.bind ?_ fun n hn => FaultsIn.bind ?_ fun b hb => ?_
      · refine faultsIn_traceLength hreported (fun path hsteps hpath => ?_) ?_
        · refine hbreaks.imp (mt fun h => ?_) And.left
          rw [hsteps, hpath]
          exact .publicInput h
        · refine hbreaks.imp (fun h => ⟨?_, ?_⟩) fun h => h.2.1
          · rintro rfl
            exact h .noSteps
          · rintro rfl rfl
            exact h .noPath
      · refine faultsIn_degreeBound hreported fun hpos => ?_
        refine hbreaks.imp (fun h => ?_) fun h => h.2.1
        rintro rfl
        exact h (.noBound hn hpos)
      · refine FaultsIn.map ?_ foldLine
        refine faultsIn_steps hreported fun hpos hbound => ?_
        refine hbreaks.imp (mt fun hlarge => ?_) fun h => h.2.2
        rw [eq_value_of_degreeBound hb]
        exact .quotient hn hpos hbound hlarge

/-- An action that breaks off fails with a failure that is not reported. -/
lemma exists_fault_of_breaksOff (h : action.BreaksOff disk limits) :
    ∃ f, (action.perform disk limits).1.outcome = .error f ∧ f.kind.isReported = false := by
  cases h with
  | @config proof output path topologies trust h =>
      have hload : configOf disk (some path) trust limits = .error .nestedTooDeep := by
        rw [configOf, Config.load, h]
        rfl
      exact ⟨.nestedTooDeep, by rw [perform_of_error hload]; rfl, rfl⟩
  | proof hoptions h =>
      refine ⟨.nestedTooDeep, outcome_of_prepareFrom_error hoptions ?_, rfl⟩
      rw [outcome_prepareFrom_eq, AnnotatedProof.load, h]
      rfl
  | topologies hoptions hproof h =>
      refine ⟨.nestedTooDeep, outcome_of_prepareFrom_error hoptions ?_, rfl⟩
      rw [outcome_prepareFrom_eq, hproof, loadTopologies, Run.outcome_bind, Run.outcome_liftM,
        FactTopology.load, h]
      rfl
  | publicInput h =>
      refine ⟨.nestedTooDeep, ?_, rfl⟩
      rw [Action.perform, outcome_friLine, traceLength, h]
      rfl
  | noSteps => exact ⟨.wrongType, rfl, rfl⟩
  | noPath => exact ⟨.wrongType, rfl, rfl⟩
  | noBound hn hpos =>
      refine ⟨.wrongType, ?_, rfl⟩
      rw [Action.perform, outcome_friLine, hn, Except.bind, degreeBound, if_neg (by omega)]
      rfl
  | quotient hn hpos hbound hlarge =>
      refine ⟨.quotientTooLarge, ?_, rfl⟩
      rw [Action.perform, outcome_friLine, hn, Except.bind, degreeBound, Except.bind, Fri.steps,
        Fri.degree, if_neg (by omega), hlarge]
      rfl

/-! ### What an action leaves behind -/

/-- A preparation with its writing fails and leaves the disk alone, or it delivers its document. -/
lemma prepareFile_cases (disk : Disk) (proof output : String) (topologies : Option String)
    (options : Config) (limits : NestingLimits) :
    (∃ f, (prepareFile disk proof output topologies options limits).1.outcome = .error f ∧
      (prepareFile disk proof output topologies options limits).2 = disk) ∨
    ∃ v document location, (prepareFrom disk proof topologies options limits).outcome = .ok v ∧
      (prepareFile disk proof output topologies options limits).1.outcome = .ok v ∧
      v.encode = .ok document ∧
      v.save disk output = (.ok (), (prepareFile disk proof output topologies options limits).2) ∧
      Delivers disk (prepareFile disk proof output topologies options limits).2 output document
        location := by
  rw [prepareFile]
  cases hrun : (prepareFrom disk proof topologies options limits).outcome with
  | error f => exact .inl ⟨f, prepareFileUnder_of_error hrun⟩
  | ok v =>
      obtain ⟨houtcome, hdisk⟩ := @prepareFileUnder_of_ok disk output _ _ _ _ disk.standard v hrun
      have hsaved := v.allOrNothing_saveUnder (disk.isFresh_standard output)
      rw [houtcome, hdisk]
      cases hsave : (v.saveUnder disk.standard disk output).1 with
      | error f =>
          rw [hsave] at hsaved
          exact .inl ⟨f, rfl, hsaved.nothing f rfl⟩
      | ok done =>
          rw [hsave] at hsaved
          obtain ⟨document, location, hencode, hdelivers⟩ := hsaved.all v rfl
          exact .inr ⟨v, document, location, rfl, rfl, hencode, Prod.ext hsave rfl, hdelivers⟩

/-- **An action fails and leaves the disk alone, or it delivers.** -/
theorem perform_cases (disk : Disk) (limits : NestingLimits) (action : Action) :
    (∃ f, (action.perform disk limits).1.outcome = .error f ∧
      (action.perform disk limits).2 = disk) ∨
    ∃ text, (action.perform disk limits).1.outcome = .ok text ∧
      action.Delivered disk (action.perform disk limits).2 limits text := by
  cases action with
  | prepare proof output topologies config trust =>
      cases hoptions : configOf disk config trust limits with
      | error f =>
          rw [perform_of_error hoptions]
          exact .inl ⟨f, rfl, rfl⟩
      | ok options =>
          obtain ⟨houtcome, hdisk⟩ := perform_of_ok hoptions
          rw [houtcome, hdisk]
          rcases prepareFile_cases disk proof output topologies options limits with
            ⟨f, hf, hkept⟩ | ⟨v, document, location, hv, hfile, hencode, hsave, hdelivers⟩
          · rw [hf]
            exact .inl ⟨f, rfl, hkept⟩
          · rw [hfile]
            exact .inr ⟨"", rfl, options, v, document, location, hoptions, hv, hencode, hsave,
              hdelivers, rfl⟩
  | friSteps steps publicInput bound =>
      cases hline : (friLine disk limits steps publicInput bound).outcome with
      | error f => exact .inl ⟨f, hline, rfl⟩
      | ok text =>
          refine .inr ⟨text, hline, ?_⟩
          obtain ⟨n, hn, h⟩ := Outcome.bind_ok.mp (outcome_friLine bound ▸ hline)
          obtain ⟨b, hb, h⟩ := Outcome.bind_ok.mp h
          cases hfound : Fri.steps n b with
          | error f =>
              rw [hfound] at h
              cases h
          | ok found =>
              rw [hfound] at h
              cases h
              exact ⟨n, b, found, hn, eq_value_of_degreeBound hb, hfound,
                ⟨newline_not_mem_compact found, rfl⟩, rfl⟩

/-- An action that has delivered has not failed. -/
lemma outcome_of_delivered {after : Disk} {text : String}
    (h : action.Delivered disk after limits text) :
    (action.perform disk limits).1.outcome = .ok text := by
  cases action with
  | prepare proof output topologies config trust =>
      obtain ⟨options, v, document, location, hoptions, hv, -, hsave, -, rfl⟩ := h
      rw [(perform_of_ok hoptions).1, prepareFile, (prepareFileUnder_of_ok hv).1]
      rw [VerifierInput.save] at hsave
      rw [hsave]
      rfl
  | friSteps steps publicInput bound =>
      obtain ⟨n, b, found, hn, rfl, hfound, ⟨-, rfl⟩, -⟩ := h
      rw [Action.perform, outcome_friLine, hn, Except.bind, degreeBound, Except.bind, hfound]
      rfl

/-! ### The whole program -/

section

variable {command : Command}

/-- The notes of a command that are kept. -/
def Command.notes (command : Command) (disk : Disk) (limits : NestingLimits) : List Note :=
  (command.action.perform disk limits).1.journal.filter (isReported command.verbose)

lemma Command.level_of_mem_notes {note : Note} (h : note ∈ command.notes disk limits) :
    note.level ≠ .error :=
  calm_perform disk limits command.action note (List.mem_of_mem_filter h)

lemma execute_of_ok {text : String}
    (h : (command.action.perform disk limits).1.outcome = .ok text) :
    command.execute disk limits =
      ⟨text, command.notes disk limits, (command.action.perform disk limits).2, .status 0⟩ := by
  rw [Command.execute]
  dsimp only
  rw [h]
  rfl

lemma execute_of_error (h : (command.action.perform disk limits).1.outcome = .error f) :
    command.execute disk limits =
      if f.kind.isReported then
        ⟨"", command.notes disk limits ++ [.failed f.line],
          (command.action.perform disk limits).2, .status 1⟩
      else ⟨"", command.notes disk limits, (command.action.perform disk limits).2, .aborted f⟩ := by
  rw [Command.execute]
  dsimp only
  rw [h]
  rfl

/-- A report accounts for an action when its status, its notes, its output and its disk tell the
same story: status 0 that everything is delivered, status 1 that an error is noted, and nothing is
left behind unless the status is 0. -/
structure Report.Accounts (r : Report) (before : Disk) (limits : NestingLimits)
    (action : Action) : Prop where
  delivered : r.ending = .status 0 ↔ action.Delivered before r.disk limits r.output
  reported : r.ending = .status 1 ↔ ∃ n ∈ r.notes, n.level = .error
  nothing : r.ending ≠ .status 0 → r.output = "" ∧ r.disk = before

/-- What a command leaves behind accounts for its action. -/
lemma accounts_execute (disk : Disk) (limits : NestingLimits) (command : Command) :
    (command.execute disk limits).Accounts disk limits command.action := by
  have hcalm : ¬ ∃ note ∈ command.notes disk limits, note.level = .error := by
    rintro ⟨note, hnote, hlevel⟩
    exact Command.level_of_mem_notes hnote hlevel
  rcases perform_cases disk limits command.action with ⟨f, hf, hdisk⟩ | ⟨text, htext, hdelivered⟩
  · have hfailed {after : Disk} {text : String} :
        ¬ command.action.Delivered disk after limits text := by
      intro h
      rw [outcome_of_delivered h] at hf
      cases hf
    rw [execute_of_error hf, hdisk]
    split_ifs
    · have hlast : Note.failed f.line ∈ command.notes disk limits ++ [Note.failed f.line] :=
        List.mem_append_right _ (.head _)
      exact {
        delivered := ⟨nofun, fun h => absurd h hfailed⟩
        reported := ⟨fun _ => ⟨_, hlast, rfl⟩, fun _ => rfl⟩
        nothing := fun _ => ⟨rfl, rfl⟩ }
    · exact {
        delivered := ⟨nofun, fun h => absurd h hfailed⟩
        reported := ⟨nofun, fun h => absurd h hcalm⟩
        nothing := fun _ => ⟨rfl, rfl⟩ }
  · rw [execute_of_ok htext]
    exact {
      delivered := ⟨fun _ => hdelivered, fun _ => rfl⟩
      reported := ⟨nofun, fun h => absurd h hcalm⟩
      nothing := fun h => absurd rfl h }

lemma ending_of_faultsIn
    (h : FaultsIn (fun k => k.isReported = true) (command.action.perform disk limits).1.outcome) :
    (command.execute disk limits).ending = .status 0 ∨
      (command.execute disk limits).ending = .status 1 := by
  cases houtcome : (command.action.perform disk limits).1.outcome with
  | ok text => exact .inl (by rw [execute_of_ok houtcome])
  | error f => exact .inr (by rw [execute_of_error houtcome, if_pos (h f houtcome)])

end

/-- **How a run ends.** Let arguments spell a command, whatever the conventions of the reader of
arguments are and however deep the documents of files may nest. Then the report accounts for the
action: the status is 0 exactly when everything is delivered, 1 exactly when an error is noted, and
nothing is printed or written unless it is 0. There is no other ending, but for failures of type, of
overflow and of nesting, with which the run breaks off. It does break off in each of the ways that
are listed, and in no other if the options are of their types. -/
theorem execute_ends {arguments : List String} {c : Conventions} {command : Command}
    (h : Command.ofArguments arguments c = .ok command) (disk : Disk) (limits : NestingLimits) :
    (execute arguments disk limits c).Accounts disk limits command.action ∧
    ((execute arguments disk limits c).ending = .status 0 ∨
      (execute arguments disk limits c).ending = .status 1 ∨
      ∃ f, (execute arguments disk limits c).ending = .aborted f ∧
        (f.kind = .type ∨ f.kind = .overflow ∨ f.kind = .nesting)) ∧
    (command.action.BreaksOff disk limits →
      ∃ f, (execute arguments disk limits c).ending = .aborted f) ∧
    (command.action.IsTyped disk limits → ¬ command.action.BreaksOff disk limits →
      (execute arguments disk limits c).ending = .status 0 ∨
        (execute arguments disk limits c).ending = .status 1) := by
  have hrun : execute arguments disk limits c = command.execute disk limits := by
    rw [execute, h]
  rw [hrun]
  refine ⟨accounts_execute disk limits command, ?_, fun hbreaks => ?_, fun htyped hbreaks => ?_⟩
  · have hkinds : FaultsIn (fun k => k.isReported = true ∨ k = .type ∨ k = .overflow ∨ k = .nesting)
        (command.action.perform disk limits).1.outcome :=
      faultsIn_perform (fun k hk => .inl hk) (.inr (by simp)) (.inr (by simp))
    cases houtcome : (command.action.perform disk limits).1.outcome with
    | ok text => exact .inl (by rw [execute_of_ok houtcome])
    | error f =>
        rw [execute_of_error houtcome]
        split_ifs with hreported
        · exact .inr (.inl rfl)
        · exact .inr (.inr ⟨f, rfl, (hkinds f houtcome).resolve_left hreported⟩)
  · obtain ⟨f, hf, hreported⟩ := exists_fault_of_breaksOff hbreaks
    exact ⟨f, by rw [execute_of_error hf, if_neg (by simp [hreported])]⟩
  · exact ending_of_faultsIn (faultsIn_perform (fun k hk => hk) (.inl htyped) (.inl hbreaks))

/-! ### Three runs -/

lemma ofArguments_friSteps :
    Command.ofArguments ["fri-steps", "--n-steps=32768", "--degree-bound=64"] =
      .ok ⟨false, .friSteps (some (.value 32768)) none (.value 64)⟩ :=
  Outcome.toOption_eq_some.mp (by decide +kernel)

lemma ofArguments_prepare :
    Command.ofArguments ["prepare", "proof.json"] =
      .ok ⟨false, .prepare "proof.json" "input.json" none none false⟩ :=
  Outcome.toOption_eq_some.mp (by decide +kernel)

lemma readJson_emptyDisk (depth : ℕ) :
    Disk.readJson ⟨[]⟩ depth "proof.json" = .error (.notFound "proof.json") := by
  rfl

/-- On an empty disk folding steps are printed, and the preparation of a proof is an error. -/
theorem emptyDisk_runs :
    ((execute ["fri-steps", "--n-steps=32768", "--degree-bound=64"] ⟨[]⟩).ending = .status 0 ∧
      (execute ["fri-steps", "--n-steps=32768", "--degree-bound=64"] ⟨[]⟩).output =
        "[0, 4, 4, 4, 1]\n") ∧
    (execute ["prepare", "proof.json"] ⟨[]⟩).ending = .status 1 ∧
      ∃ n ∈ (execute ["prepare", "proof.json"] ⟨[]⟩).notes, n.level = .error := by
  constructor
  · obtain ⟨haccounts, -, -, hproper⟩ := execute_ends ofArguments_friSteps ⟨[]⟩ {}
    have hbreaks :
        ¬ Action.BreaksOff ⟨[]⟩ {} (.friSteps (some (.value 32768)) none (.value 64)) := by
      rintro (_ | _ | _ | _ | _ | _ | _ | ⟨hn, -, -, hlarge⟩)
      cases hn
      exact absurd hlarge (by decide +kernel)
    have hending := (hproper trivial hbreaks).resolve_right fun hone => by
      obtain ⟨note, hnote, hlevel⟩ := haccounts.reported.mp hone
      revert note
      decide +kernel
    have hsteps : Fri.steps 32768 64 = .ok [0, 4, 4, 4, 1] :=
      Outcome.toOption_eq_some.mp (by decide +kernel)
    obtain ⟨n, b, found, hn, hb, hfound, ⟨-, houtput⟩, -⟩ := haccounts.delivered.mp hending
    cases hn
    cases hb
    rw [hsteps] at hfound
    cases hfound
    exact ⟨hending, houtput.trans (by decide +kernel)⟩
  · obtain ⟨haccounts, -, -, hproper⟩ := execute_ends ofArguments_prepare ⟨[]⟩ {}
    have htyped : Action.IsTyped ⟨[]⟩ {} (.prepare "proof.json" "input.json" none none false) := by
      intro options hoptions
      cases hoptions
      exact Config.isTyped_standard
    have hbreaks :
        ¬ Action.BreaksOff ⟨[]⟩ {} (.prepare "proof.json" "input.json" none none false) := by
      rintro (_ | ⟨-, h⟩ | _ | _ | _ | _ | _ | _)
      rw [NestsTooDeep, readJson_emptyDisk] at h
      cases h
    have hending := (hproper htyped hbreaks).resolve_left fun hzero => by
      obtain ⟨options, v, document, location, -, hv, -⟩ := haccounts.delivered.mp hzero
      rw [outcome_prepareFrom_eq, AnnotatedProof.load, readJson_emptyDisk] at hv
      cases hv
    exact ⟨hending, haccounts.reported.mp hending⟩

/-- A disk with a public input that names a trace length of 401 digits. -/
def greatDisk : Disk :=
  ⟨[(["input.json"], .file (Text.Utf8.encode
    ("\x7b\"n_steps\": 1".toList ++ List.replicate 400 '0' ++ ['\x7d'])))]⟩

/-- The arguments for the folding steps of that trace. -/
def greatArguments : List String :=
  ["fri-steps", "--public-input=input.json", "--degree-bound=1"]

/-- What these arguments spell. -/
def greatCommand : Command := ⟨false, .friSteps none (some (.value "input.json")) (.value 1)⟩

lemma ofArguments_great : Command.ofArguments greatArguments = .ok greatCommand :=
  Outcome.toOption_eq_some.mp (by decide +kernel)

lemma outcome_great :
    (greatCommand.action.perform greatDisk {}).1.outcome = .error .quotientTooLarge := by
  have hlength : (traceLength greatDisk {} none (some (.value "input.json"))).outcome =
      .ok (Nat.pow 10 400 : ℕ) :=
    Outcome.toOption_eq_some.mp (by decide +kernel)
  rw [greatCommand, Action.perform, outcome_friLine, hlength, Except.bind, degreeBound, Except.bind,
    Fri.steps, Fri.degree, if_neg (by decide +kernel),
    show Binary64.nearest? _ _ = none from by decide +kernel]
  rfl

/-- The folding steps of that trace are asked for properly, but the run ends with no status and
notes no error: it breaks off. -/
theorem greatDisk_breaksOff :
    (∃ command, Command.ofArguments greatArguments = .ok command) ∧
      (execute greatArguments greatDisk).ending = .aborted .quotientTooLarge ∧
      ∀ n ∈ (execute greatArguments greatDisk).notes, n.level ≠ .error := by
  have hrun : execute greatArguments greatDisk = greatCommand.execute greatDisk {} := by
    rw [execute, ofArguments_great]
  rw [hrun, execute_of_error outcome_great, if_neg (by decide)]
  refine ⟨⟨greatCommand, ofArguments_great⟩, rfl, fun n hn => ?_⟩
  dsimp only at hn
  exact Command.level_of_mem_notes hn

end StarkCalldata.CommandLine
