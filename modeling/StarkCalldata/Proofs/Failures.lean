import StarkCalldata.Proofs.Proof.Image
import StarkCalldata.Proofs.Publication
import StarkCalldata.Proofs.Serialization

/-!
What a run on files can fail with.

Whatever the files hold, almost every failure is of a class that is reported. There are two ways
out: a document that nests too deep, and an option whose value is not of the type it is meant to
have. Which of them is open is a matter of the class `P` that the failures are shown to be in, so
each stage is gone through once:

* `Config.IsTyped`: the options have the values they are meant to have;
* `Disk.faultsIn_readJson`, `Disk.faultsIn_save`: the failures of reading and writing;
* `Entry.faultsIn_hash`, `VerifierInput.faultsIn_encode`: those of entries that are no integers;
* `Challenges.faultsIn_replay_of_hash`, `faultsIn_prepare`, `faultsIn_prepareFile`: the stages of a
  preparation, and the whole.
-/

namespace StarkCalldata

open Text Memory Word Preparation

variable {P : Fault.Kind → Prop} {α : Type} {disk : Disk} {path : String} {depth : ℕ}

/-- The options have the values they are meant to have: a number of retries, a threshold, and a
number of friendly layers or none. Whether challenges are verified is decided for every value. -/
structure Config.IsTyped (config : Config) : Prop where
  retries : ∃ n, config.maxChallengeRetries = .int n
  threshold : ∃ n, config.bootloaderThreshold = .int n
  layers : config.friendlyLayers = .null ∨ ∃ n, config.friendlyLayers = .int n

lemma Config.isTyped_standard : Config.IsTyped {} := ⟨⟨_, rfl⟩, ⟨_, rfl⟩, .inl rfl⟩

/-! ### Files -/

namespace Disk

section

variable (hreported : ∀ k : Fault.Kind, k.isReported = true → P k)

include hreported

lemma faultsIn_checkPath (path : String) : FaultsIn P (Location.checkPath path) := by
  rw [Location.checkPath]
  split_ifs
  · exact .error (hreported _ rfl)
  · exact .error (hreported _ rfl)
  · exact .error (hreported _ rfl)
  · exact .ok ()

/-- A path that leads nowhere is refused for a name. -/
lemma faultsIn_walk (disk : Disk) (path : String) (start : Location) (names : List String) :
    FaultsIn P (disk.walk path start names) := by
  induction names generalizing start with
  | nil => exact .ok start
  | cons name names ih =>
      rw [walk]
      split
      · split_ifs
        · exact ih _
        · exact .error (hreported _ rfl)
      · exact .error (hreported _ rfl)
      · exact .error (hreported _ rfl)

/-- The failures of reading a file. -/
lemma faultsIn_readText (disk : Disk) (path : String) : FaultsIn P (disk.readText path) := by
  have hlocate : FaultsIn P (disk.locate path) :=
    (faultsIn_checkPath hreported path).bind fun _ _ => faultsIn_walk hreported disk path _ _
  have hread : FaultsIn P (disk.read path) := by
    refine hlocate.bind fun location _ => ?_
    split
    · exact .ok _
    · exact .error (hreported _ rfl)
    · exact .error (hreported _ rfl)
  refine hread.bind fun bytes _ => ?_
  split
  · exact .ok _
  · exact .error (hreported _ rfl)

/-- The failures of reading a document; nesting too deep is the only one that is not reported. -/
lemma faultsIn_readJson (hnesting : disk.readJson depth path ≠ .error .nestedTooDeep ∨ P .nesting) :
    FaultsIn P (disk.readJson depth path) := by
  have hdocument : FailsWith (fun f => P f.kind ∨ f = .nestedTooDeep)
      (disk.readJson depth path) := by
    refine FailsWith.bind (fun f hf => .inl (faultsIn_readText hreported disk path f hf))
      fun text _ => ?_
    split
    · exact .ok _
    · rename_i failure _
      cases failure with
      | malformed => exact .error (.inl (hreported _ rfl))
      | tooLong => exact .error (.inl (hreported _ rfl))
      | tooDeep => exact .error (.inr rfl)
  intro f hf
  rcases hdocument f hf with hP | rfl
  · exact hP
  · exact hnesting.resolve_left fun hne => hne hf

/-- The failures of writing a file, with nothing in the way. -/
lemma faultsIn_save (disk : Disk) (path : String) (bytes : List UInt8) :
    FaultsIn P (disk.save path bytes).1 := by
  have hcreate : FaultsIn P (disk.freshLocation (freshName disk.freshDraw) path) := by
    rw [freshLocation]
    split_ifs
    · exact .error (hreported _ rfl)
    · exact .error (hreported _ rfl)
    · exact faultsIn_walk hreported disk path _ _
  have htarget (disk : Disk) : FaultsIn P (disk.target path) := by
    refine (faultsIn_checkPath hreported path).bind fun _ _ => ?_
    refine (faultsIn_walk hreported disk path _ _).bind fun location _ => ?_
    split
    any_goals exact .error (hreported _ rfl)
    split_ifs
    · exact .error (hreported _ rfl)
    · split
      · exact .error (hreported _ rfl)
      · exact .ok _
  have hrename (disk : Disk) (fresh : Location) : FaultsIn P (disk.rename fresh path) := by
    refine (htarget disk).bind fun location _ => ?_
    split
    · exact .ok _
    · exact .error (hreported _ rfl)
  rw [save, saveUnder]
  split
  · rename_i f hf
    exact .error (hcreate f hf)
  · simp only [fill, replace, standard]
    split
    · rename_i f hf
      exact .error (hrename _ _ f hf)
    · exact .ok ()

end

end Disk

lemma FactTopology.faultsIn_ofJson (hmalformed : P .malformedInput) (j : Json) :
    FaultsIn P (ofJson j) := by
  intro f hf
  obtain ⟨field, d, rfl⟩ := ofJson_eq_error hf
  exact hmalformed

/-! ### Entries -/

/-- An entry stands for no integer when its type does not, or when it is infinite. -/
lemma Entry.faultsIn_integer (hvalue : P .value) (htype : P .type) (hoverflow : P .overflow)
    (e : Entry) : FaultsIn P (integer e) := by
  rw [integer.eq_def]
  split
  · exact .ok _
  · exact .ok _
  · exact .error hvalue
  · split
    · exact .ok _
    · exact .error hoverflow
  · split
    · exact .ok _
    · exact .error hvalue
    · exact .error hvalue
  · exact .error htype

/-- Entries are not hashed when one of them stands for no integer that fits into a word. -/
lemma Entry.faultsIn_hash (hvalue : P .value) (htype : P .type) (hoverflow : P .overflow)
    (entries : List Entry) : FaultsIn P (hash entries) := by
  have hpack : FaultsIn P (pack entries) := by
    induction entries with
    | nil => exact .ok []
    | cons e entries ih =>
        have hword : FaultsIn P (word e) :=
          (faultsIn_integer hvalue htype hoverflow e).bind fun n _ => Word.faultsIn_encode hvalue n
        exact hword.bind fun first _ => ih.bind fun others _ => .ok _
  exact hpack.bind fun bytes _ => .ok _

namespace VerifierInput

section

variable (hinconsistency : P .inconsistency) (hvalue : P .value) (htype : P .type)

include hinconsistency hvalue htype

lemma faultsIn_hexString (e : Entry) : FaultsIn P (hexString e) := by
  have hhex : FaultsIn P e.hex := by
    rw [Entry.hex.eq_def]
    split
    · split_ifs
      · exact .error (Fault.of_kind_quoting hinconsistency (.inr hvalue))
      · exact .ok _
    · exact .error htype
  exact hhex.bind fun text _ => .ok _

lemma faultsIn_hexList (entries : List Entry) : FaultsIn P (hexList entries) := by
  have hstrings : FaultsIn P (hexStrings entries) := by
    induction entries with
    | nil => exact .ok []
    | cons e entries ih =>
        have hfirst := faultsIn_hexString hinconsistency hvalue htype e
        exact hfirst.bind fun first _ => ih.bind fun others _ => .ok _
  exact hstrings.bind fun items _ => .ok _

/-- The failures of the encoding. -/
lemma faultsIn_encode (v : VerifierInput) : FaultsIn P v.encode := by
  have hlist := faultsIn_hexList hinconsistency hvalue htype
  have hstring := faultsIn_hexString hinconsistency hvalue htype
  have hrange (name : Challenge.Name) (e : Entry) : FaultsIn P (checkRange name e) := by
    rw [checkRange.eq_def]
    split
    · exact PublicInput.faultsIn_canonical hinconsistency _ _
    · exact .ok ()
    · split_ifs
      · exact .ok ()
      · exact .error hvalue
    · exact .error htype
  have hpages (pages : List ContinuousPage) : FaultsIn P (encodePages pages) := by
    induction pages with
    | nil => exact .ok []
    | cons p pages ih =>
        refine FaultsIn.bind ?_ fun first _ => ih.bind fun others _ => .ok _
        exact (hstring _).bind fun start _ => (hlist _).bind fun values _ => .ok _
  have hfacts (facts : PageFacts) : FaultsIn P (encodeFacts facts) := by
    rw [encodeFacts]
    cases facts.pairs with
    | none => exact (hpages _).bind fun continuous _ => .ok _
    | some pairs =>
        exact (hlist _).bind fun words _ => (hpages _).bind fun continuous _ => .ok _
  refine (hrange .z v.z).bind fun _ _ => (hrange .alpha v.alpha).bind fun _ _ => ?_
  refine (hlist _).bind fun params _ => (hlist _).bind fun proof _ => ?_
  refine (hlist _).bind fun input _ => (hstring _).bind fun z _ => ?_
  refine (hstring _).bind fun alpha _ => (hfacts _).bind fun facts _ => ?_
  exact (hlist _).bind fun tasks _ => .ok _

end

end VerifierInput

/-! ### The challenges -/

namespace Challenges

/-- Only running out of retries is a failure of arithmetic, and the replay calls it an
inconsistency. -/
lemma kind_replayFault (f : Fault) :
    (replayFault f).kind = if f.kind = .arithmetic then .inconsistency else f.kind := by
  cases f <;> simp [replayFault, Fault.kind]

/-- A replay fails as its draws do, and a pair that is drawn can only be inconsistent. -/
lemma faultsIn_ofDraws {answer : Except Fault (List ℕ)} (hinconsistency : P .inconsistency)
    (hlength : ∀ elements, answer = .ok elements → elements.length = 2)
    (h : FaultsIn (fun k => k = .arithmetic ∨ P k) answer) : FaultsIn P (ofDraws answer) := by
  have hvalues (z alpha : ℤ) : FaultsIn P (ofValues z alpha) := by
    refine (PublicInput.faultsIn_canonical hinconsistency .z z).bind fun _ _ => ?_
    exact (PublicInput.faultsIn_canonical hinconsistency .alpha alpha).bind fun _ _ => .ok _
  match answer with
  | .error f =>
      refine .error ?_
      rw [kind_replayFault]
      split_ifs with harithmetic
      · exact hinconsistency
      · exact (h f rfl).resolve_left harithmetic
  | .ok [z, alpha] => exact hvalues z alpha
  | .ok [] | .ok [_] | .ok (_ :: _ :: _ :: _) => exact absurd (hlength _ rfl) (by simp)

/-- The failures of a replay, whatever the number of retries is, are those of hashing the public
input, a refused value, and the one of a number that is none. -/
lemma faultsIn_replay_of_hash {seed : List Entry} {retries : Json} (words : List ℤ)
    (hinconsistency : P .inconsistency) (hvalue : P .value)
    (hretries : (∃ n, Channel.attempts retries = .ok n) ∨ P .type)
    (hhash : FaultsIn P (Entry.hash seed)) : FaultsIn P (replay seed words retries).outcome := by
  rw [outcome_replay_of_draws]
  refine (Channel.faultsIn_ofPublicInput hvalue hhash).bind fun start _ => ?_
  refine FaultsIn.bind ?_ fun channel _ => ?_
  · cases words with
    | nil => exact .ok start
    | cons word rest => exact start.faultsIn_mix hvalue word
  · refine faultsIn_ofDraws hinconsistency (fun elements h => Channel.length_of_drawMany h) ?_
    exact Channel.faultsIn_drawMany (.inr hvalue) (.inl rfl) (hretries.imp id .inr) 2 channel

lemma faultsIn_derive {seed : List Entry} {retries : Json} (lines : List String) (words : List ℤ)
    (verify : Bool) (hmalformed : P .malformedProof) (hmismatch : P .challengeMismatch)
    (hreplay : FaultsIn P (replay seed words retries).outcome) :
    FaultsIn P (derive lines seed words verify retries).outcome := by
  rw [outcome_derive]
  refine (faultsIn_annotated hmalformed lines).bind fun known _ => ?_
  split
  · exact .ok _
  · exact hreplay.bind fun replayed _ => faultsIn_confirm hmismatch _ replayed

end Challenges

/-! ### The preparation -/

section

variable {proof : AnnotatedProof} {topologies : Option (List FactTopology)} {config : Config}
  {v : VerifierInput} {proofPath outputPath : String} {topologiesPath : Option String}
  (hreported : ∀ k : Fault.Kind, k.isReported = true → P k)
  (hconfig : config.IsTyped ∨ P .type ∧ P .overflow)

include hreported hconfig

/-- The first part of the public input is not hashed when one of its integers fits into no word, or
for the configured number of friendly layers. -/
lemma faultsIn_hash_seed {facts : PageFacts} {seed : List Entry}
    (hseed : (PublicInput.seed proof facts config.friendlyLayers).outcome = .ok seed) :
    FaultsIn P (Entry.hash seed) := by
  rcases hconfig with htyped | ⟨htype, hoverflow⟩
  · obtain ⟨ns, rfl⟩ := PublicInput.exists_integers_of_seed htyped.layers hseed
    exact Entry.faultsIn_hashIntegers (hreported _ rfl) ns
  · exact Entry.faultsIn_hash (hreported _ rfl) htype hoverflow seed

/-- **The failures of a preparation.** -/
theorem faultsIn_prepare (hproof : proof.IsWellFormed) :
    FaultsIn P (prepare proof topologies config).outcome := by
  have hpages : FaultsIn P (PageFacts.ofCells proof.publicInput.memory).outcome :=
    faultsIn_ofCells (hreported _ rfl) (hreported _ rfl)
      (fun c hc => (hproof.input.canonical c hc).1) fun _ _ => .inr (hreported _ rfl)
  have hretries : (∃ n, Channel.attempts config.maxChallengeRetries = .ok n) ∨ P .type := by
    rcases hconfig with htyped | ⟨htype, -⟩
    · obtain ⟨n, hn⟩ := htyped.retries
      exact .inl ⟨n.toNat, by rw [hn]; rfl⟩
    · exact .inr htype
  have hthreshold (n : ℤ) : Json.exceeds? n config.bootloaderThreshold ≠ none ∨ P .type := by
    rcases hconfig with htyped | ⟨htype, -⟩
    · obtain ⟨bound, hbound⟩ := htyped.threshold
      exact .inl (by rw [hbound]; exact nofun)
    · exact .inr htype
  rw [outcome_prepare]
  refine FaultsIn.bind ?_ fun ground hground => ?_
  · refine hpages.bind fun facts hfacts => ?_
    obtain ⟨padding, -, hseed⟩ :=
      PublicInput.outcome_seed_of_isWellFormed hproof hfacts config.friendlyLayers
    rw [hseed]
    exact .ok _
  obtain ⟨hfacts, hseed⟩ := groundwork_eq_ok.mp hground
  have hhash := faultsIn_hash_seed hreported hconfig hseed
  have hreplay := Challenges.faultsIn_replay_of_hash proof.words (hreported _ rfl) (hreported _ rfl)
    hretries hhash
  refine FaultsIn.bind ?_ fun c _ => ?_
  · exact Challenges.faultsIn_derive _ _ _ (hreported _ rfl) (hreported _ rfl) hreplay
  · exact faultsIn_completion (hreported _ rfl) (hreported _ rfl) hproof hhash
      (PageFacts.fits_of_canonical hproof.input.canonical hfacts)
      (PageFacts.hasRows_of_ofCells hfacts) (fun _ => hreported _ rfl) hthreshold

lemma faultsIn_encode_of_prepare (hproof : proof.IsWellFormed)
    (htopologies : ∀ given ∈ topologies, ∀ t ∈ given, t.IsWellFormed)
    (h : (prepare proof topologies config).outcome = .ok v) : FaultsIn P v.encode := by
  rcases hconfig with htyped | ⟨htype, -⟩
  · obtain ⟨d, -, hencode, -⟩ := exists_document_of_prepare hproof htopologies htyped.layers h
    rw [hencode]
    exact .ok _
  · exact VerifierInput.faultsIn_encode (hreported _ rfl) (hreported _ rfl) htype v

end

/-! ### The files of a preparation -/

section

variable {proof : AnnotatedProof} {topologies : Option (List FactTopology)} {config : Config}
  {v : VerifierInput} {proofPath outputPath : String} {topologiesPath : Option String}
  {limits : NestingLimits}

lemma AnnotatedProof.isWellFormed_of_load
    (h : (AnnotatedProof.load disk path limits).outcome = .ok proof) : proof.IsWellFormed := by
  rw [AnnotatedProof.load] at h
  split at h
  · exact isWellFormed_of_ofJson h
  · cases h
  · cases h

/-- Topologies that are loaded are those of a document. -/
lemma isWellFormed_of_loadTopologies
    (h : (loadTopologies disk limits topologiesPath).outcome = .ok topologies) :
    ∀ given ∈ topologies, ∀ t ∈ given, t.IsWellFormed := by
  intro given hgiven
  cases topologiesPath with
  | none =>
      cases h
      cases hgiven
  | some path =>
      obtain ⟨found, hfound, h⟩ := Outcome.bind_ok.mp (Run.outcome_bind _ _ ▸ h)
      cases h
      cases hgiven
      rw [Run.outcome_liftM, FactTopology.load] at hfound
      split at hfound
      · exact FactTopology.isWellFormed_of_ofJson hfound
      · cases hfound
      · cases hfound

/-- A preparation from files loads the proof, then the topologies, and prepares. -/
lemma outcome_prepareFrom_eq (disk : Disk) (proofPath : String) (topologiesPath : Option String)
    (config : Config) (limits : NestingLimits) :
    (prepareFrom disk proofPath topologiesPath config limits).outcome =
      (AnnotatedProof.load disk proofPath limits).outcome.bind fun proof =>
        (loadTopologies disk limits topologiesPath).outcome.bind fun topologies =>
          (prepare proof topologies config).outcome := by
  cases hproof : (AnnotatedProof.load disk proofPath limits).outcome with
  | error f => simp only [prepareFrom, Run.outcome_bind, Run.outcome_note, hproof, Except.bind]
  | ok proof =>
      cases htopologies : (loadTopologies disk limits topologiesPath).outcome with
      | error f =>
          simp only [prepareFrom, Run.outcome_bind, Run.outcome_note, hproof, htopologies,
            Except.bind]
      | ok topologies => exact outcome_prepareFrom hproof htopologies

variable (hreported : ∀ k : Fault.Kind, k.isReported = true → P k)

include hreported

/-- The failures of loading a proof. -/
lemma AnnotatedProof.faultsIn_load
    (hnesting : disk.readJson limits.proof path ≠ .error .nestedTooDeep ∨ P .nesting) :
    FaultsIn P (AnnotatedProof.load disk path limits).outcome := by
  rw [AnnotatedProof.load]
  split
  · intro f hf
    rcases (reports_ofJson _ f hf).kind with hkind | ⟨hkind, -⟩ <;> rw [hkind]
    · exact hreported _ rfl
    · exact hreported _ rfl
  · exact .error (hreported _ rfl)
  · rename_i f _ hf
    exact .error (Disk.faultsIn_readJson hreported hnesting f hf)

/-- The failures of loading topologies. -/
lemma faultsIn_loadTopologies
    (hnesting : ∀ path ∈ topologiesPath,
      disk.readJson limits.topologies path ≠ .error .nestedTooDeep ∨ P .nesting) :
    FaultsIn P (loadTopologies disk limits topologiesPath).outcome := by
  cases topologiesPath with
  | none => exact .ok none
  | some path =>
      have hload : FaultsIn P (FactTopology.load disk path limits) := by
        rw [FactTopology.load]
        split
        · exact FactTopology.faultsIn_ofJson (hreported _ rfl) _
        · exact .error (hreported _ rfl)
        · rename_i f _ hf
          exact .error (Disk.faultsIn_readJson hreported (hnesting path rfl) f hf)
      rw [loadTopologies, Run.outcome_bind]
      exact hload.bind fun found _ => .ok _

/-- **The failures of a preparation from files**: they are reported, unless an option is not of its
type or a document nests too deep. -/
theorem faultsIn_prepareFile (hconfig : config.IsTyped ∨ P .type ∧ P .overflow)
    (hproofNesting : disk.readJson limits.proof proofPath ≠ .error .nestedTooDeep ∨ P .nesting)
    (htopologiesNesting : ∀ proof, (AnnotatedProof.load disk proofPath limits).outcome = .ok proof →
      ∀ path ∈ topologiesPath,
      disk.readJson limits.topologies path ≠ .error .nestedTooDeep ∨ P .nesting) :
    FaultsIn P (prepareFile disk proofPath outputPath topologiesPath config limits).1.outcome := by
  cases hrun : (prepareFrom disk proofPath topologiesPath config limits).outcome with
  | error f =>
      have hfrom :
          FaultsIn P (prepareFrom disk proofPath topologiesPath config limits).outcome := by
        rw [outcome_prepareFrom_eq]
        refine (AnnotatedProof.faultsIn_load hreported hproofNesting).bind fun proof hproof => ?_
        refine FaultsIn.bind ?_ fun topologies _ => ?_
        · exact faultsIn_loadTopologies hreported (htopologiesNesting proof hproof)
        · exact faultsIn_prepare hreported hconfig (AnnotatedProof.isWellFormed_of_load hproof)
      rw [prepareFile, (prepareFileUnder_of_error hrun).1]
      exact .error (hfrom f hrun)
  | ok v =>
      obtain ⟨proof, hproof, h⟩ := Outcome.bind_ok.mp (outcome_prepareFrom_eq _ _ _ _ _ ▸ hrun)
      obtain ⟨topologies, htopologies, hv⟩ := Outcome.bind_ok.mp h
      have hencode : FaultsIn P v.encode :=
        faultsIn_encode_of_prepare hreported hconfig (AnnotatedProof.isWellFormed_of_load hproof)
          (isWellFormed_of_loadTopologies htopologies) hv
      have hsave : FaultsIn P (v.saveUnder disk.standard disk outputPath).1 := by
        rw [VerifierInput.saveUnder]
        split
        · exact Disk.faultsIn_save hreported disk outputPath _
        · rename_i f hf
          exact .error (hencode f hf)
      rw [prepareFile, (prepareFileUnder_of_ok hrun).1]
      exact hsave.bind fun _ _ => .ok v

end

end StarkCalldata
