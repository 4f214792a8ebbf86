import StarkCalldata.Proofs.Disk
import StarkCalldata.Proofs.Json.Pretty
import StarkCalldata.Proofs.Proof.Writing
import StarkCalldata.Proofs.SelfConsistency
import StarkCalldata.Proofs.Text.Utf8

/-!
The document as a file.

A document is published all or nothing. Everything that can fail comes before the one step that
changes the disk for good, and that step changes the target and nothing else:

* `Document.readable_toJson`: a document can be read again from its text;
* `Delivers`: a document has come to stand where a path leads to, and nothing else has changed;
* `AllOrNothing`: after a fault the disk is as it was, and a verifier input that is returned has
  been delivered;
* `VerifierInput.allOrNothing_saveUnder`: so it is when a verifier input is written;
* `no_partial_output`: and also when it is prepared from files first, wherever the run ends.
-/

namespace StarkCalldata

open Text

variable {disk : Disk} {path proofPath : String} {topologiesPath : Option String} {config : Config}
  {limits : NestingLimits} {c : Disk.Circumstances} {v : VerifierInput} {j : Json} {depth : ℕ}

/-! ### The text of a document -/

namespace Document

lemma readable_numbersJson (ns : List ℕ) : Json.Readable 1 (numbersJson ns) := by
  refine .arr fun j hj => ?_
  obtain ⟨n, -, rfl⟩ := List.mem_map.mp hj
  exact .str 0 _

lemma readable_pageJson (p : ℕ × List ℕ) : Json.Readable 2 (pageJson p) := by
  refine .obj (by simp) ?_
  simp only [List.forall_mem_cons, List.not_mem_nil, false_imp_iff, forall_true_iff, and_true]
  exact ⟨.str 1 _, readable_numbersJson p.2⟩

lemma readable_regularJson (pairs : Option (List ℕ)) : Json.Readable 2 (regularJson pairs) := by
  cases pairs with
  | none => exact .null 2
  | some pairs =>
      refine .obj (by simp) ?_
      rw [List.forall_mem_singleton]
      exact readable_numbersJson pairs

end Document

/-- The part of a document about the pages is an object with a page and a list of pages. -/
lemma Registration.readable_toJson (r : Registration) : Json.Readable 4 r.toJson := by
  have hpages : Json.Readable 3 (.arr (r.continuous.map Document.pageJson)) := by
    refine .arr fun j hj => ?_
    obtain ⟨p, -, rfl⟩ := List.mem_map.mp hj
    exact Document.readable_pageJson p
  refine .obj (by simp) ?_
  simp only [List.forall_mem_cons, List.not_mem_nil, false_imp_iff, forall_true_iff, and_true]
  exact ⟨(Document.readable_regularJson r.regular).mono (by omega), hpages⟩

/-- **A document can be read again**: its names are distinct, and it is not nested deep. -/
theorem Document.readable_toJson (d : Document) : Json.Readable 5 d.toJson := by
  have hnumbers (ns : List ℕ) : Json.Readable 4 (numbersJson ns) :=
    (readable_numbersJson ns).mono (by omega)
  refine .obj ?_ (List.forall_mem_append.mpr ⟨?_, fun f hf => ?_⟩)
  · cases d.layout <;> simp
  · simp only [List.forall_mem_cons, List.not_mem_nil, false_imp_iff, forall_true_iff, and_true]
    exact ⟨hnumbers _, hnumbers _, hnumbers _, .str 4 _, .str 4 _, d.pages.readable_toJson,
      hnumbers _⟩
  · obtain ⟨name, -, rfl⟩ := List.mem_map.mp hf
    exact .str 4 name

/-- The text of an encoded verifier input is read as its document, by any reader that allows for
five levels. -/
lemma VerifierInput.parse_text (h : v.encode = .ok j) (hdepth : 5 ≤ depth) :
    Json.parseWithin depth (text j) = .ok j := by
  obtain ⟨d, -, -, -, rfl⟩ := encode_eq_ok.mp h
  exact Json.parseWithin_pretty d.readable_toJson hdepth

lemma Disk.readJson_of_read {text : List Char} (hread : disk.read path = .ok (Utf8.encode text))
    (hparse : Json.parseWithin depth text = .ok j) : disk.readJson depth path = .ok j := by
  have htext : disk.readText path = .ok text := by
    refine Outcome.bind_eq_ok.mpr ⟨_, hread, ?_⟩
    rw [Utf8.decode_encode]
    rfl
  refine Outcome.bind_eq_ok.mpr ⟨text, htext, ?_⟩
  rw [hparse]
  rfl

/-! ### Publication -/

/-- A document has come to stand where a path leads to: its text is the file there, elsewhere the
disk is as before, and what is read at the path, with five levels or more, is the document. -/
structure Delivers (before after : Disk) (path : String) (document : Json)
    (location : Location) : Prop where
  target : before.target path = .ok location
  file : after.node? location = some (.file (Utf8.encode (VerifierInput.text document)))
  elsewhere : ∀ l ≠ location, after.node? l = before.node? l
  readJson : ∀ depth, 5 ≤ depth → after.readJson depth path = .ok document

/-- All or nothing: after a fault the disk is as it was, and the document of a verifier input that
is returned has been delivered. -/
structure AllOrNothing (before : Disk) (path : String) (outcome : Except Fault VerifierInput)
    (after : Disk) : Prop where
  nothing : ∀ fault, outcome = .error fault → after = before
  all : ∀ v, outcome = .ok v → ∃ document location, v.encode = .ok document ∧
    Delivers before after path document location

lemma AllOrNothing.of_error (fault : Fault) : AllOrNothing disk path (.error fault) disk :=
  ⟨fun _ _ => rfl, nofun⟩

lemma delivers_put {location : Location} (hencode : v.encode = .ok j)
    (htarget : disk.target path = .ok location) :
    Delivers disk (disk.put location (.file (Utf8.encode (VerifierInput.text j)))) path j
      location where
  target := htarget
  file := Disk.node?_put (Disk.target_eq_ok.mp htarget).2.2
  elsewhere _ hl := Disk.node?_put_of_ne hl
  readJson _ hdepth :=
    Disk.readJson_of_read (Disk.read_put_of_target htarget) (v.parse_text hencode hdepth)

/-- **A verifier input is written all or nothing**, whatever comes in the way. -/
theorem VerifierInput.allOrNothing_saveUnder (hfresh : c.IsFresh disk path) (v : VerifierInput) :
    AllOrNothing disk path ((v.saveUnder c disk path).1.map fun _ => v)
      (v.saveUnder c disk path).2 := by
  rw [VerifierInput.saveUnder]
  cases hencode : v.encode with
  | error fault => exact .of_error fault
  | ok document =>
      simp only
      rcases Disk.saveUnder_cases hfresh (Utf8.encode (text document)) with
        ⟨fault, hsave⟩ | ⟨location, htarget, hsave⟩
      · rw [hsave]
        exact .of_error fault
      · rw [hsave]
        refine ⟨nofun, fun w hw => ?_⟩
        cases hw
        exact ⟨document, location, hencode, delivers_put hencode htarget⟩

lemma prepareFileUnder_of_error {fault : Fault}
    (h : (prepareFrom disk proofPath topologiesPath config limits).outcome = .error fault) :
    (prepareFileUnder c disk proofPath path topologiesPath config limits).1.outcome =
        .error fault ∧
      (prepareFileUnder c disk proofPath path topologiesPath config limits).2 = disk := by
  rw [prepareFileUnder, h]
  exact ⟨h, rfl⟩

lemma prepareFileUnder_of_ok
    (h : (prepareFrom disk proofPath topologiesPath config limits).outcome = .ok v) :
    (prepareFileUnder c disk proofPath path topologiesPath config limits).1.outcome =
        ((v.saveUnder c disk path).1.map fun _ => v) ∧
      (prepareFileUnder c disk proofPath path topologiesPath config limits).2 =
        (v.saveUnder c disk path).2 := by
  rw [prepareFileUnder, h]
  simp only
  rcases v.saveUnder c disk path with ⟨_ | _, _⟩ <;> exact ⟨rfl, rfl⟩

/-- **No partial output, ever.** Let a verifier input be written to a path of a disk, or prepared
from files of the disk and then written, with any options and under any limits of nesting; let the
name that is drawn for the fresh file not be taken, and let whatever come in the way of the writing.
When this ends with a fault, the
disk is as it was before. When it ends with a verifier input, the disk differs from what it was in
the file that the path leads to, and what is read at that path is the document of the verifier
input. -/
theorem no_partial_output (c : Disk.Circumstances) (disk : Disk) (outputPath : String)
    (hfresh : c.IsFresh disk outputPath) :
    (∀ v : VerifierInput, AllOrNothing disk outputPath
      ((v.saveUnder c disk outputPath).1.map fun _ => v) (v.saveUnder c disk outputPath).2) ∧
    ∀ (proofPath : String) (topologiesPath : Option String) (config : Config)
      (limits : NestingLimits), AllOrNothing disk outputPath
        (prepareFileUnder c disk proofPath outputPath topologiesPath config limits).1.outcome
        (prepareFileUnder c disk proofPath outputPath topologiesPath config limits).2 := by
  refine ⟨VerifierInput.allOrNothing_saveUnder hfresh,
    fun proofPath topologiesPath config limits => ?_⟩
  cases hcomputed : (prepareFrom disk proofPath topologiesPath config limits).outcome with
  | error fault =>
      obtain ⟨houtcome, hdisk⟩ := @prepareFileUnder_of_error disk outputPath _ _ _ _ c _ hcomputed
      rw [houtcome, hdisk]
      exact .of_error fault
  | ok v =>
      obtain ⟨houtcome, hdisk⟩ := @prepareFileUnder_of_ok disk outputPath _ _ _ _ c v hcomputed
      rw [houtcome, hdisk]
      exact v.allOrNothing_saveUnder hfresh

/-! ### A run on files -/

lemma outcome_prepareFrom {proof : AnnotatedProof} {topologies : Option (List FactTopology)}
    (hproof : (AnnotatedProof.load disk proofPath limits).outcome = .ok proof)
    (htopologies : (loadTopologies disk limits topologiesPath).outcome = .ok topologies) :
    (prepareFrom disk proofPath topologiesPath config limits).outcome =
      (prepare proof topologies config).outcome := by
  simp only [prepareFrom, Run.outcome_bind, Run.outcome_note, hproof, htopologies, Except.bind]
  cases (prepare proof topologies config).outcome <;> rfl

/-- A disk with the short proof, and with an older file where its document is to stand. -/
def shortDisk : Disk :=
  ⟨[(["proof.json"], .file (Utf8.encode shortProof.toJson.compact)),
    (["input.json"], .file [0x7B, 0x7D])]⟩

lemma prepareFrom_shortDisk :
    (prepareFrom shortDisk "proof.json" none {}).outcome = .ok shortInput := by
  have hproof : (AnnotatedProof.load shortDisk "proof.json").outcome = .ok shortProof :=
    Outcome.toOption_eq_some.mp (by decide +kernel)
  rw [outcome_prepareFrom hproof rfl]
  exact prepare_shortProof

/-- The fresh file gets a name that is not taken, and then it cannot be moved to its place. -/
def blocked (disk : Disk) : Disk.Circumstances :=
  ⟨disk.freshDraw, some (.replacing (.busy "input.json"))⟩

/-- The document of the short proof takes the place of the older file, and the older file stays when
the fresh one cannot be moved. -/
theorem shortDisk_delivers :
    ((prepareFile shortDisk "proof.json" "input.json" none {}).1.outcome = .ok shortInput ∧
      Delivers shortDisk (prepareFile shortDisk "proof.json" "input.json" none {}).2 "input.json"
        shortDocument.toJson ["input.json"]) ∧
    (shortInput.saveUnder (blocked shortDisk) shortDisk "input.json").2 = shortDisk := by
  have hdocument : shortInput.encode = .ok shortDocument.toJson := by
    obtain ⟨v, hv, hencode⟩ := Outcome.bind_ok.mp document_shortProof
    rw [prepare_shortProof] at hv
    cases hv
    exact hencode
  have hwritten : (shortInput.saveUnder shortDisk.standard shortDisk "input.json").1 = .ok () := by
    rw [VerifierInput.saveUnder, hdocument]
    exact Outcome.toOption_eq_some.mp (by decide +kernel)
  have hblocked : (shortInput.saveUnder (blocked shortDisk) shortDisk "input.json").1 ≠ .ok () := by
    rw [VerifierInput.saveUnder, hdocument]
    exact mt Outcome.toOption_eq_some.mpr (by decide +kernel)
  have hlocation : shortDisk.target "input.json" = .ok ["input.json"] :=
    Outcome.toOption_eq_some.mp (by decide +kernel)
  have hfresh := shortDisk.isFresh_standard "input.json"
  have hrun := (no_partial_output shortDisk.standard shortDisk "input.json" hfresh).2
    "proof.json" none {} {}
  have hkept := (no_partial_output (blocked shortDisk) shortDisk "input.json" hfresh).1 shortInput
  have houtcome := (@prepareFileUnder_of_ok shortDisk "input.json" _ _ _ _ shortDisk.standard
    shortInput prepareFrom_shortDisk).1
  rw [hwritten] at houtcome
  rw [prepareFile]
  constructor
  · obtain ⟨document, location, hencode, hdelivers⟩ := hrun.all shortInput houtcome
    rw [hdocument, Except.ok.injEq] at hencode
    rw [← hencode] at hdelivers
    have hthere := hdelivers.target
    rw [hlocation, Except.ok.injEq] at hthere
    rw [← hthere] at hdelivers
    exact ⟨houtcome, hdelivers⟩
  · cases hended : (shortInput.saveUnder (blocked shortDisk) shortDisk "input.json").1 with
    | error fault => exact hkept.nothing fault (by rw [hended]; rfl)
    | ok done => exact absurd hended hblocked

end StarkCalldata
