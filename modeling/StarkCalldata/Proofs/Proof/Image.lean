import StarkCalldata.Proofs.Proof.Writing

/-!
The image of the parser.

Whatever is wrong with a document is a defect of the proof at some place, and what comes out of a
document that has none is a well-formed proof. Every well-formed proof comes out of some document,
so the parser yields these proofs and no others. One defect quotes an integer of the document, and
with an integer that is too long for that its message fails before the defect can be reported:

* `Defect.quoted`, `Reports`: the integer that a defect quotes, and what the parser reports about a
  document;
* `Decoding.reports_require`, `Decoding.reports_unsigned`, `Decoding.reports_address`,
  `Decoding.reports_fieldElement`, `Decoding.reports_proofBytes`, `Decoding.reports_items`: the
  decoders report nothing else;
* `Parsing.reports_publicInput`, `Parsing.reports_parameters`, `AnnotatedProof.reports_ofJson`: nor
  do the parts and the whole;
* `AnnotatedProof.image_ofJson`: the parser and its image.
-/

namespace StarkCalldata

open Memory Text

variable {α : Type}

/-! ### What is reported -/

/-- The integers that the words of a decoder's defect quote in full. -/
def Defect.quoted : Defect → List ℤ
  | .negative n => [n]
  | _ => []

/-- A failure that the parser may report about a value: a defect at some place, put into words. What
these quote are negative integers of the value. -/
def Reports (j : Json) (f : Fault) : Prop :=
  ∃ field d, f = Fault.quoting (Defect.quoted d) (.malformedProof field d) ∧
    ∀ n ∈ Defect.quoted d, n < 0 ∧ n ∈ j.integers

namespace Reports

variable {j v : Json} {f : Fault}

lemma of_quoted {d : Defect} (h : Defect.quoted d = []) (field : String) :
    Reports j (.malformedProof field d) := by
  refine ⟨field, d, ?_, by rw [h]; exact nofun⟩
  rw [Fault.quoting, h, if_pos (by simp)]

lemma mono (h : v.integers ⊆ j.integers) (hf : Reports v f) : Reports j f := by
  obtain ⟨field, d, rfl, hquoted⟩ := hf
  exact ⟨field, d, rfl, fun n hn => ⟨(hquoted n hn).1, h (hquoted n hn).2⟩⟩

/-- A failure is that of a malformed proof, unless it quotes a negative integer that cannot be
written. -/
lemma kind (hf : Reports j f) :
    f.kind = .malformedProof ∨ f.kind = .value ∧ ∃ n ∈ j.integers, n < 0 ∧ ¬ Writable n := by
  obtain ⟨field, d, rfl, hquoted⟩ := hf
  rw [Fault.kind_quoting]
  split_ifs with hwritable
  · exact .inl rfl
  · push Not at hwritable
    obtain ⟨n, hn, hlong⟩ := hwritable
    obtain ⟨hneg, hmem⟩ := hquoted n hn
    exact .inr ⟨rfl, n, hmem, hneg, hlong⟩

end Reports

/-! ### The values of a document -/

namespace Decoding

variable {j v : Json} {path : Path} {name : String}

lemma reports_defect {d : Defect} (h : Defect.quoted d = []) (path : Path) :
    FailsWith (Reports j) (defect path d : Except Fault α) :=
  .error (.of_quoted h _)

lemma reports_field {x : Except Fault α} (hv : require j path name = .ok v)
    (hx : FailsWith (Reports v) x) : FailsWith (Reports j) x :=
  hx.mono fun _ hf => hf.mono (integers_get? (require_eq_ok.mp hv))

/-- A field that is not there is a defect. -/
lemma reports_require (j : Json) (path : Path) (name : String) :
    FailsWith (Reports j) (require j path name) := by
  rw [require.eq_def]
  split
  · split
    · exact .ok _
    · exact reports_defect rfl _
  · exact .error (.of_quoted rfl _)

/-- A value that is no integer, or a negative one, is a defect. -/
lemma reports_unsigned (j : Json) (path : Path) : FailsWith (Reports j) (unsigned j path) := by
  cases j with
  | int n =>
      rw [unsigned]
      split_ifs with hneg
      · exact .error ⟨path.render, .negative n, rfl, List.forall_mem_singleton.mpr
          ⟨hneg, List.mem_singleton.mpr rfl⟩⟩
      · exact .ok n
  | _ => exact reports_defect rfl _

lemma reports_unsignedField (j : Json) (path : Path) (name : String) :
    FailsWith (Reports j) (unsignedField j path name) :=
  (reports_require j path name).bind fun value hv => reports_field hv (reports_unsigned value _)

lemma reports_bounded {x : Except Fault ℤ} (hx : FailsWith (Reports j) x) {d : Defect}
    (hd : Defect.quoted d = []) (path : Path) :
    FailsWith (Reports j) (x >>= fun n => if n < Field.prime then pure n else defect path d) := by
  refine hx.bind fun n _ => ?_
  split_ifs
  · exact .ok n
  · exact reports_defect hd path

/-- What is no address is a defect. -/
lemma reports_address (j : Json) (path : Path) : FailsWith (Reports j) (address j path) := by
  unfold address
  split
  · split
    · exact reports_bounded (x := .ok _) (.ok _) rfl path
    · exact reports_defect rfl _
  · exact reports_bounded (reports_unsigned _ _) rfl path

/-- What is no field element is a defect. -/
lemma reports_fieldElement (j : Json) (path : Path) :
    FailsWith (Reports j) (fieldElement j path) := by
  unfold fieldElement
  split
  · split
    · exact reports_bounded (x := .ok _) (.ok _) rfl path
    · exact reports_defect rfl _
  · exact reports_bounded (reports_unsigned _ _) rfl path

/-- What is no hexadecimal text of whole bytes is a defect. -/
lemma reports_proofBytes (j : Json) (path : Path) : FailsWith (Reports j) (proofBytes j path) := by
  rw [proofBytes.eq_def]
  split
  · simp only
    split_ifs
    · exact reports_defect rfl _
    · split
      · exact .ok _
      · exact reports_defect rfl _
  · exact reports_defect rfl _

/-- About a list is reported what is reported about its items. -/
lemma reports_items {decode : Json → Path → Except Fault α}
    (h : ∀ j path, FailsWith (Reports j) (decode j path)) (parent : Path) (i : ℕ)
    (js : List Json) : FailsWith (Reports (.arr js)) (items decode parent i js) := by
  induction js generalizing i with
  | nil => exact .ok []
  | cons j js ih =>
      have hfirst : j.integers ⊆ (Json.arr (j :: js)).integers :=
        Json.integers_subset_arr List.mem_cons_self
      have hrest : (Json.arr js).integers ⊆ (Json.arr (j :: js)).integers :=
        Json.integers_arr_mono (List.subset_cons_self j js)
      exact ((h j _).mono fun _ hf => hf.mono hfirst).bind fun first _ =>
        ((ih (i + 1)).mono fun _ hf => hf.mono hrest).bind fun others _ => .ok _

end Decoding

/-! ### The parts of a proof -/

namespace Parsing

open Decoding

lemma reports_memoryCell (j : Json) (path : Path) :
    FailsWith (Reports j) (memoryCell j path) := by
  refine (reports_unsignedField j path "page").bind fun page _ => ?_
  refine (reports_require j path "address").bind fun v hv => ?_
  refine (reports_field hv (reports_address v _)).bind fun address _ => ?_
  refine (reports_require j path "value").bind fun w hw => ?_
  exact (reports_field hw (reports_fieldElement w _)).bind fun value _ => .ok _

lemma reports_segment (j : Json) (path : Path) : FailsWith (Reports j) (segment j path) :=
  (reports_unsignedField j path "begin_addr").bind fun _ _ =>
    (reports_unsignedField j path "stop_ptr").bind fun _ _ => .ok _

/-- What is wrong with a row of segments is a defect. -/
lemma reports_segmentFields (path : Path) (fields : List (String × Json)) :
    FailsWith (Reports (.obj fields)) (segmentFields path fields) := by
  induction fields with
  | nil => exact .ok []
  | cons field rest ih =>
      have hfirst : field.2.integers ⊆ (Json.obj (field :: rest)).integers :=
        Json.integers_subset_obj List.mem_cons_self
      have hrest : (Json.obj rest).integers ⊆ (Json.obj (field :: rest)).integers :=
        Json.integers_obj_mono (List.subset_cons_self field rest)
      exact ((reports_segment field.2 _).mono fun _ hf => hf.mono hfirst).bind fun first _ =>
        (ih.mono fun _ hf => hf.mono hrest).bind fun others _ => .ok _

lemma reports_segments (j : Json) (path : Path) :
    FailsWith (Reports j) (segments j path).outcome := by
  cases j with
  | obj fields =>
      rw [outcome_segments]
      exact reports_segmentFields path fields
  | _ => exact reports_defect rfl _

lemma reports_steps (j : Json) (path : Path) : FailsWith (Reports j) (steps j path) := by
  refine (reports_unsignedField j path "n_steps").bind fun n _ => ?_
  split_ifs
  · exact reports_defect rfl _
  · exact .ok n

lemma reports_layout (j : Json) (path : Path) : FailsWith (Reports j) (layout j path) := by
  refine (reports_require j path "layout").bind fun value _ => ?_
  split
  · split_ifs
    · exact reports_defect rfl _
    · exact reports_defect rfl _
    · exact .ok _
  · exact reports_defect rfl _

lemma reports_memory (j : Json) (path : Path) : FailsWith (Reports j) (memory j path) := by
  refine (reports_require j path "public_memory").bind fun value hv => ?_
  split
  · exact reports_defect rfl _
  · exact reports_field hv (reports_items reports_memoryCell _ 0 _)
  · exact reports_defect rfl _

/-- What is wrong with the public input is a defect. -/
lemma reports_publicInput (j : Json) (path : Path) :
    FailsWith (Reports j) (publicInput j path).outcome := by
  simp only [publicInput, Run.outcome_bind, Run.outcome_liftM, Run.outcome_pure]
  refine (reports_steps j path).bind fun n _ => ?_
  refine (reports_layout j path).bind fun name _ => ?_
  refine (reports_memory j path).bind fun cells _ => ?_
  refine (reports_unsignedField j path "rc_min").bind fun low _ => ?_
  refine (reports_unsignedField j path "rc_max").bind fun high _ => ?_
  refine (reports_require j path "memory_segments").bind fun v hv => ?_
  exact (reports_field hv (reports_segments v _)).bind fun found _ => .ok _

lemma reports_listField (j : Json) (path : Path) (name : String) :
    FailsWith (Reports j) (listField j path name) := by
  refine (reports_require j path name).bind fun value _ => ?_
  split
  · exact .ok _
  · exact reports_defect rfl _

lemma reports_lastLayer (fri : Json) (path : Path) :
    FailsWith (Reports fri) (lastLayer fri path) := by
  refine (reports_unsignedField fri path "last_layer_degree_bound").bind fun bound _ => ?_
  split_ifs
  · exact reports_defect rfl _
  · exact .ok bound

lemma reports_friendlyLayers (j : Json) (path : Path) :
    FailsWith (Reports j) (friendlyLayers j path) := by
  rw [friendlyLayers]
  split
  · exact .ok none
  · exact .ok none
  · rename_i value _ hvalue
    have hlayers := (reports_unsigned value (path.key "n_verifier_friendly_commitment_layers")).mono
      fun _ hf => hf.mono (integers_get? hvalue)
    exact hlayers.bind fun n _ => .ok _

/-- What is wrong with the parameters is a defect. -/
lemma reports_parameters (j : Json) (path : Path) : FailsWith (Reports j) (parameters j path) := by
  refine (reports_require j path "stark").bind fun stark hstark => ?_
  refine (reports_field hstark (reports_require stark _ "fri")).bind fun fri hfri => ?_
  have hinFri {β : Type} {x : Except Fault β} (hx : FailsWith (Reports fri) x) :
      FailsWith (Reports j) x := reports_field hstark (reports_field hfri hx)
  refine (hinFri (reports_listField fri _ "fri_step_list")).bind fun stepItems hitems => ?_
  refine (hinFri (reports_lastLayer fri _)).bind fun bound _ => ?_
  refine (reports_friendlyLayers j path).bind fun layers _ => ?_
  refine (reports_field hstark (reports_unsignedField stark _ "log_n_cosets")).bind fun _ _ => ?_
  refine (hinFri (reports_unsignedField fri _ "n_queries")).bind fun queries _ => ?_
  refine (hinFri (reports_unsignedField fri _ "proof_of_work_bits")).bind fun bits _ => ?_
  have hsteps : FailsWith (Reports fri)
      (items unsigned (((path.key "stark").key "fri").key "fri_step_list") 0 stepItems) :=
    reports_field (listField_eq_ok.mp hitems) (reports_items reports_unsigned _ 0 stepItems)
  exact (hinFri hsteps).bind fun found _ => .ok _

lemma reports_annotations (j : Json) : FailsWith (Reports j) (annotations j) := by
  refine (reports_require j .root "annotations").bind fun value _ => ?_
  split
  · split
    · exact .ok _
    · exact reports_defect rfl _
  · exact reports_defect rfl _

end Parsing

namespace AnnotatedProof

open Decoding Parsing

/-- What is wrong with a document is a defect of the proof. -/
theorem reports_ofJson (j : Json) : FailsWith (Reports j) (ofJson j).outcome := by
  simp only [ofJson, Run.outcome_bind, Run.outcome_liftM, Run.outcome_pure]
  refine (reports_annotations j).bind fun lines _ => ?_
  refine (reports_require j .root "proof_hex").bind fun v hv => ?_
  refine (reports_field hv (reports_proofBytes v _)).bind fun bytes _ => ?_
  refine (reports_require j .root "public_input").bind fun w hw => ?_
  refine (reports_field hw (reports_publicInput w _)).bind fun input _ => ?_
  refine (reports_require j .root "proof_parameters").bind fun u hu => ?_
  exact (reports_field hu (reports_parameters u _)).bind fun params _ => .ok _

/-- **The image of the parser.** Every document is refused with a defect or describes a well-formed
proof, and every well-formed proof is described by the document that it is written as. So the proofs
that documents describe are the well-formed ones.

A refusal is that of a malformed proof, unless the defect quotes a negative integer that is too long
to be written. No document that is read from a text holds one. -/
theorem image_ofJson (j : Json) :
    ((∃ f, (ofJson j).outcome = .error f ∧ Reports j f) ∨
      ∃ proof, (ofJson j).outcome = .ok proof ∧ proof.IsWellFormed) ∧
    (∀ f, (ofJson j).outcome = .error f → f.kind = .malformedProof ∨
      f.kind = .value ∧ ∃ n ∈ j.integers, n < 0 ∧ ¬ Writable n) ∧
    (∀ depth text, Json.parseWithin depth text = .ok j →
      ∀ f, (ofJson j).outcome = .error f → f.kind = .malformedProof) ∧
    ∀ proof, proof.IsWellFormed → (ofJson proof.toJson).outcome = .ok proof := by
  refine ⟨?_, fun f hf => (reports_ofJson j f hf).kind, fun depth text h f hf => ?_,
    fun proof hproof => ofJson_toJson hproof⟩
  · cases h : (ofJson j).outcome with
    | error f => exact .inl ⟨f, rfl, reports_ofJson j f h⟩
    | ok proof => exact .inr ⟨proof, rfl, isWellFormed_of_ofJson h⟩
  · rcases (reports_ofJson j f hf).kind with hkind | ⟨-, n, hn, -, hlong⟩
    · exact hkind
    · exact absurd (Json.quotable_of_parseWithin h n hn) hlong

/-- A proof of two words with a line of its transcript, a segment and its friendly layers. -/
def segmentedProof : AnnotatedProof where
  annotations := ["P->V: Commitment"]
  bytes := List.replicate 64 255
  publicInput :=
    { steps := 8, rangeMin := 3, rangeMax := 3, layout := "plain"
      segments := [("program", ⟨1, 5⟩)]
      memory := [⟨0, 1, 0⟩, ⟨2, Field.prime - 1, Field.prime - 1⟩] }
  parameters := ⟨1, 18, 24, 64, [0, 4, 3], some 9999⟩

lemma isWellFormed_segmentedProof : segmentedProof.IsWellFormed where
  bytes_whole := by decide
  input := by constructor <;> decide
  parameters := by constructor <;> decide

/-- That proof comes back from its document, and an empty document is refused. -/
theorem segmentedProof_image :
    segmentedProof.IsWellFormed ∧
      (ofJson segmentedProof.toJson).outcome = .ok segmentedProof ∧
      ∃ f, (ofJson (.obj [])).outcome = .error f ∧ f.kind = .malformedProof := by
  obtain ⟨hcases, hclass, -, hback⟩ := image_ofJson (.obj [])
  refine ⟨isWellFormed_segmentedProof, hback _ isWellFormed_segmentedProof, ?_⟩
  obtain ⟨f, hf, -⟩ := hcases.resolve_right (by rintro ⟨_, h, -⟩; cases h)
  refine ⟨f, hf, (hclass f hf).resolve_right ?_⟩
  rintro ⟨-, n, hn, -⟩
  simp at hn

/-- The document of that proof with another number of steps. -/
def stepsDocument (n : ℤ) : Json :=
  { segmentedProof with
    publicInput := { segmentedProof.publicInput with steps := n } : AnnotatedProof }.toJson

/-- A negative number of steps is what is wrong with the document. -/
lemma ofJson_stepsDocument {n : ℤ} (h : n < 0) :
    (ofJson (stepsDocument n)).outcome =
      .error (Fault.quoting [n] (.malformedProof "public_input.n_steps" (.negative n))) := by
  have hlines : Parsing.annotations (stepsDocument n) = .ok segmentedProof.annotations :=
    Parsing.annotations_eq_ok.mpr rfl
  have hhex : require (stepsDocument n) .root "proof_hex" =
      .ok (.str (String.ofList ('0' :: 'x' :: bytesHex segmentedProof.bytes))) := rfl
  have hbytes (path : Path) :
      proofBytes (.str (String.ofList ('0' :: 'x' :: bytesHex segmentedProof.bytes))) path =
        .ok segmentedProof.bytes :=
    proofBytes_bytesHex isWellFormed_segmentedProof.bytes_whole
  have hinput : require (stepsDocument n) .root "public_input" =
      .ok { segmentedProof.publicInput with steps := n : PublicInput }.toJson := rfl
  have hsteps : Parsing.steps { segmentedProof.publicInput with steps := n : PublicInput }.toJson
      (Path.root.key "public_input") =
        .error (Fault.quoting [n] (.malformedProof "public_input.n_steps" (.negative n))) := by
    have hfield : require { segmentedProof.publicInput with steps := n : PublicInput }.toJson
        (Path.root.key "public_input") "n_steps" = .ok (.int n) := rfl
    have hnegative : unsigned (.int n) ((Path.root.key "public_input").key "n_steps") =
        .error (Fault.quoting [n] (.malformedProof "public_input.n_steps" (.negative n))) :=
      if_pos h
    simp only [Parsing.steps, unsignedField, hfield, hnegative, Bind.bind, Except.bind]
  simp only [ofJson, Parsing.publicInput, Run.outcome_bind, Run.outcome_liftM, hlines, hhex, hbytes,
    hinput, hsteps, Except.bind]

/-- With a negative number of steps that is too long to be written, the document is refused, but not
as a malformed proof. -/
theorem longSteps_not_malformed :
    ∃ f, (ofJson (stepsDocument (-firstLong))).outcome = .error f ∧ f.kind ≠ .malformedProof := by
  have hneg : -firstLong < 0 := neg_lt_zero.mpr firstLong_pos
  have hlong : ¬ Writable (-firstLong) := by
    intro h
    have hback := writable_neg h
    rw [neg_neg] at hback
    exact not_writable_firstLong hback
  refine ⟨_, ofJson_stepsDocument hneg, ?_⟩
  rw [Fault.kind_quoting, if_neg fun h => hlong (h _ (List.mem_singleton.mpr rfl))]
  decide

end AnnotatedProof

end StarkCalldata
