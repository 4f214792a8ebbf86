import StarkCalldata.Proofs.Json.Variation
import StarkCalldata.Proofs.Proof.Harm
import StarkCalldata.PublicInput.Vector

/-!
Reading a document with irrelevant content.

The schema of what is read of a proof document has one more field than the schema of what must be
there: the number of friendly layers, which may be left out. A decoder sees nothing of a variation
along this schema, so it gives for the varied value what it gave for the other one (`Keeps`). Only
the segments can differ, by segments whose names do not belong to the vector:

* `Schema.readProof`: what is read of the document of a proof;
* `IsForeign`: a segment that may be added;
* `Keeps`, and `keeps_unsigned` to `keeps_parameters`: the decoders;
* `Segments.SameKnown`, `AnnotatedProof.withSegments`: what is left of the differences;
* `AnnotatedProof.ofJson_varies`: the whole document.
-/

namespace StarkCalldata

open Decoding Parsing Schema

/-! ### What is read -/

namespace Schema

/-- What is read of the parameters of a proof. -/
def readParameters : Schema := .record [("stark", stark),
  ("n_verifier_friendly_commitment_layers", .leaf)]

/-- What is read of the document of a proof. -/
def readProof : Schema := .record [("annotations", .leaf), ("proof_hex", .leaf),
  ("public_input", publicInput), ("proof_parameters", readParameters)]

end Schema

/-- A segment as it stands in a document: two addresses that are not negative, and whatever else. -/
def DescribesSegment (j : Json) : Prop :=
  ∃ start stop : ℤ, j.get? "begin_addr" = some (.int start) ∧ 0 ≤ start ∧
    j.get? "stop_ptr" = some (.int stop) ∧ 0 ≤ stop

/-- A segment that does not belong to the vector of the public input. -/
structure IsForeign (name : String) (j : Json) : Prop where
  notMem : name ∉ PublicInput.segmentOrder
  describes : DescribesSegment j

/-- Segments agree on those that belong to the vector. -/
def Segments.SameKnown (found found' : Segments) : Prop :=
  ∀ name ∈ PublicInput.segmentOrder, found'.lookup name = found.lookup name

/-- The same proof with other segments. -/
def AnnotatedProof.withSegments (proof : AnnotatedProof) (found : Segments) : AnnotatedProof :=
  { proof with publicInput := { proof.publicInput with segments := found } }

/-- A decoder gives for the variations of a value what it gives for the value. -/
structure Keeps {α : Type} (s : Schema) (decode : Json → Except Fault α) : Prop where
  kept : ∀ {j j' : Json} {a : α}, Varies IsForeign s j j' → decode j = .ok a → decode j' = .ok a

section Fields

variable {α : Type} {s : Schema} {path : Path} {name : String} {fields : List (String × Schema)}
  {decode : Json → Except Fault α} {j j' v : Json} {a : α}

/-- A field that is read is still there, with its value or a variation of it. -/
lemma require_varies (h : Varies IsForeign (.record fields) j j')
    (hs : fields.lookup name = some s) (hv : require j path name = .ok v) :
    ∃ v', require j' path name = .ok v' ∧ Varies IsForeign s v v' := by
  rw [require_eq_ok] at hv
  cases j with
  | obj entries =>
      obtain ⟨entries', rfl, hvary⟩ := h.of_record
      have hat := hvary name s hs
      rw [show Json.field? entries name = some v from hv] at hat
      generalize hv' : Json.field? entries' name = o at hat
      cases hat with
      | some hvaries => exact ⟨_, require_eq_ok.mpr hv', hvaries⟩
  | _ => cases hv

namespace Keeps

/-- A decoder that refuses objects and arrays keeps what is read as a whole. -/
lemma leaf (hobj : ∀ entries a, decode (.obj entries) ≠ .ok a)
    (harr : ∀ items a, decode (.arr items) ≠ .ok a) : Keeps .leaf decode := by
  refine ⟨fun {j j' a} hvaries ha => ?_⟩
  cases hvaries with
  | same => exact ha
  | alien halien =>
      cases halien with
      | leaf hobject =>
          cases hobject with
          | obj => exact absurd ha (hobj _ a)
          | item _ _ => exact absurd ha (harr _ a)

lemma field (hdecode : Keeps s decode) (h : Varies IsForeign (.record fields) j j')
    (hs : fields.lookup name = some s) (ha : (require j path name).bind decode = .ok a) :
    (require j' path name).bind decode = .ok a := by
  obtain ⟨v, hv, ha⟩ := Outcome.bind_ok.mp ha
  obtain ⟨v', hv', hvaries⟩ := require_varies h hs hv
  exact Outcome.bind_ok.mpr ⟨v', hv', hdecode.kept hvaries ha⟩

lemma items {decode : Json → Path → Except Fault α} {i : ℕ} {js js' : List Json} {as : List α}
    (hdecode : ∀ path, Keeps s (decode · path)) (h : List.Forall₂ (Varies IsForeign s) js js')
    (has : items decode path i js = .ok as) : Decoding.items decode path i js' = .ok as := by
  induction h generalizing i as with
  | nil => exact has
  | cons hvaries _ ih =>
      obtain ⟨first, hfirst, has⟩ := Outcome.bind_eq_ok.mp has
      obtain ⟨others, hothers, has⟩ := Outcome.bind_eq_ok.mp has
      exact Outcome.bind_eq_ok.mpr ⟨first, (hdecode _).kept hvaries hfirst,
        Outcome.bind_eq_ok.mpr ⟨others, ih hothers, has⟩⟩

end Keeps

end Fields

/-! ### The decoders -/

section Decoders

variable {path : Path} {name : String} {fields : List (String × Schema)} {j j' : Json}

/-- An object is no integer. -/
lemma keeps_unsigned (path : Path) : Keeps .leaf (unsigned · path) :=
  .leaf (by rintro _ _ ⟨⟩) (by rintro _ _ ⟨⟩)

lemma keeps_address (path : Path) : Keeps .leaf (address · path) :=
  .leaf (by rintro _ _ ⟨⟩) (by rintro _ _ ⟨⟩)

lemma keeps_fieldElement (path : Path) : Keeps .leaf (fieldElement · path) :=
  .leaf (by rintro _ _ ⟨⟩) (by rintro _ _ ⟨⟩)

lemma keeps_proofBytes (path : Path) : Keeps .leaf (proofBytes · path) :=
  .leaf (by rintro _ _ ⟨⟩) (by rintro _ _ ⟨⟩)

lemma unsignedField_varies {n : ℤ} (h : Varies IsForeign (.record fields) j j')
    (hs : fields.lookup name = some .leaf) (hn : unsignedField j path name = .ok n) :
    unsignedField j' path name = .ok n :=
  (keeps_unsigned _).field h hs hn

lemma keeps_memoryCell (path : Path) : Keeps .cell (memoryCell · path) := by
  refine ⟨fun {j j' c} h hc => ?_⟩
  simp only [memoryCell, Outcome.bind_eq_ok] at hc ⊢
  obtain ⟨page, hpage, v, hv, a, ha, w, hw, n, hn, hc⟩ := hc
  obtain ⟨v', hv', hvaries⟩ := require_varies h rfl hv
  obtain ⟨w', hw', hwaries⟩ := require_varies h rfl hw
  exact ⟨page, unsignedField_varies h rfl hpage, v', hv', a, (keeps_address _).kept hvaries ha, w',
    hw', n, (keeps_fieldElement _).kept hwaries hn, hc⟩

lemma keeps_segment (path : Path) : Keeps .segment (Parsing.segment · path) := by
  refine ⟨fun {j j' s} h hs => ?_⟩
  simp only [Parsing.segment, Outcome.bind_eq_ok] at hs ⊢
  obtain ⟨start, hstart, stop, hstop, hs⟩ := hs
  exact ⟨start, unsignedField_varies h rfl hstart, stop, unsignedField_varies h rfl hstop, hs⟩

lemma DescribesSegment.exists_segment (h : DescribesSegment j) (path : Path) :
    ∃ s, Parsing.segment j path = .ok s := by
  obtain ⟨start, stop, hstart, hstart0, hstop, hstop0⟩ := h
  exact ⟨⟨start, stop⟩, Outcome.bind_eq_ok.mpr
    ⟨start, unsignedField_int (require_eq_ok.mpr hstart) hstart0, Outcome.bind_eq_ok.mpr
      ⟨stop, unsignedField_int (require_eq_ok.mpr hstop) hstop0, rfl⟩⟩⟩

/-- Segments are decoded when each of them is. -/
lemma exists_segmentFields {entries : List (String × Json)} :
    (∃ found, segmentFields path entries = .ok found) ↔
      ∀ m ∈ entries, ∃ s, Parsing.segment m.2 (path.key m.1) = .ok s := by
  induction entries with
  | nil => simp [segmentFields]
  | cons m entries ih =>
      rw [List.forall_mem_cons, ← ih]
      simp only [segmentFields, Outcome.bind_eq_ok, Outcome.pure_eq_ok]
      constructor
      · rintro ⟨_, s, hs, others, hothers, -⟩
        exact ⟨⟨s, hs⟩, others, hothers⟩
      · rintro ⟨⟨s, hs⟩, others, hothers⟩
        exact ⟨_, s, hs, others, hothers, rfl⟩

/-- The segment of a name is decoded from the field of the name. -/
lemma lookup_segmentFields {entries : List (String × Json)} {found : Segments}
    (h : segmentFields path entries = .ok found) (name : String) :
    found.lookup name = (Json.field? entries name).bind fun v =>
      (Parsing.segment v (path.key name)).toOption := by
  induction entries generalizing found with
  | nil =>
      cases h
      rfl
  | cons m entries ih =>
      obtain ⟨s, hs, h⟩ := Outcome.bind_eq_ok.mp h
      obtain ⟨others, hothers, h⟩ := Outcome.bind_eq_ok.mp h
      cases h
      rw [Json.field?, List.lookup_cons, List.lookup_cons]
      cases hname : name == m.1 with
      | true =>
          rw [eq_of_beq hname]
          simp [hs, Except.toOption]
      | false => exact ih hothers

/-- The segments are kept up to those that do not belong to the vector. -/
lemma segments_varies {found : Segments} (h : Varies IsForeign (.dict .segment) j j')
    (hfound : (segments j path).outcome = .ok found) :
    ∃ found', (segments j' path).outcome = .ok found' ∧ found.SameKnown found' := by
  obtain ⟨entries, rfl, hfields⟩ := fields_of_segments hfound
  obtain ⟨entries', rfl, hmem, hvary⟩ := h.of_dict
  have hdecoded := exists_segmentFields.mp ⟨found, hfields⟩
  have hdecoded' : ∀ m' ∈ entries', ∃ s, Parsing.segment m'.2 (path.key m'.1) = .ok s := by
    intro m' hm'
    rcases hmem m' hm' with ⟨m, hm, hname, hvaries⟩ | hforeign
    · obtain ⟨s, hs⟩ := hdecoded m hm
      exact ⟨s, (keeps_segment _).kept hvaries (hname ▸ hs)⟩
    · exact hforeign.describes.exists_segment _
  obtain ⟨found', hfound'⟩ := exists_segmentFields.mpr hdecoded'
  refine ⟨found', (outcome_segments _ _).trans hfound', fun name hname => ?_⟩
  rw [lookup_segmentFields hfields, lookup_segmentFields hfound']
  have hat := hvary name fun v hv => hv.notMem hname
  generalize hv : Json.field? entries name = o at hat
  generalize Json.field? entries' name = o' at hat
  cases hat with
  | none => rfl
  | some hvaries =>
      obtain ⟨s, hs⟩ := hdecoded (name, _) (mem_of_lookup hv)
      rw [Option.bind_some, Option.bind_some, hs, (keeps_segment _).kept hvaries hs]

lemma checked_varies {β : Type} {check : ℤ → Except Fault β} {b : β}
    (h : Varies IsForeign (.record fields) j j') (hs : fields.lookup name = some .leaf)
    (hb : (unsignedField j path name).bind check = .ok b) :
    (unsignedField j' path name).bind check = .ok b := by
  obtain ⟨n, hn, hb⟩ := Outcome.bind_ok.mp hb
  exact Outcome.bind_ok.mpr ⟨n, unsignedField_varies h hs hn, hb⟩

lemma layout_varies {text : String} (h : Varies IsForeign (.record fields) j j')
    (hs : fields.lookup "layout" = some .leaf) (htext : layout j path = .ok text) :
    layout j' path = .ok text :=
  Keeps.field (.leaf (by rintro _ _ ⟨⟩) (by rintro _ _ ⟨⟩)) h hs htext

/-- The public memory is kept. -/
lemma memory_varies {cells : List Memory.Cell} (h : Varies IsForeign (.record fields) j j')
    (hs : fields.lookup "public_memory" = some (.list .cell)) (hcells : memory j path = .ok cells) :
    memory j' path = .ok cells := by
  obtain ⟨v, hv, hcells⟩ := Outcome.bind_eq_ok.mp hcells
  obtain ⟨v', hv', hvaries⟩ := require_varies h hs hv
  refine Outcome.bind_eq_ok.mpr ⟨v', hv', ?_⟩
  cases v with
  | arr items =>
      obtain ⟨items', rfl, hitems⟩ := hvaries.of_list
      cases hitems with
      | nil => exact hcells
      | cons hfirst hothers => exact Keeps.items keeps_memoryCell (.cons hfirst hothers) hcells
  | _ => cases hcells

lemma listField_varies {items : List Json} (h : Varies IsForeign (.record fields) j j')
    {s : Schema} (hs : fields.lookup name = some (.list s))
    (hitems : listField j path name = .ok items) :
    ∃ items', listField j' path name = .ok items' ∧
      List.Forall₂ (Varies IsForeign s) items items' := by
  obtain ⟨v', hv', hvaries⟩ := require_varies h hs (listField_eq_ok.mp hitems)
  obtain ⟨items', rfl, hall⟩ := hvaries.of_list
  exact ⟨items', listField_eq_ok.mpr hv', hall⟩

/-- The number of friendly layers is kept, and it stays away if it is not there. -/
lemma friendlyLayers_varies {entries : List (String × Json)} {layers : Option ℤ}
    (h : Varies IsForeign (.record fields) (.obj entries) j')
    (hs : fields.lookup "n_verifier_friendly_commitment_layers" = some .leaf)
    (hlayers : friendlyLayers (.obj entries) path = .ok layers) :
    friendlyLayers j' path = .ok layers := by
  obtain ⟨entries', rfl, hvary⟩ := h.of_record
  have hat := hvary _ _ hs
  simp only [friendlyLayers, Json.get?] at hlayers ⊢
  generalize Json.field? entries "n_verifier_friendly_commitment_layers" = o at hat hlayers
  generalize Json.field? entries' "n_verifier_friendly_commitment_layers" = o' at hat ⊢
  cases hat with
  | none => exact hlayers
  | some hvaries =>
      cases hvaries with
      | same => exact hlayers
      | alien halien =>
          cases halien with
          | leaf hobject => cases hobject <;> cases hlayers

/-- The parameters are kept. -/
lemma keeps_parameters (path : Path) : Keeps readParameters (Parsing.parameters · path) := by
  refine ⟨fun {j j' p} h hp => ?_⟩
  simp only [Parsing.parameters, Outcome.bind_eq_ok] at hp ⊢
  obtain ⟨stark, hstark, fri, hfri, js, hjs, bound, hbound, layers, hlayers, cosets, hcosets,
    queries, hqueries, bits, hbits, steps, hsteps, hp⟩ := hp
  obtain ⟨stark', hstark', hinStark⟩ := require_varies h rfl hstark
  obtain ⟨fri', hfri', hinFri⟩ := require_varies hinStark rfl hfri
  obtain ⟨js', hjs', hvary⟩ := listField_varies hinFri rfl hjs
  have hlayers' : friendlyLayers j' path = .ok layers := by
    cases j with
    | obj entries => exact friendlyLayers_varies h rfl hlayers
    | _ => cases hstark
  exact ⟨stark', hstark', fri', hfri', js', hjs', bound, checked_varies hinFri rfl hbound, layers,
    hlayers', cosets, unsignedField_varies hinStark rfl hcosets, queries,
    unsignedField_varies hinFri rfl hqueries, bits, unsignedField_varies hinFri rfl hbits, steps,
    Keeps.items keeps_unsigned hvary hsteps, hp⟩

/-- The annotations are kept. -/
lemma annotations_varies {lines : List String} (h : Varies IsForeign (.record fields) j j')
    (hs : fields.lookup "annotations" = some .leaf) (hlines : annotations j = .ok lines) :
    annotations j' = .ok lines := by
  rw [annotations_eq_ok] at hlines ⊢
  have hfield : require j .root "annotations" = .ok (.arr (lines.map .str)) :=
    require_eq_ok.mpr hlines
  obtain ⟨v', hv', hvaries⟩ := require_varies h hs hfield
  rw [require_eq_ok.mp hv']
  cases hvaries with
  | same => rfl
  | alien halien =>
      cases halien with
      | leaf hobject =>
          cases hobject with
          | item hmem hobject =>
              obtain ⟨line, -, rfl⟩ := List.mem_map.mp hmem
              cases hobject

/-- The public input is kept up to segments that do not belong to its vector. -/
lemma publicInput_varies {input : PublicInput} (h : Varies IsForeign .publicInput j j')
    (hinput : (Parsing.publicInput j path).outcome = .ok input) :
    ∃ found, (Parsing.publicInput j' path).outcome = .ok { input with segments := found } ∧
      input.segments.SameKnown found := by
  simp only [Parsing.publicInput, Run.outcome_bind, Run.outcome_liftM, Run.outcome_pure,
    Outcome.bind_ok, Except.ok.injEq] at hinput ⊢
  obtain ⟨n, hn, text, htext, cells, hcells, low, hlow, high, hhigh, v, hv, found, hfound, rfl⟩ :=
    hinput
  obtain ⟨v', hv', hvaries⟩ := require_varies h rfl hv
  obtain ⟨found', hfound', hsame⟩ := segments_varies hvaries hfound
  exact ⟨found', ⟨n, checked_varies h rfl hn, text, layout_varies h rfl htext, cells,
    memory_varies h rfl hcells, low, unsignedField_varies h rfl hlow, high,
    unsignedField_varies h rfl hhigh, v', hv', found', hfound', rfl⟩, hsame⟩

end Decoders

/-! ### The whole document -/

/-- **A document is read in the same way when it varies**, up to segments that do not belong to the
vector of the public input. -/
theorem AnnotatedProof.ofJson_varies {j j' : Json} {proof : AnnotatedProof}
    (h : Varies IsForeign readProof j j') (hproof : (ofJson j).outcome = .ok proof) :
    ∃ found, (ofJson j').outcome = .ok (proof.withSegments found) ∧
      proof.publicInput.segments.SameKnown found := by
  simp only [ofJson, Run.outcome_bind, Run.outcome_liftM, Run.outcome_pure, Outcome.bind_ok,
    Except.ok.injEq] at hproof ⊢
  obtain ⟨lines, hlines, v, hv, bytes, hbytes, w, hw, input, hinput, x, hx, params, hparams, rfl⟩ :=
    hproof
  obtain ⟨v', hv', hvaries⟩ := require_varies h rfl hv
  obtain ⟨w', hw', hwaries⟩ := require_varies h rfl hw
  obtain ⟨x', hx', hxaries⟩ := require_varies h rfl hx
  obtain ⟨found, hinput', hsame⟩ := publicInput_varies hwaries hinput
  exact ⟨found, ⟨lines, annotations_varies h rfl hlines, v', hv', bytes,
    (keeps_proofBytes _).kept hvaries hbytes, w', hw', _, hinput', x', hx', params,
    (keeps_parameters _).kept hxaries hparams, rfl⟩, hsame⟩

end StarkCalldata
