import StarkCalldata.Proofs.Document
import StarkCalldata.Proofs.Proof.WellFormed

/-!
Proofs written as documents.

A proof is written with its numbers as integers, the values of its cells in hexadecimal and its
bytes as pairs of digits. Whatever passes the checks of the decoders comes back from this document
as it was:

* `AnnotatedProof.toJson`: the document of a proof, part by part;
* `Text.hexBytes?_bytesHex`: bytes come back from their digits;
* `AnnotatedProof.ofJson_toJson`: a well-formed proof comes back from its document.
-/

namespace StarkCalldata

open Text Memory

/-! ### Writing -/

/-- A cell of public memory. -/
def Memory.Cell.toJson (c : Cell) : Json :=
  .obj [("page", .int c.page), ("address", .int c.address), ("value", .str (hexLiteral c.value))]

/-- A segment. -/
def Segment.toJson (s : Segment) : Json :=
  .obj [("begin_addr", .int s.start), ("stop_ptr", .int s.stop)]

/-- A public input. -/
def PublicInput.toJson (input : PublicInput) : Json :=
  .obj [("n_steps", .int input.steps), ("layout", .str input.layout),
    ("public_memory", .arr (input.memory.map Cell.toJson)), ("rc_min", .int input.rangeMin),
    ("rc_max", .int input.rangeMax),
    ("memory_segments", .obj (input.segments.map fun s => (s.1, s.2.toJson)))]

/-- The parameters of the low-degree test. -/
def ProofParameters.friJson (p : ProofParameters) : Json :=
  .obj [("fri_step_list", .arr (p.friSteps.map .int)),
    ("last_layer_degree_bound", .int p.lastLayerDegreeBound), ("n_queries", .int p.queries),
    ("proof_of_work_bits", .int p.proofOfWorkBits)]

/-- The parameters of the proof system. -/
def ProofParameters.starkJson (p : ProofParameters) : Json :=
  .obj [("log_n_cosets", .int p.logCosets), ("fri", p.friJson)]

/-- The parameters of a proof; the number of friendly layers is null if the proof does not say
it. -/
def ProofParameters.toJson (p : ProofParameters) : Json :=
  .obj [("stark", p.starkJson),
    ("n_verifier_friendly_commitment_layers", (p.friendlyLayers.map Json.int).getD .null)]

/-- The document of a proof. -/
def AnnotatedProof.toJson (proof : AnnotatedProof) : Json :=
  .obj [("annotations", .arr (proof.annotations.map .str)),
    ("proof_hex", .str (String.ofList ('0' :: 'x' :: bytesHex proof.bytes))),
    ("public_input", proof.publicInput.toJson), ("proof_parameters", proof.parameters.toJson)]

/-! ### Bytes -/

lemma Text.hexPadded_of_lt {n : ℕ} (h : n < 256) :
    hexPadded 2 n = [Nat.digitChar (n / 16), Nat.digitChar (n % 16)] := by
  rw [hexPadded_succ one_pos, hexPadded_one (by omega)]
  rfl

/-- Bytes come back from their digits. -/
theorem Text.hexBytes?_bytesHex (bytes : List UInt8) : hexBytes? (bytesHex bytes) = some bytes := by
  induction bytes with
  | nil => rfl
  | cons b bytes ih =>
      have hb : b.toNat < 256 := b.toNat_lt
      have hhigh : hexDigit? (Nat.digitChar (b.toNat / 16)) = some (b.toNat / 16) :=
        hexDigit?_digitChar (by omega)
      have hlow : hexDigit? (Nat.digitChar (b.toNat % 16)) = some (b.toNat % 16) :=
        hexDigit?_digitChar (by omega)
      have hbyte : UInt8.ofNat (16 * (b.toNat / 16) + b.toNat % 16) = b := by
        rw [Nat.div_add_mod]
        exact UInt8.ofNat_toNat
      have hrest : hexBytes? (bytes.flatMap fun b => hexPadded 2 b.toNat) = some bytes := ih
      rw [bytesHex, List.flatMap_cons, hexPadded_of_lt hb]
      simp only [List.cons_append, List.nil_append, hexBytes?, hhigh, hlow, hrest,
        Option.bind_eq_bind, Option.bind_some, hbyte]
      rfl

lemma Text.length_bytesHex (bytes : List UInt8) : (bytesHex bytes).length = 2 * bytes.length := by
  have hlength (b : UInt8) : (hexPadded 2 b.toNat).length = 2 := by
    rw [hexPadded_of_lt b.toNat_lt]
    rfl
  simp [bytesHex, List.length_flatMap, hlength, mul_comm]

/-! ### Reading what was written -/

namespace Decoding

variable {α : Type} {path : Path} {n : ℤ}

lemma unsigned_int (h : 0 ≤ n) : unsigned (.int n) path = .ok n := by
  have hnot : ¬ n < 0 := by omega
  rw [unsigned, if_neg hnot]

lemma unsignedField_int {j : Json} {name : String} (hfield : require j path name = .ok (.int n))
    (h : 0 ≤ n) : unsignedField j path name = .ok n :=
  Outcome.bind_eq_ok.mpr ⟨_, hfield, unsigned_int h⟩

lemma address_int (h : Field.IsCanonical n) : address (.int n) path = .ok n :=
  Outcome.bind_eq_ok.mpr ⟨n, unsigned_int h.1, if_pos h.2⟩

lemma fieldElement_hexLiteral (h : Field.IsCanonical n) :
    fieldElement (.str (hexLiteral n)) path = .ok n := by
  obtain ⟨m, rfl⟩ := Int.eq_ofNat_of_zero_le h.1
  rw [fieldElement]
  simp only [hexNumber?_hexLiteral]
  exact Outcome.bind_eq_ok.mpr ⟨_, rfl, if_pos h.2⟩

lemma items_map {decode : Json → Path → Except Fault α} {write : α → Json} {parent : Path} {i : ℕ}
    {as : List α} (h : ∀ a ∈ as, ∀ path, decode (write a) path = .ok a) :
    items decode parent i (as.map write) = .ok as := by
  induction as generalizing i with
  | nil => rfl
  | cons a as ih =>
      obtain ⟨ha, has⟩ := List.forall_mem_cons.mp h
      rw [List.map_cons, items, ha, ih has]
      rfl

lemma fillWord_of_dvd {bytes : List UInt8} (h : Word.size ∣ bytes.length) :
    fillWord bytes = bytes := by
  rw [fillWord, Nat.mod_eq_zero_of_dvd h]
  simp

lemma proofBytes_bytesHex {bytes : List UInt8} (h : Word.size ∣ bytes.length) :
    proofBytes (.str (String.ofList ('0' :: 'x' :: bytesHex bytes))) path = .ok bytes := by
  simp [proofBytes, dropHexMark, length_bytesHex, hexBytes?_bytesHex, fillWord_of_dvd h]

end Decoding

namespace Parsing

open Decoding

variable {path : Path}

lemma memoryCell_toJson {c : Cell} (hpage : 0 ≤ c.page)
    (hcell : Field.IsCanonical c.address ∧ Field.IsCanonical c.value) :
    memoryCell c.toJson path = .ok c := by
  simp [memoryCell, Cell.toJson, unsignedField, require, Json.field?, List.lookup_cons,
    unsigned_int hpage, address_int hcell.1, fieldElement_hexLiteral hcell.2, bind, Except.bind,
    pure, Except.pure]

/-- Segments without negative addresses come back. -/
lemma segmentFields_map {found : Segments} (h : ∀ s ∈ found, 0 ≤ s.2.start ∧ 0 ≤ s.2.stop) :
    segmentFields path (found.map fun s => (s.1, s.2.toJson)) = .ok found := by
  induction found with
  | nil => rfl
  | cons s found ih =>
      obtain ⟨⟨hstart, hstop⟩, hfound⟩ := List.forall_mem_cons.mp h
      have hsegment : segment s.2.toJson (path.key s.1) = .ok s.2 := by
        simp [segment, Segment.toJson, unsignedField, require, Json.field?, List.lookup_cons,
          unsigned_int hstart, unsigned_int hstop, bind, Except.bind, pure, Except.pure]
      rw [List.map_cons, segmentFields, hsegment, ih hfound]
      rfl

lemma layout_str {fields : List (String × Json)} {name : String}
    (hfield : require (.obj fields) path "layout" = .ok (.str name))
    (hascii : name.toList.all isAscii = true) (hlength : name.toList.length ≤ Word.size) :
    layout (.obj fields) path = .ok name := by
  have hnot : ¬ name.toList.length > Word.size := by omega
  rw [layout]
  refine Outcome.bind_eq_ok.mpr ⟨_, hfield, ?_⟩
  simp only [hascii, Bool.not_true, Bool.false_eq_true, if_false, if_neg hnot, Outcome.pure_eq_ok]

/-- Cells that pass the checks come back. -/
lemma memory_arr {fields : List (String × Json)} {cells : List Cell}
    (hfield : require (.obj fields) path "public_memory" = .ok (.arr (cells.map Cell.toJson)))
    (hne : cells ≠ []) (hpage : ∀ c ∈ cells, 0 ≤ c.page)
    (hcells : ∀ c ∈ cells, Field.IsCanonical c.address ∧ Field.IsCanonical c.value) :
    memory (.obj fields) path = .ok cells := by
  have hitems : items memoryCell (path.key "public_memory") 0 (cells.map Cell.toJson) = .ok cells :=
    items_map fun c hc path => memoryCell_toJson (hpage c hc) (hcells c hc)
  rw [memory]
  refine Outcome.bind_eq_ok.mpr ⟨_, hfield, ?_⟩
  cases cells with
  | nil => exact absurd rfl hne
  | cons c cells => exact hitems

lemma steps_int {fields : List (String × Json)} {n : ℤ}
    (hfield : require (.obj fields) path "n_steps" = .ok (.int n)) (h : 0 < n) :
    steps (.obj fields) path = .ok n := by
  have hne : n ≠ 0 := by omega
  exact Outcome.bind_eq_ok.mpr ⟨n, unsignedField_int hfield h.le, if_neg hne⟩

lemma outcome_segments_map {found : Segments}
    (h : ∀ s ∈ found, 0 ≤ s.2.start ∧ 0 ≤ s.2.stop) :
    (segments (.obj (found.map fun s => (s.1, s.2.toJson))) path).outcome = .ok found := by
  rw [outcome_segments, segmentFields_map h]

/-- A well-formed public input comes back. -/
lemma publicInput_toJson {input : PublicInput} (h : input.IsWellFormed) :
    (publicInput input.toJson path).outcome = .ok input := by
  have hsteps : steps input.toJson path = .ok input.steps := steps_int rfl h.steps_pos
  have hlayout : layout input.toJson path = .ok input.layout :=
    layout_str rfl h.layout_ascii h.length_layout
  have hmemory : memory input.toJson path = .ok input.memory :=
    memory_arr rfl h.memory_ne_nil h.page_nonneg h.canonical
  have hmin : unsignedField input.toJson path "rc_min" = .ok input.rangeMin :=
    unsignedField_int rfl h.rangeMin_nonneg
  have hmax : unsignedField input.toJson path "rc_max" = .ok input.rangeMax :=
    unsignedField_int rfl h.rangeMax_nonneg
  have hfield : require input.toJson path "memory_segments" =
      .ok (.obj (input.segments.map fun s => (s.1, s.2.toJson))) := rfl
  simp only [publicInput, Run.outcome_bind, Run.outcome_liftM, Run.outcome_pure, hsteps, hlayout,
    hmemory, hmin, hmax, hfield, Except.bind, outcome_segments_map h.segments_nonneg]

lemma lastLayer_int {fri : Json} {n : ℤ}
    (hfield : require fri path "last_layer_degree_bound" = .ok (.int n)) (h : 0 < n) :
    lastLayer fri path = .ok n := by
  have hne : n ≠ 0 := by omega
  exact Outcome.bind_eq_ok.mpr ⟨n, unsignedField_int hfield h.le, if_neg hne⟩

lemma friendlyLayers_toJson {p : ProofParameters} (h : ∀ n ∈ p.friendlyLayers, 0 ≤ n) :
    friendlyLayers p.toJson path = .ok p.friendlyLayers := by
  have hfield : p.toJson.get? "n_verifier_friendly_commitment_layers" =
      some ((p.friendlyLayers.map Json.int).getD .null) := rfl
  rw [friendlyLayers]
  simp only [hfield]
  cases hlayers : p.friendlyLayers with
  | none => rfl
  | some n => exact Outcome.bind_eq_ok.mpr ⟨n, unsigned_int (h n hlayers), rfl⟩

/-- Well-formed parameters come back. -/
lemma parameters_toJson {p : ProofParameters} (h : p.IsWellFormed) :
    parameters p.toJson path = .ok p := by
  have hstark : require p.toJson path "stark" = .ok p.starkJson := rfl
  have hfri (place : Path) : require p.starkJson place "fri" = .ok p.friJson := rfl
  have hlist (place : Path) : listField p.friJson place "fri_step_list" =
      .ok (p.friSteps.map .int) := rfl
  have hbound (place : Path) : lastLayer p.friJson place = .ok p.lastLayerDegreeBound :=
    lastLayer_int rfl h.lastLayer_pos
  have hcosets (place : Path) : unsignedField p.starkJson place "log_n_cosets" = .ok p.logCosets :=
    unsignedField_int rfl h.logCosets_nonneg
  have hqueries (place : Path) : unsignedField p.friJson place "n_queries" = .ok p.queries :=
    unsignedField_int rfl h.queries_nonneg
  have hbits (place : Path) :
      unsignedField p.friJson place "proof_of_work_bits" = .ok p.proofOfWorkBits :=
    unsignedField_int rfl h.proofOfWorkBits_nonneg
  have hsteps (place : Path) : items unsigned place 0 (p.friSteps.map .int) = .ok p.friSteps :=
    items_map fun n hn _ => unsigned_int (h.friSteps_nonneg n hn)
  simp only [parameters, hstark, hfri, hlist, hbound, friendlyLayers_toJson h.layers_nonneg,
    hcosets, hqueries, hbits, hsteps, bind, Except.bind, pure, Except.pure]

/-- Texts are read from strings. -/
lemma mapM_string?_eq_some {items : List Json} {lines : List String} :
    items.mapM string? = some lines ↔ items = lines.map .str := by
  constructor
  · intro h
    induction items generalizing lines with
    | nil =>
        cases h
        rfl
    | cons item items ih =>
        simp only [List.mapM_cons, Option.bind_eq_bind, Option.bind_eq_some_iff, Option.pure_def,
          Option.some_inj] at h
        obtain ⟨text, htext, texts, htexts, rfl⟩ := h
        cases item with
        | str s =>
            cases htext
            rw [ih htexts, List.map_cons]
        | _ => cases htext
  · rintro rfl
    exact Document.mapM_map_eq_some (fun line => (rfl : string? (.str line) = some line)) lines

/-- Annotations are a list of strings. -/
lemma annotations_eq_ok {j : Json} {lines : List String} :
    annotations j = .ok lines ↔ j.get? "annotations" = some (.arr (lines.map .str)) := by
  rw [← @require_eq_ok _ _ .root]
  constructor
  · intro h
    obtain ⟨v, hv, h⟩ := Outcome.bind_eq_ok.mp h
    cases v with
    | arr items =>
        simp only at h
        split at h
        · rename_i texts htexts
          cases h
          rw [hv, mapM_string?_eq_some.mp htexts]
        · cases h
    | _ => cases h
  · intro h
    refine Outcome.bind_eq_ok.mpr ⟨_, h, ?_⟩
    simp only [mapM_string?_eq_some.mpr rfl, Outcome.pure_eq_ok]

end Parsing

/-- **A well-formed proof comes back from its document.** -/
theorem AnnotatedProof.ofJson_toJson {proof : AnnotatedProof} (h : proof.IsWellFormed) :
    (ofJson proof.toJson).outcome = .ok proof := by
  have hlines : Parsing.annotations proof.toJson = .ok proof.annotations :=
    Parsing.annotations_eq_ok.mpr rfl
  have hbytes (path : Path) : Decoding.proofBytes
      (.str (String.ofList ('0' :: 'x' :: bytesHex proof.bytes))) path = .ok proof.bytes :=
    Decoding.proofBytes_bytesHex h.bytes_whole
  have hhex : Decoding.require proof.toJson .root "proof_hex" =
      .ok (.str (String.ofList ('0' :: 'x' :: bytesHex proof.bytes))) := rfl
  have hinput : Decoding.require proof.toJson .root "public_input" =
      .ok proof.publicInput.toJson := rfl
  have hparameters : Decoding.require proof.toJson .root "proof_parameters" =
      .ok proof.parameters.toJson := rfl
  simp only [ofJson, Run.outcome_bind, Run.outcome_liftM, Run.outcome_pure, hlines, hhex, hbytes,
    hinput, hparameters, Except.bind, Parsing.publicInput_toJson h.input,
    Parsing.parameters_toJson h.parameters]

end StarkCalldata
