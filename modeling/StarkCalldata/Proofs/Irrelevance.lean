import StarkCalldata.Proofs.Preparation
import StarkCalldata.Proofs.Proof.Variation
import StarkCalldata.Proofs.SelfConsistency
import StarkCalldata.Proofs.Taxonomy

/-!
Irrelevant content of a document has no effect.

The fields of the objects of a proof document may stand in any order, there may be fields that are
not read, and segments whose names do not belong to the vector of the public input. Two documents
that differ in nothing else are read as proofs that differ in such segments alone. From there on,
segments are asked for by name, and only by names that belong to the vector, so both runs are one:

* `IsVaried`: a change of irrelevant content of a proof document;
* `document_withSegments`: segments that do not belong to the vector have no effect;
* `irrelevant_content_without_effect`: documents that differ in irrelevant content.
-/

namespace StarkCalldata

open Memory Preparation

variable {proof : AnnotatedProof} {topologies : Option (List FactTopology)} {config : Config}
  {found found' : Segments}

/-! ### Segments by name -/

lemma Segments.SameKnown.knownSegmentWords_eq (h : found.SameKnown found') :
    PublicInput.knownSegmentWords found' = PublicInput.knownSegmentWords found := by
  rw [PublicInput.knownSegmentWords, PublicInput.knownSegmentWords, List.filterMap_congr h]

lemma Segments.SameKnown.programOutput_eq (h : found.SameKnown found') (memory : List Cell) :
    programOutput found' memory = programOutput found memory := by
  rw [programOutput, programOutput, h "output" (by decide)]

lemma groundwork_withSegments (h : proof.publicInput.segments.SameKnown found) :
    groundwork (proof.withSegments found) config = groundwork proof config := by
  simp only [groundwork, PublicInput.outcome_seed, PublicInput.openingWords,
    AnnotatedProof.withSegments, h.knownSegmentWords_eq]

lemma completion_withSegments (h : proof.publicInput.segments.SameKnown found) (facts : PageFacts)
    (seed : List Entry) (c : Challenges) :
    completion (proof.withSegments found) topologies config facts seed c =
      completion proof topologies config facts seed c := by
  simp only [completion, TaskMetadata.build, AnnotatedProof.withSegments, h.programOutput_eq]
  rfl

/-- **Segments that do not belong to the vector have no effect** on the document of a proof. -/
theorem document_withSegments (h : proof.publicInput.segments.SameKnown found) :
    document (proof.withSegments found) topologies config = document proof topologies config := by
  rw [document, document, outcome_prepare, outcome_prepare, groundwork_withSegments h]
  simp only [completion_withSegments h]
  rfl

/-! ### Documents -/

/-- A change of irrelevant content of a proof document, made at one place: an object has its fields
in another order, or one more field that is not read, or the segments have one more that does not
belong to the vector. -/
def IsVaried : Json → Json → Prop :=
  Json.Rewrites (Schema.readProof.Irrelevant IsForeign) .root

/-- **Irrelevant content has no effect.** However often the document of a proof is changed in its
irrelevant content, it is still read as a proof, and whatever the topologies and the configuration
are, the outcome of the preparation and the encoding is the same. -/
theorem irrelevant_content_without_effect {j j' : Json}
    (h : (AnnotatedProof.ofJson j).outcome = .ok proof)
    (hvaried : Relation.ReflTransGen IsVaried j j') :
    ∃ proof', (AnnotatedProof.ofJson j').outcome = .ok proof' ∧ ∀ topologies config,
      document proof' topologies config = document proof topologies config := by
  induction hvaried with
  | refl => exact ⟨proof, h, fun _ _ => rfl⟩
  | tail _ hstep ih =>
      obtain ⟨proof', hproof', hsame⟩ := ih
      obtain ⟨found, hfound, hknown⟩ :=
        AnnotatedProof.ofJson_varies (Schema.varies_of_rewrites hstep .root) hproof'
      exact ⟨_, hfound, fun topologies config =>
        (document_withSegments hknown).trans (hsame topologies config)⟩

/-- The fields of the public input of the short proof in front of its segments. -/
def shortInputFields : List (String × Json) :=
  [("n_steps", .int 16), ("layout", .str "tiny"),
    ("public_memory", .arr (shortProof.publicInput.memory.map Cell.toJson)), ("rc_min", .int 0),
    ("rc_max", .int 9)]

/-- The fields of the document of the short proof, with these segments. -/
def shortFields (segments : List (String × Json)) : List (String × Json) :=
  [("annotations", .arr []), ("proof_hex",
      .str (String.ofList ('0' :: 'x' :: Text.bytesHex shortProof.bytes))),
    ("public_input", .obj (shortInputFields ++ [("memory_segments", .obj segments)])),
    ("proof_parameters", shortProof.parameters.toJson)]

/-- A segment under a name that does not belong to the vector. -/
def customSegment : String × Json := ("custom", .obj [("begin_addr", .int 3), ("stop_ptr", .int 9)])

/-- The document of the short proof with one more segment, one more field, and its fields in the
reverse order, says the same as before. -/
theorem shortFields_varied : ∃ proof', (AnnotatedProof.ofJson (.obj
      (shortFields [customSegment] ++ [("version", Json.int 2)]).reverse)).outcome = .ok proof' ∧
    document proof' none {} = .ok shortDocument.toJson := by
  have hread : (AnnotatedProof.ofJson (.obj (shortFields []))).outcome = .ok shortProof :=
    AnnotatedProof.ofJson_toJson isWellFormed_shortProof
  have hforeign : IsForeign customSegment.1 customSegment.2 :=
    ⟨by decide, 3, 9, rfl, by decide, rfl, by decide⟩
  have hinput : Schema.readProof.Reaches (Path.root.key "public_input") .publicInput :=
    .field .root rfl
  have hjoined : IsVaried (.obj (shortFields [])) (.obj (shortFields [customSegment])) :=
    @Json.Rewrites.field _ _ _ _ _ [_, _] _ (@Json.Rewrites.field _ _ _ _ _ shortInputFields _
      (.here (.joined (.field hinput rfl) rfl hforeign)))
  have hunread : IsVaried (.obj (shortFields [customSegment]))
      (.obj (shortFields [customSegment] ++ [("version", Json.int 2)])) :=
    .here (.unread .root rfl rfl)
  have hpermuted : IsVaried (.obj (shortFields [customSegment] ++ [("version", Json.int 2)]))
      (.obj (shortFields [customSegment] ++ [("version", Json.int 2)]).reverse) :=
    .here (.permuted (by decide) (List.reverse_perm _).symm)
  obtain ⟨proof', hproof', hsame⟩ := irrelevant_content_without_effect hread
    (((Relation.ReflTransGen.single hjoined).tail hunread).tail hpermuted)
  exact ⟨proof', hproof', (hsame none {}).trans document_shortProof⟩

end StarkCalldata
