import StarkCalldata.Proofs.Proof.Image

/-!
A single harm to a document is reported at its place.

A document that is accepted conforms to the schema of annotated proofs. A harm done to it at one
place that the schema leads to makes it refused, and the refusal can only name this place: every
part of the document is read as before until the harm is met. So each decoder has two duties, put
together in `Decodes`: what it accepts conforms to its schema, and once it has accepted a value,
whatever it reports of the harmed value is the harm.

* `Schema.proof`: what is read of the document of a proof;
* `Altered`: a value, or the same value with a harm;
* `failsWith_require`, `altered_of_require`: fields of harmed objects;
* `Decodes`: the two duties of a decoder, for each part of a document;
* `single_harm_located`: a harmed document is refused, and the refusal names the harm.
-/

namespace StarkCalldata

/-! ### What is read -/

namespace Schema

/-- A cell of public memory. -/
def cell : Schema := .record [("page", .leaf), ("address", .leaf), ("value", .leaf)]

/-- A segment. -/
def segment : Schema := .record [("begin_addr", .leaf), ("stop_ptr", .leaf)]

/-- The public input. -/
def publicInput : Schema := .record [("n_steps", .leaf), ("layout", .leaf),
  ("public_memory", .list cell), ("rc_min", .leaf), ("rc_max", .leaf),
  ("memory_segments", .dict segment)]

/-- The parameters of the low-degree test. -/
def fri : Schema := .record [("fri_step_list", .list .leaf), ("last_layer_degree_bound", .leaf),
  ("n_queries", .leaf), ("proof_of_work_bits", .leaf)]

/-- The parameters of the proof system. -/
def stark : Schema := .record [("fri", fri), ("log_n_cosets", .leaf)]

/-- The parameters of a proof. -/
def parameters : Schema := .record [("stark", stark)]

/-- An annotated proof. The annotations are read as a whole. -/
def proof : Schema := .record [("annotations", .leaf), ("proof_hex", .leaf),
  ("public_input", publicInput), ("proof_parameters", parameters)]

end Schema

open Schema Decoding Parsing Memory

/-! ### Harmed values -/

/-- A fault blames a harm: it is a malformed proof at the place of the harm, and a field that was
taken away is called missing. -/
def Damage.Blames (damage : Damage) (place : Path) (fault : Fault) : Prop :=
  ∃ d, fault = .malformedProof place.render d ∧ (damage = .erased → d = .missingField)

/-- A value, or the same value with a harm. -/
inductive Altered (place : Path) (damage : Damage) (s : Schema) (path : Path) : Json → Json → Prop
  | same (j : Json) : Altered place damage s path j j
  | harmed {j : Json} {g : Json → Json} :
      Harms place damage s path j g → Altered place damage s path j (g j)

/-- What a decoder owes to a schema: it accepts only what conforms, and after it has accepted a
value it reports nothing of the harmed value but the harm. -/
structure Decodes {α : Type} (s : Schema) (path : Path) (decode : Json → Except Fault α) :
    Prop where
  conforms : ∀ {j a}, decode j = .ok a → s.Conforms j
  blames : ∀ {place damage j g a}, place ≠ .root → Harms place damage s path j g →
    decode j = .ok a → FailsWith (damage.Blames place) (decode (g j))

section Fields

variable {α : Type} {place path : Path} {damage : Damage} {s : Schema} {name : String}
  {fields : List (String × Schema)} {decode : Json → Except Fault α} {j j' v v' : Json}
  {g : Json → Json} {a : α}

lemma Damage.blames_nulled (place : Path) (d : Defect) :
    Damage.nulled.Blames place (.malformedProof place.render d) :=
  ⟨d, rfl, fun h => by cases h⟩

lemma Path.place_eq (h : path ≠ .root) : path.place = path.render := by
  cases path with
  | root => exact absurd rfl h
  | _ => rfl

lemma Altered.leaf_cases (h : Altered place damage .leaf path j j') :
    j' = j ∨ j' = .null := by
  cases h with
  | same => exact .inl rfl
  | harmed h =>
      cases h
      exact .inr rfl

lemma require_eq_missing {entries : List (String × Json)} (h : j.get? name = none)
    (hj : j = .obj entries) :
    require j path name = .error (.malformedProof (path.key name).render .missingField) := by
  subst hj
  simp only [require, show Json.field? entries name = none from h, defect]

/-- A field of a harmed object is found, or the harm is blamed. -/
lemma failsWith_require (hplace : place ≠ .root)
    (h : Altered place damage (.record fields) path j j') (hv : require j path name = .ok v) :
    FailsWith (damage.Blames place) (require j' path name) := by
  cases h with
  | same => exact .of_ok hv
  | harmed h =>
      rw [require_eq_ok] at hv
      cases h with
      | nulled =>
          have hnull :
              require .null place name = .error (.malformedProof place.place .notAnObject) := rfl
          rw [hnull, Path.place_eq hplace]
          exact .error (Damage.blames_nulled place _)
      | @erased _ entries _ name' _ hpath _ =>
          -- the missing field may be another one than the one that is required
          have hget := Json.get?_eraseField (.obj entries) name' name
          split_ifs at hget with hname
          · rw [require_eq_missing hget rfl, hname, ← hpath]
            exact .error ⟨_, rfl, fun _ => rfl⟩
          · exact .of_ok (require_eq_ok.mpr (hget.trans hv))
      | @field _ _ entries _ name' _ _ g _ _ _ =>
          have hget := Json.get?_inField (.obj entries) name' name g
          split_ifs at hget with hname
          · rw [hv] at hget
            exact .of_ok (require_eq_ok.mpr hget)
          · exact .of_ok (require_eq_ok.mpr (hget.trans hv))

/-- The value of a field of a harmed object is the former one, or that one with the harm. -/
lemma altered_of_require (h : Altered place damage (.record fields) path j j')
    (hs : fields.lookup name = some s) (hv : require j path name = .ok v)
    (hv' : require j' path name = .ok v') : Altered place damage s (path.key name) v v' := by
  rw [require_eq_ok] at hv hv'
  have same (h : j'.get? name = j.get? name) : Altered place damage s (path.key name) v v' := by
    rw [hv, hv'] at h
    cases h
    exact .same v
  cases h with
  | same => exact same rfl
  | harmed h =>
      cases h with
      | nulled => cases hv'
      | @erased _ entries _ name' _ _ _ =>
          have hget := Json.get?_eraseField (.obj entries) name' name
          split_ifs at hget with hname
          · rw [hv'] at hget
            cases hget
          · exact same hget
      | @field _ _ entries _ name' s' w g hs' hw hharm =>
          have hget := Json.get?_inField (.obj entries) name' name g
          split_ifs at hget with hname
          · subst hname
            cases (Option.some.inj (hs.symm.trans hs') : s = s')
            cases (Option.some.inj (hv.symm.trans hw) : v = w)
            rw [hv', hv] at hget
            cases (Option.some.inj hget : v' = g v)
            exact .harmed hharm
          · exact same hget

/-- A harmed object keeps the fields of which the schema says nothing, unless it becomes null. -/
lemma get?_of_altered (h : Altered place damage (.record fields) path j j')
    (hname : fields.lookup name = none) : j'.get? name = j.get? name ∨ j' = .null := by
  have hne {name' : String} {s : Schema} (hs : fields.lookup name' = some s) : name ≠ name' := by
    rintro rfl
    rw [hname] at hs
    cases hs
  cases h with
  | same => exact .inl rfl
  | harmed h =>
      cases h with
      | nulled => exact .inr rfl
      | erased _ hs => exact .inl (by rw [Json.get?_eraseField, if_neg (hne hs)])
      | field hs _ _ => exact .inl (by rw [Json.get?_inField, if_neg (hne hs)])

namespace Decodes

lemma leaf (h : ∃ d, decode .null = .error (.malformedProof path.render d)) :
    Decodes .leaf path decode := by
  obtain ⟨d, hd⟩ := h
  refine ⟨fun {j a} ha => .leaf ?_, fun {place damage j g a} _ hharm _ => ?_⟩
  · rintro rfl
    rw [hd] at ha
    cases ha
  · cases hharm
    rw [hd]
    exact .error (Damage.blames_nulled path d)

lemma of_altered (hdecode : Decodes s path decode) (hplace : place ≠ .root)
    (h : Altered place damage s path j j') (ha : decode j = .ok a) :
    FailsWith (damage.Blames place) (decode j') := by
  cases h with
  | same => exact .of_ok ha
  | harmed h => exact hdecode.blames hplace h ha

lemma exists_error (hdecode : Decodes s path decode) (hplace : place ≠ .root)
    (h : Harms place damage s path j g) (ha : decode j = .ok a) :
    ∃ f, decode (g j) = .error f ∧ damage.Blames place f := by
  cases hresult : decode (g j) with
  -- that only the harm is blamed does not exclude that nothing is: this is where conformance is used
  | ok b => exact absurd (hdecode.conforms hresult) h.not_conforms
  | error f => exact ⟨f, rfl, hdecode.blames hplace h ha f hresult⟩

lemma conforms_field (hdecode : Decodes s (path.key name) decode)
    (ha : (require j path name).bind decode = .ok a) :
    ∃ v, j.get? name = some v ∧ s.Conforms v := by
  obtain ⟨v, hv, ha⟩ := Outcome.bind_ok.mp ha
  exact ⟨v, require_eq_ok.mp hv, hdecode.conforms ha⟩

lemma failsWith_field (hdecode : Decodes s (path.key name) decode) (hplace : place ≠ .root)
    (h : Altered place damage (.record fields) path j j') (hs : fields.lookup name = some s)
    (ha : (require j path name).bind decode = .ok a) :
    FailsWith (damage.Blames place) ((require j' path name).bind decode) := by
  obtain ⟨v, hv, ha⟩ := Outcome.bind_ok.mp ha
  exact (failsWith_require hplace h hv).bind fun v' hv' =>
    hdecode.of_altered hplace (altered_of_require h hs hv hv') ha

lemma failsWith_field_then {β : Type} {k : α → Except Fault β}
    (hdecode : Decodes s (path.key name) decode) (hplace : place ≠ .root)
    (h : Altered place damage (.record fields) path j j') (hs : fields.lookup name = some s)
    (hv : require j path name = .ok v) (ha : decode v = .ok a)
    (hk : ∀ b, FailsWith (damage.Blames place) (k b)) :
    FailsWith (damage.Blames place) ((require j' path name).bind fun w => (decode w).bind k) :=
  (failsWith_require hplace h hv).bind fun _ hv' =>
    (hdecode.of_altered hplace (altered_of_require h hs hv hv') ha).bind fun b _ => hk b

end Decodes

end Fields

/-! ### The decoders -/

namespace Parsing

variable {α : Type} {place path : Path} {damage : Damage} {s : Schema} {name : String}
  {fields : List (String × Schema)} {j j' : Json}

lemma decodes_unsigned (path : Path) : Decodes .leaf path (unsigned · path) := .leaf ⟨_, rfl⟩

lemma decodes_address (path : Path) : Decodes .leaf path (address · path) := .leaf ⟨_, rfl⟩

lemma decodes_fieldElement (path : Path) : Decodes .leaf path (fieldElement · path) :=
  .leaf ⟨_, rfl⟩

lemma decodes_proofBytes (path : Path) : Decodes .leaf path (proofBytes · path) := .leaf ⟨_, rfl⟩

/-- A cell has its three fields. -/
lemma decodes_memoryCell (path : Path) : Decodes .cell path (memoryCell · path) where
  conforms h := by
    simp only [memoryCell, Outcome.bind_eq_ok] at h
    obtain ⟨_, hpage, v, hv, _, haddress, w, hw, _, hvalue, -⟩ := h
    exact .of_fields (by simp) ⟨(decodes_unsigned _).conforms_field hpage,
      ⟨v, require_eq_ok.mp hv, (decodes_address _).conforms haddress⟩,
      ⟨w, require_eq_ok.mp hw, (decodes_fieldElement _).conforms hvalue⟩⟩
  blames hplace h hok := by
    simp only [memoryCell, Outcome.bind_eq_ok] at hok
    obtain ⟨_, hpage, v, hv, _, haddress, w, hw, _, hvalue, -⟩ := hok
    refine ((decodes_unsigned _).failsWith_field hplace (.harmed h) rfl hpage).bind fun _ _ => ?_
    refine (decodes_address _).failsWith_field_then hplace (.harmed h) rfl hv haddress fun _ => ?_
    refine (decodes_fieldElement _).failsWith_field_then hplace (.harmed h) rfl hw hvalue
      fun _ => ?_
    exact .ok _

/-- A segment has its two fields. -/
lemma decodes_segment (path : Path) : Decodes .segment path (Parsing.segment · path) where
  conforms h := by
    simp only [Parsing.segment, Outcome.bind_eq_ok] at h
    obtain ⟨_, hstart, _, hstop, -⟩ := h
    exact .of_fields (by simp)
      ⟨(decodes_unsigned _).conforms_field hstart, (decodes_unsigned _).conforms_field hstop⟩
  blames hplace h hok := by
    simp only [Parsing.segment, Outcome.bind_eq_ok] at hok
    obtain ⟨_, hstart, _, hstop, -⟩ := hok
    refine ((decodes_unsigned _).failsWith_field hplace (.harmed h) rfl hstart).bind fun _ _ => ?_
    refine ((decodes_unsigned _).failsWith_field hplace (.harmed h) rfl hstop).bind fun _ _ => ?_
    exact .ok _

lemma conforms_of_items {decode : Json → Path → Except Fault α} {js : List Json} {as : List α}
    {i : ℕ} (hdecode : ∀ path, Decodes s path (decode · path))
    (h : items decode path i js = .ok as) : ∀ j ∈ js, s.Conforms j := by
  induction js generalizing i as with
  | nil => simp
  | cons j js ih =>
      obtain ⟨_, hfirst, h⟩ := Outcome.bind_eq_ok.mp h
      obtain ⟨_, hothers, -⟩ := Outcome.bind_eq_ok.mp h
      exact List.forall_mem_cons.mpr ⟨(hdecode _).conforms hfirst, ih hothers⟩

/-- A harm in an item is blamed when the item is decoded. -/
lemma failsWith_items {decode : Json → Path → Except Fault α} {js : List Json} {as : List α}
    {i k : ℕ} {v : Json} {g : Json → Json} (hdecode : ∀ path, Decodes s path (decode · path))
    (hplace : place ≠ .root) (hv : js[i]? = some v)
    (hharm : Harms place damage s (path.index (k + i)) v g)
    (hok : items decode path k js = .ok as) :
    FailsWith (damage.Blames place) (items decode path k (js.modify i g)) := by
  induction js generalizing i k as with
  | nil => cases hv
  | cons j js ih =>
      obtain ⟨_, hfirst, hok⟩ := Outcome.bind_eq_ok.mp hok
      obtain ⟨_, hothers, -⟩ := Outcome.bind_eq_ok.mp hok
      cases i with
      | zero =>
          cases hv
          refine ((hdecode _).blames hplace hharm hfirst).bind fun _ _ => ?_
          exact (FailsWith.of_ok hothers).bind fun _ _ => .ok _
      | succ i =>
          refine (FailsWith.of_ok hfirst).bind fun _ _ => ?_
          rw [show k + (i + 1) = k + 1 + i by omega] at hharm
          exact (ih hv hharm hothers).bind fun _ _ => .ok _

/-- A harm in a list that is still one is blamed when the items are decoded. -/
lemma failsWith_items_of_altered {decode : Json → Path → Except Fault α} {js js' : List Json}
    {as : List α} (hdecode : ∀ path, Decodes s path (decode · path)) (hplace : place ≠ .root)
    (h : Altered place damage (.list s) path (.arr js) (.arr js'))
    (hok : items decode path 0 js = .ok as) :
    FailsWith (damage.Blames place) (items decode path 0 js') := by
  generalize hj' : Json.arr js' = j' at h
  cases h with
  | same =>
      cases hj'
      exact .of_ok hok
  | harmed hharm =>
      cases hharm with
      | nulled => cases hj'
      | @item _ _ _ i _ _ _ hv hharm =>
          cases hj'
          exact failsWith_items hdecode hplace hv (by rwa [Nat.zero_add]) hok

lemma conforms_of_segmentFields {entries : List (String × Json)} {found : Segments}
    (h : segmentFields path entries = .ok found) : ∀ m ∈ entries, Schema.segment.Conforms m.2 := by
  induction entries generalizing found with
  | nil => simp
  | cons m entries ih =>
      obtain ⟨_, hfirst, h⟩ := Outcome.bind_eq_ok.mp h
      obtain ⟨_, hothers, -⟩ := Outcome.bind_eq_ok.mp h
      exact List.forall_mem_cons.mpr ⟨(decodes_segment _).conforms hfirst, ih hothers⟩

/-- A harm in a segment is blamed when the segment is decoded. -/
lemma failsWith_segmentFields {entries : List (String × Json)} {found : Segments} {v : Json}
    {g : Json → Json} (hplace : place ≠ .root) (hv : Json.field? entries name = some v)
    (hharm : Harms place damage .segment (path.key name) v g)
    (hok : segmentFields path entries = .ok found) :
    FailsWith (damage.Blames place) (segmentFields path
      (entries.map fun m => if m.1 = name then (m.1, g m.2) else m)) := by
  induction entries generalizing found with
  | nil => cases hv
  | cons m entries ih =>
      obtain ⟨k, w⟩ := m
      obtain ⟨_, hfirst, hok⟩ := Outcome.bind_eq_ok.mp hok
      obtain ⟨_, hothers, -⟩ := Outcome.bind_eq_ok.mp hok
      rw [List.map_cons]
      by_cases hk : k = name
      · -- a harmed segment is refused, so a later one of the same name is not decoded
        subst hk
        rw [Json.field?, List.lookup_cons_self] at hv
        cases hv
        obtain ⟨f, hf, hblames⟩ := (decodes_segment _).exists_error hplace hharm hfirst
        rw [if_pos rfl, segmentFields, hf]
        exact .error hblames
      · rw [if_neg hk]
        have hlater : Json.field? entries name = some v := by
          have hne : (name == k) = false := by simpa using Ne.symm hk
          rwa [Json.field?, List.lookup_cons, hne] at hv
        refine (FailsWith.of_ok hfirst).bind fun _ _ => ?_
        exact (ih hlater hothers).bind fun _ _ => .ok _

/-- The segments are the fields of an object. -/
lemma decodes_segments (path : Path) :
    Decodes (.dict .segment) path fun j => (segments j path).outcome where
  conforms h := by
    obtain ⟨entries, rfl, hfound⟩ := fields_of_segments h
    exact .dict (conforms_of_segmentFields hfound)
  blames hplace h hok := by
    obtain ⟨entries, rfl, hfound⟩ := fields_of_segments hok
    cases h with
    | nulled => exact .error (Damage.blames_nulled _ _)
    | entry hv hharm =>
        simp only [Json.inField, outcome_segments]
        exact failsWith_segmentFields hplace hv hharm hfound

lemma conforms_memory {cells : List Cell} (h : memory j path = .ok cells) :
    ∃ v, j.get? "public_memory" = some v ∧ (Schema.list .cell).Conforms v := by
  obtain ⟨v, hv, h⟩ := Outcome.bind_eq_ok.mp h
  refine ⟨v, require_eq_ok.mp hv, ?_⟩
  split at h
  · cases h
  · exact .list (conforms_of_items decodes_memoryCell h)
  · cases h

/-- A harm in public memory is blamed. -/
lemma failsWith_memory {cells : List Cell} (hplace : place ≠ .root)
    (h : Altered place damage (.record fields) path j j')
    (hs : fields.lookup "public_memory" = some (.list .cell)) (hok : memory j path = .ok cells) :
    FailsWith (damage.Blames place) (memory j' path) := by
  obtain ⟨v, hv, hok⟩ := Outcome.bind_eq_ok.mp hok
  refine (failsWith_require hplace h hv).bind fun v' hv' => ?_
  cases altered_of_require h hs hv hv' with
  | same => exact .of_ok hok
  | harmed hharm =>
      cases hharm with
      | nulled => exact .error (Damage.blames_nulled _ _)
      | @item _ js _ i _ w g hw hharm =>
          cases js with
          | nil => cases hw
          | cons first others =>
              have hne : (first :: others).modify i g ≠ [] := by simp
              obtain ⟨first', others', hmodified⟩ := List.exists_cons_of_ne_nil hne
              have hfault := failsWith_items decodes_memoryCell hplace hw
                (by rwa [Nat.zero_add]) hok
              rw [hmodified] at hfault
              simpa only [Json.inItem, hmodified] using hfault

lemma conforms_checked {check : ℤ → Except Fault α} {a : α}
    (h : (unsignedField j path name).bind check = .ok a) :
    ∃ v, j.get? name = some v ∧ Schema.leaf.Conforms v := by
  obtain ⟨_, hn, -⟩ := Outcome.bind_ok.mp h
  exact (decodes_unsigned _).conforms_field hn

/-- A harm in an integer that is checked is blamed: the check is met by the former integer only. -/
lemma failsWith_checked {check : ℤ → Except Fault α} {a : α} (hplace : place ≠ .root)
    (h : Altered place damage (.record fields) path j j') (hs : fields.lookup name = some .leaf)
    (hok : (unsignedField j path name).bind check = .ok a) :
    FailsWith (damage.Blames place) ((unsignedField j' path name).bind check) := by
  obtain ⟨n, hn, hcheck⟩ := Outcome.bind_ok.mp hok
  refine ((decodes_unsigned _).failsWith_field hplace h hs hn).bind fun n' hn' => ?_
  obtain ⟨v, hv, hn⟩ := Outcome.bind_eq_ok.mp hn
  obtain ⟨v', hv', hn'⟩ := Outcome.bind_eq_ok.mp hn'
  rcases (altered_of_require h hs hv hv').leaf_cases with rfl | rfl
  · rw [hn] at hn'
    cases hn'
    exact .of_ok hcheck
  · cases hn'

lemma conforms_layout {text : String} (h : layout j path = .ok text) :
    ∃ v, j.get? "layout" = some v ∧ Schema.leaf.Conforms v :=
  Decodes.conforms_field (.leaf ⟨_, rfl⟩) h

/-- A public input has its fields. -/
lemma decodes_publicInput (path : Path) :
    Decodes .publicInput path fun j => (publicInput j path).outcome where
  conforms h := by
    simp only [publicInput, Run.outcome_bind, Run.outcome_liftM, Outcome.bind_ok] at h
    obtain ⟨_, hn, _, hname, _, hcells, _, hlow, _, hhigh, v, hv, _, hfound, -⟩ := h
    exact .of_fields (by simp) ⟨conforms_checked hn, conforms_layout hname, conforms_memory hcells,
      (decodes_unsigned _).conforms_field hlow, (decodes_unsigned _).conforms_field hhigh,
      v, require_eq_ok.mp hv, (decodes_segments _).conforms hfound⟩
  blames hplace h hok := by
    simp only [publicInput, Run.outcome_bind, Run.outcome_liftM, Outcome.bind_ok] at hok ⊢
    obtain ⟨_, hn, _, hname, _, hcells, _, hlow, _, hhigh, v, hv, _, hfound, -⟩ := hok
    refine (failsWith_checked hplace (.harmed h) rfl hn).bind fun _ _ => ?_
    refine FailsWith.bind (Decodes.failsWith_field (.leaf ⟨_, rfl⟩) hplace (.harmed h) rfl hname)
      fun _ _ => ?_
    refine (failsWith_memory hplace (.harmed h) rfl hcells).bind fun _ _ => ?_
    refine ((decodes_unsigned _).failsWith_field hplace (.harmed h) rfl hlow).bind fun _ _ => ?_
    refine ((decodes_unsigned _).failsWith_field hplace (.harmed h) rfl hhigh).bind fun _ _ => ?_
    refine (decodes_segments _).failsWith_field_then hplace (.harmed h) rfl hv hfound fun _ => ?_
    exact .ok _

/-- A list in a field of a harmed object is found, or the harm is blamed. -/
lemma failsWith_listField {js : List Json} (hplace : place ≠ .root)
    (h : Altered place damage (.record fields) path j j')
    (hs : fields.lookup name = some (.list s)) (hok : listField j path name = .ok js) :
    FailsWith (damage.Blames place) (listField j' path name) := by
  rw [listField_eq_ok] at hok
  refine (failsWith_require hplace h hok).bind fun v' hv' => ?_
  cases altered_of_require h hs hok hv' with
  | same => exact .ok _
  | harmed hharm =>
      cases hharm with
      | nulled => exact .error (Damage.blames_nulled _ _)
      | item _ _ => exact .ok _

/-- The number of friendly layers stays in a harmed object. -/
lemma failsWith_friendlyLayers {layers : Option ℤ}
    (h : Altered place damage (.record fields) path j j')
    (hnone : fields.lookup "n_verifier_friendly_commitment_layers" = none)
    (hok : friendlyLayers j path = .ok layers) :
    FailsWith (damage.Blames place) (friendlyLayers j' path) := by
  rcases get?_of_altered h hnone with hget | rfl
  -- the field is optional, so the schema does not lead to it
  · unfold friendlyLayers at hok ⊢
    simp only [hget]
    exact .of_ok hok
  · exact .ok none

/-- The parameters have their fields, three objects deep. -/
lemma decodes_parameters (path : Path) : Decodes .parameters path (Parsing.parameters · path) where
  conforms h := by
    simp only [Parsing.parameters, Outcome.bind_eq_ok] at h
    obtain ⟨stark, hstark, fri, hfri, js, hjs, _, hbound, _, -, _, hcosets, _, hqueries, _, hbits,
      _, hsteps, -⟩ := h
    have hfriConforms : Schema.fri.Conforms fri := by
      exact .of_fields (by simp) ⟨⟨_, require_eq_ok.mp (listField_eq_ok.mp hjs),
          .list (conforms_of_items decodes_unsigned hsteps)⟩, conforms_checked hbound,
        (decodes_unsigned _).conforms_field hqueries, (decodes_unsigned _).conforms_field hbits⟩
    have hstarkConforms : Schema.stark.Conforms stark := by
      exact .of_fields (by simp)
        ⟨⟨fri, require_eq_ok.mp hfri, hfriConforms⟩, (decodes_unsigned _).conforms_field hcosets⟩
    exact .of_fields (by simp) ⟨stark, require_eq_ok.mp hstark, hstarkConforms⟩
  blames hplace h hok := by
    simp only [Parsing.parameters, Outcome.bind_eq_ok] at hok
    obtain ⟨stark, hstark, fri, hfri, js, hjs, _, hbound, _, hlayers, _, hcosets, _, hqueries, _,
      hbits, _, hsteps, -⟩ := hok
    refine (failsWith_require hplace (.harmed h) hstark).bind fun stark' hstark' => ?_
    have hinStark := altered_of_require (.harmed h) rfl hstark hstark'
    refine (failsWith_require hplace hinStark hfri).bind fun fri' hfri' => ?_
    have hinFri := altered_of_require hinStark rfl hfri hfri'
    refine (failsWith_listField hplace hinFri rfl hjs).bind fun js' hjs' => ?_
    refine (failsWith_checked hplace hinFri rfl hbound).bind fun _ _ => ?_
    refine (failsWith_friendlyLayers (.harmed h) rfl hlayers).bind fun _ _ => ?_
    refine ((decodes_unsigned _).failsWith_field hplace hinStark rfl hcosets).bind fun _ _ => ?_
    refine ((decodes_unsigned _).failsWith_field hplace hinFri rfl hqueries).bind fun _ _ => ?_
    refine ((decodes_unsigned _).failsWith_field hplace hinFri rfl hbits).bind fun _ _ => ?_
    have hinSteps :=
      altered_of_require hinFri rfl (listField_eq_ok.mp hjs) (listField_eq_ok.mp hjs')
    exact (failsWith_items_of_altered decodes_unsigned hplace hinSteps hsteps).bind fun _ _ => .ok _

end Parsing

/-! ### The whole document -/

/-- The document of a proof has its four fields. -/
lemma AnnotatedProof.decodes_ofJson : Decodes .proof .root fun j => (ofJson j).outcome where
  conforms h := by
    simp only [ofJson, Run.outcome_bind, Run.outcome_liftM, Outcome.bind_ok] at h
    obtain ⟨_, hlines, v, hv, _, hbytes, w, hw, _, hinput, x, hx, _, hparams, -⟩ := h
    exact .of_fields (by simp) ⟨Decodes.conforms_field (.leaf ⟨_, rfl⟩) hlines,
      ⟨v, require_eq_ok.mp hv, (decodes_proofBytes _).conforms hbytes⟩,
      ⟨w, require_eq_ok.mp hw, (decodes_publicInput _).conforms hinput⟩,
      ⟨x, require_eq_ok.mp hx, (decodes_parameters _).conforms hparams⟩⟩
  blames hplace h hok := by
    simp only [ofJson, Run.outcome_bind, Run.outcome_liftM, Outcome.bind_ok] at hok ⊢
    obtain ⟨_, hlines, v, hv, _, hbytes, w, hw, _, hinput, x, hx, _, hparams, -⟩ := hok
    refine FailsWith.bind (Decodes.failsWith_field (.leaf ⟨_, rfl⟩) hplace (.harmed h) rfl hlines)
      fun _ _ => ?_
    refine (decodes_proofBytes _).failsWith_field_then hplace (.harmed h) rfl hv hbytes fun _ => ?_
    refine (decodes_publicInput _).failsWith_field_then hplace (.harmed h) rfl hw hinput fun _ => ?_
    refine (decodes_parameters _).failsWith_field_then hplace (.harmed h) rfl hx hparams fun _ => ?_
    exact .ok _

/-- **A single harm is reported at its place.** Let a document be accepted, and let a place below
its root be one that is read and that the document has. With null at this place the document is
refused as a malformed proof that names exactly this place; and if the place is a field that must be
there, the document without it is refused under the same name, as one with a missing field. -/
theorem single_harm_located {document : Json} {proof : AnnotatedProof} {place : Path} {s : Schema}
    (h : (AnnotatedProof.ofJson document).outcome = .ok proof) (hplace : place ≠ .root)
    (hreaches : Schema.proof.Reaches place s) (hthere : (document.at? place).isSome) :
    (∃ d, (AnnotatedProof.ofJson (document.replaceAt place .null)).outcome =
      .error (.malformedProof place.render d)) ∧
    (Schema.proof.Requires place → (AnnotatedProof.ofJson (document.eraseAt place)).outcome =
      .error (.malformedProof place.render .missingField)) := by
  obtain ⟨v, hv⟩ := Option.isSome_iff_exists.mp hthere
  constructor
  · obtain ⟨f, hf, d, rfl, -⟩ :=
      AnnotatedProof.decodes_ofJson.exists_error hplace (harms_replaceAt hreaches hv) h
    exact ⟨d, hf⟩
  · intro hrequires
    obtain ⟨f, hf, d, rfl, hmissing⟩ :=
      AnnotatedProof.decodes_ofJson.exists_error hplace (harms_eraseAt hrequires hv) h
    rw [hf, hmissing rfl]

/-- The value of the second cell of a proof. -/
def secondValue : Path :=
  (((Path.root.key "public_input").key "public_memory").index 1).key "value"

/-- In the document of a proof with two cells, null as the second value and a missing second value
are reported under the name of this value. -/
theorem segmentedProof_harm_located :
    secondValue.render = "public_input.public_memory[1].value" ∧
    (∃ d, (AnnotatedProof.ofJson
        (AnnotatedProof.segmentedProof.toJson.replaceAt secondValue .null)).outcome =
      .error (.malformedProof "public_input.public_memory[1].value" d)) ∧
    (AnnotatedProof.ofJson (AnnotatedProof.segmentedProof.toJson.eraseAt secondValue)).outcome =
      .error (.malformedProof "public_input.public_memory[1].value" .missingField) := by
  have hrender : secondValue.render = "public_input.public_memory[1].value" := by decide
  have haccepted := AnnotatedProof.ofJson_toJson AnnotatedProof.isWellFormed_segmentedProof
  have hcell : Schema.proof.Reaches
      (((Path.root.key "public_input").key "public_memory").index 1) .cell :=
    .item (.field (.field .root rfl) rfl)
  have hvalue : Schema.proof.Reaches secondValue .leaf := .field hcell rfl
  obtain ⟨hnulled, herased⟩ := single_harm_located haccepted (by rintro ⟨⟩) hvalue rfl
  rw [hrender] at hnulled herased
  exact ⟨hrender, hnulled, herased ⟨_, _, _, _, hcell, rfl, rfl⟩⟩

end StarkCalldata
