import Mathlib.Tactic
import StarkCalldata.Json.Path

/-!
Schemas of documents, and a single harm done to a document.

A schema says which places of a document are read and what kind of value stands there. A harm is
done at one place: the value there becomes null, or the field there is taken away. It is told from
the root down to its place, so that it can be followed along a schema in the order in which a
document is read:

* `Schema`, `Schema.Reaches`, `Schema.Requires`: a schema, the places it leads to, and the fields
  among them that must be there;
* `Schema.Conforms`: a document has what a schema asks for, and no null where it leads to;
* `Harms`: a change of a value that is a harm done at one place below it;
* `harms_replaceAt`, `harms_eraseAt`: what becomes of a document that is harmed at a place;
* `Harms.not_conforms`: a harmed document does not conform any more.
-/

namespace StarkCalldata

/-- What is read of a document. -/
inductive Schema
  /-- A value that is read as a whole. -/
  | leaf
  /-- An object with fields that must be there. -/
  | record (fields : List (String × Schema))
  /-- An object with fields of any names. -/
  | dict (entry : Schema)
  /-- An array. -/
  | list (item : Schema)

namespace Schema

/-- A schema leads to a place, with a schema for the value there. -/
inductive Reaches (top : Schema) : Path → Schema → Prop
  | root : Reaches top .root top
  | field {path : Path} {fields : List (String × Schema)} {name : String} {s : Schema} :
      Reaches top path (.record fields) → fields.lookup name = some s →
        Reaches top (path.key name) s
  | entry {path : Path} {name : String} {s : Schema} :
      Reaches top path (.dict s) → Reaches top (path.key name) s
  | item {path : Path} {i : ℕ} {s : Schema} :
      Reaches top path (.list s) → Reaches top (path.index i) s

/-- A place is a field that must be there. -/
def Requires (top : Schema) (place : Path) : Prop :=
  ∃ path fields name s, Reaches top path (.record fields) ∧ fields.lookup name = some s ∧
    place = path.key name

/-- A value is as a schema asks for: no place that the schema leads to holds null, and no field that
must be there is missing. -/
inductive Conforms : Schema → Json → Prop
  | leaf {j : Json} : j ≠ .null → Conforms .leaf j
  | record {fields : List (String × Schema)} {entries : List (String × Json)} :
      (∀ m ∈ fields, (Json.field? entries m.1).isSome) →
        (∀ m ∈ fields, ∀ v, Json.field? entries m.1 = some v → Conforms m.2 v) →
          Conforms (.record fields) (.obj entries)
  | dict {s : Schema} {entries : List (String × Json)} :
      (∀ m ∈ entries, Conforms s m.2) → Conforms (.dict s) (.obj entries)
  | list {s : Schema} {items : List Json} :
      (∀ j ∈ items, Conforms s j) → Conforms (.list s) (.arr items)

/-- An object conforms when it has the fields of a record, and their values conform. -/
lemma Conforms.of_fields {fields : List (String × Schema)} {j : Json} (hne : fields ≠ [])
    (h : fields.Forall fun m => ∃ v, j.get? m.1 = some v ∧ Conforms m.2 v) :
    Conforms (.record fields) j := by
  rw [List.forall_iff_forall_mem] at h
  cases j with
  | obj entries =>
      refine .record (fun m hm => ?_) fun m hm v hv => ?_
      · obtain ⟨v, hv, -⟩ := h m hm
        exact Option.isSome_iff_exists.mpr ⟨v, hv⟩
      · obtain ⟨v', hv', hconforms⟩ := h m hm
        cases (Option.some.inj (hv.symm.trans hv') : v = v')
        exact hconforms
  | _ =>
      obtain ⟨m, hm⟩ := List.exists_mem_of_ne_nil fields hne
      obtain ⟨v, hv, -⟩ := h m hm
      cases hv

lemma not_conforms_null {s : Schema} : ¬ Conforms s .null := by
  rintro ⟨⟩
  contradiction

end Schema

/-! ### Changes of a value -/

namespace Json

/-- A change of the value of a field. -/
def inField (name : String) (g : Json → Json) : Json → Json
  | .obj entries => .obj (entries.map fun m => if m.1 = name then (m.1, g m.2) else m)
  | j => j

/-- A change of an item. -/
def inItem (i : ℕ) (g : Json → Json) : Json → Json
  | .arr items => .arr (items.modify i g)
  | j => j

/-- An object without one of its fields. -/
def eraseField (name : String) : Json → Json
  | .obj entries => .obj (entries.filter fun m => m.1 ≠ name)
  | j => j

/-- A changed field holds the changed value, all others keep theirs. -/
lemma get?_inField (j : Json) (name n : String) (g : Json → Json) :
    (inField name g j).get? n = if n = name then (j.get? n).map g else j.get? n := by
  cases j with
  | obj entries =>
      simp only [inField, get?, field?]
      induction entries with
      | nil => simp
      | cons m entries ih =>
          obtain ⟨k, v⟩ := m
          simp only [List.map_cons]
          by_cases hk : k = name
          · subst hk
            by_cases hn : n = k
            · subst hn
              simp
            · have hne : (n == k) = false := by simpa using hn
              rw [if_neg hn] at ih
              simp only [if_true, List.lookup_cons, hne, ih, if_neg hn]
          · rw [if_neg hk]
            by_cases hn : n = k
            · subst hn
              simp [hk]
            · have hne : (n == k) = false := by simpa using hn
              simp only [List.lookup_cons, hne, ih]
  | _ => simp [inField, get?]

/-- A field that is taken away is missing, all others keep their values. -/
lemma get?_eraseField (j : Json) (name n : String) :
    (eraseField name j).get? n = if n = name then none else j.get? n := by
  cases j with
  | obj entries =>
      simp only [eraseField, get?, field?]
      induction entries with
      | nil => simp
      | cons m entries ih =>
          obtain ⟨k, v⟩ := m
          by_cases hk : k = name
          · subst hk
            rw [List.filter_cons_of_neg (by simp), ih]
            split_ifs with hn
            · rfl
            · have hne : (n == k) = false := by simpa using hn
              simp only [List.lookup_cons, hne]
          · rw [List.filter_cons_of_pos (by simpa using hk), List.lookup_cons, List.lookup_cons, ih]
            by_cases hn : n = k
            · subst hn
              simp [hk]
            · have hne : (n == k) = false := by simpa using hn
              simp only [hne]
  | _ => simp [eraseField, get?]

lemma exists_of_at?_key {document v : Json} {path : Path} {name : String}
    (h : document.at? (path.key name) = some v) :
    ∃ entries, document.at? path = some (.obj entries) ∧ field? entries name = some v := by
  obtain ⟨j, hj, hv⟩ := Option.bind_eq_some_iff.mp h
  cases j with
  | obj entries => exact ⟨entries, hj, hv⟩
  | _ => cases hv

lemma exists_of_at?_index {document v : Json} {path : Path} {i : ℕ}
    (h : document.at? (path.index i) = some v) :
    ∃ items, document.at? path = some (.arr items) ∧ items[i]? = some v := by
  rw [at?] at h
  split at h
  · rename_i items hitems
    exact ⟨items, hitems, h⟩
  · cases h

end Json

/-! ### A single harm -/

open Json Schema

/-- What is done at the place of a harm. -/
inductive Damage
  /-- The value becomes null. -/
  | nulled
  /-- The field is taken away. -/
  | erased
  deriving DecidableEq, Repr

/-- A change of the value at a path is a harm done at a place below it, to which the schema of the
value leads. -/
inductive Harms (place : Path) : Damage → Schema → Path → Json → (Json → Json) → Prop
  | nulled {s : Schema} {j : Json} : Harms place .nulled s place j fun _ => .null
  | erased {fields : List (String × Schema)} {entries : List (String × Json)} {path : Path}
      {name : String} {s : Schema} : place = path.key name → fields.lookup name = some s →
        Harms place .erased (.record fields) path (.obj entries) (eraseField name)
  | field {damage : Damage} {fields : List (String × Schema)} {entries : List (String × Json)}
      {path : Path} {name : String} {s : Schema} {v : Json} {g : Json → Json} :
      fields.lookup name = some s → field? entries name = some v →
        Harms place damage s (path.key name) v g →
          Harms place damage (.record fields) path (.obj entries) (inField name g)
  | entry {damage : Damage} {entries : List (String × Json)} {path : Path} {name : String}
      {s : Schema} {v : Json} {g : Json → Json} : field? entries name = some v →
        Harms place damage s (path.key name) v g →
          Harms place damage (.dict s) path (.obj entries) (inField name g)
  | item {damage : Damage} {items : List Json} {path : Path} {i : ℕ} {s : Schema} {v : Json}
      {g : Json → Json} : items[i]? = some v → Harms place damage s (path.index i) v g →
        Harms place damage (.list s) path (.arr items) (inItem i g)

variable {top s : Schema} {place path : Path} {damage : Damage} {document v : Json}
  {g : Json → Json}

/-- A harm done to a value of a document is done to the document. -/
lemma Harms.of_reaches (hreaches : top.Reaches path s) (hv : document.at? path = some v)
    (h : Harms place damage s path v g) :
    Harms place damage top .root document fun j => j.modifyAt path g := by
  induction hreaches generalizing v g with
  | root =>
      cases hv
      exact h
  | field _ hfield ih =>
      obtain ⟨entries, hobj, hvalue⟩ := exists_of_at?_key hv
      exact ih hobj (.field hfield hvalue h)
  | entry _ ih =>
      obtain ⟨entries, hobj, hvalue⟩ := exists_of_at?_key hv
      exact ih hobj (.entry hvalue h)
  | item _ ih =>
      obtain ⟨items, harr, hvalue⟩ := exists_of_at?_index hv
      exact ih harr (.item hvalue h)

/-- Null in the place of a value is a harm done there. -/
lemma harms_replaceAt (hreaches : top.Reaches place s) (hv : document.at? place = some v) :
    Harms place .nulled top .root document fun j => j.replaceAt place .null :=
  .of_reaches hreaches hv .nulled

/-- A missing field is a harm done where it was. -/
lemma harms_eraseAt (hrequires : top.Requires place) (hv : document.at? place = some v) :
    Harms place .erased top .root document fun j => j.eraseAt place := by
  obtain ⟨path, fields, name, s, hreaches, hfield, rfl⟩ := hrequires
  obtain ⟨entries, hobj, -⟩ := exists_of_at?_key hv
  exact .of_reaches hreaches hobj (.erased rfl hfield)

lemma mem_of_lookup {α : Type} {fields : List (String × α)} {name : String} {a : α}
    (h : fields.lookup name = some a) : (name, a) ∈ fields := by
  obtain ⟨before, after, hsplit, -⟩ := List.lookup_eq_some_iff.mp h
  simp [hsplit]

/-- **A harmed value does not conform.** -/
theorem Harms.not_conforms (h : Harms place damage s path v g) : ¬ Conforms s (g v) := by
  induction h with
  | nulled => exact not_conforms_null
  | @erased fields entries path name s hplace hfield =>
      rintro ⟨⟩
      rename_i hthere _
      have hmissing := get?_eraseField (.obj entries) name name
      rw [if_pos rfl] at hmissing
      have hsome := hthere _ (mem_of_lookup hfield)
      rw [show Json.field? _ name = none from hmissing] at hsome
      cases hsome
  | @field damage fields entries path name s v g hfield hvalue _ ih =>
      rintro ⟨⟩
      rename_i hconforms
      refine ih (hconforms _ (mem_of_lookup hfield) _ ?_)
      have hchanged := get?_inField (.obj entries) name name g
      rwa [if_pos rfl, show (Json.obj entries).get? name = some v from hvalue] at hchanged
  | @entry damage entries path name s v g hvalue _ ih =>
      rintro ⟨⟩
      rename_i hconforms
      refine ih (hconforms (name, g v) ?_)
      exact List.mem_map.mpr ⟨(name, v), mem_of_lookup hvalue, if_pos rfl⟩
  | @item damage items path i s v g hvalue _ ih =>
      rintro ⟨⟩
      rename_i hconforms
      refine ih (hconforms (g v) (List.mem_of_getElem? (i := i) ?_))
      rw [List.getElem?_modify_eq, hvalue]
      rfl

end StarkCalldata
