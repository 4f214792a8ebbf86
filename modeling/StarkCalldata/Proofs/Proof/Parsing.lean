import StarkCalldata.Proof.Parsing
import StarkCalldata.Proofs.Json.Reader
import StarkCalldata.Proofs.Json.Schema
import StarkCalldata.Proofs.Outcome

/-!
What the decoders take from a document.

A decoder that succeeds has found the value it was asked for, and what it gives stands in the
document:

* `Decoding.require_eq_ok`, `Decoding.unsigned_eq_ok`: fields and integers;
* `Decoding.integers_get?`: the integers of a field are integers of the object;
* `Decoding.exists_of_mem_items`: what is decoded from a list comes from its items;
* `Parsing.listField_eq_ok`: lists in fields;
* `Parsing.outcome_segments`, `Parsing.fields_of_segments`: segments are the fields of an object.
-/

namespace StarkCalldata

/-! ### The parts of a document -/

namespace Decoding

variable {α : Type} {j v : Json} {path : Path} {name : String} {n : ℤ}

/-- What is required of an object is the value of its field. -/
lemma require_eq_ok : require j path name = .ok v ↔ j.get? name = some v := by
  cases j with
  | obj entries =>
      simp only [require, Json.get?]
      cases Json.field? entries name <;> simp [defect]
  | _ => simp [require, Json.get?]

/-- The integers of a field are integers of the object. -/
lemma integers_get? (h : j.get? name = some v) : v.integers ⊆ j.integers := by
  cases j with
  | obj fields => exact Json.integers_subset_obj (mem_of_lookup h)
  | _ => cases h

/-- An integer that is not negative is the integer of the document. -/
lemma unsigned_eq_ok (h : unsigned j path = .ok n) : j = .int n ∧ 0 ≤ n := by
  cases j with
  | int m =>
      simp only [unsigned] at h
      split_ifs at h with hneg
      cases h
      exact ⟨rfl, by omega⟩
  | _ => cases h

/-- What is decoded from the items of a list comes from its items. -/
lemma exists_of_mem_items {decode : Json → Path → Except Fault α} {parent : Path} {i : ℕ}
    {js : List Json} {as : List α} (h : items decode parent i js = .ok as) :
    ∀ a ∈ as, ∃ j ∈ js, ∃ path, decode j path = .ok a := by
  induction js generalizing i as with
  | nil =>
      cases h
      simp
  | cons j js ih =>
      obtain ⟨first, hfirst, h⟩ := Outcome.bind_eq_ok.mp h
      obtain ⟨others, hothers, h⟩ := Outcome.bind_eq_ok.mp h
      cases h
      intro a ha
      rcases List.mem_cons.mp ha with rfl | ha
      · exact ⟨j, .head _, _, hfirst⟩
      · obtain ⟨j', hj', hdecode⟩ := ih hothers a ha
        exact ⟨j', .tail _ hj', hdecode⟩

end Decoding

namespace Parsing

open Decoding

variable {j : Json} {path : Path}

/-- A list in a field is its value. -/
lemma listField_eq_ok {name : String} {js : List Json} : listField j path name = .ok js ↔
    require j path name = .ok (.arr js) := by
  constructor
  · intro h
    obtain ⟨v, hv, h⟩ := Outcome.bind_eq_ok.mp h
    split at h
    · cases h
      exact hv
    · cases h
  · intro h
    rw [listField, h]
    rfl

/-- Segments that are missing are only noted. -/
lemma outcome_segments (fields : List (String × Json)) (path : Path) :
    (segments (.obj fields) path).outcome = segmentFields path fields := by
  simp only [segments, Run.outcome_bind, Run.outcome_liftM]
  cases segmentFields path fields with
  | error f => rfl
  | ok found =>
      simp only [Except.bind]
      split <;> rfl

/-- Segments are described by the fields of an object. -/
lemma fields_of_segments {found : Segments} (h : (segments j path).outcome = .ok found) :
    ∃ fields, j = .obj fields ∧ segmentFields path fields = .ok found := by
  cases j with
  | obj fields => exact ⟨fields, rfl, (outcome_segments fields path).symm.trans h⟩
  | _ => cases h

end Parsing

end StarkCalldata
