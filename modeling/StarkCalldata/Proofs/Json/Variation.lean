import StarkCalldata.Proofs.Json.Schema

/-!
Content of a document that a schema does not see.

A schema leads to some fields of an object and is blind to the others, and to the order of all of
them. A change of this content is made at some place, however deep. It is told from the root down to
its place (`Json.Rewrites`), so that it can be followed along the schema: as long as both lead the
same way, the change is inside of a value that is read; where they part, nothing is read any more.
What is left of a change along a schema is a variation of the value (`Schema.Varies`), and it is all
that a decoder has to know:

* `Json.Rewrites`: a change made at one place of a value;
* `Schema.Irrelevant`: the changes of an object that a schema does not see;
* `Schema.Reaches.unique`: what a schema asks for at a place is determined by the place;
* `Schema.Varies`: two values that differ in content the schema does not see;
* `Schema.varies_of_rewrites`: an irrelevant change makes a variation;
* `Varies.of_record`, `Varies.of_dict`, `Varies.of_list`: the parts of values that vary.
-/

namespace StarkCalldata

/-! ### Changes at a place -/

namespace Json

/-- A change made at one place of a value. -/
inductive Rewrites (Change : Path → Json → Json → Prop) : Path → Json → Json → Prop
  | here {path : Path} {j j' : Json} : Change path j j' → Rewrites Change path j j'
  | field {path : Path} {name : String} {v v' : Json} {before after : List (String × Json)} :
      Rewrites Change (path.key name) v v' →
        Rewrites Change path (.obj (before ++ (name, v) :: after))
          (.obj (before ++ (name, v') :: after))
  | item {path : Path} {v v' : Json} {before after : List Json} :
      Rewrites Change (path.index before.length) v v' →
        Rewrites Change path (.arr (before ++ v :: after)) (.arr (before ++ v' :: after))

/-- An object is the value or one of its items, or lies within the items. -/
inductive HoldsObject : Json → Prop
  | obj {entries : List (String × Json)} : HoldsObject (.obj entries)
  | item {items : List Json} {j : Json} : j ∈ items → HoldsObject j → HoldsObject (.arr items)

variable {entries entries' before after : List (String × Json)} {name k : String} {v w w' : Json}

lemma field?_eq_some_iff (hnodup : (entries.map Prod.fst).Nodup) :
    field? entries name = some v ↔ (name, v) ∈ entries := by
  refine ⟨mem_of_lookup, fun hmem => ?_⟩
  obtain ⟨before, after, rfl⟩ := List.append_of_mem hmem
  refine List.lookup_eq_some_iff.mpr ⟨before, after, rfl, fun m hm => ?_⟩
  rw [List.map_append, List.map_cons] at hnodup
  have hne := (List.nodup_append.mp hnodup).2.2 m.1 (List.mem_map_of_mem hm) name (.head _)
  simpa using hne.symm

lemma field?_perm (hnodup : (entries.map Prod.fst).Nodup) (h : entries.Perm entries') :
    field? entries' name = field? entries name := by
  have hnodup' : (entries'.map Prod.fst).Nodup := (h.map Prod.fst).nodup_iff.mp hnodup
  exact Option.ext fun v => by
    rw [field?_eq_some_iff hnodup', field?_eq_some_iff hnodup, h.mem_iff]

lemma field?_append_ne (h : name ≠ k) :
    field? (entries ++ [(k, w)]) name = field? entries name := by
  have hne : (name == k) = false := by simpa using h
  rw [field?, List.lookup_append, List.lookup_cons, hne, List.lookup_nil, Option.or_none, field?]

/-- Where one value of an object is exchanged, a field has its former value, or it is the field of
this value. -/
lemma field?_exchange (before after : List (String × Json)) (k name : String) (w w' : Json) :
    field? (before ++ (k, w') :: after) name = field? (before ++ (k, w) :: after) name ∨
      name = k ∧ field? (before ++ (k, w) :: after) name = some w ∧
        field? (before ++ (k, w') :: after) name = some w' := by
  simp only [field?, List.lookup_append, List.lookup_cons]
  cases hbefore : before.lookup name with
  | some u => exact .inl rfl
  | none =>
      cases hname : name == k with
      | false => exact .inl rfl
      | true => exact .inr ⟨by simpa using hname, rfl, rfl⟩

end Json

open Json

namespace Schema

/-- What a schema asks for at a place is determined by the place. -/
theorem Reaches.unique {top s s' : Schema} {path : Path} (h : top.Reaches path s)
    (h' : top.Reaches path s') : s = s' := by
  induction h generalizing s' with
  | root =>
      cases h'
      rfl
  | field _ hfield ih =>
      cases h' with
      | field hreaches hfield' =>
          cases ih hreaches
          exact Option.some_inj.mp (hfield.symm.trans hfield')
      | entry hreaches => cases ih hreaches
  | entry _ ih =>
      cases h' with
      | field hreaches _ => cases ih hreaches
      | entry hreaches =>
          cases ih hreaches
          rfl
  | item _ ih =>
      cases h' with
      | item hreaches =>
          cases ih hreaches
          rfl

section Changes

variable (top : Schema) (Extra : String → Json → Prop)

/-- The changes of an object that a schema does not see: its fields in another order, one more field
that is not read, and one more entry of a kind that does not count among fields of any names. -/
inductive Irrelevant : Path → Json → Json → Prop
  | permuted {path : Path} {entries entries' : List (String × Json)} :
      (entries.map Prod.fst).Nodup → entries.Perm entries' →
        Irrelevant path (.obj entries) (.obj entries')
  | unread {path : Path} {fields : List (String × Schema)} {entries : List (String × Json)}
      {name : String} {value : Json} : top.Reaches path (.record fields) →
        fields.lookup name = none → field? entries name = none →
          Irrelevant path (.obj entries) (.obj (entries ++ [(name, value)]))
  | joined {path : Path} {s : Schema} {entries : List (String × Json)} {name : String}
      {value : Json} : top.Reaches path (.dict s) → field? entries name = none →
        Extra name value → Irrelevant path (.obj entries) (.obj (entries ++ [(name, value)]))

/-- A value of another kind than a schema asks for. -/
inductive Alien : Schema → Json → Prop
  | leaf {j : Json} : j.HoldsObject → Alien .leaf j
  | record {fields : List (String × Schema)} {items : List Json} :
      Alien (.record fields) (.arr items)
  | dict {s : Schema} {items : List Json} : Alien (.dict s) (.arr items)
  | list {s : Schema} {entries : List (String × Json)} : Alien (.list s) (.obj entries)

/-- Two values differ only in content that a schema does not see, unless the first one is of another
kind than the schema asks for. -/
inductive Varies : Schema → Json → Json → Prop
  | same {s : Schema} {j : Json} : Varies s j j
  | alien {s : Schema} {j j' : Json} : s.Alien j → Varies s j j'
  | record {fields : List (String × Schema)} {entries entries' : List (String × Json)} :
      (∀ name, (fields.lookup name).isSome → field? entries' name = field? entries name) →
        Varies (.record fields) (.obj entries) (.obj entries')
  | dict {s : Schema} {entries entries' : List (String × Json)} :
      (∀ m ∈ entries', m ∈ entries ∨ Extra m.1 m.2) →
        (∀ name, (∀ v, ¬ Extra name v) → field? entries' name = field? entries name) →
          Varies (.dict s) (.obj entries) (.obj entries')
  | field {fields : List (String × Schema)} {before after : List (String × Json)} {name : String}
      {s : Schema} {v v' : Json} : fields.lookup name = some s → Varies s v v' →
        Varies (.record fields) (.obj (before ++ (name, v) :: after))
          (.obj (before ++ (name, v') :: after))
  | entry {s : Schema} {before after : List (String × Json)} {name : String} {v v' : Json} :
      Varies s v v' → Varies (.dict s) (.obj (before ++ (name, v) :: after))
        (.obj (before ++ (name, v') :: after))
  | item {s : Schema} {before after : List Json} {v v' : Json} : Varies s v v' →
      Varies (.list s) (.arr (before ++ v :: after)) (.arr (before ++ v' :: after))

end Changes

variable {top s : Schema} {Extra : String → Json → Prop} {path : Path} {j j' : Json}
  {fields : List (String × Schema)} {entries : List (String × Json)}

lemma holdsObject_of_rewrites (h : Rewrites (Irrelevant top Extra) path j j') : j.HoldsObject := by
  induction h with
  | here hchange => cases hchange <;> exact .obj
  | field _ _ => exact .obj
  | item _ ih => exact .item (List.mem_append_right _ (.head _)) ih

/-- An object in another order, or with one more field that a schema does not see, is a variation of
the object. -/
lemma Irrelevant.varies (h : Irrelevant top Extra path j j') (hreaches : top.Reaches path s) :
    Varies Extra s j j' := by
  cases h with
  | permuted hnodup hperm =>
      cases s with
      | leaf => exact .alien (.leaf .obj)
      | record fields => exact .record fun name _ => field?_perm hnodup hperm
      | dict s =>
          exact .dict (fun m hm => .inl (hperm.mem_iff.mpr hm)) fun name _ =>
            field?_perm hnodup hperm
      | list s => exact .alien .list
  | unread hrecord hname _ =>
      cases hreaches.unique hrecord
      refine .record fun n hn => field?_append_ne ?_
      rintro rfl
      rw [hname] at hn
      cases hn
  | joined hdict hname hextra =>
      cases hreaches.unique hdict
      refine .dict (fun m hm => ?_) fun n hn => field?_append_ne ?_
      · rcases List.mem_append.mp hm with hm | hm
        · exact .inl hm
        · cases List.mem_singleton.mp hm
          exact .inr hextra
      · rintro rfl
        exact hn _ hextra

/-- **A change that a schema does not see makes a variation**, wherever it is made. -/
theorem varies_of_rewrites (h : Rewrites (Irrelevant top Extra) path j j')
    (hreaches : top.Reaches path s) : Varies Extra s j j' := by
  induction h generalizing s with
  | here hchange => exact hchange.varies hreaches
  | @field path name v v' before after _ ih =>
      cases s with
      | leaf => exact .alien (.leaf .obj)
      | record fields =>
          cases hfield : fields.lookup name with
          | some s => exact .field hfield (ih (.field hreaches hfield))
          -- the field is not read, so it may change as it likes
          | none =>
              refine .record fun n hn => (field?_exchange before after name n v v').resolve_right ?_
              rintro ⟨rfl, -⟩
              rw [hfield] at hn
              cases hn
      | dict s => exact .entry (ih (.entry hreaches))
      | list s => exact .alien .list
  | item h ih =>
      cases s with
      | leaf =>
          exact .alien (.leaf (.item (List.mem_append_right _ (.head _))
            (holdsObject_of_rewrites h)))
      | record fields => exact .alien .record
      | dict s => exact .alien .dict
      | list s => exact .item (ih (.item hreaches))

/-! ### The parts of values that vary -/

/-- What two objects have under one name: both of them nothing, or values that vary. -/
inductive VaryAt (Extra : String → Json → Prop) (s : Schema) : Option Json → Option Json → Prop
  | none : VaryAt Extra s none none
  | some {v v' : Json} : Varies Extra s v v' → VaryAt Extra s (some v) (some v')

lemma VaryAt.of_eq {o o' : Option Json} (h : o' = o) : VaryAt Extra s o o' := by
  subst h
  cases o' with
  | none => exact .none
  | some v => exact .some .same

/-- The fields of a record that are read vary. -/
lemma Varies.of_record (h : Varies Extra (.record fields) (.obj entries) j') :
    ∃ entries', j' = .obj entries' ∧ ∀ name s, fields.lookup name = some s →
      VaryAt Extra s (field? entries name) (field? entries' name) := by
  cases h with
  | same => exact ⟨entries, rfl, fun name s _ => .of_eq rfl⟩
  | alien halien => cases halien
  | record heq => exact ⟨_, rfl, fun name s hs => .of_eq (heq name (by rw [hs]; rfl))⟩
  | @field _ before after k s v v' hs hvaries =>
      refine ⟨_, rfl, fun name s' hs' => ?_⟩
      rcases field?_exchange before after k name v v' with heq | ⟨rfl, hv, hv'⟩
      · exact .of_eq heq
      · cases Option.some_inj.mp (hs.symm.trans hs')
        rw [hv, hv']
        exact .some hvaries

/-- The fields of an object with fields of any names vary, and so do the values under names that
count. -/
lemma Varies.of_dict (h : Varies Extra (.dict s) (.obj entries) j') :
    ∃ entries', j' = .obj entries' ∧
      (∀ m' ∈ entries', (∃ m ∈ entries, m.1 = m'.1 ∧ Varies Extra s m.2 m'.2) ∨
        Extra m'.1 m'.2) ∧
      ∀ name, (∀ v, ¬ Extra name v) →
        VaryAt Extra s (field? entries name) (field? entries' name) := by
  cases h with
  | same => exact ⟨entries, rfl, fun m hm => .inl ⟨m, hm, rfl, .same⟩, fun name _ => .of_eq rfl⟩
  | alien halien => cases halien
  | dict hmem heq =>
      exact ⟨_, rfl, fun m hm => (hmem m hm).imp_left fun hm => ⟨m, hm, rfl, .same⟩,
        fun name hname => .of_eq (heq name hname)⟩
  | @entry _ before after k v v' hvaries =>
      refine ⟨_, rfl, fun m' hm' => .inl ?_, fun name _ => ?_⟩
      · rcases List.mem_append.mp hm' with hm' | hm'
        · exact ⟨m', List.mem_append_left _ hm', rfl, .same⟩
        · rcases List.mem_cons.mp hm' with rfl | hm'
          · exact ⟨(k, v), List.mem_append_right _ (.head _), rfl, hvaries⟩
          · exact ⟨m', List.mem_append_right _ (.tail _ hm'), rfl, .same⟩
      · rcases field?_exchange before after k name v v' with heq | ⟨rfl, hv, hv'⟩
        · exact .of_eq heq
        · rw [hv, hv']
          exact .some hvaries

/-- The items of a list vary one by one. -/
lemma Varies.of_list {items : List Json} (h : Varies Extra (.list s) (.arr items) j') :
    ∃ items', j' = .arr items' ∧ List.Forall₂ (Varies Extra s) items items' := by
  have hsame (items : List Json) : List.Forall₂ (Varies Extra s) items items :=
    List.forall₂_same.mpr fun _ _ => .same
  cases h with
  | same => exact ⟨items, rfl, hsame items⟩
  | alien halien => cases halien
  | @item _ before after v v' hvaries =>
      exact ⟨_, rfl, List.rel_append (hsame before) (.cons hvaries (hsame after))⟩

end Schema

end StarkCalldata
