import Mathlib.Order.Bounds.Basic
import Mathlib.Tactic
import StarkCalldata.Proofs.Outcome
import StarkCalldata.Task.Topology

/-!
The documents that describe fact topologies.

An entry describes a topology by its tree and the sizes of its pages. The entries are read in order,
and the first one that describes nothing decides the failure: it lacks a tree, or it has one and
lacks sizes. So what a document is worth can be told from its entries alone, without the reader:

* `IsNaturals`, `naturals_eq_ok`: lists of integers that are not negative;
* `HasTree`, `HasSizes`, `Describes`: what an entry holds;
* `Lacks`: the field for which an entry is refused;
* `ofEntry_eq`, `ofEntry_cases`: an entry is read in two steps; it describes a topology, or is
  refused for a field that it lacks;
* `ofEntries_eq_ok`, `ofEntries_of_lacks`: the entries of a list;
* `listed?`, `ofJson_eq_ok`, `ofJson_eq_error`: the two shapes of a document;
* `topologies_accepted_exactly`: which documents are accepted, and what is said of the others.
-/

namespace StarkCalldata.FactTopology

variable {j entry : Json} {path parent : Path} {ns : List ℤ} {t : FactTopology} {name : String}
  {entries before after : List Json} {given : List FactTopology} {i : ℕ}

/-! ### Lists of natural numbers -/

/-- A value is a list of integers, none of them negative. -/
structure IsNaturals (j : Json) (ns : List ℤ) : Prop where
  items : j = .arr (ns.map .int)
  nonneg : ∀ n ∈ ns, 0 ≤ n

/-- A value is an integer that is not negative. -/
lemma natural?_eq_some {n : ℤ} : natural? j = some n ↔ j = .int n ∧ 0 ≤ n := by
  cases j with
  | int m =>
      simp only [natural?, Json.int.injEq]
      split_ifs with hm
      · rw [Option.some.injEq]
        exact ⟨fun h => ⟨h, h ▸ hm⟩, And.left⟩
      · simp only [false_iff]
        rintro ⟨rfl, hn⟩
        exact hm hn
  | _ => simp [natural?]

/-- The items of a list are natural numbers, one by one. -/
lemma mapM_natural? : entries.mapM natural? = some ns ↔
    entries = ns.map .int ∧ ∀ n ∈ ns, 0 ≤ n := by
  induction entries generalizing ns with
  | nil => cases ns <;> simp
  | cons first rest ih =>
      simp only [List.mapM_cons, Option.bind_eq_bind, Option.bind_eq_some_iff, natural?_eq_some, ih,
        Option.pure_def, Option.some.injEq]
      constructor
      · rintro ⟨n, ⟨rfl, hn⟩, others, ⟨rfl, hothers⟩, rfl⟩
        exact ⟨rfl, List.forall_mem_cons.mpr ⟨hn, hothers⟩⟩
      · rintro ⟨hentries, hns⟩
        cases ns with
        | nil => cases hentries
        | cons n others =>
            obtain ⟨rfl, rfl⟩ := List.cons.inj hentries
            obtain ⟨hn, hothers⟩ := List.forall_mem_cons.mp hns
            exact ⟨n, ⟨rfl, hn⟩, others, ⟨rfl, hothers⟩, rfl⟩

/-- What is read as natural numbers is a list of them. -/
lemma naturals_eq_ok : naturals j path = .ok ns ↔ IsNaturals j ns := by
  cases j with
  | arr items =>
      have hitems : items.mapM natural? = some ns ↔ IsNaturals (.arr items) ns := by
        rw [mapM_natural?]
        exact ⟨fun h => ⟨congrArg Json.arr h.1, h.2⟩, fun h => ⟨Json.arr.inj h.1, h.2⟩⟩
      rw [← hitems, naturals]
      cases items.mapM natural? <;> simp [defect]
  | _ => exact ⟨nofun, fun h => nomatch h.items⟩

lemma naturals_eq_error {f : Fault} (h : naturals j path = .error f) :
    f = .malformedInput path.render .notNonNegativeIntegers := by
  unfold naturals defect at h
  split at h
  · split at h
    · cases h
    · exact (Except.error.inj h).symm
  · exact (Except.error.inj h).symm

/-! ### Entries -/

/-- An entry is an object with a tree: a list of pairs, one after another, of natural numbers. -/
structure HasTree (entry : Json) (tree : List ℤ) : Prop where
  exists_value : ∃ fields value, entry = .obj fields ∧
    Json.field? fields "tree_structure" = some value ∧ IsNaturals value tree
  even : 2 ∣ tree.length

/-- An entry has no sizes of pages, which counts as an empty list, or a list of natural numbers. -/
def HasSizes (entry : Json) (sizes : List ℤ) : Prop :=
  (entry.get? "page_sizes" = none ∧ sizes = []) ∨
    ∃ value, entry.get? "page_sizes" = some value ∧ IsNaturals value sizes

/-- An entry describes a topology. -/
structure Describes (entry : Json) (t : FactTopology) : Prop where
  tree : HasTree entry t.tree
  sizes : HasSizes entry t.pageSizes

/-- The field for which an entry is refused: the tree, unless the entry has one. -/
inductive Lacks (entry : Json) : String → Prop
  | tree : (¬ ∃ tree, HasTree entry tree) → Lacks entry "tree_structure"
  | sizes : (∃ tree, HasTree entry tree) → (¬ ∃ sizes, HasSizes entry sizes) →
      Lacks entry "page_sizes"

/-- The tree of an entry, as it is read before the sizes. -/
def readTree (entry : Json) (path : Path) : Except Fault (List ℤ) :=
  match entry.get? "tree_structure" with
  | none => defect (path.key "tree_structure") .missingField
  | some value => (naturals value (path.key "tree_structure")).bind fun tree =>
      if tree.length % 2 ≠ 0 then defect (path.key "tree_structure") .oddCount else .ok tree

/-- The sizes of an entry, as they are read after the tree. -/
def readSizes (entry : Json) (path : Path) : Except Fault (List ℤ) :=
  naturals ((entry.get? "page_sizes").getD (.arr [])) (path.key "page_sizes")

/-- An entry is read in two steps. -/
lemma ofEntry_eq (entry : Json) (path : Path) : ofEntry entry path =
    (readTree entry path).bind fun tree => (readSizes entry path).bind fun sizes =>
      .ok ⟨tree, sizes⟩ := by
  simp only [ofEntry, readTree]
  cases entry.get? "tree_structure" with
  | none => rfl
  | some value =>
      simp only
      cases naturals value (path.key "tree_structure") with
      | error f => rfl
      | ok tree =>
          simp only [bind, Except.bind]
          split_ifs <;> rfl

/-- The tree that is read is the tree of the entry. -/
lemma readTree_eq_ok {tree : List ℤ} : readTree entry path = .ok tree ↔ HasTree entry tree := by
  have hvalue {value : Json} : entry.get? "tree_structure" = some value ↔
      ∃ fields, entry = .obj fields ∧ Json.field? fields "tree_structure" = some value := by
    cases entry <;> simp [Json.get?]
  constructor
  · intro h
    unfold readTree at h
    split at h
    · cases h
    · rename_i value hget
      obtain ⟨tree', htree, h⟩ := Outcome.bind_ok.mp h
      split_ifs at h with hodd
      · cases h
      · cases h
        obtain ⟨fields, hentry, hfield⟩ := hvalue.mp hget
        exact ⟨⟨fields, value, hentry, hfield, naturals_eq_ok.mp htree⟩,
          Nat.dvd_of_mod_eq_zero (by simpa using hodd)⟩
  · rintro ⟨⟨fields, value, hentry, hfield, hnaturals⟩, heven⟩
    have hget := hvalue.mpr ⟨fields, hentry, hfield⟩
    have hlength : ¬ tree.length % 2 ≠ 0 := by simpa using Nat.mod_eq_zero_of_dvd heven
    simp only [readTree, hget, naturals_eq_ok.mpr hnaturals, Except.bind, if_neg hlength]

/-- A tree that is not read is refused where it should stand. -/
lemma readTree_eq_error {f : Fault} (h : readTree entry path = .error f) :
    ∃ d, f = .malformedInput (path.key "tree_structure").render d := by
  unfold readTree defect at h
  split at h
  · exact ⟨_, (Except.error.inj h).symm⟩
  · rename_i value _
    cases htree : naturals value (path.key "tree_structure") with
    | error e =>
        rw [htree] at h
        exact ⟨_, (Except.error.inj h).symm.trans (naturals_eq_error htree)⟩
    | ok tree =>
        rw [htree] at h
        simp only [Except.bind] at h
        split_ifs at h
        exact ⟨_, (Except.error.inj h).symm⟩

/-- The sizes that are read are the sizes of the entry. -/
lemma readSizes_eq_ok {sizes : List ℤ} :
    readSizes entry path = .ok sizes ↔ HasSizes entry sizes := by
  rw [readSizes, naturals_eq_ok, HasSizes]
  cases hvalue : entry.get? "page_sizes" with
  | none =>
      simp only [true_and, reduceCtorEq, false_and, exists_false, or_false, Option.getD_none]
      refine ⟨fun h => ?_, ?_⟩
      · simpa using h.items
      · rintro rfl
        exact ⟨rfl, by simp⟩
  | some value => simp

lemma Lacks.not_describes (h : Lacks entry name) : ¬ ∃ t, Describes entry t := by
  rintro ⟨t, ht⟩
  cases h with
  | tree htree => exact htree ⟨_, ht.tree⟩
  | sizes _ hsizes => exact hsizes ⟨_, ht.sizes⟩

/-- **An entry describes a topology, or is refused for a field that it lacks.** -/
theorem ofEntry_cases (entry : Json) (path : Path) :
    (∃ t, Describes entry t ∧ ofEntry entry path = .ok t) ∨
      ∃ name d, Lacks entry name ∧
        ofEntry entry path = .error (.malformedInput (path.key name).render d) := by
  rw [ofEntry_eq]
  cases htree : readTree entry path with
  | error f =>
      obtain ⟨d, rfl⟩ := readTree_eq_error htree
      refine .inr ⟨_, d, .tree ?_, rfl⟩
      rintro ⟨tree, h⟩
      rw [readTree_eq_ok.mpr h] at htree
      cases htree
  | ok tree =>
      cases hsizes : readSizes entry path with
      | error f =>
          obtain rfl := naturals_eq_error hsizes
          refine .inr ⟨_, _, .sizes ⟨tree, readTree_eq_ok.mp htree⟩ ?_, rfl⟩
          rintro ⟨sizes, h⟩
          rw [readSizes_eq_ok.mpr h] at hsizes
          cases hsizes
      | ok sizes =>
          exact .inl ⟨⟨tree, sizes⟩, ⟨readTree_eq_ok.mp htree, readSizes_eq_ok.mp hsizes⟩, rfl⟩

lemma ofEntry_eq_ok : ofEntry entry path = .ok t ↔ Describes entry t := by
  rcases ofEntry_cases entry path with ⟨t', ht', hread⟩ | ⟨name, d, hlacks, hread⟩
  · rw [hread, Except.ok.injEq]
    refine ⟨fun h => h ▸ ht', fun h => ?_⟩
    have hagain : ofEntry entry path = .ok t := by
      rw [ofEntry_eq, readTree_eq_ok.mpr h.tree]
      simp only [Except.bind, readSizes_eq_ok.mpr h.sizes]
    exact Except.ok.inj (hread.symm.trans hagain)
  · rw [hread]
    exact ⟨nofun, fun h => absurd ⟨t, h⟩ hlacks.not_describes⟩

lemma exists_lacks (h : ¬ ∃ t, Describes entry t) : ∃ name, Lacks entry name := by
  rcases ofEntry_cases entry .root with ⟨t, ht, -⟩ | ⟨name, -, hlacks, -⟩
  · exact absurd ⟨t, ht⟩ h
  · exact ⟨name, hlacks⟩

/-- An entry is refused for one field at most. -/
lemma Lacks.unique {name' : String} (h : Lacks entry name) (h' : Lacks entry name') :
    name = name' := by
  cases h with
  | tree htree =>
      cases h' with
      | tree => rfl
      | sizes htree' => exact absurd htree' htree
  | sizes htree =>
      cases h' with
      | tree htree' => exact absurd htree htree'
      | sizes => rfl

lemma ofEntry_of_lacks (h : Lacks entry name) (path : Path) :
    ∃ d, ofEntry entry path = .error (.malformedInput (path.key name).render d) := by
  rcases ofEntry_cases entry path with ⟨t, ht, -⟩ | ⟨name', d, hlacks, hread⟩
  · exact absurd ⟨t, ht⟩ h.not_describes
  · exact ⟨d, h.unique hlacks ▸ hread⟩

/-! ### Lists of entries -/

/-- What is read of a list are the topologies that its entries describe, in order. -/
lemma ofEntries_eq_ok : ofEntries parent i entries = .ok given ↔
    List.Forall₂ Describes entries given := by
  induction entries generalizing i given with
  | nil => simp [ofEntries, eq_comm]
  | cons entry entries ih =>
      simp only [ofEntries, Outcome.bind_eq_ok, Outcome.pure_eq_ok, ofEntry_eq_ok, ih,
        List.forall₂_cons_left_iff]
      constructor
      · rintro ⟨t, ht, others, hothers, rfl⟩
        exact ⟨t, others, ht, hothers, rfl⟩
      · rintro ⟨t, others, ht, hothers, rfl⟩
        exact ⟨t, ht, others, hothers, rfl⟩

/-- **The first entry that lacks a field decides**, and is named by its index. -/
theorem ofEntries_of_lacks {k : ℕ} (hentry : entries[k]? = some entry) (h : Lacks entry name)
    (hbefore : ∀ m < k, ∀ e, entries[m]? = some e → ∃ t, Describes e t) :
    ∃ d, ofEntries parent i entries =
      .error (.malformedInput ((parent.index (i + k)).key name).render d) := by
  induction entries generalizing i k with
  | nil => cases hentry
  | cons first rest ih =>
      cases k with
      | zero =>
          cases hentry
          obtain ⟨d, hd⟩ := ofEntry_of_lacks h (parent.index i)
          exact ⟨d, by rw [ofEntries, hd]; rfl⟩
      | succ k =>
          obtain ⟨t, ht⟩ := hbefore 0 k.succ_pos first rfl
          obtain ⟨d, hd⟩ := ih (i := i + 1) hentry fun m hm e he =>
            hbefore (m + 1) (Nat.succ_lt_succ hm) e he
          refine ⟨d, ?_⟩
          rw [ofEntries, ofEntry_eq_ok.mpr ht, show i + (k + 1) = i + 1 + k by omega]
          simp only [bind, Except.bind, hd]

/-- All entries describe topologies, or there is a first one that lacks a field. -/
lemma entries_cases (entries : List Json) : (∃ given, List.Forall₂ Describes entries given) ∨
    ∃ (k : ℕ) (entry : Json) (name : String), entries[k]? = some entry ∧ Lacks entry name ∧
      ∀ m < k, ∀ e, entries[m]? = some e → ∃ t, Describes e t := by
  induction entries with
  | nil => exact .inl ⟨[], .nil⟩
  | cons first rest ih =>
      by_cases hfirst : ∃ t, Describes first t
      · obtain ⟨t, ht⟩ := hfirst
        rcases ih with ⟨given, hgiven⟩ | ⟨k, entry, name, hentry, hlacks, hbefore⟩
        · exact .inl ⟨t :: given, .cons ht hgiven⟩
        · refine .inr ⟨k + 1, entry, name, hentry, hlacks, fun m hm e he => ?_⟩
          cases m with
          | zero =>
              cases he
              exact ⟨t, ht⟩
          | succ m => exact hbefore m (Nat.lt_of_succ_lt_succ hm) e he
      · obtain ⟨name, hlacks⟩ := exists_lacks hfirst
        exact .inr ⟨0, first, name, rfl, hlacks, fun m hm => absurd hm m.not_lt_zero⟩

/-! ### Documents -/

/-- The value in which a document lists its topologies: a field of an object, any other value
itself. -/
def listed? : Json → Option Json
  | .obj fields => Json.field? fields "fact_topologies"
  | j => some j

/-- The place of the list. -/
def listPlace : Path := Path.root.key "fact_topologies"

lemma ofJson_eq (j : Json) :
    ofJson j = (listed? j).elim (defect listPlace .missingField) ofList := by
  cases j with
  | obj fields =>
      rw [ofJson, listed?]
      cases Json.field? fields "fact_topologies" <;> rfl
  | _ => rfl

/-- What is read of a list are the topologies that its entries describe; what is no list is
refused. -/
lemma ofList_eq_ok : ofList j = .ok given ↔
    ∃ entries, j = .arr entries ∧ List.Forall₂ Describes entries given := by
  cases j with
  | arr entries =>
      simp only [Json.arr.injEq, exists_eq_left']
      exact ofEntries_eq_ok
  | _ => exact ⟨nofun, fun ⟨_, h, _⟩ => nomatch h⟩

/-- **What is read of a document are the topologies that the entries of its list describe.** -/
theorem ofJson_eq_ok : ofJson j = .ok given ↔
    ∃ entries, listed? j = some (.arr entries) ∧ List.Forall₂ Describes entries given := by
  rw [ofJson_eq]
  cases listed? j with
  | none => simp [defect]
  | some value => simp [ofList_eq_ok]

lemma ofList_of_lacks {k : ℕ} (hentry : entries[k]? = some entry) (h : Lacks entry name)
    (hbefore : ∀ m < k, ∀ e, entries[m]? = some e → ∃ t, Describes e t) :
    ∃ d, ofList (.arr entries) =
      .error (.malformedInput ("fact_topologies[" ++ toString k ++ "]." ++ name) d) := by
  have hread : ofList (.arr entries) = ofEntries listPlace 0 entries := rfl
  have hrender : ((listPlace.index (0 + k)).key name).render =
      "fact_topologies[" ++ toString k ++ "]." ++ name := by
    simp [Path.render, listPlace, String.append_assoc]
  rw [hread, ← hrender]
  exact ofEntries_of_lacks hentry h hbefore

lemma ofJson_of_lacks {k : ℕ} (hlisted : listed? j = some (.arr entries))
    (hentry : entries[k]? = some entry) (h : Lacks entry name)
    (hbefore : ∀ m < k, ∀ e, entries[m]? = some e → ∃ t, Describes e t) :
    ∃ d, ofJson j =
      .error (.malformedInput ("fact_topologies[" ++ toString k ++ "]." ++ name) d) := by
  rw [ofJson_eq, hlisted]
  exact ofList_of_lacks hentry h hbefore

/-- **A document that is refused is a malformed input.** -/
theorem ofJson_eq_error {f : Fault} (h : ofJson j = .error f) :
    ∃ field d, f = .malformedInput field d := by
  rw [ofJson_eq] at h
  cases hlisted : listed? j with
  | none =>
      rw [hlisted] at h
      exact ⟨_, _, (Except.error.inj h).symm⟩
  | some value =>
      rw [hlisted, Option.elim_some] at h
      cases value with
      | arr entries =>
          rcases entries_cases entries with
            ⟨given, hgiven⟩ | ⟨k, entry, name, hentry, hlacks, hbefore⟩
          · have hread : ofList (.arr entries) = .ok given := ofList_eq_ok.mpr ⟨_, rfl, hgiven⟩
            rw [hread] at h
            cases h
          · obtain ⟨d, hd⟩ := ofList_of_lacks hentry hlacks hbefore
            rw [hd] at h
            exact ⟨_, d, (Except.error.inj h).symm⟩
      | _ => exact ⟨_, _, (Except.error.inj h).symm⟩

/-! ### What is accepted -/

/-- **Topologies are accepted exactly when they are well formed, in either shape.** A document
yields topologies exactly when it lists entries that describe them, one by one and in order, and
every other document is refused as a malformed input. If one of the listed entries describes
nothing, the refusal names the first such entry by its index, and in it the sizes of the pages
exactly when the entry has a tree. A list is read alike on its own and as the field of an object. -/
theorem topologies_accepted_exactly (j : Json) :
    (∀ given, ofJson j = .ok given ↔
      ∃ entries, listed? j = some (.arr entries) ∧ List.Forall₂ Describes entries given) ∧
    (∀ f, ofJson j = .error f → ∃ field d, f = .malformedInput field d) ∧
    (∀ entries, listed? j = some (.arr entries) → (∃ e ∈ entries, ¬ ∃ t, Describes e t) →
      ∃ (k : ℕ) (entry : Json) (name : String) (d : Defect), entries[k]? = some entry ∧
        (∀ m < k, ∀ e, entries[m]? = some e → ∃ t, Describes e t) ∧ Lacks entry name ∧
        ofJson j =
          .error (.malformedInput ("fact_topologies[" ++ toString k ++ "]." ++ name) d)) ∧
    ∀ entries, listed? j = some (.arr entries) → ofJson j = ofJson (.arr entries) := by
  refine ⟨fun given => ofJson_eq_ok, fun f hf => ofJson_eq_error hf, fun entries hlisted hbad => ?_,
    fun entries hlisted => ?_⟩
  · rcases entries_cases entries with ⟨given, hgiven⟩ | ⟨k, entry, name, hentry, hlacks, hbefore⟩
    · obtain ⟨e, he, hnot⟩ := hbad
      have hboth : List.Forall₂ (fun e t => (∃ t, Describes e t) ∧ Describes e t) entries given :=
        hgiven.imp fun _ t h => ⟨⟨t, h⟩, h⟩
      exact absurd (((List.forall₂_and_left _ _).mp hboth).1 e he) hnot
    · obtain ⟨d, hd⟩ := ofJson_of_lacks hlisted hentry hlacks hbefore
      exact ⟨k, entry, name, d, hentry, hbefore, hlacks, hd⟩
  · rw [ofJson_eq, hlisted]
    rfl

/-- An entry with a tree of one pair. -/
def pairEntry : Json :=
  .obj [("tree_structure", .arr [.int 1, .int 0]), ("page_sizes", .arr [.int 4])]

/-- An entry with an empty tree, whose sizes are null. -/
def nullSizesEntry : Json := .obj [("page_sizes", .null), ("tree_structure", .arr [])]

lemma describes_pairEntry : Describes pairEntry ⟨[1, 0], [4]⟩ where
  tree := ⟨⟨_, _, rfl, rfl, rfl, by decide⟩, by decide⟩
  sizes := .inr ⟨_, rfl, rfl, by decide⟩

lemma lacks_nullSizesEntry : Lacks nullSizesEntry "page_sizes" := by
  refine .sizes ⟨[], ⟨_, _, rfl, rfl, rfl, by simp⟩, by decide⟩ ?_
  rintro ⟨sizes, ⟨hnone, -⟩ | ⟨value, hvalue, hitems, -⟩⟩
  · cases hnone
  · cases hvalue
    cases hitems

/-- An object that lists both entries is refused for the sizes of the second one. The first one
alone is read, in an object and on its own. -/
theorem nullSizesEntry_refused :
    (∃ d, ofJson (.obj [("fact_topologies", .arr [pairEntry, nullSizesEntry])]) =
      .error (.malformedInput "fact_topologies[1].page_sizes" d)) ∧
    ofJson (.obj [("fact_topologies", .arr [pairEntry])]) = .ok [⟨[1, 0], [4]⟩] ∧
    ofJson (.arr [pairEntry]) = .ok [⟨[1, 0], [4]⟩] := by
  obtain ⟨-, -, hrefused, -⟩ :=
    topologies_accepted_exactly (.obj [("fact_topologies", .arr [pairEntry, nullSizesEntry])])
  obtain ⟨haccepted, -, -, hshape⟩ :=
    topologies_accepted_exactly (.obj [("fact_topologies", .arr [pairEntry])])
  have hread := (haccepted _).mpr ⟨[pairEntry], rfl, .cons describes_pairEntry .nil⟩
  refine ⟨?_, hread, (hshape [pairEntry] rfl).symm.trans hread⟩
  obtain ⟨k, entry, name, d, hentry, -, hlacks, hfault⟩ :=
    hrefused [pairEntry, nullSizesEntry] rfl
      ⟨nullSizesEntry, by simp, lacks_nullSizesEntry.not_describes⟩
  match k, hentry with
  | 0, hentry =>
      cases hentry
      exact absurd ⟨_, describes_pairEntry⟩ hlacks.not_describes
  | 1, hentry =>
      cases hentry
      have hname : name = "page_sizes" := hlacks.unique lacks_nullSizesEntry
      subst hname
      exact ⟨d, hfault⟩

end StarkCalldata.FactTopology
