import Mathlib.Tactic
import StarkCalldata.Disk
import StarkCalldata.Proofs.Outcome

/-!
Files that are written as a whole.

A file is written into a fresh one, which then takes its place. As nothing stood where the fresh
file is made, removing it leaves the disk as it was before, and putting it in the place of the
target leaves the disk with nothing but the target changed:

* `node?_put`, `node?_put_of_ne`: what stands where after a node has been put;
* `remove_put_of_free`, `put_put_of_free`: a node that is put where nothing stood can be removed and
  exchanged without a trace;
* `walk_of_directories`, `walk_of_filter`: a path leads to the same location on every disk with the
  same directories, and empty names do not matter to it;
* `rename_put_of_free`: the fresh file in the place of the target;
* `Circumstances.IsFresh`, `isFresh_standard`: the name that is drawn is not taken, and there is
  always such a name;
* `saveUnder_cases`: a file is written, or the disk is as before;
* `read_put_of_target`: the file that is written is the one that is read.
-/

namespace StarkCalldata.Disk

open Location

variable {disk disk' : Disk} {location fresh start : Location} {node node' : Node} {path : String}
  {bytes : List UInt8} {c : Circumstances}

/-! ### Nodes -/

lemma lookup_cons (l l' : Location) (n : Node) (nodes : List (Location × Node)) :
    ((l', n) :: nodes).lookup l = if l = l' then some n else nodes.lookup l := by
  rw [List.lookup_cons]
  split
  · rename_i h
    rw [if_pos (beq_iff_eq.mp h)]
  · rename_i h
    rw [if_neg (beq_eq_false_iff_ne.mp h)]

/-- No node is found where no one is. -/
lemma lookup_eq_none {nodes : List (Location × Node)} :
    nodes.lookup location = none ↔ ∀ m ∈ nodes, m.1 ≠ location := by
  induction nodes with
  | nil => simp
  | cons m nodes ih =>
      obtain ⟨l, n⟩ := m
      rw [lookup_cons, List.forall_mem_cons]
      split_ifs with hl
      · simp [hl]
      · rw [ih]
        exact ⟨fun h => ⟨Ne.symm hl, h⟩, fun h => h.2⟩

lemma node?_eq_none :
    disk.node? location = none ↔
      ¬ (location.isAbove ∨ location = top) ∧ ∀ m ∈ disk.nodes, m.1 ≠ location := by
  rw [node?]
  split_ifs with habove
  · simp [habove]
  · rw [lookup_eq_none]
    exact ⟨fun h => ⟨habove, h⟩, fun h => h.2⟩

/-- Nodes of which one has been set in place. -/
lemma lookup_map_set (l : Location) (nodes : List (Location × Node)) :
    (nodes.map fun m => if m.1 = location then (location, node) else m).lookup l =
      if l = location then (nodes.lookup l).map fun _ => node else nodes.lookup l := by
  induction nodes with
  | nil => simp
  | cons m nodes ih =>
      obtain ⟨l', n⟩ := m
      rw [List.map_cons, lookup_cons]
      by_cases hl' : l' = location
      · rw [if_pos hl', lookup_cons, ih, hl']
        split_ifs <;> rfl
      · rw [if_neg hl', lookup_cons, ih]
        by_cases hl : l = l'
        · have hne : l ≠ location := fun h => hl' (hl ▸ h)
          simp [hl, hl']
        · simp [hl]

/-- The nodes after one has been put. -/
lemma lookup_put (l : Location) :
    (disk.put location node).nodes.lookup l =
      if l = location then some node else disk.nodes.lookup l := by
  rw [put]
  split_ifs with htaken hl hl
  · obtain ⟨m, hm, hlocation⟩ := List.any_eq_true.mp htaken
    have hsome : disk.nodes.lookup location ≠ none :=
      fun h => lookup_eq_none.mp h m hm (beq_iff_eq.mp hlocation)
    obtain ⟨n, hn⟩ := Option.ne_none_iff_exists'.mp hsome
    rw [lookup_map_set, if_pos hl, hl, hn, Option.map_some]
  · rw [lookup_map_set, if_neg hl]
  · have hnone : disk.nodes.lookup location = none := by
      rw [lookup_eq_none]
      exact fun m hm h => htaken (List.any_eq_true.mpr ⟨m, hm, beq_iff_eq.mpr h⟩)
    rw [List.lookup_append, hl, hnone, lookup_cons, if_pos rfl, Option.none_or]
  · rw [List.lookup_append, lookup_cons, if_neg hl, List.lookup_nil, Option.or_none]

/-- A node stands where it has been put, unless that is a directory above. -/
lemma node?_put (h : disk.node? location ≠ some .directory) :
    (disk.put location node).node? location = some node := by
  rw [node?] at h ⊢
  split_ifs at h ⊢ with habove
  · exact absurd rfl h
  · rw [lookup_put, if_pos rfl]

/-- Elsewhere nothing changes. -/
lemma node?_put_of_ne {l : Location} (h : l ≠ location) :
    (disk.put location node).node? l = disk.node? l := by
  rw [node?, node?, lookup_put, if_neg h]

/-! ### Where nothing stood -/

lemma put_of_free (h : disk.node? fresh = none) :
    disk.put fresh node = ⟨disk.nodes ++ [(fresh, node)]⟩ := by
  obtain ⟨-, hfree⟩ := node?_eq_none.mp h
  rw [put, if_neg]
  intro htaken
  obtain ⟨m, hm, hlocation⟩ := List.any_eq_true.mp htaken
  exact hfree m hm (beq_iff_eq.mp hlocation)

/-- A node that is put where nothing stood can be exchanged. -/
lemma put_put_of_free (h : disk.node? fresh = none) :
    (disk.put fresh node).put fresh node' = disk.put fresh node' := by
  obtain ⟨-, hfree⟩ := node?_eq_none.mp h
  have hkeep : disk.nodes.map (fun m => if m.1 = fresh then (fresh, node') else m) = disk.nodes :=
    (List.map_congr_left fun m hm => if_neg (hfree m hm)).trans (List.map_id _)
  rw [put_of_free h, put_of_free h, put, if_pos (by simp), List.map_append, hkeep]
  simp

/-- A node that is put where nothing stood can be removed. -/
lemma remove_put_of_free (h : disk.node? fresh = none) :
    (disk.put fresh node).remove fresh = disk := by
  obtain ⟨-, hfree⟩ := node?_eq_none.mp h
  have hkeep : disk.nodes.filter (fun m => decide (m.1 ≠ fresh)) = disk.nodes :=
    List.filter_eq_self.mpr fun m hm => decide_eq_true (hfree m hm)
  rw [put_of_free h, remove, List.filter_append, hkeep]
  simp

/-! ### Paths -/

/-- A path leads to the same location on a disk with the same directories. -/
lemma walk_of_directories {names : List String}
    (hdirectories : ∀ l, disk.node? l = some .directory → disk'.node? l = some .directory)
    (h : disk.walk path start names = .ok location) :
    disk'.walk path start names = .ok location := by
  induction names generalizing start with
  | nil => exact h
  | cons name names ih =>
      rw [walk] at h ⊢
      cases hnode : disk.node? start with
      | none =>
          rw [hnode] at h
          cases h
      | some node =>
          rw [hnode] at h
          cases node with
          | file bytes => cases h
          | directory =>
              rw [hdirectories start hnode]
              simp only at h ⊢
              split_ifs at h ⊢
              exact ih h

lemma directory_of_walk {names : List String} (hne : names ≠ [])
    (h : disk.walk path start names = .ok location) : disk.node? start = some .directory := by
  cases names with
  | nil => exact absurd rfl hne
  | cons name names =>
      rw [walk] at h
      split at h
      · assumption
      · cases h
      · cases h

/-- Empty names do not matter to where a path leads, as long as the last name is not empty. -/
lemma walk_of_filter {names : List String} (hlast : names.getLast? ≠ some "")
    (h : disk.walk path start (names.filter (· ≠ "")) = .ok location) :
    disk.walk path start names = .ok location := by
  induction names generalizing start with
  | nil => exact h
  | cons name names ih =>
      by_cases hname : name = ""
      · subst hname
        have hkeep : (("" :: names).filter (· ≠ "")) = names.filter (· ≠ "") := by simp
        rw [hkeep] at h
        cases names with
        | nil => exact absurd rfl hlast
        | cons name names =>
            rw [List.getLast?_cons_cons] at hlast
            have hne : ((name :: names).filter (· ≠ "")) ≠ [] := by
              intro hnil
              obtain ⟨last, hlast'⟩ := Option.ne_none_iff_exists'.mp
                (mt List.getLast?_eq_none_iff.mp (List.cons_ne_nil name names))
              have hempty : ¬ (last ≠ "") := by
                simpa using List.filter_eq_nil_iff.mp hnil last (List.mem_of_getLast? hlast')
              rw [not_not] at hempty
              exact hlast (hempty ▸ hlast')
            have hdirectory := directory_of_walk hne h
            rw [walk, hdirectory]
            simp only
            rw [if_pos (by decide)]
            exact ih hlast h
      · have hkeep : ((name :: names).filter (· ≠ "")) = name :: names.filter (· ≠ "") := by
          simp [hname]
        rw [hkeep, walk] at h
        rw [walk]
        split at h
        · split_ifs at h ⊢
          refine ih (fun hlast' => hlast ?_) h
          rw [List.getLast?_cons, hlast', Option.getD_some]
        · cases h
        · cases h

/-- Whether a path can name a file is read off the path alone: it can be a path, and it ends in a
name that is neither empty nor leads to a directory. -/
structure NamesFile (path : String) : Prop where
  check : checkPath path = .ok ()
  last : (names path).2.getLast? ≠ some ""
  spelled : ∃ name, ((names path).2.filter (· ≠ "")).getLast? = some name ∧ name ≠ "." ∧ name ≠ ".."

/-- The target of a path. -/
lemma target_eq_ok :
    disk.target path = .ok location ↔
      NamesFile path ∧
        disk.walk path (names path).1 ((names path).2.filter (· ≠ "")) = .ok location ∧
        disk.node? location ≠ some .directory := by
  simp only [target, Outcome.bind_eq_ok]
  constructor
  · rintro ⟨_, hcheck, found, hwalk, h⟩
    split at h
    · cases h
    · cases h
    · cases h
    · rename_i name hdot hdots hname
      split_ifs at h with hempty
      split at h
      · cases h
      · rename_i hnode
        cases h
        exact ⟨⟨hcheck, hempty, name, hname, fun h => hdot h, fun h => hdots h⟩, hwalk, hnode⟩
  · rintro ⟨⟨hcheck, hlast, name, hname, hdot, hdots⟩, hwalk, hnode⟩
    refine ⟨(), hcheck, location, hwalk, ?_⟩
    rw [hname]
    split
    · rename_i h
      cases h
    · rename_i h
      exact absurd (Option.some.inj h) hdot
    · rename_i h
      exact absurd (Option.some.inj h) hdots
    · rw [if_neg hlast]
      split
      · rename_i h
        exact absurd h hnode
      · rfl

/-- The target of a path is the same on a disk with the same directories, unless one is there. -/
lemma target_of_directories
    (hdirectories : ∀ l, disk.node? l = some .directory → disk'.node? l = some .directory)
    (h : disk.target path = .ok location) (hnode : disk'.node? location ≠ some .directory) :
    disk'.target path = .ok location := by
  obtain ⟨hpath, hwalk, -⟩ := target_eq_ok.mp h
  exact target_eq_ok.mpr ⟨hpath, walk_of_directories hdirectories hwalk, hnode⟩

/-- The fresh file in the place of the target. -/
lemma rename_put_of_free (hfree : disk.node? fresh = none) {renamed : Disk}
    (h : (disk.put fresh (.file bytes)).rename fresh path = .ok renamed) :
    ∃ location, disk.target path = .ok location ∧ renamed = disk.put location (.file bytes) := by
  have hfile : (disk.put fresh (.file bytes)).node? fresh = some (.file bytes) :=
    node?_put (by simp [hfree])
  obtain ⟨location, htarget, h⟩ := Outcome.bind_eq_ok.mp h
  rw [hfile, remove_put_of_free hfree] at h
  cases h
  -- the fresh file is no directory, and elsewhere the disks do not differ
  have hdirectories (l : Location)
      (hl : (disk.put fresh (.file bytes)).node? l = some .directory) :
      disk.node? l = some .directory := by
    by_cases hfresh : l = fresh
    · rw [hfresh, hfile] at hl
      cases hl
    · rwa [node?_put_of_ne hfresh] at hl
  refine ⟨location, target_of_directories hdirectories htarget ?_, rfl⟩
  obtain ⟨-, -, hnode⟩ := target_eq_ok.mp htarget
  by_cases hfresh : location = fresh
  · rw [hfresh, hfree]
    exact nofun
  · rwa [node?_put_of_ne hfresh] at hnode

/-! ### Saving -/

/-- The file that is made has a name that is not taken. -/
def Circumstances.IsFresh (c : Circumstances) (disk : Disk) (path : String) : Prop :=
  ∀ location, disk.freshLocation (freshName c.drawn) path = .ok location →
    disk.node? location = none

lemma free_of_create (hfresh : c.IsFresh disk path) (h : disk.create c path = .ok fresh) :
    disk.node? fresh = none := by
  rw [create] at h
  split at h
  · cases h
  · exact hfresh fresh h

lemma fill_cases (c : Circumstances) (hfree : disk.node? fresh = none) (bytes : List UInt8) :
    (disk.put fresh (.file [])).fill c fresh bytes = (.ok (), disk.put fresh (.file bytes)) ∨
      ∃ fault found, (disk.put fresh (.file [])).fill c fresh bytes =
        (.error fault, disk.put fresh (.file found)) := by
  rw [fill]
  split
  · rw [put_put_of_free hfree]
    exact .inr ⟨_, _, rfl⟩
  · rw [put_put_of_free hfree]
    exact .inl rfl

lemma rename_of_replace {replaced : Disk} (h : disk.replace c fresh path = .ok replaced) :
    disk.rename fresh path = .ok replaced := by
  rw [replace] at h
  split at h
  · cases h
  · exact h

/-- **A file is written as a whole, or the disk is as before**, whatever comes in the way. -/
theorem saveUnder_cases (hfresh : c.IsFresh disk path) (bytes : List UInt8) :
    (∃ fault, disk.saveUnder c path bytes = (.error fault, disk)) ∨
      ∃ location, disk.target path = .ok location ∧
        disk.saveUnder c path bytes = (.ok (), disk.put location (.file bytes)) := by
  rw [saveUnder]
  cases hcreate : disk.create c path with
  | error fault => exact .inl ⟨fault, rfl⟩
  | ok fresh =>
      have hfree := free_of_create hfresh hcreate
      simp only
      rcases fill_cases c hfree bytes with hfilled | ⟨fault, found, hfilled⟩
      · rw [hfilled]
        cases hreplace : (disk.put fresh (.file bytes)).replace c fresh path with
        | error fault =>
            simp only
            rw [hreplace, remove_put_of_free hfree]
            exact .inl ⟨fault, rfl⟩
        | ok replaced =>
            obtain ⟨location, htarget, rfl⟩ := rename_put_of_free hfree (rename_of_replace hreplace)
            simp only
            rw [hreplace]
            exact .inr ⟨location, htarget, rfl⟩
      · rw [hfilled]
        simp only
        rw [remove_put_of_free hfree]
        exact .inl ⟨fault, rfl⟩

/-- A path with one more name leads one name further. -/
lemma walk_append_singleton {names : List String} {name : String}
    (h : disk.walk path start (names ++ [name]) = .ok location) :
    ∃ before, location = follow before name := by
  induction names generalizing start with
  | nil =>
      rw [List.nil_append, walk] at h
      split at h
      · split_ifs at h
        cases h
        exact ⟨start, rfl⟩
      · cases h
      · cases h
  | cons first names ih =>
      rw [List.cons_append, walk] at h
      split at h
      · split_ifs at h
        exact ih h
      · cases h
      · cases h

lemma freshName_eq (drawn : String) :
    freshName drawn = ".verifier_input." ++ drawn ++ ".json" := rfl

lemma two_lt_length_freshName (drawn : String) : 2 < (freshName drawn).length := by
  have hstart : ".verifier_input.".length = 16 := rfl
  rw [freshName_eq, String.length_append, String.length_append, hstart]
  omega

lemma follow_freshName (before : Location) (drawn : String) :
    follow before (freshName drawn) = before ++ [freshName drawn] := by
  have hlength := two_lt_length_freshName drawn
  have hne (name : String) (hname : name.length ≤ 2) : freshName drawn ≠ name := by
    rintro rfl
    omega
  rw [follow, if_neg (not_or.mpr ⟨hne "" (by decide), hne "." (by decide)⟩),
    if_neg (hne ".." (by decide))]

lemma freshName_injective : Function.Injective freshName := by
  intro drawn drawn' h
  have hlist := congrArg String.toList h
  simp only [freshName_eq, String.toList_append, List.append_assoc] at hlist
  exact String.toList_inj.mp (List.append_cancel_right (List.append_cancel_left hlist))

lemma zeros_injective : Function.Injective zeros := by
  intro i j h
  have hlength := congrArg String.length h
  simp only [zeros, String.length_ofList, List.length_replicate] at hlength
  omega

/-- Among the zeros that are tried, some make a name that is not taken, since more are tried than
names are taken. -/
lemma freshName_freshDraw_not_mem (disk : Disk) : freshName disk.freshDraw ∉ disk.takenNames := by
  rw [freshDraw]
  set tried := (List.range (disk.takenNames.length + 1)).map zeros with htried
  cases hfound : tried.find? fun drawn => !disk.takenNames.contains (freshName drawn) with
  | some drawn => simpa using List.find?_some hfound
  | none =>
      have htaken : tried.map freshName ⊆ disk.takenNames := by
        intro name hname
        obtain ⟨drawn, hdrawn, rfl⟩ := List.mem_map.mp hname
        simpa using List.find?_eq_none.mp hfound drawn hdrawn
      have hnodup : (tried.map freshName).Nodup :=
        (List.nodup_range.map zeros_injective).map freshName_injective
      have hlength := (hnodup.subperm htaken).length_le
      simp [htried] at hlength

/-- **There is always a name that is not taken.** -/
theorem isFresh_standard (disk : Disk) (path : String) : disk.standard.IsFresh disk path := by
  intro location h
  rw [freshLocation] at h
  split_ifs at h
  obtain ⟨before, rfl⟩ := walk_append_singleton h
  rw [follow_freshName, standard]
  have hlength := two_lt_length_freshName disk.freshDraw
  refine node?_eq_none.mpr ⟨?_, fun m hm hlocation => ?_⟩
  · rintro (habove | htop)
    · have hlast : freshName disk.freshDraw = ".." := by
        simpa using List.all_eq_true.mp habove (freshName disk.freshDraw) (by simp)
      rw [hlast] at hlength
      exact absurd hlength (by decide)
    · have hlast : freshName disk.freshDraw = "/" := by
        have hgetLast := congrArg List.getLast? htop
        simpa [top] using hgetLast
      rw [hlast] at hlength
      exact absurd hlength (by decide)
  · refine freshName_freshDraw_not_mem disk (List.mem_flatMap.mpr ⟨m, hm, ?_⟩)
    rw [hlocation]
    exact List.mem_append_right before (.head _)

/-! ### Reading -/

/-- **The file that is written is the one that is read.** -/
theorem read_put_of_target (h : disk.target path = .ok location) :
    (disk.put location (.file bytes)).read path = .ok bytes := by
  obtain ⟨hpath, hwalk, hnode⟩ := target_eq_ok.mp h
  have hdirectories (l : Location) (hl : disk.node? l = some .directory) :
      (disk.put location (.file bytes)).node? l = some .directory := by
    rw [node?_put_of_ne, hl]
    rintro rfl
    exact hnode hl
  have hlocate : (disk.put location (.file bytes)).locate path = .ok location :=
    Outcome.bind_eq_ok.mpr ⟨(), hpath.check,
      walk_of_filter hpath.last (walk_of_directories hdirectories hwalk)⟩
  refine Outcome.bind_eq_ok.mpr ⟨location, hlocate, ?_⟩
  rw [node?_put hnode]
  rfl

end StarkCalldata.Disk
