import StarkCalldata.Json.Reader
import StarkCalldata.Proofs.Json.Token

/-!
Values that are written over several lines and read again.

The reader goes from a value to the state after it, whatever is open around it, and the text of the
value is all it reads on the way. A value inside an array or object is read in the same way with one
more of them open:

* `Json.Readable`: values of strings, arrays and objects with distinct names, nested only so deep;
* `ofFields_of_nodup`: fields with distinct names are kept as they are;
* `Reader.Leads`: the reader goes from one state to another along a text;
* `Reader.leads_items`, `Reader.leads_fields`: the items of an array and the fields of an object;
* `Reader.readsBack_of_readable`: a value, with one lemma for each kind of value before it;
* `parseWithin_pretty`: a whole text.
-/

namespace StarkCalldata.Json

variable {depth n : ℕ} {text rest rest' : List Char} {outer : List Open}

/-- A value of strings, arrays and objects, in which no name occurs twice in an object and at most
`n` arrays and objects are nested. -/
inductive Readable : ℕ → Json → Prop
  | null (n : ℕ) : Readable n .null
  | str (n : ℕ) (s : String) : Readable n (.str s)
  | arr {n : ℕ} {items : List Json} : (∀ j ∈ items, Readable n j) → Readable (n + 1) (.arr items)
  | obj {n : ℕ} {fields : List (String × Json)} :
      (fields.map Prod.fst).Nodup → (∀ f ∈ fields, Readable n f.2) → Readable (n + 1) (.obj fields)

lemma Readable.mono {m : ℕ} {j : Json} (h : Readable n j) (hnm : n ≤ m) : Readable m j := by
  induction h generalizing m with
  | null => exact .null m
  | str _ s => exact .str m s
  | arr _ ih =>
      obtain ⟨m, rfl⟩ : ∃ k, m = k + 1 := ⟨m - 1, by omega⟩
      exact .arr fun j hj => ih j hj (by omega)
  | obj hnames _ ih =>
      obtain ⟨m, rfl⟩ : ∃ k, m = k + 1 := ⟨m - 1, by omega⟩
      exact .obj hnames fun f hf => ih f hf (by omega)

/-! ### Fields -/

lemma setField_of_not_mem {name : String} {value : Json} {fields : List (String × Json)}
    (h : name ∉ fields.map Prod.fst) : setField name value fields = fields ++ [(name, value)] := by
  induction fields with
  | nil => rfl
  | cons first fields ih =>
      obtain ⟨n, v⟩ := first
      rw [List.map_cons, List.mem_cons, not_or] at h
      rw [setField, if_neg (Ne.symm h.1), ih h.2, List.cons_append]

/-- Fields with distinct names are kept as they are. -/
lemma ofFields_of_nodup {fields : List (String × Json)} (h : (fields.map Prod.fst).Nodup) :
    ofFields fields = fields := by
  induction fields using List.reverseRecOn with
  | nil => rfl
  | append_singleton fields f ih =>
      rw [List.map_append, List.nodup_append] at h
      obtain ⟨hfields, -, hdisjoint⟩ := h
      have hfold : ofFields (fields ++ [f]) = setField f.1 f.2 (ofFields fields) := by
        simp [ofFields, List.foldl_append]
      have hnew : f.1 ∉ fields.map Prod.fst :=
        fun hmem => hdisjoint f.1 hmem f.1 (by simp) rfl
      rw [hfold, ih hfields, setField_of_not_mem hnew]

namespace Reader

/-! ### Going along a text -/

/-- The reader goes from one state to another along a text, up to the rest of it. It takes no more
tokens than characters. -/
def Leads (depth : ℕ) (state : Reader) (text : List Char) (state' : Reader) (rest : List Char) :
    Prop :=
  ∃ k, k + rest.length ≤ text.length ∧
    ∀ fuel, run depth (fuel + k) state text = run depth fuel state' rest

variable {state state' state'' : Reader}

/-- A token that is not the end takes the reader one state further, or ends it. -/
lemma run_of_token {t : Token} (htoken : nextToken text = (t, rest)) (ht : t ≠ .finish)
    (fuel : ℕ) (state : Reader) :
    run depth (fuel + 1) state text =
      (step depth state t).bind fun state => run depth fuel state rest := by
  conv_lhs => unfold run
  rw [htoken]
  split
  · rename_i h
    exact absurd (Prod.mk.inj h).1 ht
  · rename_i s _ _ _ _ _ h
    obtain ⟨rfl, rfl⟩ := Prod.mk.inj h
    cases step depth s t <;> rfl

lemma Leads.trans (h : Leads depth state text state' rest)
    (h' : Leads depth state' rest state'' rest') : Leads depth state text state'' rest' := by
  obtain ⟨k, hk, hrun⟩ := h
  obtain ⟨k', hk', hrun'⟩ := h'
  refine ⟨k' + k, by omega, fun fuel => ?_⟩
  rw [← Nat.add_assoc, hrun, hrun']

lemma Leads.of_step {t : Token} (htoken : nextToken text = (t, rest)) (ht : t ≠ .finish)
    (hlength : rest.length < text.length) (hstep : step depth state t = .ok state') :
    Leads depth state text state' rest := by
  refine ⟨1, by omega, fun fuel => ?_⟩
  rw [run_of_token htoken ht, hstep]
  rfl

/-- Blanks make no difference. -/
lemma Leads.of_blanks {blanks : List Char} (hblanks : nextToken (blanks ++ text) = nextToken text)
    (h : Leads depth state text state' rest) :
    Leads depth state (blanks ++ text) state' rest := by
  obtain ⟨k, hk, hrun⟩ := h
  refine ⟨k, by rw [List.length_append]; omega, fun fuel => ?_⟩
  have hsame (fuel : ℕ) : run depth fuel state (blanks ++ text) = run depth fuel state text := by
    cases fuel with
    | zero => rfl
    | succ fuel =>
        unfold run
        rw [hblanks]
  rw [hsame, hrun]

lemma Leads.of_blank (h : Leads depth state text state' rest) :
    Leads depth state (' ' :: text) state' rest :=
  @Leads.of_blanks depth text rest state state' [' '] rfl h

lemma Leads.of_step_eq {t : Token} (htoken : nextToken text = (t, rest')) (ht : t ≠ .finish)
    (hstep : step depth state t = step depth state'' t)
    (h : Leads depth state'' text state' rest) : Leads depth state text state' rest := by
  obtain ⟨k, hk, hrun⟩ := h
  refine ⟨k, hk, fun fuel => ?_⟩
  rw [← hrun]
  cases fuel + k with
  | zero => rfl
  | succ fuel => rw [run_of_token htoken ht, run_of_token htoken ht, hstep]

/-! ### Items and fields -/

/-- Whatever is open around a value, the reader goes along its text to the state after it. -/
def ReadsBack (depth n : ℕ) (j : Json) : Prop :=
  ∀ (level : ℕ) (outer : List Open) (rest : List Char), outer.length + n ≤ depth →
    Leads depth (.value outer) (pretty level j ++ rest) (put j outer) rest

/-- The items of an array up to its end. -/
lemma leads_items {items : List Json} (hitems : ∀ j ∈ items, ReadsBack depth n j) (hne : items ≠ [])
    (level : ℕ) (outer : List Open) (done : List Json) (rest : List Char)
    (hdepth : outer.length + 1 + n ≤ depth) :
    Leads depth (.value (.array done :: outer))
      (prettyItems (level + 1) items ++ (newline level ++ ']' :: rest))
      (put (.arr (done.reverse ++ items)) outer) rest := by
  induction items generalizing done with
  | nil => exact absurd rfl hne
  | cons j items ih =>
      obtain ⟨hj, hitems⟩ := List.forall_mem_cons.mp hitems
      cases items with
      | nil =>
          have hclose : Leads depth (.afterItem outer (j :: done)) (']' :: rest)
              (put (.arr (done.reverse ++ [j])) outer) rest :=
            .of_step nextToken_closeBracket (by simp) (by simp) (by simp [step])
          exact (hj (level + 1) (.array done :: outer) _ hdepth).trans
            (hclose.of_blanks (nextToken_newline level _))
      | cons j' items =>
          have hothers := ih hitems (List.cons_ne_nil j' items) (j :: done)
          rw [List.reverse_cons, List.append_assoc, List.singleton_append] at hothers
          have hcomma : Leads depth (.afterItem outer (j :: done))
              (',' :: (newline (level + 1) ++ (prettyItems (level + 1) (j' :: items)
                ++ (newline level ++ ']' :: rest)))) (.value (.array (j :: done) :: outer)) _ :=
            .of_step nextToken_comma (by simp) (by simp) rfl
          have htext :
              prettyItems (level + 1) (j :: j' :: items) ++ (newline level ++ ']' :: rest) =
                pretty (level + 1) j ++ ',' :: (newline (level + 1) ++
                (prettyItems (level + 1) (j' :: items) ++ (newline level ++ ']' :: rest))) := by
            simp [prettyItems]
          rw [htext]
          exact ((hj (level + 1) (.array done :: outer) _ hdepth).trans hcomma).trans
            (hothers.of_blanks (nextToken_newline (level + 1) _))

/-- The fields of an object up to its end. -/
lemma leads_fields {fields : List (String × Json)} (hfields : ∀ f ∈ fields, ReadsBack depth n f.2)
    (hne : fields ≠ []) (level : ℕ) (outer : List Open) (done : List (String × Json))
    (rest : List Char) (hdepth : outer.length + 1 + n ≤ depth) :
    Leads depth (.nextName outer done)
      (prettyFields (level + 1) fields ++ (newline level ++ '\x7d' :: rest))
      (put (.obj (ofFields (done.reverse ++ fields))) outer) rest := by
  induction fields generalizing done with
  | nil => exact absurd rfl hne
  | cons f fields ih =>
      obtain ⟨name, j⟩ := f
      obtain ⟨hj, hlater⟩ := List.forall_mem_cons.mp hfields
      have hfield (text : List Char) : Leads depth (.nextName outer done)
          (escaped name ++ ':' :: ' ' :: (pretty (level + 1) j ++ text))
          (.afterField outer ((name, j) :: done)) text := by
        have hname : Leads depth (.nextName outer done)
            (escaped name ++ ':' :: ' ' :: (pretty (level + 1) j ++ text))
            (.colon outer done name) _ :=
          .of_step (nextToken_escaped name _) (by simp) (by simp [escaped]; omega) rfl
        have hcolon : Leads depth (.colon outer done name)
            (':' :: ' ' :: (pretty (level + 1) j ++ text))
            (.value (.object done name :: outer)) _ :=
          .of_step nextToken_colon (by simp) (by simp) rfl
        exact (hname.trans hcolon).trans
          (hj (level + 1) (.object done name :: outer) text hdepth).of_blank
      cases fields with
      | nil =>
          have hclose : Leads depth (.afterField outer ((name, j) :: done)) ('\x7d' :: rest)
              (put (.obj (ofFields (done.reverse ++ [(name, j)]))) outer) rest :=
            .of_step nextToken_closeBrace (by simp) (by simp) (by simp [step])
          have htext : prettyFields (level + 1) [(name, j)] ++ (newline level ++ '\x7d' :: rest) =
              escaped name ++ ':' :: ' ' ::
                (pretty (level + 1) j ++ (newline level ++ '\x7d' :: rest)) := by
            simp [prettyFields]
          rw [htext]
          exact (hfield _).trans (hclose.of_blanks (nextToken_newline level _))
      | cons f' fields =>
          have hothers := ih hlater (List.cons_ne_nil f' fields) ((name, j) :: done)
          rw [List.reverse_cons, List.append_assoc, List.singleton_append] at hothers
          have hcomma : Leads depth (.afterField outer ((name, j) :: done))
              (',' :: (newline (level + 1) ++ (prettyFields (level + 1) (f' :: fields)
                ++ (newline level ++ '\x7d' :: rest)))) (.nextName outer ((name, j) :: done)) _ :=
            .of_step nextToken_comma (by simp) (by simp) rfl
          have htext : prettyFields (level + 1) ((name, j) :: f' :: fields) ++
              (newline level ++ '\x7d' :: rest) =
              escaped name ++ ':' :: ' ' :: (pretty (level + 1) j ++ ',' :: (newline (level + 1) ++
                (prettyFields (level + 1) (f' :: fields) ++
                  (newline level ++ '\x7d' :: rest)))) := by
            simp [prettyFields]
          rw [htext]
          exact ((hfield _).trans hcomma).trans
            (hothers.of_blanks (nextToken_newline (level + 1) _))

/-! ### Values -/

lemma pretty_null (level : ℕ) : pretty level .null = ['n', 'u', 'l', 'l'] := by
  rw [pretty]
  · rfl
  all_goals simp

lemma readsBack_null : ReadsBack depth n .null := by
  intro level outer rest _
  rw [pretty_null]
  exact .of_step nextToken_null (by simp) (by simp; omega) rfl

lemma readsBack_str (s : String) : ReadsBack depth n (.str s) := by
  intro level outer rest _
  rw [pretty]
  exact .of_step (nextToken_escaped s rest) (by simp) (by simp [escaped]; omega) rfl

/-- The text of a readable value starts with a token that ends neither an array nor the text. -/
lemma exists_token_pretty {j : Json} (h : Readable n j) (level : ℕ) (rest : List Char) :
    ∃ t rest', nextToken (pretty level j ++ rest) = (t, rest') ∧ t ≠ .closeBracket ∧
      t ≠ .finish := by
  cases h with
  | null =>
      rw [pretty_null]
      exact ⟨_, _, nextToken_null, by simp, by simp⟩
  | str _ s =>
      rw [pretty]
      exact ⟨_, _, nextToken_escaped s rest, by simp, by simp⟩
  | @arr _ items _ => cases items <;> exact ⟨_, _, rfl, by simp, by simp⟩
  | @obj _ fields _ _ => cases fields <;> exact ⟨_, _, rfl, by simp, by simp⟩

/-- An array of readable values is read as it was written. -/
lemma readsBack_arr {items : List Json} (hreadable : ∀ j ∈ items, Readable n j)
    (hitems : ∀ j ∈ items, ReadsBack depth n j) : ReadsBack depth (n + 1) (.arr items) := by
  intro level outer rest hdepth
  have hopen (text : List Char) :
      Leads depth (.value outer) ('[' :: text) (.firstItem outer) text :=
    .of_step nextToken_openBracket (by simp) (by simp) (if_pos (by omega))
  cases items with
  | nil =>
      have hclose : Leads depth (.firstItem outer) (']' :: rest) (put (.arr []) outer) rest :=
        .of_step nextToken_closeBracket (by simp) (by simp) rfl
      rw [pretty]
      exact (hopen _).trans hclose
  | cons j items =>
      have htext : pretty level (.arr (j :: items)) ++ rest =
          '[' :: (newline (level + 1) ++
            (prettyItems (level + 1) (j :: items) ++ (newline level ++ ']' :: rest))) := by
        simp [pretty]
      have hfirst : ∃ t rest', nextToken (prettyItems (level + 1) (j :: items) ++
          (newline level ++ ']' :: rest)) = (t, rest') ∧ t ≠ .closeBracket ∧ t ≠ .finish := by
        have hj := exists_token_pretty (hreadable j (.head _)) (level + 1)
        cases items with
        | nil =>
            rw [prettyItems]
            exact hj _
        | cons j' items =>
            rw [prettyItems, List.append_assoc, List.append_assoc]
            · exact hj _
            · simp
      obtain ⟨t, rest', htoken, hbracket, hfinish⟩ := hfirst
      have hstep :
          step depth (.firstItem outer) t = step depth (.value (.array [] :: outer)) t := by
        cases t <;> first | rfl | exact absurd rfl hbracket
      have hitems := leads_items hitems (List.cons_ne_nil j items) level outer [] rest (by omega)
      rw [htext]
      exact (hopen _).trans ((hitems.of_step_eq htoken hfinish hstep).of_blanks
        (nextToken_newline (level + 1) _))

/-- An object of readable values with distinct names is read as it was written. -/
lemma readsBack_obj {fields : List (String × Json)} (hnames : (fields.map Prod.fst).Nodup)
    (hfields : ∀ f ∈ fields, ReadsBack depth n f.2) : ReadsBack depth (n + 1) (.obj fields) := by
  intro level outer rest hdepth
  have hopen (text : List Char) :
      Leads depth (.value outer) ('\x7b' :: text) (.firstName outer) text :=
    .of_step nextToken_openBrace (by simp) (by simp) (if_pos (by omega))
  cases fields with
  | nil =>
      have hclose : Leads depth (.firstName outer) ('\x7d' :: rest) (put (.obj []) outer) rest :=
        .of_step nextToken_closeBrace (by simp) (by simp) rfl
      rw [pretty]
      exact (hopen _).trans hclose
  | cons f fields =>
      obtain ⟨name, j⟩ := f
      have htext : pretty level (.obj ((name, j) :: fields)) ++ rest =
          '\x7b' :: (newline (level + 1) ++
            (prettyFields (level + 1) ((name, j) :: fields) ++
              (newline level ++ '\x7d' :: rest))) := by
        simp [pretty]
      have hfirst : ∃ rest', nextToken (prettyFields (level + 1) ((name, j) :: fields) ++
          (newline level ++ '\x7d' :: rest)) = (.text name, rest') := by
        cases fields with
        | nil =>
            rw [prettyFields, List.append_assoc]
            exact ⟨_, nextToken_escaped name _⟩
        | cons f' fields =>
            rw [prettyFields, List.append_assoc, List.append_assoc, List.append_assoc]
            · exact ⟨_, nextToken_escaped name _⟩
            · simp
      obtain ⟨rest', htoken⟩ := hfirst
      have hfields := leads_fields hfields (List.cons_ne_nil (name, j) fields) level outer [] rest
        (by omega)
      have hstep : step depth (.firstName outer) (.text name) =
          step depth (.nextName outer []) (.text name) := rfl
      rw [List.reverse_nil, List.nil_append, ofFields_of_nodup hnames] at hfields
      rw [htext]
      exact (hopen _).trans ((hfields.of_step_eq htoken (by simp) hstep).of_blanks
        (nextToken_newline (level + 1) _))

/-- **A readable value is read as it was written**, whatever is open around it. -/
theorem readsBack_of_readable {j : Json} (h : Readable n j) : ReadsBack depth n j := by
  induction h with
  | null => exact readsBack_null
  | str _ s => exact readsBack_str s
  | arr hreadable ih => exact readsBack_arr hreadable ih
  | obj hnames _ ih => exact readsBack_obj hnames ih

end Reader

/-- **A text is read as the value that it was written for**, if this is not nested too deep. -/
theorem parseWithin_pretty {j : Json} (h : Readable n j) (hdepth : n ≤ depth) :
    parseWithin depth (pretty 0 j ++ ['\n']) = .ok j := by
  obtain ⟨k, hk, hrun⟩ := Reader.readsBack_of_readable h 0 [] ['\n'] (by simpa using hdepth)
  obtain ⟨fuel, hfuel⟩ : ∃ fuel, (pretty 0 j ++ ['\n']).length + 1 = (fuel + 1) + k :=
    ⟨(pretty 0 j ++ ['\n']).length - k, by omega⟩
  rw [parseWithin, hfuel, hrun]
  rfl

end StarkCalldata.Json
