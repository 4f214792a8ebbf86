import StarkCalldata.Proofs.Annotations
import StarkCalldata.Proofs.BitLength
import StarkCalldata.Proofs.Memory.Commitment
import StarkCalldata.Proofs.Proof.Writing

/-!
The first part of the public input binds what it speaks of.

The first part is a flat row of words, and the challenges are drawn from its hash. Where two proofs
tell of the same segments, and both or neither of a regular page, each entry is found at the same
place in both rows, so the rows are equal exactly when the proofs agree on everything they speak of:

* `SameStatement`: what two proofs agree on;
* `layoutWord_eq_iff`, `knownSegmentWords_eq_iff`, `openingWords_eq_iff`: the parts of the row, one
  by one;
* `outcome_seed_of_isWellFormed`: the row of a well-formed proof;
* `seed_binds_statement`: equal rows mean equal statements, if the hash does not collide.
-/

namespace StarkCalldata.PublicInput

open Memory Word

/-- Two proofs with their pages agree on all that the first part of the public input speaks of: the
number of friendly layers, the trace length up to its exponent, the bounds of the range check, the
name of the layout up to characters of code zero in front, the known segments, the first cell, and
the pages. -/
structure SameStatement (proof proof' : AnnotatedProof) (layers layers' : Json)
    (facts facts' : PageFacts) : Prop where
  layers : layersEntry proof.parameters layers = layersEntry proof'.parameters layers'
  log2_steps : Nat.log 2 proof.publicInput.steps.toNat = Nat.log 2 proof'.publicInput.steps.toNat
  rangeMin : proof.publicInput.rangeMin = proof'.publicInput.rangeMin
  rangeMax : proof.publicInput.rangeMax = proof'.publicInput.rangeMax
  layout : proof.publicInput.layout.toList.dropWhile (· = '\x00') =
    proof'.publicInput.layout.toList.dropWhile (· = '\x00')
  segments : ∀ name ∈ segmentOrder,
    proof.publicInput.segments.lookup name = proof'.publicInput.segments.lookup name
  padding : proof.publicInput.memory.head?.map Cell.slot =
    proof'.publicInput.memory.head?.map Cell.slot
  count : facts.count = facts'.count
  regular : facts.pairs = facts'.pairs
  continuous : facts.continuous.map (fun p => (p.start, p.values)) =
    facts'.continuous.map fun p => (p.start, p.values)

/-! ### The name of the layout -/

/-- The bytes of a name. -/
def layoutBytes (name : String) : List UInt8 := name.toList.map fun c => UInt8.ofNat c.toNat

/-- The name of a layout as a number. -/
def layoutWord (name : String) : ℕ := ofBytes (layoutBytes name)

variable {name name' : String}

lemma layoutNumber_eq (h : name.toList.all Parsing.isAscii = true) :
    layoutNumber name = .ok (layoutWord name) := by
  rw [layoutNumber, if_pos h]
  rfl

lemma asciiByte_injective {c d : Char} (hc : Parsing.isAscii c = true)
    (hd : Parsing.isAscii d = true) (h : UInt8.ofNat c.toNat = UInt8.ofNat d.toNat) : c = d := by
  have hc' : c.toNat < 128 := of_decide_eq_true hc
  have hd' : d.toNat < 128 := of_decide_eq_true hd
  have hcode := congrArg UInt8.toNat h
  rw [UInt8.toNat_ofNat', UInt8.toNat_ofNat'] at hcode
  have heq : c.toNat = d.toNat := by omega
  rw [← Char.ofNat_toNat c, heq, Char.ofNat_toNat]

/-- The zeros in front of the bytes of ASCII characters are the characters of code zero. -/
lemma dropWhile_asciiBytes {cs : List Char} (h : ∀ c ∈ cs, Parsing.isAscii c = true) :
    (cs.map fun c => UInt8.ofNat c.toNat).dropWhile (· = 0) =
      (cs.dropWhile (· = '\x00')).map fun c => UInt8.ofNat c.toNat := by
  induction cs with
  | nil => rfl
  | cons c cs ih =>
      obtain ⟨hc, hcs⟩ := List.forall_mem_cons.mp h
      by_cases hzero : c = '\x00'
      · rw [List.dropWhile_cons_of_pos (by simpa using hzero), ← ih hcs, hzero]
        rfl
      · have hbyte : UInt8.ofNat c.toNat ≠ 0 := fun hb => hzero (asciiByte_injective hc rfl hb)
        rw [List.dropWhile_cons_of_neg (by simpa using hzero), List.map_cons,
          List.dropWhile_cons_of_neg (by simpa using hbyte)]

/-- The number determines an ASCII name up to characters of code zero in front. -/
lemma layoutWord_eq_iff (h : name.toList.all Parsing.isAscii = true)
    (h' : name'.toList.all Parsing.isAscii = true) :
    layoutWord name = layoutWord name' ↔
      name.toList.dropWhile (· = '\x00') = name'.toList.dropWhile (· = '\x00') := by
  rw [List.all_eq_true] at h h'
  rw [layoutWord, layoutWord, ofBytes_eq_iff, layoutBytes, layoutBytes, dropWhile_asciiBytes h,
    dropWhile_asciiBytes h']
  constructor
  · intro heq
    refine eq_of_map_eq (fun c hc d hd hcd => ?_) heq
    exact asciiByte_injective (h c ((List.dropWhile_sublist _).subset hc))
      (h' d ((List.dropWhile_sublist _).subset hd)) hcd
  · intro heq
    rw [heq]

/-! ### The segments -/

variable {segments segments' : Segments}

/-- What two readers find in a list determines what they find for each member, if they find
something for the same members. -/
lemma eq_of_filterMap_eq {α β : Type} {f g : α → Option β} {as : List α}
    (hpresent : ∀ a ∈ as, (f a).isSome = (g a).isSome) (h : as.filterMap f = as.filterMap g) :
    ∀ a ∈ as, f a = g a := by
  induction as with
  | nil => simp
  | cons a as ih =>
      obtain ⟨ha, has⟩ := List.forall_mem_cons.mp hpresent
      cases hf : f a with
      | none =>
          rw [hf, Option.isSome_none, eq_comm, Option.isSome_eq_false_iff,
            Option.isNone_iff_eq_none] at ha
          rw [List.filterMap_cons_none hf, List.filterMap_cons_none ha] at h
          exact List.forall_mem_cons.mpr ⟨hf.trans ha.symm, ih has h⟩
      | some b =>
          rw [hf, Option.isSome_some, eq_comm] at ha
          obtain ⟨c, hg⟩ := Option.isSome_iff_exists.mp ha
          rw [List.filterMap_cons_some hf, List.filterMap_cons_some hg, List.cons.injEq] at h
          obtain ⟨rfl, hrest⟩ := h
          exact List.forall_mem_cons.mpr ⟨hf.trans hg.symm, ih has hrest⟩

/-- The addresses of the known segments determine the segments, if the same ones are there. -/
lemma knownSegmentWords_eq_iff
    (hpresent : ∀ name ∈ segmentOrder,
      (segments.lookup name).isSome = (segments'.lookup name).isSome) :
    knownSegmentWords segments = knownSegmentWords segments' ↔
      ∀ name ∈ segmentOrder, segments.lookup name = segments'.lookup name := by
  constructor
  · intro h
    refine eq_of_filterMap_eq hpresent ?_
    refine eq_of_map_eq (fun s _ t _ hst => ?_)
      (map_eq_of_flatMap_eq (by decide : 0 < 2) (fun _ => rfl) h)
    obtain ⟨hstart, hstop⟩ : s.start = t.start ∧ s.stop = t.stop := by simpa using hst
    cases s
    cases t
    exact congrArg₂ Segment.mk hstart hstop
  · intro h
    rw [knownSegmentWords, knownSegmentWords, List.filterMap_congr h]

lemma length_knownSegmentWords
    (hpresent : ∀ name ∈ segmentOrder,
      (segments.lookup name).isSome = (segments'.lookup name).isSome) :
    (knownSegmentWords segments).length = (knownSegmentWords segments').length := by
  have hcount (found : Segments) : (knownSegmentWords found).length =
      segmentOrder.countP (fun name => (found.lookup name).isSome) * 2 := by
    simp [knownSegmentWords, List.length_flatMap, List.length_filterMap_eq_countP]
  rw [hcount, hcount, List.countP_congr fun name hname => by rw [hpresent name hname]]

/-! ### The whole row -/

/-- The words about two runs, part by part. -/
lemma openingWords_eq_iff {input input' : PublicInput} (layout layout' : ℕ)
    (padding padding' : Slot)
    (hpresent : ∀ name ∈ segmentOrder,
      (input.segments.lookup name).isSome = (input'.segments.lookup name).isSome) :
    openingWords input layout padding = openingWords input' layout' padding' ↔
      ((bitLength input.steps : ℤ) - 1 = (bitLength input'.steps : ℤ) - 1 ∧
        input.rangeMin = input'.rangeMin ∧ input.rangeMax = input'.rangeMax ∧ layout = layout' ∧
        (∀ name ∈ segmentOrder, input.segments.lookup name = input'.segments.lookup name) ∧
        padding = padding') := by
  rw [← knownSegmentWords_eq_iff hpresent]
  constructor
  · intro h
    have hlength : ([(bitLength input.steps : ℤ) - 1, input.rangeMin, input.rangeMax, (layout : ℤ)]
          ++ knownSegmentWords input.segments).length =
        ([(bitLength input'.steps : ℤ) - 1, input'.rangeMin, input'.rangeMax, (layout' : ℤ)]
          ++ knownSegmentWords input'.segments).length := by
      rw [List.length_append, List.length_append, length_knownSegmentWords hpresent]
      rfl
    obtain ⟨hfront, hback⟩ := List.append_inj h hlength
    obtain ⟨haddress, hvalue⟩ : padding.address = padding'.address ∧
        padding.value = padding'.value := by simpa using hback
    obtain ⟨hlog2, hmin, hmax, hlayout, hsegments⟩ :
        (bitLength input.steps : ℤ) - 1 = (bitLength input'.steps : ℤ) - 1 ∧
          input.rangeMin = input'.rangeMin ∧ input.rangeMax = input'.rangeMax ∧
          (layout : ℤ) = layout' ∧
          knownSegmentWords input.segments = knownSegmentWords input'.segments := by
      simpa only [List.cons_append, List.nil_append, List.cons.injEq] using hfront
    refine ⟨hlog2, hmin, hmax, Int.ofNat_inj.mp hlayout, hsegments, ?_⟩
    cases padding
    cases padding'
    exact congrArg₂ Slot.mk haddress hvalue
  · rintro ⟨hlog2, hmin, hmax, rfl, hsegments, rfl⟩
    rw [openingWords, openingWords, hlog2, hmin, hmax, hsegments]

variable {proof proof' : AnnotatedProof} {facts facts' : PageFacts}

/-- The first part of the public input of a well-formed proof. -/
lemma outcome_seed_of_isWellFormed (hproof : proof.IsWellFormed)
    (hfacts : (PageFacts.ofCells proof.publicInput.memory).outcome = .ok facts) (layers : Json) :
    ∃ padding, proof.publicInput.memory.head?.map Cell.slot = some padding ∧
      (seed proof facts layers).outcome = .ok (layersEntry proof.parameters layers ::
        (openingWords proof.publicInput (layoutWord proof.publicInput.layout) padding
          ++ (facts.count : ℤ) :: facts.words).map .int) := by
  obtain ⟨infos, hinfos, hwords⟩ :=
    PageFacts.exists_sortedPages (PageFacts.fits_of_canonical hproof.input.canonical hfacts)
      (PageFacts.hasRows_of_ofCells hfacts)
  cases hmemory : proof.publicInput.memory with
  | nil => exact absurd hmemory hproof.input.memory_ne_nil
  | cons padding rest =>
      refine ⟨padding.slot, rfl, ?_⟩
      rw [outcome_seed, layoutNumber_eq hproof.input.layout_ascii, hmemory, hinfos, ← hwords]
      rfl

/-- Memories that both have a cell on the regular page, or both have none, both have a regular page,
or both have none. -/
lemma isSome_regular_congr {cells cells' : List Cell}
    (hfacts : (PageFacts.ofCells cells).outcome = .ok facts)
    (hfacts' : (PageFacts.ofCells cells').outcome = .ok facts')
    (h : (∃ c ∈ cells, c.page = regularPage) ↔ ∃ c ∈ cells', c.page = regularPage) :
    facts.regular.isSome = facts'.regular.isSome := by
  rw [PageFacts.regular_of_ofCells hfacts, PageFacts.regular_of_ofCells hfacts']
  by_cases hcell : ∃ c ∈ cells, c.page = regularPage
  · rw [if_pos hcell, if_pos (h.mp hcell)]
    rfl
  · rw [if_neg hcell, if_neg fun hcell' => hcell (h.mpr hcell')]

/-- **The first part of the public input binds the statement.** Take two parsed proofs with their
pages that tell of the same known segments, and both or neither of a cell on the regular page. Both
have a first part, and the two are equal if the proofs agree on all that it speaks of; and only if,
provided that the hash does not collide on the contents of the pages. -/
theorem seed_binds_statement {j j' : Json} (layers layers' : Json)
    (hproof : (AnnotatedProof.ofJson j).outcome = .ok proof)
    (hproof' : (AnnotatedProof.ofJson j').outcome = .ok proof')
    (hfacts : (PageFacts.ofCells proof.publicInput.memory).outcome = .ok facts)
    (hfacts' : (PageFacts.ofCells proof'.publicInput.memory).outcome = .ok facts')
    (hpresent : ∀ name ∈ segmentOrder, (proof.publicInput.segments.lookup name).isSome =
      (proof'.publicInput.segments.lookup name).isSome)
    (hregular : (∃ c ∈ proof.publicInput.memory, c.page = regularPage) ↔
      ∃ c ∈ proof'.publicInput.memory, c.page = regularPage) :
    ∃ first first', (seed proof facts layers).outcome = .ok first ∧
      (seed proof' facts' layers').outcome = .ok first' ∧
      (SameStatement proof proof' layers layers' facts facts' → first = first') ∧
      (facts.CollisionFree facts' → first = first' →
        SameStatement proof proof' layers layers' facts facts') := by
  have hwell := AnnotatedProof.isWellFormed_of_ofJson hproof
  have hwell' := AnnotatedProof.isWellFormed_of_ofJson hproof'
  obtain ⟨padding, hpadding, hseed⟩ := outcome_seed_of_isWellFormed hwell hfacts layers
  obtain ⟨padding', hpadding', hseed'⟩ := outcome_seed_of_isWellFormed hwell' hfacts' layers'
  have hlayout := layoutWord_eq_iff hwell.input.layout_ascii hwell'.input.layout_ascii
  have hopening := openingWords_eq_iff (layoutWord proof.publicInput.layout)
    (layoutWord proof'.publicInput.layout) padding padding' hpresent
  rw [bitLength_sub_one hwell.input.steps_pos, bitLength_sub_one hwell'.input.steps_pos,
    Int.ofNat_inj, hlayout] at hopening
  refine ⟨_, _, hseed, hseed', fun h => ?_, fun hfree h => ?_⟩
  · have hpaddings : padding = padding' :=
      Option.some.inj (hpadding.symm.trans (h.padding.trans hpadding'))
    have hwords := hopening.mpr
      ⟨h.log2_steps, h.rangeMin, h.rangeMax, h.layout, h.segments, hpaddings⟩
    rw [h.layers, hwords, h.count, PageFacts.words_congr h.regular h.continuous]
  · obtain ⟨hlayers, hrow⟩ := List.cons.inj h
    have hint : Function.Injective (Json.int : ℤ → Entry) := fun a b hab => Json.int.inj hab
    have hlength : (openingWords proof.publicInput (layoutWord proof.publicInput.layout)
        padding).length = (openingWords proof'.publicInput
          (layoutWord proof'.publicInput.layout) padding').length := by
      simp [openingWords, length_knownSegmentWords hpresent]
    obtain ⟨hfront, hback⟩ := List.append_inj (List.map_injective_iff.mpr hint hrow) hlength
    obtain ⟨hcount, hwords⟩ := List.cons.inj hback
    obtain ⟨hlog2, hmin, hmax, hname, hsegments, hpaddings⟩ := hopening.mp hfront
    obtain ⟨hslots, hpages⟩ := PageFacts.pages_eq_of_words_eq hfree
      (PageFacts.fits_of_canonical hwell.input.canonical hfacts)
      (PageFacts.fits_of_canonical hwell'.input.canonical hfacts')
      (isSome_regular_congr hfacts hfacts' hregular) hwords
    refine ⟨hlayers, hlog2, hmin, hmax, hname, hsegments, ?_, Int.ofNat_inj.mp hcount,
      congrArg (Option.map interleave) hslots, hpages⟩
    rw [hpadding, hpadding', hpaddings]

/-- The short proof with a longer trace of the same exponent, a longer name of the same number, and
the continuous page from its end and with another number. -/
def disguisedProof : AnnotatedProof :=
  { shortProof with publicInput :=
    { shortProof.publicInput with
      steps := 31, layout := "\x00tiny"
      memory := [⟨0, 1, 5⟩, ⟨0, 2, 6⟩, ⟨7, 6, 8⟩, ⟨7, 4, 7⟩] } }

/-- The pages of the disguised proof. -/
def disguisedFacts : PageFacts :=
  ⟨some [⟨1, 5⟩, ⟨2, 6⟩], [⟨7, 4, [7, 0, 8]⟩],
    PageTable.ofCells disguisedProof.publicInput.memory⟩

/-- The hash does not collide on the contents of the short and of the disguised proof. -/
lemma collisionFree_disguisedFacts : shortFacts.CollisionFree disguisedFacts := by
  have hdigests : Keccak.digest (packed [1, 5, 2, 6]) ≠ Keccak.digest (packed [7, 0, 8]) := by
    rw [Keccak.digest_eq, Keccak.digest_eq]
    decide +kernel
  have hcontents : shortFacts.contents = [[1, 5, 2, 6], [7, 0, 8]] := rfl
  have hcontents' : disguisedFacts.contents = [[1, 5, 2, 6], [7, 0, 8]] := rfl
  have hregular : ([1, 5, 2, 6] : List ℤ).map Int.toNat = [1, 5, 2, 6] := rfl
  have hcontinuous : ([7, 0, 8] : List ℤ).map Int.toNat = [7, 0, 8] := rfl
  intro row hrow row' hrow' bytes bytes' hbytes hbytes' hdigest
  obtain ⟨-, rfl⟩ := Entry.packIntegers_eq_ok.mp hbytes
  obtain ⟨-, rfl⟩ := Entry.packIntegers_eq_ok.mp hbytes'
  rw [hcontents] at hrow
  rw [hcontents'] at hrow'
  rcases List.mem_pair.mp hrow with rfl | rfl <;> rcases List.mem_pair.mp hrow' with rfl | rfl
  · rfl
  · rw [hregular, hcontinuous] at hdigest
    exact absurd hdigest hdigests
  · rw [hregular, hcontinuous] at hdigest
    exact absurd hdigest.symm hdigests
  · rfl

/-- The first part of the public input does not tell the disguised proof from the short one, but it
does when another number of friendly layers is asked for. -/
theorem disguisedProof_sameSeed :
    (seed shortProof shortFacts .null).outcome =
        (seed disguisedProof disguisedFacts .null).outcome ∧
      (seed shortProof shortFacts (.int 3)).outcome ≠
        (seed disguisedProof disguisedFacts .null).outcome := by
  have hshort : (AnnotatedProof.ofJson shortProof.toJson).outcome = .ok shortProof :=
    Outcome.toOption_eq_some.mp (by decide +kernel)
  have hdisguised : (AnnotatedProof.ofJson disguisedProof.toJson).outcome = .ok disguisedProof :=
    Outcome.toOption_eq_some.mp (by decide +kernel)
  have hfacts : (PageFacts.ofCells shortProof.publicInput.memory).outcome = .ok shortFacts := rfl
  have hfacts' : (PageFacts.ofCells disguisedProof.publicInput.memory).outcome =
      .ok disguisedFacts := rfl
  have hpresent : ∀ name ∈ segmentOrder, (shortProof.publicInput.segments.lookup name).isSome =
      (disguisedProof.publicInput.segments.lookup name).isSome := by decide
  have hregular : (∃ c ∈ shortProof.publicInput.memory, c.page = regularPage) ↔
      ∃ c ∈ disguisedProof.publicInput.memory, c.page = regularPage := by decide
  constructor
  · obtain ⟨first, first', hfirst, hfirst', hsame, -⟩ := seed_binds_statement .null .null hshort
      hdisguised hfacts hfacts' hpresent hregular
    have hstatement : SameStatement shortProof disguisedProof .null .null shortFacts
        disguisedFacts := by
      refine ⟨rfl, ?_, rfl, rfl, by decide, fun _ _ => rfl, rfl, rfl, rfl, rfl⟩
      rw [← Nat.log2_eq_log_two, ← Nat.log2_eq_log_two]
      rfl
    rw [hfirst, hfirst', hsame hstatement]
  · obtain ⟨first, first', hfirst, hfirst', -, hbinds⟩ := seed_binds_statement (.int 3) .null hshort
      hdisguised hfacts hfacts' hpresent hregular
    rw [hfirst, hfirst']
    intro h
    have hstatement := hbinds collisionFree_disguisedFacts (Except.ok.inj h)
    cases hstatement.layers

end StarkCalldata.PublicInput
