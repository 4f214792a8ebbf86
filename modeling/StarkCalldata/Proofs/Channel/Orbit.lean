import Mathlib.Data.Nat.Count
import StarkCalldata.Proofs.Challenge.Replay
import StarkCalldata.Proofs.Keccak.Rows
import StarkCalldata.Proofs.Word

/-!
Draws along the orbit of a channel.

Hashing a channel again and again gives its orbit, as far as the counter fits into a word. A draw
walks along the orbit to the first acceptable digest and one hash beyond; the retries only say how
far it may walk. Everything about draws follows from the one fact that seeking ends where the orbit
first becomes acceptable (`seek_eq_ok`), or at the end of its retries (`seek_eq_exhausted`):

* `after`, `counter_of_after`, `exists_after`: the orbit, its counters and how far it reaches;
* `StopsAt`: the place where an orbit first becomes acceptable;
* `draw_eq_ok`, `draw_eq_exhausted`: when a draw has an element and when it runs out of retries, with
  the channel it leaves behind;
* `IsRow`, `isRow_of_drawMany`: draws in a row and the hashes they have taken;
* `lt_of_draw`, `lt_of_mem_drawMany`: what is drawn is an element of the field;
* `draw_stops_at_first`: the theorem.
-/

namespace StarkCalldata.Channel

open Word

variable {c s next found last : Channel} {fault : Fault} {retries : Json} {j k n e : ℕ}

/-! ### The orbit -/

/-- The channel after a number of hashes in a row. -/
def after (c : Channel) : ℕ → Except Fault Channel
  | 0 => .ok c
  | k + 1 => (c.after k).bind advance

lemma after_add (h : c.after j = .ok s) (k : ℕ) : c.after (j + k) = s.after k := by
  induction k with
  | zero => exact h
  | succ k ih => rw [← Nat.add_assoc, after, ih, after]

lemma after_succ (h : c.advance = .ok next) (k : ℕ) : c.after (k + 1) = next.after k := by
  have hone : c.after 1 = .ok next := h
  rw [Nat.add_comm, after_add hone]

lemma after_last (h : c.after k = .ok s) (hnext : s.advance = .ok next) :
    c.after (k + 1) = .ok next :=
  Outcome.bind_ok.mpr ⟨s, h, hnext⟩

/-- A channel that was hashed a number of times was hashed any smaller number of times before. -/
lemma exists_after_of_le (h : c.after k = .ok s) (hj : j ≤ k) : ∃ s', c.after j = .ok s' := by
  induction hj generalizing s with
  | refl => exact ⟨s, h⟩
  | step _ ih =>
      obtain ⟨middle, hmiddle, -⟩ := Outcome.bind_ok.mp h
      exact ih hmiddle

lemma counter_of_advance (h : c.advance = .ok next) : next.counter = c.counter + 1 := by
  obtain ⟨bytes, -, h⟩ := Outcome.bind_eq_ok.mp h
  cases h
  rfl

/-- All hashes in a row count. -/
lemma counter_of_after (h : c.after k = .ok s) : s.counter = c.counter + k := by
  induction k generalizing s with
  | zero =>
      cases h
      simp
  | succ k ih =>
      obtain ⟨middle, hmiddle, hlast⟩ := Outcome.bind_ok.mp h
      rw [counter_of_advance hlast, ih hmiddle]
      push_cast
      ring

lemma exists_advance (h : Fits c.counter) : ∃ next, c.advance = .ok next :=
  ⟨_, Outcome.bind_eq_ok.mpr ⟨_, encode_eq_ok.mpr ⟨h, rfl⟩, rfl⟩⟩

/-- The orbit reaches as far as the counter fits into a word. -/
lemma exists_after (hnonneg : 0 ≤ c.counter) (hk : c.counter + k ≤ limit) :
    ∃ s, c.after k = .ok s := by
  induction k with
  | zero => exact ⟨c, rfl⟩
  | succ k ih =>
      push_cast at hk
      obtain ⟨middle, hmiddle⟩ := ih (by omega)
      have hcounter := counter_of_after hmiddle
      obtain ⟨next, hnext⟩ := exists_advance (c := middle) ⟨by omega, by omega⟩
      exact ⟨next, after_last hmiddle hnext⟩

/-! ### The first acceptable digest -/

/-- The digest is rejected after a number of hashes. -/
def RejectedAt (c : Channel) (k : ℕ) : Prop := ∃ s, c.after k = .ok s ∧ ¬ s.Acceptable

instance (c : Channel) : DecidablePred c.RejectedAt := fun k =>
  match h : c.after k with
  | .ok s => decidable_of_iff (¬ s.Acceptable) (by simp [RejectedAt, h])
  | .error _ => .isFalse (by simp [RejectedAt, h])

lemma rejectedAt_zero : c.RejectedAt 0 ↔ ¬ c.Acceptable := by
  simp [RejectedAt, after]

lemma rejectedAt_succ (h : c.advance = .ok next) : c.RejectedAt (k + 1) ↔ next.RejectedAt k := by
  rw [RejectedAt, RejectedAt, after_succ h]

/-- After a number of hashes the orbit is acceptable for the first time. -/
structure StopsAt (c : Channel) (k : ℕ) (found : Channel) : Prop where
  reached : c.after k = .ok found
  acceptable : found.Acceptable
  rejected : ∀ j < k, c.RejectedAt j

lemma stopsAt_iff_of_acceptable (hc : c.Acceptable) : StopsAt c k found ↔ k = 0 ∧ found = c := by
  constructor
  · rintro ⟨hreached, -, hrejected⟩
    cases k with
    | zero =>
        cases hreached
        exact ⟨rfl, rfl⟩
    | succ k => exact absurd hc (rejectedAt_zero.mp (hrejected 0 k.succ_pos))
  · rintro ⟨rfl, rfl⟩
    exact ⟨rfl, hc, by simp⟩

/-- The orbit of a rejected channel stops where the one after a hash does. -/
lemma stopsAt_iff_of_not_acceptable (hc : ¬ c.Acceptable) :
    StopsAt c k found ↔ ∃ i next, k = i + 1 ∧ c.advance = .ok next ∧ StopsAt next i found := by
  constructor
  · rintro ⟨hreached, hacceptable, hrejected⟩
    cases k with
    | zero =>
        cases hreached
        exact absurd hacceptable hc
    | succ i =>
        obtain ⟨next, hnext⟩ := exists_after_of_le (j := 1) hreached (by omega)
        refine ⟨i, next, rfl, hnext, (after_succ hnext i).symm.trans hreached, hacceptable,
          fun j hj => ?_⟩
        exact (rejectedAt_succ hnext).mp (hrejected (j + 1) (by omega))
  · rintro ⟨i, next, rfl, hnext, hreached, hacceptable, hrejected⟩
    refine ⟨(after_succ hnext i).trans hreached, hacceptable, fun j hj => ?_⟩
    cases j with
    | zero => exact rejectedAt_zero.mpr hc
    | succ j => exact (rejectedAt_succ hnext).mpr (hrejected j (by omega))

/-- An orbit that becomes acceptable stops there or before. -/
lemma exists_stopsAt (h : c.after k = .ok s) (hs : s.Acceptable) :
    ∃ i ≤ k, ∃ found, StopsAt c i found := by
  classical
  have hsome : ∃ i, ∃ s, c.after i = .ok s ∧ s.Acceptable := ⟨k, s, h, hs⟩
  obtain ⟨found, hreached, hacceptable⟩ := Nat.find_spec hsome
  refine ⟨Nat.find hsome, Nat.find_min' hsome ⟨s, h, hs⟩, found, hreached, hacceptable,
    fun j hj => ?_⟩
  obtain ⟨s', hs'⟩ := exists_after_of_le hreached hj.le
  exact ⟨s', hs', fun hearlier => Nat.find_min hsome hj ⟨s', hs', hearlier⟩⟩

/-- The digests before the first acceptable one are those that are rejected on the way past it. -/
lemma StopsAt.count_rejectedAt (h : StopsAt c k found) : Nat.count c.RejectedAt (k + 1) = k := by
  have hnot : ¬ c.RejectedAt k := by
    rintro ⟨s, hs, hreject⟩
    rw [h.reached] at hs
    cases hs
    exact hreject h.acceptable
  rw [Nat.count_succ, if_neg hnot, Nat.count_iff_forall.mpr h.rejected, Nat.add_zero]

/-! ### Seeking -/

lemma seek_of_acceptable (hc : c.Acceptable) (fault : Fault) (n : ℕ) :
    seek fault n c = (.ok (), c) := by
  cases n <;> rw [seek, if_pos hc]

/-- **Seeking ends where the orbit stops**, if this is within the retries. -/
theorem seek_eq_ok : seek fault n c = (.ok (), found) ↔ ∃ k ≤ n, StopsAt c k found := by
  induction n generalizing c with
  | zero =>
      by_cases hc : c.Acceptable
      · simp [seek_of_acceptable hc, stopsAt_iff_of_acceptable hc, eq_comm]
      · simp [seek, hc, stopsAt_iff_of_not_acceptable hc]
  | succ n ih =>
      by_cases hc : c.Acceptable
      · simp [seek_of_acceptable hc, stopsAt_iff_of_acceptable hc, eq_comm]
      · rw [seek, if_neg hc]
        simp only [stopsAt_iff_of_not_acceptable hc]
        cases hnext : c.advance with
        | error f => simp
        | ok next =>
            simp only [ih]
            constructor
            · rintro ⟨i, hi, h⟩
              exact ⟨i + 1, by omega, i, next, rfl, rfl, h⟩
            · rintro ⟨k, hk, i, next', rfl, hnext', h⟩
              cases hnext'
              exact ⟨i, by omega, h⟩

/-- Seeking gives up at the end of its retries, if every digest up to there is rejected. -/
theorem seek_eq_exhausted (hrejected : ∀ j ≤ n, c.RejectedAt j) (hlast : c.after n = .ok last) :
    seek fault n c = (.error fault, last) := by
  induction n generalizing c with
  | zero =>
      have hc : ¬ c.Acceptable := rejectedAt_zero.mp (hrejected 0 le_rfl)
      cases hlast
      rw [seek, if_neg hc]
  | succ n ih =>
      have hc : ¬ c.Acceptable := rejectedAt_zero.mp (hrejected 0 (Nat.zero_le _))
      obtain ⟨next, hnext⟩ := exists_after_of_le (j := 1) hlast (by omega)
      have hadvance : c.advance = .ok next := hnext
      have hrejected' (j : ℕ) (hj : j ≤ n) : next.RejectedAt j :=
        (rejectedAt_succ hnext).mp (hrejected (j + 1) (by omega))
      rw [seek, if_neg hc, hadvance]
      exact ih hrejected' ((after_succ hnext n).symm.trans hlast)

/-! ### Drawing -/

lemma accept_eq_ok : found.accept = (.ok e, next) ↔
    found.advance = .ok next ∧ e = Field.ofMontgomery found.candidate := by
  rw [accept]
  cases found.advance with
  | error f => simp
  | ok next' => simp [and_comm, eq_comm]

/-- A number of rejections that retries allow; where nothing is rejected they are not looked at. -/
def Allows (retries : Json) (k : ℕ) : Prop := k = 0 ∨ ∃ n, attempts retries = .ok n ∧ k ≤ n

lemma allows_int {m : ℤ} : Allows (.int m) k ↔ k ≤ m.toNat := by
  simp only [Allows, attempts, Except.ok.injEq, exists_eq_left']
  omega

/-- **A draw has an element when the orbit stops within the retries**, and a hash can be taken
there; the element is that of the digest, and the channel is left after the hash. -/
theorem draw_eq_ok : c.draw retries = (.ok e, next) ↔ ∃ k found, Allows retries k ∧
    StopsAt c k found ∧ found.advance = .ok next ∧ e = Field.ofMontgomery found.candidate := by
  rw [draw]
  by_cases hc : c.Acceptable
  · simp [hc, accept_eq_ok, stopsAt_iff_of_acceptable hc, Allows]
  · have hpos {k : ℕ} {found : Channel} (h : StopsAt c k found) : k ≠ 0 := by
      obtain ⟨i, -, rfl, -⟩ := (stopsAt_iff_of_not_acceptable hc).mp h
      exact i.succ_ne_zero
    rw [if_neg hc]
    cases hattempts : attempts retries with
    | error f =>
        constructor
        · intro h
          cases h
        · rintro ⟨k, found, hallows, hstops, -⟩
          obtain ⟨n, hn, -⟩ := hallows.resolve_left (hpos hstops)
          rw [hattempts] at hn
          cases hn
    | ok n =>
        simp only
        constructor
        · intro h
          split at h
          · rename_i found hseek
            obtain ⟨k, hk, hstops⟩ := seek_eq_ok.mp hseek
            exact ⟨k, found, .inr ⟨n, hattempts, hk⟩, hstops, accept_eq_ok.mp h⟩
          · cases h
        · rintro ⟨k, found, hallows, hstops, htaken⟩
          obtain ⟨n', hn', hk⟩ := hallows.resolve_left (hpos hstops)
          obtain rfl : n = n' := Except.ok.inj (hattempts.symm.trans hn')
          rw [seek_eq_ok.mpr ⟨k, hk, hstops⟩]
          exact accept_eq_ok.mpr htaken

/-- What is drawn is an element of the field. -/
lemma lt_of_draw (h : (c.draw retries).1 = .ok e) : e < Field.prime := by
  have hdraw : c.draw retries = (.ok e, (c.draw retries).2) := Prod.ext h rfl
  obtain ⟨k, found, -, -, -, rfl⟩ := draw_eq_ok.mp hdraw
  exact Field.ofMontgomery_lt _

/-- A draw runs out of retries when every digest up to their end is rejected, and the channel is left
at that end. -/
theorem draw_eq_exhausted {m : ℕ} (hrejected : ∀ j ≤ m, c.RejectedAt j)
    (hlast : c.after m = .ok last) : c.draw (.int m) = (.error (exhausted (.int m)), last) := by
  have hc : ¬ c.Acceptable := rejectedAt_zero.mp (hrejected 0 (Nat.zero_le m))
  have hseek : seek (exhausted (.int m)) m c = (.error (exhausted (.int m)), last) :=
    seek_eq_exhausted hrejected hlast
  rw [draw, if_neg hc]
  simp only [attempts, Int.toNat_natCast, hseek]

lemma kind_exhausted_int {m : ℕ} (h : m < limit) : (exhausted (.int m)).kind = .arithmetic := by
  have hquoted : ∀ n ∈ [(m : ℤ)], Text.Writable n := by
    simpa using (fits_natCast.mpr h).writable
  rw [exhausted, Fault.kind_quoting, if_pos hquoted]
  rfl

/-! ### Draws in a row -/

/-- Elements that were drawn in a row, draw by draw, and the hashes that were taken: one for each
element and one for each rejected digest. -/
structure IsRow (c : Channel) (retries : Json) (es : List ℕ) (last : Channel) : Prop where
  draws : ∃ state : ℕ → Channel, state 0 = c ∧ state es.length = last ∧
    ∀ i (h : i < es.length), (state i).draw retries = (.ok es[i], state (i + 1))
  hashes : ∃ k, c.after k = .ok last ∧ last.counter = c.counter + k ∧
    k = es.length + Nat.count c.RejectedAt k

lemma count_rejectedAt_add (h : c.after j = .ok s) (k : ℕ) :
    Nat.count c.RejectedAt (j + k) = Nat.count c.RejectedAt j + Nat.count s.RejectedAt k := by
  have hthere (i : ℕ) : c.RejectedAt (j + i) ↔ s.RejectedAt i := by
    rw [RejectedAt, RejectedAt, after_add h]
  rw [Nat.count_add]
  exact congrArg _ (le_antisymm (Nat.count_mono_left fun i _ => (hthere i).mp)
    (Nat.count_mono_left fun i _ => (hthere i).mpr))

lemma isRow_nil (c : Channel) (retries : Json) : IsRow c retries [] c where
  draws := ⟨fun _ => c, rfl, rfl, fun i h => absurd h (Nat.not_lt_zero i)⟩
  hashes := ⟨0, rfl, by simp, by simp⟩

/-- A draw in front of a row. -/
lemma IsRow.cons {es : List ℕ} (hdraw : c.draw retries = (.ok e, next))
    (h : IsRow next retries es last) : IsRow c retries (e :: es) last where
  draws := by
    obtain ⟨state, hfirst, hlast, hdraws⟩ := h.draws
    refine ⟨fun i => i.casesOn c state, rfl, hlast, fun i hi => ?_⟩
    cases i with
    | zero =>
        rw [← hfirst] at hdraw
        exact hdraw
    | succ i => exact hdraws i (Nat.lt_of_succ_lt_succ hi)
  hashes := by
    obtain ⟨j, found, -, hstops, hnext, -⟩ := draw_eq_ok.mp hdraw
    obtain ⟨k, hlast, hcounter, hcount⟩ := h.hashes
    have hhere := after_last hstops.reached hnext
    refine ⟨j + 1 + k, (after_add hhere k).trans hlast, ?_, ?_⟩
    · rw [hcounter, counter_of_after hhere]
      push_cast
      ring
    · rw [count_rejectedAt_add hhere, hstops.count_rejectedAt, List.length_cons]
      omega

/-- Draws in a row, as they are made. -/
lemma isRow_of_drawMany {es : List ℕ} (h : drawMany retries n c = (.ok es, last)) :
    es.length = n ∧ IsRow c retries es last := by
  induction n generalizing c es with
  | zero =>
      cases h
      exact ⟨rfl, isRow_nil _ _⟩
  | succ n ih =>
      rw [drawMany] at h
      split at h
      · cases h
      · rename_i e next hdraw
        split at h
        · rename_i others last' hothers
          cases h
          obtain ⟨hlength, hrow⟩ := ih hothers
          exact ⟨congrArg Nat.succ hlength, hrow.cons hdraw⟩
        · cases h

lemma length_of_drawMany {es : List ℕ} (h : (drawMany retries n c).1 = .ok es) : es.length = n :=
  (isRow_of_drawMany (Prod.ext h rfl)).1

/-- What is drawn in a row are elements of the field. -/
lemma lt_of_mem_drawMany {es : List ℕ} (h : (drawMany retries n c).1 = .ok es) :
    ∀ e ∈ es, e < Field.prime := by
  obtain ⟨state, -, -, hdraws⟩ := (isRow_of_drawMany (Prod.ext h rfl)).2.draws
  intro e he
  obtain ⟨i, hi, rfl⟩ := List.mem_iff_getElem.mp he
  exact lt_of_draw (congrArg Prod.fst (hdraws i hi))

/-! ### The theorem -/

/-- **A draw stops at the first acceptable digest of the orbit.** While the counter fits into a word,
the orbit goes on, and a draw has an element exactly when some digest within its retries is
acceptable: that of the first one, and the channel is left one hash after it. Otherwise the draw is a
failure of arithmetic, and the channel is left at the end of the retries. So more retries do not
change a draw that has had its element. Draws in a row yield their elements in order and leave the
channel after one hash for each element and one for each rejected digest. -/
theorem draw_stops_at_first (c : Channel) (m : ℕ) (hnonneg : 0 ≤ c.counter)
    (hbound : c.counter + m < limit) :
    (∀ k ≤ m + 1, ∃ s, c.after k = .ok s) ∧
    ((∃ e next, c.draw (.int m) = (.ok e, next)) ↔
      ∃ k ≤ m, ∃ s, c.after k = .ok s ∧ s.candidate < Field.drawBound) ∧
    (∀ k ≤ m, ∀ found, StopsAt c k found → ∃ next, c.after (k + 1) = .ok next ∧
      c.draw (.int m) = (.ok (Field.ofMontgomery found.candidate), next)) ∧
    ((∀ k ≤ m, ∀ s, c.after k = .ok s → ¬ s.candidate < Field.drawBound) →
      ∃ f last, c.after m = .ok last ∧ c.draw (.int m) = (.error f, last) ∧
        f.kind = .arithmetic) ∧
    (∀ m' : ℕ, m ≤ m' → ∀ e next, c.draw (.int m) = (.ok e, next) →
      c.draw (.int m') = (.ok e, next)) ∧
    ∀ n es last, drawMany (.int m) n c = (.ok es, last) →
      es.length = n ∧ IsRow c (.int m) es last := by
  have hreaches (k : ℕ) (hk : k ≤ m + 1) : ∃ s, c.after k = .ok s :=
    exists_after hnonneg (by omega)
  have hallows {k : ℕ} : Allows (.int m) k ↔ k ≤ m := by rw [allows_int, Int.toNat_natCast]
  have hdraws (k : ℕ) (hk : k ≤ m) (found : Channel) (hstops : StopsAt c k found) :
      ∃ next, c.after (k + 1) = .ok next ∧
        c.draw (.int m) = (.ok (Field.ofMontgomery found.candidate), next) := by
    obtain ⟨next, hnext⟩ := hreaches (k + 1) (by omega)
    obtain ⟨found', hfound', hadvance⟩ := Outcome.bind_ok.mp hnext
    obtain rfl : found = found' := Except.ok.inj (hstops.reached.symm.trans hfound')
    exact ⟨next, hnext, draw_eq_ok.mpr ⟨k, found, hallows.mpr hk, hstops, hadvance, rfl⟩⟩
  refine ⟨hreaches, ⟨?_, ?_⟩, hdraws, fun hnone => ?_, fun m' hm' e next hdraw => ?_,
    fun n es last => isRow_of_drawMany⟩
  · rintro ⟨e, next, hdraw⟩
    obtain ⟨k, found, hk, hstops, -⟩ := draw_eq_ok.mp hdraw
    exact ⟨k, hallows.mp hk, found, hstops.reached, hstops.acceptable⟩
  · rintro ⟨k, hk, s, hs, hacceptable⟩
    obtain ⟨i, hi, found, hstops⟩ := exists_stopsAt hs hacceptable
    obtain ⟨next, -, hdraw⟩ := hdraws i (hi.trans hk) found hstops
    exact ⟨_, next, hdraw⟩
  · have hrejected (j : ℕ) (hj : j ≤ m) : c.RejectedAt j := by
      obtain ⟨s, hs⟩ := hreaches j (by omega)
      exact ⟨s, hs, hnone j hj s hs⟩
    obtain ⟨last, hlast⟩ := hreaches m (by omega)
    exact ⟨_, last, hlast, draw_eq_exhausted hrejected hlast, kind_exhausted_int (by omega)⟩
  · obtain ⟨k, found, hk, hstops, htaken⟩ := draw_eq_ok.mp hdraw
    have hk' : Allows (.int m') k := by
      rw [allows_int, Int.toNat_natCast]
      exact (hallows.mp hk).trans hm'
    exact draw_eq_ok.mpr ⟨k, found, hk', hstops, htaken⟩

/-- The channel with the highest digest, which is rejected. -/
def highest : Channel := ⟨List.replicate size 0xFF, 0⟩

/-- The orbit of the highest digest stops after one hash. -/
lemma highest_stopsAt : ∃ found, StopsAt highest 1 found := by
  have hadvance : highest.advance =
      .ok ⟨Keccak.digest (highest.digest ++ bytes 0), 1⟩ := advance_eq _ 0 (by decide)
  have hreject : ¬ highest.Acceptable := by decide +kernel
  have hnext : ofBytes (Keccak.Rows.digest (highest.digest ++ bytes 0)) < Field.drawBound := by
    decide +kernel
  refine ⟨_, hadvance, ?_, fun j hj => ?_⟩
  · rw [Acceptable, candidate, Keccak.digest_eq]
    exact hnext
  · obtain rfl : j = 0 := by omega
    exact rejectedAt_zero.mpr hreject

/-- The highest digest is rejected and the next one is not: a draw needs one retry, and a row of one
draw takes as many hashes as it has elements and rejected digests. Without retries the channel is
left as it was. -/
theorem highest_drawn_after_rejection :
    (0 ≤ highest.counter ∧ highest.counter + (1 : ℕ) < limit) ∧
      (∃ found next, highest.after 1 = .ok found ∧ highest.after 2 = .ok next ∧
        highest.draw (.int 1) = (.ok (Field.ofMontgomery found.candidate), next) ∧
        IsRow highest (.int 1) [Field.ofMontgomery found.candidate] next) ∧
      ∃ f, highest.draw (.int 0) = (.error f, highest) ∧ f.kind = .arithmetic := by
  have hnonneg : 0 ≤ highest.counter := by decide
  have hbound : highest.counter + (1 : ℕ) < limit := by decide
  obtain ⟨found, hstops⟩ := highest_stopsAt
  obtain ⟨-, -, hdraws, -, -, hrows⟩ := draw_stops_at_first highest 1 hnonneg hbound
  obtain ⟨-, -, -, hexhausted, -⟩ := draw_stops_at_first highest 0 hnonneg (by decide)
  obtain ⟨next, hnext, hdraw⟩ := hdraws 1 le_rfl found hstops
  have hrow : drawMany (.int 1) 1 highest =
      (.ok [Field.ofMontgomery found.candidate], next) := drawMany_cons hdraw rfl
  refine ⟨⟨hnonneg, hbound⟩,
    ⟨found, next, hstops.reached, hnext, hdraw, (hrows 1 _ _ hrow).2⟩, ?_⟩
  have hreject := rejectedAt_zero.mp (hstops.rejected 0 Nat.one_pos)
  obtain ⟨f, last, hlast, hfault, hkind⟩ := hexhausted fun k hk s hs => by
    obtain rfl : k = 0 := Nat.le_zero.mp hk
    cases hs
    exact hreject
  cases hlast
  exact ⟨f, hfault, hkind⟩

end StarkCalldata.Channel
