import StarkCalldata.Proofs.Channel.Orbit
import StarkCalldata.Proofs.Document

/-!
The reference verifier and its challenges.

What the channel does with digests, counters and retries can be said in two plain loops on numbers:
start from the hash of the words, hash while the number is too large, take an element out of the
number, and do the same once more with the counter running on. The loops of the reference know no
retries, so they may run for ever; the channel follows them as long as its retries last:

* `Reference.opening`, `Reference.Loop`, `Reference.Yields`: the reference, as numbers and loops;
* `Reference.Loop.unique`, `Reference.Yields.unique`: it has one course;
* `Channel.stopsAt_of_loop`, `Channel.exists_loop_of_stopsAt`: the orbit of the channel stops where
  a loop ends, so that a draw follows a loop to its end or gives up on a loop that is too long;
* `replay_refines_reference`: a replay yields the challenges of the reference if the retries suffice
  for both loops, and is given up otherwise.
-/

namespace StarkCalldata

open Text Word

/-! ### The reference -/

namespace Reference

/-- The number the first loop starts from: the hash of the words, hashed again with the first word
of the proof if there is one. -/
def opening (words : List ℕ) : List ℕ → ℕ
  | [] => hashOf words
  | word :: _ => hashOf [(hashOf words + 1) % limit, word]

/-- A loop of the reference: from a number and a counter, as long as the number is too large, it is
hashed with the counter; the loop is told with its iterations and the number it ends with. -/
inductive Loop : ℕ → ℕ → ℕ → ℕ → Prop
  | stop {d k : ℕ} : d < Field.drawBound → Loop d k 0 d
  | again {d k n last : ℕ} :
      Field.drawBound ≤ d → Loop (hashOf [d, k]) (k + 1) n last → Loop d k (n + 1) last

/-- The field element in a number. -/
def element (d : ℕ) : ℕ := d * Field.montgomeryRadixInverse % Field.prime

/-- The course of the reference: two loops with their iterations, a hash between them, and an
element from the end of each. -/
inductive Yields (words proof : List ℕ) : ℕ → ℕ → Challenges → Prop
  | intro {m n d e : ℕ} : Loop (opening words proof) 0 m d → Loop (hashOf [d, m]) (m + 1) n e →
      Yields words proof m n ⟨element d, element e⟩

variable {words proof : List ℕ} {d k m n last : ℕ}

lemma opening_lt (words proof : List ℕ) : opening words proof < limit := by
  cases proof with
  | nil => exact hashOf_lt words
  | cons word rest => exact hashOf_lt _

lemma Loop.last_lt (h : Loop d k m last) (hd : d < limit) : last < limit := by
  induction h with
  | stop _ => exact hd
  | again _ _ ih => exact ih (hashOf_lt _)

/-- A loop has one end. -/
lemma Loop.unique {m' last' : ℕ} (h : Loop d k m last) (h' : Loop d k m' last') :
    m = m' ∧ last = last' := by
  induction h generalizing m' last' with
  | stop hlt =>
      cases h' with
      | stop _ => exact ⟨rfl, rfl⟩
      | again hle _ => omega
  | again hle _ ih =>
      cases h' with
      | stop hlt => omega
      | again _ h' =>
          obtain ⟨hm, hlast⟩ := ih h'
          exact ⟨congrArg Nat.succ hm, hlast⟩

/-- The reference has one course. -/
theorem Yields.unique {m' n' : ℕ} {c c' : Challenges} (h : Yields words proof m n c)
    (h' : Yields words proof m' n' c') : m = m' ∧ n = n' ∧ c = c' := by
  obtain ⟨hfirst, hsecond⟩ := h
  obtain ⟨hfirst', hsecond'⟩ := h'
  obtain ⟨rfl, rfl⟩ := hfirst.unique hfirst'
  obtain ⟨rfl, rfl⟩ := hsecond.unique hsecond'
  exact ⟨rfl, rfl, rfl⟩

end Reference

open Reference

lemma Field.ofMontgomery_natCast (d : ℕ) : ofMontgomery d = element d := by
  have hresidue (n : ℕ) : residue n = n % prime := by
    rw [residue, ← Int.natCast_emod, Int.toNat_natCast]
  rw [ofMontgomery, hresidue, element, ← Nat.cast_mul, hresidue, Nat.mod_mul_mod]

/-! ### The channel on numbers -/

namespace Channel

/-- The channel with a number as its digest. -/
def holding (d k : ℕ) : Channel := ⟨Word.bytes d, k⟩

variable {d k m n last : ℕ}

lemma candidate_holding (hd : d < limit) : (holding d k).candidate = d := ofBytes_bytes hd

lemma acceptable_holding (hd : d < limit) : (holding d k).Acceptable ↔ d < Field.drawBound := by
  rw [Acceptable, candidate_holding hd]

lemma advance_holding (d : ℕ) (hk : k < limit) :
    (holding d k).advance = .ok (holding (hashOf [d, k]) (k + 1)) := by
  have hpacked : Word.bytes d ++ Word.bytes k = packed [d, k] := by simp [packed]
  rw [holding, advance_eq _ _ hk, hpacked, ← bytes_hashOf]
  rfl

lemma mix_holding {word : ℕ} (hd : d < limit) (hword : word < limit) :
    (holding d k).mix word = .ok (holding (hashOf [(d + 1) % limit, word]) 0) := by
  have hpacked (e : ℕ) : Word.bytes e ++ Word.bytes word = packed [e, word] := by simp [packed]
  rw [mix_eq _ hword, candidate_holding hd, hpacked, ← bytes_hashOf]
  rfl

/-! ### Draws along a loop -/

/-- The orbit of a number stops at the end of its loop. -/
lemma stopsAt_of_loop (h : Loop d k m last) (hd : d < limit) (hk : k + m ≤ limit) :
    StopsAt (holding d k) m (holding last (k + m)) := by
  induction h with
  | @stop d k hlt =>
      have hacceptable : (holding d k).Acceptable := (acceptable_holding hd).mpr hlt
      exact (stopsAt_iff_of_acceptable hacceptable).mpr ⟨rfl, rfl⟩
  | @again d k m last hle _ ih =>
      have hreject : ¬ (holding d k).Acceptable := by
        rw [acceptable_holding hd]
        omega
      have hrest := ih (hashOf_lt _) (by omega)
      rw [Nat.add_right_comm, Nat.add_assoc] at hrest
      exact (stopsAt_iff_of_not_acceptable hreject).mpr
        ⟨m, _, rfl, advance_holding d (by omega), hrest⟩

/-- Where the orbit of a number stops, there is an end of its loop. -/
lemma exists_loop_of_stopsAt {found : Channel} (h : StopsAt (holding d k) m found)
    (hd : d < limit) (hk : k + m ≤ limit) : ∃ last, Loop d k m last := by
  induction m generalizing d k with
  | zero =>
      have hfound : holding d k = found := Except.ok.inj h.reached
      have hacceptable : (holding d k).Acceptable := hfound ▸ h.acceptable
      exact ⟨d, .stop ((acceptable_holding hd).mp hacceptable)⟩
  | succ m ih =>
      have hreject := rejectedAt_zero.mp (h.rejected 0 m.succ_pos)
      obtain ⟨i, next, hi, hnext, hrest⟩ := (stopsAt_iff_of_not_acceptable hreject).mp h
      obtain rfl : m = i := Nat.succ.inj hi
      rw [advance_holding d (by omega)] at hnext
      obtain rfl : holding (hashOf [d, k]) (k + 1) = next := Except.ok.inj hnext
      obtain ⟨last, hloop⟩ := ih hrest (hashOf_lt _) (by omega)
      rw [acceptable_holding hd] at hreject
      exact ⟨last, .again (not_lt.mp hreject) hloop⟩

lemma draw_of_loop (h : Loop d k m last) (hm : m ≤ n) (hd : d < limit) (hk : k + m < limit) :
    (holding d k).draw (.int n) =
      (.ok (element last), holding (hashOf [last, k + m]) (k + m + 1)) := by
  have hallows : Allows (.int n) m := allows_int.mpr hm
  have helement : element last = Field.ofMontgomery (holding last (k + m)).candidate := by
    rw [candidate_holding (h.last_lt hd), Field.ofMontgomery_natCast]
  exact draw_eq_ok.mpr
    ⟨m, _, hallows, stopsAt_of_loop h hd hk.le, advance_holding last hk, helement⟩

/-- A draw gives up on a loop that is too long for its retries. -/
lemma draw_of_forall (h : ∀ m last, Loop d k m last → n < m) (hd : d < limit)
    (hk : k + n ≤ limit) :
    ((holding d k).draw (.int n)).1 = .error (exhausted (.int n)) := by
  have hreaches (j : ℕ) (hj : j ≤ n) : ∃ s, (holding d k).after j = .ok s :=
    exists_after (Int.natCast_nonneg k) (by simp only [holding]; omega)
  have hrejected (j : ℕ) (hj : j ≤ n) : (holding d k).RejectedAt j := by
    obtain ⟨s, hs⟩ := hreaches j hj
    refine ⟨s, hs, fun hacceptable => ?_⟩
    obtain ⟨i, hi, found, hstops⟩ := exists_stopsAt hs hacceptable
    obtain ⟨last, hloop⟩ := exists_loop_of_stopsAt hstops hd (by omega)
    have hlong := h i last hloop
    omega
  obtain ⟨last, hlast⟩ := hreaches n le_rfl
  exact congrArg Prod.fst (draw_eq_exhausted hrejected hlast)

lemma drawMany_of_loops {m' last' : ℕ} (h : Loop d 0 m last)
    (h' : Loop (hashOf [last, m]) (m + 1) m' last') (hm : m ≤ n) (hm' : m' ≤ n) (hd : d < limit)
    (hn : 2 * n + 1 < limit) :
    ((holding d 0).drawMany (.int n) 2).1 = .ok [element last, element last'] := by
  have hfirst := draw_of_loop h hm hd (by omega)
  have hsecond := draw_of_loop h' hm' (hashOf_lt _) (by omega)
  rw [Nat.zero_add] at hfirst
  exact congrArg Prod.fst (drawMany_cons hfirst (drawMany_cons hsecond rfl))

/-- Two draws are given up if one of the loops is too long. -/
lemma drawMany_of_not (hd : d < limit) (hn : 2 * n + 1 < limit)
    (h : ∀ m last m' last', Loop d 0 m last → Loop (hashOf [last, m]) (m + 1) m' last' →
      ¬ (m ≤ n ∧ m' ≤ n)) :
    ((holding d 0).drawMany (.int n) 2).1 = .error (exhausted (.int n)) := by
  by_cases hloop : ∃ m last, m ≤ n ∧ Loop d 0 m last
  · obtain ⟨m, last, hm, hloop⟩ := hloop
    have hfirst := draw_of_loop hloop hm hd (by omega)
    have hlonger (m' last' : ℕ) (hloop' : Loop (hashOf [last, m]) (m + 1) m' last') : n < m' := by
      have hnot := h m last m' last' hloop hloop'
      omega
    have hsecond := draw_of_forall hlonger (hashOf_lt _) (by omega)
    rw [Nat.zero_add] at hfirst
    exact drawMany_of_error hfirst (drawMany_of_draw_error hsecond)
  · have hlonger (m last : ℕ) (hloop' : Loop d 0 m last) : n < m := by
      by_contra hm
      exact hloop ⟨m, last, by omega, hloop'⟩
    exact drawMany_of_draw_error (draw_of_forall hlonger hd (by omega))

end Channel

/-! ### Replays along the reference -/

/-- Words are hashed. -/
lemma Entry.hash_vector {words : List ℕ} (h : ∀ w ∈ words, w < limit) :
    Entry.hash (vector words) = .ok (hashOf words) := by
  have hfits : ∀ n ∈ words.map (Nat.cast : ℕ → ℤ), Fits n := by
    intro n hn
    obtain ⟨w, hw, rfl⟩ := List.mem_map.mp hn
    exact fits_natCast.mpr (h w hw)
  have hwords : hashOf words = hashOf ((words.map (Nat.cast : ℕ → ℤ)).map Int.toNat) := by
    rw [List.map_map]
    exact congrArg hashOf (List.map_id words).symm
  rw [← map_int_eq_vector.mpr rfl]
  exact Entry.hashIntegers_eq_ok.mpr ⟨hfits, hwords⟩

namespace Challenges

variable {words proof : List ℕ}

/-- A replay draws twice from the number the reference starts from. -/
lemma outcome_replay (hwords : ∀ w ∈ words, w < limit) (hproof : ∀ w ∈ proof, w < limit)
    (retries : Json) :
    (replay (vector words) (proof.map Nat.cast) retries).outcome =
      ofDraws ((Channel.holding (opening words proof) 0).drawMany retries 2).1 := by
  have hstart : Channel.ofPublicInput (vector words) = .ok (Channel.holding (hashOf words) 0) :=
    Channel.ofPublicInput_eq (Entry.hash_vector hwords)
  cases proof with
  | nil => exact outcome_replay_nil retries hstart
  | cons word rest =>
      have hword : word < limit := (List.forall_mem_cons.mp hproof).1
      exact outcome_replay_cons retries hstart (Channel.mix_holding (hashOf_lt words) hword)

variable {retries : ℕ}

lemma two_mul_add_one_lt (h : retries < 2 ^ 255) : 2 * retries + 1 < limit := by
  have hlimit : limit = 2 * 2 ^ 255 := by norm_num [limit]
  omega

lemma exhausted_eq (h : retries < 2 ^ 255) :
    replayFault (Channel.exhausted (.int retries)) = .replayExhausted (.int retries) := by
  have hfits : Fits retries := by
    rw [fits_natCast]
    have hlimit := two_mul_add_one_lt h
    omega
  have hquoted : ∀ n ∈ [(retries : ℤ)], Writable n := by simpa using hfits.writable
  rw [Channel.exhausted, Fault.quoting, if_pos hquoted]
  rfl

lemma replay_of_yields {m n : ℕ} {c : Challenges} (hwords : ∀ w ∈ words, w < limit)
    (hproof : ∀ w ∈ proof, w < limit) (hretries : retries < 2 ^ 255) (h : Yields words proof m n c)
    (hm : m ≤ retries) (hn : n ≤ retries) :
    (replay (vector words) (proof.map Nat.cast) (.int retries)).outcome = .ok c := by
  obtain ⟨hfirst, hsecond⟩ := h
  have hdraws := Channel.drawMany_of_loops hfirst hsecond hm hn (opening_lt words proof)
    (two_mul_add_one_lt hretries)
  have helement (d : ℕ) : element d < Field.prime := Nat.mod_lt _ (by decide)
  rw [outcome_replay hwords hproof, hdraws]
  exact ofValues_of_lt (helement _) (helement _)

lemma replay_of_not_yields (hwords : ∀ w ∈ words, w < limit) (hproof : ∀ w ∈ proof, w < limit)
    (hretries : retries < 2 ^ 255)
    (h : ∀ m n c, Yields words proof m n c → ¬ (m ≤ retries ∧ n ≤ retries)) :
    (replay (vector words) (proof.map Nat.cast) (.int retries)).outcome =
      .error (.replayExhausted (.int retries)) := by
  have hdraws := Channel.drawMany_of_not (opening_lt words proof) (two_mul_add_one_lt hretries)
    fun m _ n _ hfirst hsecond => h m n _ (.intro hfirst hsecond)
  rw [outcome_replay hwords hproof, hdraws, ofDraws, exhausted_eq hretries]

/-- A replay reads no word of the proof but the first. -/
lemma replay_congr {proof' : List ℤ} {proofWords : List ℤ} (seed : List Entry) (retries : Json)
    (h : proof'.head? = proofWords.head?) :
    replay seed proof' retries = replay seed proofWords retries := by
  cases proof' with
  | nil =>
      obtain rfl : proofWords = [] := by simpa using h.symm
      rfl
  | cons word rest =>
      cases proofWords with
      | nil => cases h
      | cons word' rest' =>
          obtain rfl : word = word' := by simpa using h
          rfl

end Challenges

open Challenges

/-- **A replay refines the reference verifier.** For words, a proof and retries in range it yields
the challenges of the reference exactly when neither loop of the reference takes more iterations
than there are retries, and otherwise the derived values are found inconsistent. So the proof
matters by its first word alone. -/
theorem replay_refines_reference (words proof : List ℕ) (retries : ℕ)
    (hwords : ∀ w ∈ words, w < limit) (hproof : ∀ w ∈ proof, w < limit)
    (hretries : retries < 2 ^ 255) :
    (∀ c, (replay (vector words) (proof.map Nat.cast) (.int retries)).outcome = .ok c ↔
        ∃ m n, Yields words proof m n c ∧ m ≤ retries ∧ n ≤ retries) ∧
      ((¬ ∃ m n c, Yields words proof m n c ∧ m ≤ retries ∧ n ≤ retries) →
        ∃ f, (replay (vector words) (proof.map Nat.cast) (.int retries)).outcome = .error f ∧
          f.kind = .inconsistency) ∧
      ∀ proof' : List ℕ, proof'.head? = proof.head? →
        replay (vector words) (proof'.map Nat.cast) (.int retries) =
          replay (vector words) (proof.map Nat.cast) (.int retries) := by
  refine ⟨fun c => ⟨fun h => ?_, ?_⟩, fun h => ?_, fun proof' hhead => ?_⟩
  · by_contra hnone
    have hlonger : ∀ m n c', Yields words proof m n c' → ¬ (m ≤ retries ∧ n ≤ retries) := by
      rintro m n c' hyields ⟨hm, hn⟩
      have hc' := replay_of_yields hwords hproof hretries hyields hm hn
      obtain rfl : c = c' := Except.ok.inj (h.symm.trans hc')
      exact hnone ⟨m, n, hyields, hm, hn⟩
    have hfault := replay_of_not_yields hwords hproof hretries hlonger
    rw [h] at hfault
    cases hfault
  · rintro ⟨m, n, hyields, hm, hn⟩
    exact replay_of_yields hwords hproof hretries hyields hm hn
  · have hlonger : ∀ m n c, Yields words proof m n c → ¬ (m ≤ retries ∧ n ≤ retries) :=
      fun m n c hyields hle => h ⟨m, n, c, hyields, hle⟩
    exact ⟨_, replay_of_not_yields hwords hproof hretries hlonger, rfl⟩
  · refine replay_congr _ _ ?_
    rw [List.head?_map, List.head?_map, hhead]

lemma Word.hashOf_eq (ns : List ℕ) : hashOf ns = ofBytes (Keccak.Rows.digest (packed ns)) := by
  rw [hashOf, Keccak.digest_eq]

/-- The challenges of the word 263 with the proof 7. -/
def rejectedChallenges : Challenges where
  z := 0x1129fb2cef71968d443463c868829795ca2ba92cf9d430ecdc8ae00624d9a5d
  alpha := 0x6199d5c4d54c82ebd1d41dde31fe908706c5230beadc7a061f0bb5c9d568bfe

/-- The reference takes one iteration of each loop for the word 263 with the proof 7. -/
lemma yields_rejectedChallenges : Yields [263] [7] 1 1 rejectedChallenges := by
  have hopening : opening [263] [7] =
      0xfdf11332ed0a099383b349e08df9c044ed4538c8eab8cbc23064d6e237432644 := by
    rw [opening, hashOf_eq, hashOf_eq]
    decide +kernel
  have hfirst : hashOf [opening [263] [7], 0] =
      0x7d43be26091210806a02b768d1ba0e3325e2eee860f97175c4ae9225a43b9a32 := by
    rw [hopening, hashOf_eq]
    decide +kernel
  have hbetween : hashOf [hashOf [opening [263] [7], 0], 1] =
      0xfcb7c421b4947c12fad06546e7cc99b3e373628430e87ea86cbd60810ef45fc6 := by
    rw [hfirst, hashOf_eq]
    decide +kernel
  have hsecond : hashOf [hashOf [hashOf [opening [263] [7], 0], 1], 2] =
      0xcd51f71a52d5023c2a2448ce212bd7b8655b03e1ad1ca41c608054dc7851c425 := by
    rw [hbetween, hashOf_eq]
    decide +kernel
  have hloop : Loop (opening [263] [7]) 0 1 (hashOf [opening [263] [7], 0]) := by
    refine .again ?_ (.stop ?_)
    · rw [hopening]
      decide +kernel
    · rw [hfirst]
      decide +kernel
  have hloop' : Loop (hashOf [hashOf [opening [263] [7], 0], 1]) 2 1
      (hashOf [hashOf [hashOf [opening [263] [7], 0], 1], 2]) := by
    refine .again ?_ (.stop ?_)
    · rw [hbetween]
      decide +kernel
    · rw [hsecond]
      decide +kernel
  have hchallenges : rejectedChallenges = ⟨element (hashOf [opening [263] [7], 0]),
      element (hashOf [hashOf [hashOf [opening [263] [7], 0], 1], 2])⟩ := by
    rw [hsecond, hfirst]
    decide +kernel
  rw [hchallenges]
  exact .intro hloop hloop'

/-- The word 263 with the proof 7 needs a retry for each challenge. -/
theorem rejected_refines_reference :
    (replay (vector [263]) ([7].map Nat.cast) (.int 1)).outcome = .ok rejectedChallenges ∧
      ∃ f, (replay (vector [263]) ([7].map Nat.cast) (.int 0)).outcome = .error f ∧
        f.kind = .inconsistency := by
  have hwords : ∀ w ∈ [263], w < limit := by decide
  have hproof : ∀ w ∈ [7], w < limit := by decide
  obtain ⟨hone, -, -⟩ := replay_refines_reference [263] [7] 1 hwords hproof (by norm_num)
  obtain ⟨-, hzero, -⟩ := replay_refines_reference [263] [7] 0 hwords hproof (by norm_num)
  refine ⟨(hone _).mpr ⟨1, 1, yields_rejectedChallenges, le_rfl, le_rfl⟩, hzero ?_⟩
  rintro ⟨m, n, c, hyields, hm, -⟩
  obtain ⟨rfl, -, -⟩ := yields_rejectedChallenges.unique hyields
  exact absurd hm (by decide)

end StarkCalldata
