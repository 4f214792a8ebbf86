import StarkCalldata.Challenge.Basic
import StarkCalldata.Proofs.Outcome

/-!
Replays without rejection.

When the channel finds its digest acceptable at once, a draw takes the element out of it and hashes
once more, whatever the number of retries. A replay in which this happens twice has its challenges
in closed form:

* `Channel.ofPublicInput_eq`, `Channel.mix_eq`, `Channel.advance_eq`: the single steps;
* `Channel.draw_of_acceptable`: a draw without rejection;
* `Channel.drawMany_cons`, `Channel.drawMany_of_error`: how a row of draws begins and how it fails;
* `Challenges.outcome_replay_of_draws`: any replay, as its start, its word and its two draws;
* `Challenges.replay_of_acceptable`: a replay without rejection.
-/

namespace StarkCalldata

lemma Word.encode_natCast {n : ℕ} (h : n < limit) : encode n = .ok (bytes n) :=
  if_pos ⟨Int.natCast_nonneg n, Int.ofNat_lt.mpr h⟩

lemma Field.ofMontgomery_lt (n : ℤ) : ofMontgomery n < prime := by
  rw [ofMontgomery]
  exact residue_lt _

namespace Channel

variable {c next last : Channel} {digest : List UInt8} {retries : Json} {fault : Fault} {e n : ℕ}

/-- The channel of a public input starts with its hash. -/
lemma ofPublicInput_eq {publicInput : List Entry} {n : ℕ} (h : Entry.hash publicInput = .ok n) :
    ofPublicInput publicInput = .ok ⟨Word.bytes n, 0⟩ := by
  have hdigest : ofDigest (Word.bytes n) 0 = .ok ⟨Word.bytes n, 0⟩ := by
    rw [ofDigest, if_pos (Word.length_bytes n)]
  exact Outcome.bind_eq_ok.mpr ⟨n, h, hdigest⟩

/-- A word that is read is hashed with the digest increased by one. -/
lemma mix_eq (c : Channel) {word : ℕ} (h : word < Word.limit) :
    c.mix word = .ok ⟨Keccak.digest
      (Word.bytes ((c.candidate + 1) % Word.limit) ++ Word.bytes word), 0⟩ := by
  rw [mix, Word.encode_natCast h]
  rfl

/-- The digest is hashed with the counter. -/
lemma advance_eq (digest : List UInt8) (counter : ℕ) (h : counter < Word.limit) :
    advance ⟨digest, counter⟩ =
      .ok ⟨Keccak.digest (digest ++ Word.bytes counter), counter + 1⟩ := by
  rw [advance, Word.encode_natCast h]
  rfl

/-- A draw from an acceptable digest takes the element out of it and hashes once. -/
lemma draw_of_acceptable (retries : Json) (h : c.Acceptable) (hnext : c.advance = .ok next) :
    c.draw retries = (.ok (Field.ofMontgomery c.candidate), next) := by
  rw [draw, if_pos h, accept, hnext]

/-- A row begins with its first draw. -/
lemma drawMany_cons {es : List ℕ} (h : c.draw retries = (.ok e, next))
    (hrow : drawMany retries n next = (.ok es, last)) :
    drawMany retries (n + 1) c = (.ok (e :: es), last) := by
  rw [drawMany, h]
  simp only [hrow]

lemma drawMany_of_draw_error (h : (c.draw retries).1 = .error fault) :
    (drawMany retries (n + 1) c).1 = .error fault := by
  rw [drawMany]
  cases hdraw : c.draw retries with
  | mk answer next =>
      rw [hdraw] at h
      cases h
      rfl

/-- A row fails if it does after its first draw. -/
lemma drawMany_of_error (h : c.draw retries = (.ok e, next))
    (hrow : (drawMany retries n next).1 = .error fault) :
    (drawMany retries (n + 1) c).1 = .error fault := by
  rw [drawMany, h]
  cases hothers : drawMany retries n next with
  | mk answer last =>
      rw [hothers] at hrow
      cases hrow
      simp only [hothers]

lemma drawMany_two_of_acceptable (retries : Json) (h : c.Acceptable)
    (hnext : c.advance = .ok next) (h' : next.Acceptable) (hlast : next.advance = .ok last) :
    c.drawMany retries 2 =
      (.ok [Field.ofMontgomery c.candidate, Field.ofMontgomery next.candidate], last) :=
  drawMany_cons (draw_of_acceptable retries h hnext)
    (drawMany_cons (draw_of_acceptable retries h' hlast) rfl)

end Channel

namespace Challenges

lemma ofValues_of_lt {z alpha : ℕ} (hz : z < Field.prime) (ha : alpha < Field.prime) :
    ofValues z alpha = .ok ⟨z, alpha⟩ := by
  have hz' : Field.IsCanonical z := ⟨Int.natCast_nonneg z, Int.ofNat_lt.mpr hz⟩
  have ha' : Field.IsCanonical alpha := ⟨Int.natCast_nonneg alpha, Int.ofNat_lt.mpr ha⟩
  have hcz : PublicInput.canonical .z z = .ok () := if_pos hz'
  have hca : PublicInput.canonical .alpha alpha = .ok () := if_pos ha'
  rw [ofValues, hcz, hca]
  rfl

/-- What the elements that were drawn come to: a pair of challenges if there are two. -/
def ofDraws : Except Fault (List ℕ) → Except Fault Challenges
  | .ok [z, alpha] => ofValues z alpha
  | .ok _ => .error .offsetOutOfRange
  | .error fault => .error (replayFault fault)

lemma outcome_ofDraws (answer : Except Fault (List ℕ) × Channel) :
    (match answer with
      | (.ok [z, alpha], _) => liftM (ofValues z alpha)
      | (.ok _, _) => Run.fail .offsetOutOfRange
      | (.error fault, _) => Run.fail (replayFault fault) : Run Challenges).outcome =
    ofDraws answer.1 := by
  match answer with
  | (.error _, _) | (.ok [], _) | (.ok [_], _) | (.ok (_ :: _ :: _ :: _), _) => rfl
  | (.ok [z, alpha], _) => exact Run.outcome_liftM (ofValues z alpha)

variable {seed : List Entry} {word : ℤ} {rest : List ℤ} {start c next last : Channel}

lemma outcome_replay_nil (retries : Json) (hstart : Channel.ofPublicInput seed = .ok start) :
    (replay seed [] retries).outcome = ofDraws (start.drawMany retries 2).1 := by
  rw [replay]
  simp only [Run.outcome_bind, Run.outcome_liftM, Run.outcome_note, Run.outcome_pure, hstart,
    Except.bind]
  exact outcome_ofDraws _

lemma outcome_replay_cons (retries : Json) (hstart : Channel.ofPublicInput seed = .ok start)
    (hmix : start.mix word = .ok c) :
    (replay seed (word :: rest) retries).outcome = ofDraws (c.drawMany retries 2).1 := by
  rw [replay]
  simp only [Run.outcome_bind, Run.outcome_liftM, Run.outcome_ofExcept, hstart, hmix, Except.bind]
  exact outcome_ofDraws _

/-- The channel after it has read the first word of a proof, if there is one. -/
def channelAfter (start : Channel) : List ℤ → Except Fault Channel
  | [] => .ok start
  | word :: _ => start.mix word

/-- A replay starts the channel, reads a word and draws. -/
lemma outcome_replay_of_draws (seed : List Entry) (words : List ℤ) (retries : Json) :
    (replay seed words retries).outcome =
      (Channel.ofPublicInput seed).bind fun start => (channelAfter start words).bind fun channel =>
        ofDraws (channel.drawMany retries 2).1 := by
  cases hstart : Channel.ofPublicInput seed with
  | error f =>
      rw [replay]
      simp only [Run.outcome_bind, Run.outcome_liftM, hstart, Except.bind]
  | ok start =>
      cases words with
      | nil => exact outcome_replay_nil retries hstart
      | cons word rest =>
          simp only [channelAfter, Except.bind]
          cases hmix : start.mix word with
          | error f =>
              rw [replay]
              simp only [Run.outcome_bind, Run.outcome_liftM, Run.outcome_ofExcept, hstart, hmix,
                Except.bind]
          | ok channel => exact outcome_replay_cons retries hstart hmix

/-- The challenges of a replay without rejection come out of the first two digests. -/
theorem replay_of_acceptable (retries : Json) (hstart : Channel.ofPublicInput seed = .ok start)
    (hmix : start.mix word = .ok c) (h : c.Acceptable) (hnext : c.advance = .ok next)
    (h' : next.Acceptable) (hlast : next.advance = .ok last) :
    (replay seed (word :: rest) retries).outcome =
      .ok ⟨Field.ofMontgomery c.candidate, Field.ofMontgomery next.candidate⟩ := by
  have hdraws := Channel.drawMany_two_of_acceptable retries h hnext h' hlast
  rw [outcome_replay_cons retries hstart hmix, hdraws]
  exact ofValues_of_lt (Field.ofMontgomery_lt _) (Field.ofMontgomery_lt _)

end Challenges

end StarkCalldata
