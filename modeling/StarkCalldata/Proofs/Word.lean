import Mathlib.Tactic
import StarkCalldata.Entry
import StarkCalldata.Field
import StarkCalldata.Proofs.Json.Reader
import StarkCalldata.Proofs.Outcome

/-!
Words and what is packed into them.

A word holds exactly the numbers below its limit, and bytes packed word by word can be taken apart
again, so nothing about a row of numbers is lost before it is hashed:

* `ofBytes_bytes`, `bytes_ofBytes`: the bytes of a word and the number they denote determine each
  other;
* `ofBytes_eq_iff`: bytes denote the same number when they are the same up to zeros in front;
* `packed`, `packed_injective`: the bytes of a row of numbers, and that they determine the row;
* `packed_split`, `split_packed`: the words that bytes hold are packed into the same bytes, and
  packed words are held by their bytes;
* `hashOf`, `digest_eq_of_hashOf_eq`: the hash of a row, which is as good as its digest;
* `Fits`, `Fits.writable`, `Entry.hashIntegers_eq_ok`, `Entry.kind_of_hashIntegers`: integers are
  hashed when all of them fit into words, and refused as values otherwise.
-/

namespace StarkCalldata

namespace Word

/-! ### Bytes and numbers -/

lemma limit_eq : limit = 256 ^ size := by norm_num [limit, size]

lemma ofBytes_append_singleton (bs : List UInt8) (b : UInt8) :
    ofBytes (bs ++ [b]) = 256 * ofBytes bs + b.toNat := by
  simp [ofBytes]

lemma ofBytes_lt (bs : List UInt8) : ofBytes bs < 256 ^ bs.length := by
  induction bs using List.reverseRecOn with
  | nil => simp [ofBytes]
  | append_singleton bs b ih =>
      have hb : b.toNat < 256 := b.toNat_lt
      rw [ofBytes_append_singleton, List.length_append, List.length_singleton, pow_succ]
      omega

/-- The last bytes of a number that has no others denote it. -/
lemma ofBytes_bigEndian {k n : ℕ} (h : n < 256 ^ k) : ofBytes (bigEndian k n) = n := by
  induction k generalizing n with
  | zero =>
      have hzero : n = 0 := by simpa using h
      rw [hzero]
      rfl
  | succ k ih =>
      have hdiv : n / 256 < 256 ^ k := by
        rw [pow_succ] at h
        omega
      have hlast : (UInt8.ofNat n).toNat = n % 256 := UInt8.toNat_ofNat'
      rw [bigEndian, ofBytes_append_singleton, ih hdiv, hlast]
      omega

/-- The bytes of the number that bytes denote are these bytes. -/
lemma bigEndian_ofBytes (bs : List UInt8) : bigEndian bs.length (ofBytes bs) = bs := by
  induction bs using List.reverseRecOn with
  | nil => rfl
  | append_singleton bs b ih =>
      have hb : b.toNat < 256 := b.toNat_lt
      have hdiv : (256 * ofBytes bs + b.toNat) / 256 = ofBytes bs := by omega
      have hlast : UInt8.ofNat (256 * ofBytes bs + b.toNat) = b := by
        apply UInt8.toNat_inj.mp
        rw [UInt8.toNat_ofNat']
        omega
      rw [List.length_append, List.length_singleton, ofBytes_append_singleton, bigEndian, hdiv, ih,
        hlast]

/-- The bytes of a word denote the number it holds. -/
lemma ofBytes_bytes {n : ℕ} (h : n < limit) : ofBytes (bytes n) = n :=
  ofBytes_bigEndian (limit_eq ▸ h)

/-- Bytes that fill a word are those of the number they denote. -/
lemma bytes_ofBytes {bs : List UInt8} (h : bs.length = size) : bytes (ofBytes bs) = bs := by
  rw [bytes, ← h]
  exact bigEndian_ofBytes bs

lemma ofBytes_lt_limit {bs : List UInt8} (h : bs.length = size) : ofBytes bs < limit := by
  rw [limit_eq, ← h]
  exact ofBytes_lt bs

lemma length_le_of_mem_chunksAux {n k : ℕ} {bs piece : List UInt8}
    (h : piece ∈ Keccak.chunksAux n k bs) : piece.length ≤ n := by
  induction k generalizing bs with
  | zero => cases h
  | succ k ih =>
      rcases List.mem_cons.mp h with rfl | h
      · exact List.length_take_le n bs
      · exact ih h

lemma lt_of_mem_split {bs : List UInt8} {w : ℕ} (h : w ∈ split bs) : w < limit := by
  obtain ⟨piece, hpiece, rfl⟩ := List.mem_map.mp h
  rw [limit_eq]
  exact (ofBytes_lt piece).trans_le
    (Nat.pow_le_pow_right (by decide) (length_le_of_mem_chunksAux hpiece))

/-! ### Leading zeros -/

lemma ofBytes_cons (b : UInt8) (bs : List UInt8) :
    ofBytes (b :: bs) = b.toNat * 256 ^ bs.length + ofBytes bs := by
  induction bs using List.reverseRecOn with
  | nil => simp [ofBytes]
  | append_singleton bs last ih =>
      rw [← List.cons_append, ofBytes_append_singleton, ofBytes_append_singleton, ih,
        List.length_append, List.length_singleton, pow_succ]
      ring

lemma ofBytes_dropWhile (bs : List UInt8) : ofBytes (bs.dropWhile (· = 0)) = ofBytes bs := by
  induction bs with
  | nil => rfl
  | cons b bs ih =>
      by_cases hb : b = 0
      · rw [List.dropWhile_cons_of_pos (by simpa using hb), ih, ofBytes_cons, hb]
        simp
      · rw [List.dropWhile_cons_of_neg (by simpa using hb)]

/-- The greater number has no fewer bytes, if the smaller one is told without zeros in front. -/
lemma length_le_of_ofBytes_le {bs cs : List UInt8} (hbs : bs.head? ≠ some 0)
    (h : ofBytes bs ≤ ofBytes cs) : bs.length ≤ cs.length := by
  cases bs with
  | nil => exact Nat.zero_le _
  | cons b bs =>
      have hb : 1 ≤ b.toNat := by
        rw [Nat.one_le_iff_ne_zero]
        intro hzero
        exact hbs (congrArg some (UInt8.toNat_inj.mp hzero))
      have hpow : 256 ^ bs.length ≤ ofBytes (b :: bs) := by
        rw [ofBytes_cons]
        exact le_add_right (Nat.le_mul_of_pos_left _ hb)
      have hlt : 256 ^ bs.length < 256 ^ cs.length := (hpow.trans h).trans_lt (ofBytes_lt cs)
      exact (Nat.pow_lt_pow_iff_right (by decide)).mp hlt

/-- Bytes denote the same number when they are the same up to zeros in front. -/
theorem ofBytes_eq_iff {bs cs : List UInt8} :
    ofBytes bs = ofBytes cs ↔ bs.dropWhile (· = 0) = cs.dropWhile (· = 0) := by
  constructor
  · intro h
    have hhead (ds : List UInt8) : (ds.dropWhile (· = 0)).head? ≠ some 0 := by
      intro hzero
      have hnot := List.head?_dropWhile_not (fun b : UInt8 => decide (b = 0)) ds
      rw [hzero] at hnot
      simp at hnot
    rw [← ofBytes_dropWhile bs, ← ofBytes_dropWhile cs] at h
    have hlength : (bs.dropWhile (· = 0)).length = (cs.dropWhile (· = 0)).length :=
      le_antisymm (length_le_of_ofBytes_le (hhead bs) h.le)
        (length_le_of_ofBytes_le (hhead cs) h.ge)
    rw [← bigEndian_ofBytes (bs.dropWhile (· = 0)), h, hlength, bigEndian_ofBytes]
  · intro h
    rw [← ofBytes_dropWhile bs, h, ofBytes_dropWhile]

/-! ### Rows of words -/

/-- Lists are determined by their images under a map that tells their members apart. -/
lemma eq_of_map_eq {α β : Type} {f : α → β} {as bs : List α}
    (hinj : ∀ a ∈ as, ∀ b ∈ bs, f a = f b → a = b) (h : as.map f = bs.map f) : as = bs := by
  induction as generalizing bs with
  | nil => simpa [eq_comm] using h
  | cons a as ih =>
      cases bs with
      | nil => simp at h
      | cons b bs =>
          rw [List.map_cons, List.map_cons, List.cons.injEq] at h
          have hab : a = b := hinj a (.head _) b (.head _) h.1
          have hrest : as = bs :=
            ih (fun a ha b hb => hinj a (.tail _ ha) b (.tail _ hb)) h.2
          rw [hab, hrest]

/-- Rows of one length that were put one after another can be taken apart again. -/
lemma map_eq_of_flatMap_eq {α β : Type} {row : α → List β} {k : ℕ} {as bs : List α} (hk : 0 < k)
    (hrow : ∀ a, (row a).length = k) (h : as.flatMap row = bs.flatMap row) :
    as.map row = bs.map row := by
  have hlength (l : List α) : (l.flatMap row).length = l.length * k := by
    simp [List.length_flatMap, hrow]
  have hlengths (l : List α) : (l.map row).map List.length = List.replicate l.length k := by
    rw [List.map_map, ← List.map_const']
    exact List.map_congr_left fun a _ => hrow a
  have hcount : as.length = bs.length := by
    refine Nat.eq_of_mul_eq_mul_right hk ?_
    rw [← hlength, h, hlength]
  refine List.eq_iff_flatten_eq.mpr ⟨?_, ?_⟩
  · rwa [← List.flatMap_def, ← List.flatMap_def]
  · rw [hlengths, hlengths, hcount]

/-- The bytes of a row of numbers, word by word. -/
def packed (ns : List ℕ) : List UInt8 := ns.flatMap bytes

@[simp] lemma packed_cons (n : ℕ) (ns : List ℕ) : packed (n :: ns) = bytes n ++ packed ns := rfl

/-- The bytes of a row of words determine the row. -/
theorem packed_injective {ns ms : List ℕ} (hns : ∀ n ∈ ns, n < limit) (hms : ∀ m ∈ ms, m < limit)
    (h : packed ns = packed ms) : ns = ms := by
  have hbytes : ns.map bytes = ms.map bytes :=
    map_eq_of_flatMap_eq (by decide : 0 < size) length_bytes h
  refine eq_of_map_eq (fun n hn m hm hnm => ?_) hbytes
  rw [← ofBytes_bytes (hns n hn), hnm, ofBytes_bytes (hms m hm)]

/-! ### The words of a row of bytes -/

lemma flatten_chunksAux {α : Type} (n k : ℕ) (xs : List α) :
    (Keccak.chunksAux n k xs).flatten = xs.take (n * k) := by
  induction k generalizing xs with
  | zero => simp [Keccak.chunksAux]
  | succ k ih =>
      rw [Keccak.chunksAux, List.flatten_cons, ih, Nat.mul_succ, Nat.add_comm, List.take_add]

/-- A piece is as long as asked for when the row holds all pieces. -/
lemma length_eq_of_mem_chunksAux {α : Type} {n k : ℕ} {xs piece : List α} (h : n * k ≤ xs.length)
    (hpiece : piece ∈ Keccak.chunksAux n k xs) : piece.length = n := by
  induction k generalizing xs with
  | zero => cases hpiece
  | succ k ih =>
      rw [Nat.mul_succ] at h
      rcases List.mem_cons.mp hpiece with rfl | hpiece
      · rw [List.length_take]
        omega
      · refine ih ?_ hpiece
        rw [List.length_drop]
        omega

lemma chunks_eq_of_dvd {bs : List UInt8} (h : size ∣ bs.length) :
    Keccak.chunks size bs = Keccak.chunksAux size (bs.length / size) bs := by
  have hcount : (bs.length + (size - 1)) / size = bs.length / size := by
    unfold size at *
    omega
  rw [Keccak.chunks, hcount]

/-- The words that bytes hold are packed into the same bytes, if these fill whole words. -/
theorem packed_split {bs : List UInt8} (h : size ∣ bs.length) : packed (split bs) = bs := by
  have hbytes : ∀ piece ∈ Keccak.chunks size bs, bytes (ofBytes piece) = piece := by
    intro piece hpiece
    rw [chunks_eq_of_dvd h] at hpiece
    exact bytes_ofBytes (length_eq_of_mem_chunksAux (Nat.mul_div_le _ _) hpiece)
  rw [packed, split, List.flatMap_map, List.flatMap_def, List.map_congr_left hbytes, List.map_id',
    chunks_eq_of_dvd h, flatten_chunksAux, Nat.mul_div_cancel' h, List.take_length]

lemma size_dvd_length_packed (ns : List ℕ) : size ∣ (packed ns).length := by
  simp [packed, List.length_flatMap]

/-- Packed words are the words that the bytes hold. -/
theorem split_packed {ns : List ℕ} (h : ∀ n ∈ ns, n < limit) : split (packed ns) = ns :=
  packed_injective (fun _ hw => lt_of_mem_split hw) h (packed_split (size_dvd_length_packed ns))

/-! ### Hashes -/

/-- The hash of a row of numbers: the digest of its bytes, as a number. -/
def hashOf (ns : List ℕ) : ℕ := ofBytes (Keccak.digest (packed ns))

lemma hashOf_lt (ns : List ℕ) : hashOf ns < limit := ofBytes_lt_limit (Keccak.length_digest _)

lemma bytes_hashOf (ns : List ℕ) : bytes (hashOf ns) = Keccak.digest (packed ns) :=
  bytes_ofBytes (Keccak.length_digest _)

/-- Rows of one hash have one digest. -/
lemma digest_eq_of_hashOf_eq {ns ms : List ℕ} (h : hashOf ns = hashOf ms) :
    Keccak.digest (packed ns) = Keccak.digest (packed ms) := by
  rw [← bytes_hashOf, h, bytes_hashOf]

/-! ### Integers that fit into words -/

/-- An integer that a word can hold. -/
def Fits (n : ℤ) : Prop := 0 ≤ n ∧ n < limit

instance (n : ℤ) : Decidable (Fits n) := inferInstanceAs (Decidable (0 ≤ n ∧ n < limit))

lemma fits_natCast {n : ℕ} : Fits n ↔ n < limit := by
  simp [Fits]

/-- An integer that fits into a word can be written. -/
lemma Fits.writable {n : ℤ} (h : Fits n) : Text.Writable n := by
  obtain ⟨hnonneg, hlt⟩ := h
  have hlimit : limit < 10 ^ 78 := by norm_num [limit]
  have hpow : n.toNat < 10 ^ 78 := by omega
  rw [← Int.toNat_of_nonneg hnonneg]
  exact Text.writable_of_lt_pow hpow (by decide)

lemma encode_eq_ok {n : ℤ} {bs : List UInt8} :
    encode n = .ok bs ↔ Fits n ∧ bs = bytes n.toNat := by
  rw [encode, Fits]
  split_ifs with h
  · simp [h, eq_comm]
  · simp [h]

lemma kind_of_encode {n : ℤ} {f : Fault} (h : encode n = .error f) : f.kind = .value := by
  rw [encode] at h
  split_ifs at h with hfits
  rw [← Except.error.inj h, Fault.kind_quoting]
  exact ite_self _

end Word

lemma Field.IsCanonical.fits {n : ℤ} (h : IsCanonical n) : Word.Fits n := by
  have hlt : (prime : ℤ) < Word.limit := by decide
  exact ⟨h.1, h.2.trans hlt⟩

namespace Entry

open Word

variable {ws : List ℤ} {f : Fault}

lemma packIntegers_cons (n : ℤ) (ws : List ℤ) :
    packIntegers (n :: ws) = (encode n).bind fun first => (packIntegers ws).bind fun others =>
      .ok (first ++ others) := rfl

/-- Integers are packed when all of them fit into words. -/
lemma packIntegers_eq_ok {bs : List UInt8} :
    packIntegers ws = .ok bs ↔ (∀ n ∈ ws, Fits n) ∧ bs = packed (ws.map Int.toNat) := by
  induction ws generalizing bs with
  | nil => simp [packIntegers, pack, packed, eq_comm]
  | cons n ws ih =>
      simp only [packIntegers_cons, Outcome.bind_ok, encode_eq_ok, ih, List.forall_mem_cons]
      constructor
      · rintro ⟨first, ⟨hn, hfirst⟩, others, ⟨hws, hothers⟩, h⟩
        rw [hfirst, hothers] at h
        exact ⟨⟨hn, hws⟩, (Except.ok.inj h).symm⟩
      · rintro ⟨⟨hn, hws⟩, h⟩
        rw [h, List.map_cons, packed_cons]
        exact ⟨_, ⟨hn, rfl⟩, _, ⟨hws, rfl⟩, rfl⟩

/-- Integers that are not packed are refused as values. -/
lemma kind_of_packIntegers (h : packIntegers ws = .error f) : f.kind = .value := by
  induction ws with
  | nil => cases h
  | cons n ws ih =>
      rw [packIntegers_cons] at h
      cases hn : encode n with
      | error e =>
          rw [hn] at h
          cases h
          exact kind_of_encode hn
      | ok first =>
          rw [hn] at h
          cases hws : packIntegers ws with
          | error e =>
              rw [hws] at h
              cases h
              exact ih hws
          | ok others =>
              rw [hws] at h
              cases h

/-- Integers are hashed when all of them fit into words. -/
theorem hashIntegers_eq_ok {hash : ℕ} :
    hashIntegers ws = .ok hash ↔ (∀ n ∈ ws, Fits n) ∧ hash = hashOf (ws.map Int.toNat) := by
  have hpack : hashIntegers ws = (packIntegers ws).bind fun bytes =>
      .ok (ofBytes (Keccak.digest bytes)) := rfl
  simp only [hpack, Outcome.bind_ok, packIntegers_eq_ok, Except.ok.injEq]
  constructor
  · rintro ⟨_, ⟨hws, rfl⟩, rfl⟩
    exact ⟨hws, rfl⟩
  · rintro ⟨hws, rfl⟩
    exact ⟨_, ⟨hws, rfl⟩, rfl⟩

/-- Integers that are not hashed are refused as values. -/
lemma kind_of_hashIntegers (h : hashIntegers ws = .error f) : f.kind = .value := by
  have hpack : hashIntegers ws = (packIntegers ws).bind fun bytes =>
      .ok (ofBytes (Keccak.digest bytes)) := rfl
  rw [hpack] at h
  cases hws : packIntegers ws with
  | error e =>
      rw [hws] at h
      cases h
      exact kind_of_packIntegers hws
  | ok bytes =>
      rw [hws] at h
      cases h

end Entry

end StarkCalldata
