import StarkCalldata.Proofs.Proof.Image
import StarkCalldata.Proofs.Word

/-!
The bytes of a proof as text, as bytes and as words.

A proof is written as hexadecimal digits, kept as bytes and hashed as words. These are one format:
each of the three can be turned into the others, and comes back from them as it was:

* `Decoding.IsHexText`, `Decoding.IsFilled`: the text of bytes, and bytes filled up to whole words;
* `Decoding.proofBytes_eq_ok`, `Decoding.proofBytes_eq_error`: the bytes of a proof are read from
  such a text and filled up, and everything else is refused;
* `words_text_format`: text, bytes and words are one format.
-/

namespace StarkCalldata

open Text

namespace Decoding

variable {j : Json} {path : Path} {front bytes : List UInt8}

/-- A value is a hexadecimal text of bytes: a mark, and digits that denote the bytes. -/
def IsHexText (j : Json) (front : List UInt8) : Prop :=
  ∃ mark ∈ hexMarks, ∃ digits, j = .str (String.ofList (mark ++ digits)) ∧ DenoteBytes digits front

/-- Bytes filled up with zeros to the least number of whole words that they fit into. -/
structure IsFilled (front bytes : List UInt8) : Prop where
  zeros : ∃ k, bytes = front ++ List.replicate k 0
  least : IsLeast {n | Word.size ∣ n ∧ front.length ≤ n} bytes.length

/-- Bytes are filled up in one way. -/
lemma isFilled_iff : IsFilled front bytes ↔ bytes = fillWord front := by
  have hleast : IsLeast {n | Word.size ∣ n ∧ front.length ≤ n} (fillWord front).length := by
    refine ⟨⟨size_dvd_length_fillWord front, ?_⟩, ?_⟩
    · simp [fillWord]
    · rintro n ⟨hdvd, hle⟩
      rw [fillWord, List.length_append, List.length_replicate]
      unfold Word.size at *
      omega
  constructor
  · rintro ⟨⟨k, rfl⟩, h⟩
    have hlength := h.unique hleast
    simp only [fillWord, List.length_append, List.length_replicate, add_right_inj] at hlength
    rw [fillWord, hlength]
  · rintro rfl
    exact ⟨⟨_, rfl⟩, hleast⟩

/-- The bytes of a proof are read from a hexadecimal text, and filled up. -/
lemma proofBytes_eq_ok :
    proofBytes j path = .ok bytes ↔ ∃ front, IsHexText j front ∧ IsFilled front bytes := by
  constructor
  · intro h
    cases j with
    | str s =>
        simp only [proofBytes] at h
        split_ifs at h with hodd
        · cases h
        · split at h
          · rename_i front hfront
            cases h
            obtain ⟨mark, hmark, hs⟩ := exists_mark_append s.toList
            refine ⟨front, ⟨mark, hmark, _, ?_, hexBytes?_eq_some.mp hfront⟩, isFilled_iff.mpr rfl⟩
            rw [← hs, String.ofList_toList]
          · cases h
    | _ => cases h
  · rintro ⟨front, ⟨mark, hmark, digits, rfl, hfront⟩, hfilled⟩
    obtain ⟨heven, hdigits⟩ := exists_denoteBytes.mp ⟨front, hfront⟩
    have hlength : ¬ digits.length % 2 ≠ 0 := not_not.mpr (Nat.even_iff.mp heven)
    simp only [proofBytes, String.toList_ofList, dropHexMark_append hmark hdigits, if_neg hlength,
      hexBytes?_eq_some.mpr hfront, isFilled_iff.mp hfilled]

/-- Whatever is wrong with the bytes of a proof is a defect at their place. -/
lemma failsWith_proofBytes (j : Json) (path : Path) :
    FailsWith (fun f => ∃ d, f = .malformedProof path.render d) (proofBytes j path) := by
  cases j with
  | str s =>
      simp only [proofBytes]
      split_ifs
      · exact .error ⟨_, rfl⟩
      · split
        · exact .ok _
        · exact .error ⟨_, rfl⟩
  | _ => exact .error ⟨_, rfl⟩

/-- What is no hexadecimal text is refused. -/
lemma proofBytes_eq_error (h : ∀ front, ¬ IsHexText j front) :
    ∃ d, proofBytes j path = .error (.malformedProof path.render d) := by
  cases hresult : proofBytes j path with
  | ok bytes =>
      obtain ⟨front, hfront, -⟩ := proofBytes_eq_ok.mp hresult
      exact absurd hfront (h front)
  | error f =>
      obtain ⟨d, rfl⟩ := failsWith_proofBytes j path f hresult
      exact ⟨d, rfl⟩

lemma exists_isHexText :
    (∃ front, IsHexText j front) ↔ ∃ mark ∈ hexMarks, ∃ digits,
      j = .str (String.ofList (mark ++ digits)) ∧ Even digits.length ∧
        ∀ c ∈ digits, isHexDigit c = true := by
  simp only [← exists_denoteBytes]
  constructor
  · rintro ⟨front, mark, hmark, digits, hj, hfront⟩
    exact ⟨mark, hmark, digits, hj, front, hfront⟩
  · rintro ⟨mark, hmark, digits, hj, front, hfront⟩
    exact ⟨front, mark, hmark, digits, hj, hfront⟩

/-- Whole words come back from their digits, whatever the mark. -/
lemma proofBytes_mark_bytesHex {mark : List Char} (hmark : mark ∈ hexMarks)
    (h : Word.size ∣ bytes.length) :
    proofBytes (.str (String.ofList (mark ++ bytesHex bytes))) path = .ok bytes := by
  refine proofBytes_eq_ok.mpr ⟨bytes, ⟨mark, hmark, bytesHex bytes, rfl, ?_⟩, ?_⟩
  · exact hexBytes?_eq_some.mp (hexBytes?_bytesHex bytes)
  · exact isFilled_iff.mpr (fillWord_of_dvd h).symm

end Decoding

/-! ### Words -/

lemma Entry.exists_packIntegers {ws : List ℤ} :
    (∃ bytes, packIntegers ws = .ok bytes) ↔ ∀ n ∈ ws, Word.Fits n := by
  simp only [packIntegers_eq_ok, exists_and_left, exists_eq, and_true]

namespace AnnotatedProof

variable {proof : AnnotatedProof}

lemma packIntegers_words (h : Word.size ∣ proof.bytes.length) :
    Entry.packIntegers proof.words = .ok proof.bytes := by
  refine Entry.packIntegers_eq_ok.mpr ⟨fun n hn => ?_, ?_⟩
  · obtain ⟨w, hw, rfl⟩ := List.mem_map.mp hn
    exact Word.fits_natCast.mpr (Word.lt_of_mem_split hw)
  · have hwords : proof.words.map Int.toNat = Word.split proof.bytes := by
      simp [words, Function.comp_def]
    rw [hwords, Word.packed_split h]

/-- Bytes into which integers are packed hold these integers as words. -/
lemma words_of_packIntegers {ws : List ℤ} (h : Entry.packIntegers ws = .ok proof.bytes) :
    proof.words = ws := by
  obtain ⟨hfits, hbytes⟩ := Entry.packIntegers_eq_ok.mp h
  have hlt : ∀ n ∈ ws.map Int.toNat, n < Word.limit := by
    intro n hn
    obtain ⟨w, hw, rfl⟩ := List.mem_map.mp hn
    obtain ⟨hnonneg, hlimit⟩ := hfits w hw
    omega
  have hcast : ∀ n ∈ ws, Int.ofNat n.toNat = n := fun n hn => Int.toNat_of_nonneg (hfits n hn).1
  rw [words, hbytes, Word.split_packed hlt, List.map_map]
  exact (List.map_congr_left hcast).trans (List.map_id' ws)

end AnnotatedProof

/-- **Text, bytes and words are one format.** The bytes of a proof are read from a mark and an even
number of hexadecimal digits, and from nothing else: they begin with what the digits denote and go
on with zeros, up to the least number of whole words. The words that they hold are packed into the
same bytes. Conversely integers are packed exactly if each of them fits into a word, and their
bytes, written as digits, are read as they were and hold the same integers. -/
theorem words_text_format (path : Path) :
    (∀ j bytes, Decoding.proofBytes j path = .ok bytes ↔
      ∃ front, Decoding.IsHexText j front ∧ Decoding.IsFilled front bytes) ∧
    (∀ j, (∃ front, Decoding.IsHexText j front) ↔ ∃ mark ∈ hexMarks, ∃ digits,
      j = .str (String.ofList (mark ++ digits)) ∧ Even digits.length ∧
        ∀ c ∈ digits, isHexDigit c = true) ∧
    (∀ j, (∀ front, ¬ Decoding.IsHexText j front) →
      ∃ d, Decoding.proofBytes j path = .error (.malformedProof path.render d)) ∧
    (∀ j (proof : AnnotatedProof), Decoding.proofBytes j path = .ok proof.bytes →
      Entry.packIntegers proof.words = .ok proof.bytes) ∧
    (∀ ws, (∃ bytes, Entry.packIntegers ws = .ok bytes) ↔ ∀ n ∈ ws, 0 ≤ n ∧ n < Word.limit) ∧
    ∀ ws (proof : AnnotatedProof), Entry.packIntegers ws = .ok proof.bytes →
      (∀ mark ∈ hexMarks, Decoding.proofBytes
        (.str (String.ofList (mark ++ bytesHex proof.bytes))) path = .ok proof.bytes) ∧
      proof.words = ws := by
  refine ⟨fun j bytes => Decoding.proofBytes_eq_ok, fun j => Decoding.exists_isHexText,
    fun j hj => Decoding.proofBytes_eq_error hj, fun j proof hbytes => ?_, fun ws => ?_,
    fun ws proof hpack => ⟨fun mark hmark => ?_, ?_⟩⟩
  · exact AnnotatedProof.packIntegers_words (Decoding.size_dvd_of_proofBytes hbytes)
  · exact Entry.exists_packIntegers
  · obtain ⟨-, hbytes⟩ := Entry.packIntegers_eq_ok.mp hpack
    rw [hbytes]
    exact Decoding.proofBytes_mark_bytesHex hmark (Word.size_dvd_length_packed _)
  · exact AnnotatedProof.words_of_packIntegers hpack

/-- A text with letters of both cases, whose bytes do not fill a word. -/
def mixedText : Json := .str "0XaBc1"

/-- A proof of the one word that this text stands for. -/
def mixedProof : AnnotatedProof :=
  { AnnotatedProof.segmentedProof with bytes := 0xAB :: 0xC1 :: List.replicate 30 0 }

/-- The text is read as the bytes of this proof, its word is packed into them, and they come back
from their digits. -/
theorem mixedText_format :
    Decoding.proofBytes mixedText (.key .root "proof_hex") = .ok mixedProof.bytes ∧
      Entry.packIntegers mixedProof.words = .ok mixedProof.bytes ∧
      Decoding.proofBytes (.str (String.ofList (['0', 'x'] ++ bytesHex mixedProof.bytes)))
        (.key .root "proof_hex") = .ok mixedProof.bytes ∧
      mixedProof.words = [0xABC1 * 256 ^ 30] := by
  obtain ⟨hread, -, -, hpack, -, hback⟩ := words_text_format (.key .root "proof_hex")
  have hbytes : Decoding.proofBytes mixedText (.key .root "proof_hex") = .ok mixedProof.bytes := by
    refine (hread _ _).mpr
      ⟨[0xAB, 0xC1], ⟨['0', 'X'], by decide, "aBc1".toList, rfl, by decide⟩, ?_⟩
    exact Decoding.isFilled_iff.mpr (by decide)
  have hword : Entry.packIntegers [0xABC1 * 256 ^ 30] = .ok mixedProof.bytes :=
    Entry.packIntegers_eq_ok.mpr ⟨by decide, by decide +kernel⟩
  obtain ⟨hhex, hwords⟩ := hback _ _ hword
  exact ⟨hbytes, hpack _ _ hbytes, hhex _ (by decide), hwords⟩

end StarkCalldata
