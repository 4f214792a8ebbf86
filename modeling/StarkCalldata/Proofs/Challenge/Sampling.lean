import Mathlib.Data.Set.Card
import StarkCalldata.Proofs.Challenge.Reference
import StarkCalldata.Proofs.Channel.Orbit

/-!
Drawing favours no element of the field.

A digest is taken at once when it is below the bound, and the bound is a multiple of the prime. So
the digests that yield one element are the numbers below the bound in one residue class, and there
are as many of them as the bound has multiples of the prime:

* `Field.ofMontgomery_mul_radix`: an element leaves its Montgomery form, whatever integer that is;
* `Field.form`: the Montgomery forms of an element, the first 31 of which are below the bound;
* `Channel.TakesAtOnce`: a digest yields an element without a retry, and the counter shows it;
* `draws_are_uniform`: of all digests exactly 31 yield a given element at once.
-/

namespace StarkCalldata

open Word

/-! ### Montgomery forms -/

namespace Field

open Reference

lemma radix_mul_inverse : 2 ^ 256 * montgomeryRadixInverse ≡ 1 [MOD prime] := by
  rw [Nat.ModEq]
  norm_num [prime, montgomeryRadixInverse]

/-- The value of a Montgomery form, times the radix, is the form again. -/
lemma ofMontgomery_mul_radix (n : ℤ) : (ofMontgomery n : ℤ) * 2 ^ 256 ≡ n [ZMOD prime] := by
  have hradix : (montgomeryRadixInverse : ℤ) * 2 ^ 256 ≡ 1 [ZMOD prime] := by
    have h := Int.natCast_modEq_iff.mpr radix_mul_inverse
    push_cast at h
    rwa [mul_comm] at h
  have hresidue (m : ℤ) : (residue m : ℤ) ≡ m [ZMOD prime] := by
    rw [residue_emod]
    exact Int.mod_modEq m prime
  calc (ofMontgomery n : ℤ) * 2 ^ 256
      ≡ residue n * montgomeryRadixInverse * 2 ^ 256 [ZMOD prime] := (hresidue _).mul_right _
    _ = residue n * (montgomeryRadixInverse * 2 ^ 256) := mul_assoc _ _ _
    _ ≡ n * 1 [ZMOD prime] := (hresidue n).mul hradix
    _ = n := mul_one n

/-- The Montgomery forms of an element, in ascending order. -/
def form (e i : ℕ) : ℕ := e * 2 ^ 256 % prime + prime * i

lemma element_form {e : ℕ} (h : e < prime) (i : ℕ) : element (form e i) = e := by
  have hform : form e i ≡ e * 2 ^ 256 [MOD prime] := by
    rw [Nat.ModEq, form, Nat.add_mul_mod_self_left, Nat.mod_mod]
  have helement : form e i * montgomeryRadixInverse ≡ e [MOD prime] :=
    calc form e i * montgomeryRadixInverse
        ≡ e * 2 ^ 256 * montgomeryRadixInverse [MOD prime] := hform.mul_right _
      _ = e * (2 ^ 256 * montgomeryRadixInverse) := mul_assoc _ _ _
      _ ≡ e * 1 [MOD prime] := radix_mul_inverse.mul_left e
      _ = e := mul_one e
  rw [element, helement, Nat.mod_eq_of_lt h]

lemma form_element (n : ℕ) : form (element n) (n / prime) = n := by
  have hradix : element n * 2 ^ 256 ≡ n [MOD prime] :=
    calc element n * 2 ^ 256
        ≡ n * montgomeryRadixInverse * 2 ^ 256 [MOD prime] := (Nat.mod_modEq _ _).mul_right _
      _ = n * (2 ^ 256 * montgomeryRadixInverse) := by ring
      _ ≡ n * 1 [MOD prime] := radix_mul_inverse.mul_left n
      _ = n := mul_one n
  rw [form, hradix, Nat.mod_add_div]

/-- The first 31 Montgomery forms of an element are those below the bound. -/
lemma form_lt_drawBound {e i : ℕ} : form e i < drawBound ↔ i < 31 := by
  have hmod : e * 2 ^ 256 % prime < prime := Nat.mod_lt _ (by decide)
  rw [form, drawBound, mul_comm 31]
  constructor
  · intro h
    have hlt : prime * i < prime * 31 := (Nat.le_add_left _ _).trans_lt h
    exact Nat.lt_of_mul_lt_mul_left hlt
  · intro h
    calc e * 2 ^ 256 % prime + prime * i
        < prime + prime * i := Nat.add_lt_add_right hmod _
      _ = prime * (i + 1) := by ring
      _ ≤ prime * 31 := Nat.mul_le_mul_left _ h

lemma form_injective (e : ℕ) : Function.Injective (form e) := by
  intro i j h
  exact Nat.eq_of_mul_eq_mul_left (by decide) (Nat.add_left_cancel h)

lemma drawBound_lt_limit : drawBound < limit := by decide

end Field

/-! ### Draws without a retry -/

namespace Channel

open Reference

/-- A draw takes the element out of a digest at once: it yields the element, and the counter has
only moved by the one hash that ends a draw. -/
def TakesAtOnce (digest : List UInt8) (counter : ℕ) (retries : Json) (e : ℕ) : Prop :=
  ∃ next, draw ⟨digest, counter⟩ retries = (.ok e, next) ∧ next.counter = counter + 1

variable {retries : Json} {digest : List UInt8} {counter e : ℕ}

lemma acceptable_of_takesAtOnce (h : TakesAtOnce digest counter retries e) :
    Acceptable ⟨digest, counter⟩ := by
  obtain ⟨next, hdraw, hcounter⟩ := h
  obtain ⟨k, found, -, hstops, hnext, -⟩ := draw_eq_ok.mp hdraw
  have hlast := counter_of_after (after_last hstops.reached hnext)
  obtain rfl : k = 0 := by
    push_cast at hlast
    omega
  cases hstops.reached
  exact hstops.acceptable

/-- A digest is taken at once when the number it holds is a Montgomery form below the bound. -/
lemma takesAtOnce_bytes_iff {d : ℕ} (hd : d < limit) (hcounter : counter < limit) :
    TakesAtOnce (bytes d) counter retries e ↔ d < Field.drawBound ∧ element d = e := by
  have hacceptable : (holding d counter).Acceptable ↔ d < Field.drawBound := acceptable_holding hd
  have hdraw (h : (holding d counter).Acceptable) : draw ⟨bytes d, counter⟩ retries =
      (.ok (element d), holding (hashOf [d, counter]) (counter + 1)) := by
    have h' := draw_of_acceptable retries h (advance_holding d hcounter)
    rwa [candidate_holding hd, Field.ofMontgomery_natCast] at h'
  constructor
  · intro h
    have hbound := acceptable_of_takesAtOnce h
    obtain ⟨next, hnext, -⟩ := h
    rw [hdraw hbound, Prod.mk.injEq, Except.ok.injEq] at hnext
    exact ⟨hacceptable.mp hbound, hnext.1⟩
  · rintro ⟨hbound, rfl⟩
    exact ⟨_, hdraw (hacceptable.mpr hbound), by simp [holding]⟩

/-! ### Counting digests -/

/-- The digests that yield an element at once are the first 31 of its Montgomery forms. -/
lemma setOf_takesAtOnce (hcounter : counter < limit) (he : e < Field.prime) :
    {digest | digest.length = size ∧ TakesAtOnce digest counter retries e} =
      (fun i => bytes (Field.form e i)) '' Set.Iio 31 := by
  ext digest
  simp only [Set.mem_ofPred_eq, Set.mem_image, Set.mem_Iio]
  constructor
  · rintro ⟨hlength, htakes⟩
    rw [← bytes_ofBytes hlength, takesAtOnce_bytes_iff (ofBytes_lt_limit hlength) hcounter]
      at htakes
    obtain ⟨hbound, rfl⟩ := htakes
    have hform := Field.form_element (ofBytes digest)
    refine ⟨ofBytes digest / Field.prime, ?_, ?_⟩
    · rwa [← Field.form_lt_drawBound, hform]
    · rw [hform, bytes_ofBytes hlength]
  · rintro ⟨i, hi, rfl⟩
    have hbound : Field.form e i < Field.drawBound := Field.form_lt_drawBound.mpr hi
    have hlimit := hbound.trans Field.drawBound_lt_limit
    exact ⟨length_bytes _, (takesAtOnce_bytes_iff hlimit hcounter).mpr
      ⟨hbound, Field.element_form he i⟩⟩

/-- The digests are the numbers that a word holds. -/
lemma ncard_digests : {digest : List UInt8 | digest.length = size}.ncard = 2 ^ 256 := by
  have himage : {digest : List UInt8 | digest.length = size} = bytes '' Set.Iio limit := by
    ext digest
    simp only [Set.mem_ofPred_eq, Set.mem_image, Set.mem_Iio]
    constructor
    · intro hlength
      exact ⟨ofBytes digest, ofBytes_lt_limit hlength, bytes_ofBytes hlength⟩
    · rintro ⟨n, -, rfl⟩
      exact length_bytes n
  have hinj : Set.InjOn bytes (Set.Iio limit) := by
    intro n hn m hm h
    rw [← ofBytes_bytes hn, h, ofBytes_bytes hm]
  rw [himage, hinj.ncard_image, ← Finset.coe_Iio, Set.ncard_coe_finset, Nat.card_Iio]
  rfl

end Channel

/-- **Rejection sampling is uniform and leaves Montgomery form.** Every integer is taken out of its
Montgomery form into the field. And of the `2 ^ 256` digests, exactly 31 yield a given element of
the field without a retry, whatever the counter and however many retries there are. -/
theorem draws_are_uniform :
    (∀ x : ℤ, Field.ofMontgomery x < Field.prime ∧
        (Field.ofMontgomery x : ℤ) * 2 ^ 256 ≡ x [ZMOD Field.prime]) ∧
      {digest : List UInt8 | digest.length = size}.ncard = 2 ^ 256 ∧
      ∀ (counter e : ℕ) (retries : Json), counter < limit → e < Field.prime →
        {digest | digest.length = size ∧ Channel.TakesAtOnce digest counter retries e}.ncard =
          31 := by
  refine ⟨fun x => ⟨Field.ofMontgomery_lt x, Field.ofMontgomery_mul_radix x⟩,
    Channel.ncard_digests, fun counter e retries hcounter he => ?_⟩
  have hinj : Set.InjOn (fun i => bytes (Field.form e i)) (Set.Iio 31) := by
    intro i hi j hj h
    have hlimit (k : ℕ) (hk : k < 31) : Field.form e k < limit :=
      (Field.form_lt_drawBound.mpr hk).trans Field.drawBound_lt_limit
    have hform := congrArg ofBytes h
    simp only [ofBytes_bytes (hlimit i hi), ofBytes_bytes (hlimit j hj)] at hform
    exact Field.form_injective e hform
  rw [Channel.setOf_takesAtOnce hcounter he, hinj.ncard_image, ← Finset.coe_Iio,
    Set.ncard_coe_finset, Nat.card_Iio]

/-- The greatest element of the field has 31 digests as well, also when no retry is allowed. -/
theorem greatest_drawn_uniformly :
    (0 < limit ∧ Field.prime - 1 < Field.prime) ∧
      {digest | digest.length = size ∧
        Channel.TakesAtOnce digest 0 (.int 0) (Field.prime - 1)}.ncard = 31 := by
  have hcounter : 0 < limit := by decide
  have helement : Field.prime - 1 < Field.prime := by decide
  exact ⟨⟨hcounter, helement⟩, draws_are_uniform.2.2 0 _ (.int 0) hcounter helement⟩

end StarkCalldata
