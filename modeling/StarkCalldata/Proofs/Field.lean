import Mathlib.Algebra.Field.ZMod
import Mathlib.NumberTheory.LucasPrimality
import Mathlib.Tactic
import StarkCalldata.Field

/-!
The modulus is a prime.

One less than the modulus is a power of two times a number of sixty bits, which factors into small
primes. So three can be seen to generate the multiplicative group, and by Lucas's test the modulus
is prime (`prime_prime`). An integer is therefore the same as its residue in a field
(`natCast_residue`), and a canonical integer is determined by it (`IsCanonical.eq_of_intCast_eq`).
-/

namespace StarkCalldata.Field

/-! ### Primality -/

lemma prime_eq :
    prime = 3618502788666131213697322783095070105623107215331596699973092056135872020481 := by
  decide

/-- The prime factors of the order of the multiplicative group. -/
def orderFactors : List ℕ := [2, 5, 7, 98714381, 166848103]

/-- A prime that divides the order of the multiplicative group is one of its factors. -/
lemma mem_orderFactors {q : ℕ} (hq : q.Prime) (hdvd : q ∣ prime - 1) : q ∈ orderFactors := by
  have hfactors : prime - 1 = 2 ^ 192 * (5 * (7 * (98714381 * 166848103))) := by decide
  have hprime (r : ℕ) (hr : r.Prime) (hqr : q ∣ r) : q = r :=
    (Nat.prime_dvd_prime_iff_eq hq hr).mp hqr
  rw [hfactors, hq.dvd_mul, hq.dvd_mul, hq.dvd_mul, hq.dvd_mul] at hdvd
  rw [orderFactors]
  rcases hdvd with h | h | h | h | h
  · simp [hprime 2 Nat.prime_two (hq.dvd_of_dvd_pow h)]
  · simp [hprime 5 (by norm_num) h]
  · simp [hprime 7 (by norm_num) h]
  · simp [hprime 98714381 (by norm_num) h]
  · simp [hprime 166848103 (by norm_num) h]

/-- **The modulus is a prime**: three generates a group of its order. -/
theorem prime_prime : prime.Prime := by
  refine lucas_primality prime 3 ?_ fun q hq hdvd => ?_
  · rw [prime_eq]
    reduce_mod_char
  · have hfactor := mem_orderFactors hq hdvd
    simp only [orderFactors, List.mem_cons, List.not_mem_nil, or_false] at hfactor
    rw [prime_eq]
    rcases hfactor with rfl | rfl | rfl | rfl | rfl
    all_goals
      norm_num only
      reduce_mod_char
      decide

instance : Fact prime.Prime := ⟨prime_prime⟩

/-! ### Residues -/

/-- An integer and its residue are the same element of the field. -/
lemma natCast_residue (n : ℤ) : ((residue n : ℕ) : ZMod prime) = n := by
  rw [← Int.cast_natCast (residue n), residue_emod, ZMod.intCast_mod]

/-- Canonical integers that are the same element of the field are equal. -/
lemma IsCanonical.eq_of_intCast_eq {m n : ℤ} (hm : IsCanonical m) (hn : IsCanonical n)
    (h : (m : ZMod prime) = n) : m = n := by
  have hmod : m % prime = n % prime := (ZMod.intCast_eq_intCast_iff m n prime).mp h
  rwa [Int.emod_eq_of_lt hm.1 hm.2, Int.emod_eq_of_lt hn.1 hn.2] at hmod

lemma exists_isCanonical (x : ZMod prime) : ∃ n : ℤ, IsCanonical n ∧ (n : ZMod prime) = x := by
  refine ⟨x.val, ⟨Int.natCast_nonneg _, Int.ofNat_lt.mpr x.val_lt⟩, ?_⟩
  rw [Int.cast_natCast, ZMod.natCast_zmod_val]

end StarkCalldata.Field
