/-
The prime field the prover and the verifier contract compute in.

* `Field.prime`: the modulus `2 ^ 251 + 17 * 2 ^ 192 + 1`;
* `Field.residue`: the canonical representative of an integer, a number below the modulus;
* `Field.IsCanonical`: the integers that are their own representatives;
* `Field.ofMontgomery`: the value whose Montgomery form, with radix `2 ^ 256`, is the given integer;
* `Field.drawBound`: the greatest multiple of the modulus below `2 ^ 256`, where the rejection
  sampler of the verifier cuts off.
-/

namespace StarkCalldata.Field

/-- The modulus of the field. -/
def prime : Nat := Nat.pow 2 251 + 17 * Nat.pow 2 192 + 1

/-- The radix of the Montgomery form, as a field element. -/
def montgomeryRadix : Nat := Nat.pow 2 256 % prime

/-- The inverse of the Montgomery radix in the field. -/
def montgomeryRadixInverse : Nat :=
  0x40000000000001100000000000012100000000000000000000000000000000

/-- Digests from here upwards are rejected: below it every field element has the same number of
Montgomery forms. -/
def drawBound : Nat := 31 * prime

/-- An integer is canonical when it is its own representative modulo the prime. -/
def IsCanonical (n : Int) : Prop := 0 ≤ n ∧ n < prime

instance (n : Int) : Decidable (IsCanonical n) :=
  inferInstanceAs (Decidable (0 ≤ n ∧ n < prime))

/-- The representative of an integer modulo the prime. -/
def residue (n : Int) : Nat := (n % prime).toNat

/-- The canonical value of a Montgomery form. -/
def ofMontgomery (n : Int) : Nat := residue (residue n * montgomeryRadixInverse)

/-- A representative is below the prime. -/
theorem residue_lt (n : Int) : residue n < prime := by
  have h : (0 : Int) < prime := by decide
  have := Int.emod_lt_of_pos n h
  have := Int.emod_nonneg n (Int.ne_of_gt h)
  unfold residue
  omega

/-- The representative of an integer is congruent to it. -/
theorem residue_emod (n : Int) : (residue n : Int) = n % prime := by
  have h : (prime : Int) ≠ 0 := by decide
  exact Int.toNat_of_nonneg (Int.emod_nonneg n h)

end StarkCalldata.Field
