import Mathlib.Data.Nat.Log
import Mathlib.Tactic
import StarkCalldata.Proofs.PublicInput.Vector

/-!
The binary length of an integer, and the two logarithms that are read off it.

The length is known by a single equivalence: it is at most `k` exactly when the integer is below the
`k`-th power of two. The logarithm that is rounded down is the length less one, and the logarithm
that is rounded up is the length of the predecessor, so both lie between powers of two by that
equivalence. They are equal only for a power of two, and this is also what the digits tell that an
integer shares with its predecessor: unless it is a power of two, the two lie between the same
powers, and so they share the greatest digit.

* `bitLength_le_iff`, `lt_bitLength_iff`: the length against powers of two;
* `exists_bracket`, `bitLength_sub_one`: the logarithm rounded down;
* `ceilLog2_le_iff`, `isLeast_ceilLog2`: the logarithm rounded up;
* `IsPowerOfTwo`, `isPowerOfTwoOrZero_iff`: powers of two by their digits;
* `logarithms_bracket_size`: the powers next to a size, and what is noted about it.
-/

namespace StarkCalldata

open PublicInput

variable {n : ℤ} {k : ℕ}

/-! ### The length -/

/-- An integer from zero on has at most `k` digits when it is below the `k`-th power of two. -/
lemma bitLength_le_iff (hn : 0 ≤ n) : bitLength n ≤ k ↔ n < 2 ^ k := by
  lift n to ℕ using hn
  rw [bitLength]
  split
  case isTrue hzero =>
      rw [hzero]
      exact iff_of_true k.zero_le (by positivity)
  case isFalse hne =>
      rw [Int.natAbs_natCast, Nat.succ_le_iff, Nat.log2_lt (by exact_mod_cast hne)]
      exact_mod_cast Iff.rfl

/-- An integer from zero on has more than `k` digits when it reaches the `k`-th power of two. -/
lemma lt_bitLength_iff (hn : 0 ≤ n) : k < bitLength n ↔ 2 ^ k ≤ n := by
  rw [← not_le, bitLength_le_iff hn, not_lt]

/-! ### Rounded down -/

/-- The exponent of the greatest power of two within a positive integer. -/
lemma bitLength_sub_one (h : 0 < n) : (bitLength n : ℤ) - 1 = Nat.log 2 n.toNat := by
  have hne : n ≠ 0 := by omega
  have habs : n.natAbs = n.toNat := by omega
  rw [bitLength, if_neg hne, habs, Nat.log2_eq_log_two]
  push_cast
  ring

/-- A positive integer lies between the powers of two that its length tells. -/
lemma exists_bracket (hn : 0 < n) : ∃ k : ℕ, bitLength n = k + 1 ∧ 2 ^ k ≤ n ∧ n < 2 ^ (k + 1) := by
  have hpos : 0 < bitLength n := (lt_bitLength_iff hn.le).mpr (by rw [pow_zero]; omega)
  obtain ⟨k, hk⟩ := Nat.exists_eq_add_one.mpr hpos
  refine ⟨k, hk, (lt_bitLength_iff hn.le).mp ?_, (bitLength_le_iff hn.le).mp ?_⟩ <;> omega

/-! ### Rounded up -/

/-- The rounded up logarithm of a positive integer is at most `k` when the integer does not pass the
`k`-th power of two. -/
lemma ceilLog2_le_iff (hn : 0 < n) : ceilLog2 n ≤ k ↔ n ≤ 2 ^ k := by
  rw [ceilLog2, bitLength_le_iff (by omega), Int.sub_one_lt_iff]

/-- The rounded up logarithm is the least exponent of a power of two that the integer does not
pass. -/
lemma isLeast_ceilLog2 (hn : 0 < n) : IsLeast {j : ℕ | n ≤ 2 ^ j} (ceilLog2 n) :=
  ⟨(ceilLog2_le_iff hn).mp le_rfl, fun _ hj => (ceilLog2_le_iff hn).mpr hj⟩

/-! ### Powers of two -/

/-- The powers of two. -/
def IsPowerOfTwo (n : ℤ) : Prop := ∃ k : ℕ, n = 2 ^ k

lemma IsPowerOfTwo.pos (h : IsPowerOfTwo n) : 0 < n := by
  obtain ⟨k, rfl⟩ := h
  positivity

lemma isPowerOfTwo_iff_eq (hlow : 2 ^ k ≤ n) (hhigh : n < 2 ^ (k + 1)) :
    IsPowerOfTwo n ↔ n = 2 ^ k := by
  constructor
  · rintro ⟨j, rfl⟩
    have hkj : k ≤ j := (pow_le_pow_iff_right₀ one_lt_two).mp hlow
    have hjk : j < k + 1 := (pow_lt_pow_iff_right₀ one_lt_two).mp hhigh
    rw [show j = k by omega]
  · exact fun h => ⟨k, h⟩

/-- A number shares a digit with its predecessor, unless it is the power of two of its greatest
digit. -/
lemma land_pred_eq_zero_iff {m : ℕ} (hlow : 2 ^ k ≤ m) (hhigh : m < 2 ^ (k + 1)) :
    m &&& (m - 1) = 0 ↔ m = 2 ^ k := by
  constructor
  · intro hdisjoint
    by_contra hne
    -- the predecessor still reaches the power, so the digit of the power is common to both
    have hdigit : m.testBit k = true := Nat.testBit_of_two_pow_le_and_two_pow_add_one_gt hlow hhigh
    have hpred : (m - 1).testBit k = true :=
      Nat.testBit_of_two_pow_le_and_two_pow_add_one_gt (by omega) (by omega)
    have hcommon : (m &&& (m - 1)).testBit k = true := by
      rw [Nat.testBit_and, hdigit, hpred, Bool.and_self]
    rw [hdisjoint, Nat.zero_testBit] at hcommon
    exact Bool.false_ne_true hcommon
  · rintro rfl
    rw [Nat.and_two_pow_sub_one_eq_mod, Nat.mod_self]

/-- The test of the digits finds the powers of two among the positive integers. -/
lemma isPowerOfTwoOrZero_iff (hn : 0 < n) : isPowerOfTwoOrZero n = true ↔ IsPowerOfTwo n := by
  obtain ⟨k, -, hlow, hhigh⟩ := exists_bracket hn
  rw [isPowerOfTwo_iff_eq hlow hhigh]
  lift n to ℕ using hn.le
  have hlow' : 2 ^ k ≤ n := by exact_mod_cast hlow
  have hhigh' : n < 2 ^ (k + 1) := by exact_mod_cast hhigh
  rw [isPowerOfTwoOrZero, decide_eq_true n.cast_nonneg, Bool.true_and, beq_iff_eq, Int.toNat_natCast,
    land_pred_eq_zero_iff hlow' hhigh']
  exact_mod_cast Iff.rfl

instance (n : ℤ) : Decidable (IsPowerOfTwo n) :=
  decidable_of_iff (0 < n ∧ isPowerOfTwoOrZero n = true)
    ⟨fun h => (isPowerOfTwoOrZero_iff h.1).mp h.2,
      fun h => ⟨h.pos, (isPowerOfTwoOrZero_iff h.pos).mpr h⟩⟩

/-! ### Both logarithms -/

/-- Rounding up leads to the next power, unless the integer is a power of two itself. -/
lemma ceilLog2_eq (hlow : 2 ^ k ≤ n) (hhigh : n < 2 ^ (k + 1)) :
    ceilLog2 n = if IsPowerOfTwo n then k else k + 1 := by
  have hn : 0 < n := lt_of_lt_of_le (by positivity) hlow
  -- both sides have the same upper bounds
  refine eq_of_forall_ge_iff fun j => ?_
  rw [ceilLog2_le_iff hn]
  split
  case isTrue hpower =>
      rw [(isPowerOfTwo_iff_eq hlow hhigh).mp hpower]
      exact pow_le_pow_iff_right₀ one_lt_two
  case isFalse hnot =>
      have hlt : 2 ^ k < n := lt_of_le_of_ne hlow fun h => hnot ⟨k, h.symm⟩
      constructor
      · intro hj
        exact (pow_lt_pow_iff_right₀ one_lt_two).mp (hlt.trans_le hj)
      · intro hkj
        exact hhigh.le.trans (pow_le_pow_right₀ one_le_two hkj)

lemma journal_log2Steps (hn : 0 < n) :
    (log2Steps n).journal = if IsPowerOfTwo n then [] else [.stepsNotPowerOfTwo n] := by
  rw [log2Steps]
  by_cases hpower : IsPowerOfTwo n
  · rw [if_pos hpower, (isPowerOfTwoOrZero_iff hn).mpr hpower]
    rfl
  · have htest : isPowerOfTwoOrZero n = false :=
      Bool.eq_false_iff.mpr fun h => hpower ((isPowerOfTwoOrZero_iff hn).mp h)
    rw [if_neg hpower, htest]
    rfl

/-- **The two logarithms bracket every size.** Of every size from one on, the exponent that the
trace length is given by is that of the greatest power of two within the size, and a warning is
noted exactly when the size is not that power. The rounded up logarithm is the least exponent of a
power that the size does not pass; it is the same exponent for a power of two and the next one
otherwise. -/
theorem logarithms_bracket_size (hn : 1 ≤ n) :
    ∃ k : ℕ, (log2Steps n).outcome = .ok (k : ℤ) ∧
      (2 ^ k ≤ n ∧ n < 2 ^ (k + 1)) ∧
      IsLeast {j : ℕ | n ≤ 2 ^ j} (ceilLog2 n) ∧
      (log2Steps n).journal = (if IsPowerOfTwo n then [] else [.stepsNotPowerOfTwo n]) ∧
      (Note.stepsNotPowerOfTwo n).level = .warning ∧
      ceilLog2 n = if IsPowerOfTwo n then k else k + 1 := by
  have hpos : 0 < n := by omega
  obtain ⟨k, hlength, hlow, hhigh⟩ := exists_bracket hpos
  refine ⟨k, ?_, ⟨hlow, hhigh⟩, isLeast_ceilLog2 hpos, journal_log2Steps hpos, rfl,
    ceilLog2_eq hlow hhigh⟩
  rw [outcome_log2Steps, hlength]
  push_cast
  rw [add_sub_cancel_right]

/-- Sixty-five is one more than a power of two: it is noted, and its logarithms are six and
seven. -/
theorem sixtyFive_bracketed : (1 : ℤ) ≤ 65 ∧ (log2Steps 65).outcome = .ok 6 ∧
    (log2Steps 65).journal = [.stepsNotPowerOfTwo 65] ∧
    IsLeast {j : ℕ | (65 : ℤ) ≤ 2 ^ j} 7 := by
  obtain ⟨k, houtcome, -, hleast, hjournal, -, hceil⟩ :=
    logarithms_bracket_size (n := 65) (by decide)
  have hnot : ¬ IsPowerOfTwo 65 := by decide
  have hseven : ceilLog2 65 = 7 := by decide
  rw [if_neg hnot] at hjournal hceil
  have hk : k = 6 := by omega
  rw [hk] at houtcome
  rw [hseven] at hleast
  exact ⟨by decide, houtcome, hjournal, hleast⟩

end StarkCalldata
