/-
Rounding does not pass a power of two.

A ratio is rounded to a floating point number, its logarithm to another one, and that to an integer.
Each of the three roundings may move the value, but a power of two that lies on one side of the
ratio is still on that side afterwards: powers of two are floating point numbers themselves, and
their logarithms are integers. So the rounded logarithm of a ratio is known up to one, whatever the
roundings do, and it is exact at the powers of two.

* `le_roundDiv`, `roundDiv_le`, `roundDiv_eq_zero`: a quotient rounded to an integer;
* `le_roundScaled`, `roundScaled_le`: the same for multiples of a power of two;
* `lt_pow_floorLog2`: the exponent of the ratio;
* `exists_of_nearest?`, `pow_le_nearest`, `nearest_le_pow`: the floating point number of a ratio;
* `roundedLog2_cases`, `roundedLog2_of_pow`: its logarithm;
* `le_roundedLog2_nearest`, `roundedLog2_nearest_le`: the logarithm of a ratio next to a power.
-/
import StarkCalldata.Binary64.Logarithm
import Mathlib.Algebra.Order.Field.Power
import Mathlib.Data.Nat.Log
import Mathlib.Tactic

namespace StarkCalldata.Binary64

variable {a b t m : ℕ} {e k : ℤ}

/-! ### Quotients -/

lemma roundDiv_cases (a b : ℕ) : roundDiv a b = a / b ∨ roundDiv a b = a / b + 1 := by
  simp only [roundDiv]
  split_ifs <;> simp

lemma le_roundDiv (hb : 0 < b) (h : t * b ≤ a) : t ≤ roundDiv a b := by
  have hfloor : t ≤ a / b := (Nat.le_div_iff_mul_le hb).mpr h
  rcases roundDiv_cases a b with heq | heq <;> omega

/-- A quotient that is at most an integer is not rounded above it. -/
lemma roundDiv_le (hb : 0 < b) (h : a ≤ t * b) : roundDiv a b ≤ t := by
  have hdivision := Nat.div_add_mod a b
  rcases Nat.lt_or_ge (a / b) t with hlt | hge
  · rcases roundDiv_cases a b with heq | heq <;> omega
  · -- the quotient is the integer itself
    have hfloor : t * b ≤ b * (a / b) := by
      rw [mul_comm b]
      exact Nat.mul_le_mul_right b hge
    have hexact : a % b = 0 := by omega
    have hquotient : a / b ≤ t := Nat.div_le_of_le_mul (by rwa [mul_comm b])
    simp only [roundDiv, hexact, mul_zero, if_pos hb]
    exact hquotient

lemma roundDiv_eq_zero (hb : 0 < b) (h : 2 * a ≤ b) : roundDiv a b = 0 := by
  have hlt : a < b := by omega
  simp only [roundDiv, Nat.div_eq_of_lt hlt, Nat.mod_eq_of_lt hlt]
  split_ifs <;> omega

/-- A scaled quotient is the quotient of two numbers whose ratio is scaled. -/
lemma exists_roundDiv (a : ℕ) (hb : 0 < b) (e : ℤ) : ∃ a' b' : ℕ, 0 < b' ∧
    roundScaled a b e = roundDiv a' b' ∧ (a' : ℚ) = (a / b * 2 ^ (-e)) * b' := by
  have hb' : (b : ℚ) ≠ 0 := by positivity
  rcases lt_or_ge e 0 with he | he
  · refine ⟨a * 2 ^ e.natAbs, b, hb, if_pos he, ?_⟩
    have hneg : -e = (e.natAbs : ℤ) := by omega
    rw [hneg, zpow_natCast]
    push_cast
    field_simp
  · refine ⟨a, b * 2 ^ e.natAbs, by positivity, if_neg (not_lt.mpr he), ?_⟩
    have hnonneg : e = (e.natAbs : ℤ) := by omega
    rw [show (2 : ℚ) ^ (-e) = (2 ^ e.natAbs)⁻¹ by rw [zpow_neg, ← zpow_natCast, ← hnonneg]]
    push_cast
    field_simp

lemma le_roundScaled (hb : 0 < b) (h : t * (2 : ℚ) ^ e ≤ a / b) : t ≤ roundScaled a b e := by
  obtain ⟨a', b', hb', heq, hratio⟩ := exists_roundDiv a hb e
  rw [heq]
  refine le_roundDiv hb' ?_
  have hscaled : (t : ℚ) ≤ a / b * 2 ^ (-e) := by
    rwa [zpow_neg, ← div_eq_mul_inv, le_div_iff₀ (by positivity)]
  have hcast : (t : ℚ) * b' ≤ a' := by
    rw [hratio]
    exact mul_le_mul_of_nonneg_right hscaled (by positivity)
  exact_mod_cast hcast

lemma roundScaled_le (hb : 0 < b) (h : a / b ≤ t * (2 : ℚ) ^ e) : roundScaled a b e ≤ t := by
  obtain ⟨a', b', hb', heq, hratio⟩ := exists_roundDiv a hb e
  rw [heq]
  refine roundDiv_le hb' ?_
  have hscaled : a / b * (2 : ℚ) ^ (-e) ≤ t := by
    rwa [zpow_neg, ← div_eq_mul_inv, div_le_iff₀ (by positivity)]
  have hcast : (a' : ℚ) ≤ t * b' := by
    rw [hratio]
    exact mul_le_mul_of_nonneg_right hscaled (by positivity)
  exact_mod_cast hcast

/-- A ratio that is at most half of a power of two is rounded to zero. -/
lemma roundScaled_eq_zero (hb : 0 < b) (h : a / b ≤ (2 : ℚ) ^ (e - 1)) : roundScaled a b e = 0 := by
  obtain ⟨a', b', hb', heq, hratio⟩ := exists_roundDiv a hb e
  rw [heq]
  refine roundDiv_eq_zero hb' ?_
  have hscaled : a / b * (2 : ℚ) ^ (-e) ≤ 1 / 2 := by
    rw [zpow_neg, ← div_eq_mul_inv, div_le_iff₀ (by positivity)]
    rwa [zpow_sub_one₀ (by norm_num), mul_comm, ← one_div] at h
  have hcast : 2 * (a' : ℚ) ≤ b' := by
    rw [hratio]
    have := mul_le_mul_of_nonneg_right hscaled (by positivity : (0 : ℚ) ≤ b')
    linarith
  exact_mod_cast hcast

/-! ### Ratios -/

lemma pow_eq_mul_pow {k e : ℤ} (h : e ≤ k) :
    (2 : ℚ) ^ k = (2 ^ (k - e).toNat : ℕ) * 2 ^ e := by
  rw [Nat.cast_pow, Nat.cast_ofNat, ← zpow_natCast, Int.toNat_of_nonneg (by omega),
    ← zpow_add₀ (by norm_num), sub_add_cancel]

/-- The comparison of a ratio with a power of two, without fractions. -/
lemma pow_le_ratio_iff (hb : 0 < b) (k : ℤ) :
    (if k < 0 then b ≤ a * 2 ^ k.natAbs else b * 2 ^ k.natAbs ≤ a) ↔ (2 : ℚ) ^ k ≤ a / b := by
  rw [le_div_iff₀ (by positivity)]
  split_ifs with hk
  · have hneg : k = -(k.natAbs : ℤ) := by omega
    rw [show (2 : ℚ) ^ k = (2 ^ k.natAbs)⁻¹ by rw [← zpow_natCast, ← zpow_neg, ← hneg],
      inv_mul_le_iff₀ (by positivity), mul_comm]
    exact_mod_cast Iff.rfl
  · have hnonneg : k = (k.natAbs : ℤ) := by omega
    rw [show (2 : ℚ) ^ k = 2 ^ k.natAbs by rw [← zpow_natCast, ← hnonneg], mul_comm]
    exact_mod_cast Iff.rfl

/-- A ratio is below the power of two above its exponent. -/
lemma lt_pow_floorLog2 (hb : 0 < b) : (a : ℚ) / b < 2 ^ (floorLog2 a b + 1) := by
  have hreached := pow_le_ratio_iff (a := a) hb ((a.log2 : ℤ) - b.log2)
  by_cases hguess : (2 : ℚ) ^ ((a.log2 : ℤ) - b.log2) ≤ a / b
  · have hfloor : floorLog2 a b = a.log2 - b.log2 := if_pos (hreached.mpr hguess)
    -- the numerator is below the power above its own exponent, the denominator reaches its power
    have ha : (a : ℚ) < 2 ^ (a.log2 + 1) := by exact_mod_cast Nat.lt_log2_self
    have hbpow : (2 : ℚ) ^ b.log2 ≤ b := by exact_mod_cast Nat.log2_self_le hb.ne'
    have hsplit : (2 : ℚ) ^ (a.log2 + 1) = 2 ^ ((a.log2 : ℤ) - b.log2 + 1) * 2 ^ b.log2 := by
      rw [← zpow_natCast, ← zpow_natCast, ← zpow_add₀ (by norm_num)]
      congr 1
      push_cast
      ring
    rw [hfloor, div_lt_iff₀ (by positivity)]
    calc (a : ℚ) < 2 ^ (a.log2 + 1) := ha
      _ = 2 ^ ((a.log2 : ℤ) - b.log2 + 1) * 2 ^ b.log2 := hsplit
      _ ≤ 2 ^ ((a.log2 : ℤ) - b.log2 + 1) * b :=
          mul_le_mul_of_nonneg_left hbpow (by positivity)
  · have hfloor : floorLog2 a b = a.log2 - b.log2 - 1 := if_neg (mt hreached.mp hguess)
    rw [hfloor, sub_add_cancel]
    exact not_le.mp hguess

/-! ### The nearest number -/

/-- How the number nearest to a ratio is found: the ratio is rounded to a multiple of a power of
two, and where that takes one bit too many the mantissa is halved. -/
lemma exists_of_nearest? (ha : a ≠ 0) (hb : 0 < b) (h : nearest? a b = some (m, e)) :
    ∃ e₀, (m : ℚ) * 2 ^ e = roundScaled a b e₀ * 2 ^ e₀ ∧ m ≤ 2 ^ 53 ∧
      minExponent ≤ e ∧ e ≤ maxExponent := by
  have hleast : minExponent ≤ max (floorLog2 a b - 52) minExponent := le_max_right _ _
  have hfloor : floorLog2 a b - 52 ≤ max (floorLog2 a b - 52) minExponent := le_max_left _ _
  rw [nearest?, if_neg ha] at h
  refine ⟨max (floorLog2 a b - 52) minExponent, ?_⟩
  generalize max (floorLog2 a b - 52) minExponent = e₀ at h hleast hfloor ⊢
  have hmantissa : roundScaled a b e₀ ≤ 2 ^ 53 := by
    refine roundScaled_le hb ((lt_pow_floorLog2 hb).le.trans ?_)
    rw [show ((2 ^ 53 : ℕ) : ℚ) * 2 ^ e₀ = 2 ^ (e₀ + 53) by
      rw [zpow_add₀ (by norm_num)]
      norm_num [mul_comm]]
    exact zpow_le_zpow_right₀ (by norm_num) (by omega)
  by_cases hbit : roundScaled a b e₀ = Nat.pow 2 53
  · simp only [if_pos hbit, Option.ite_none_right_eq_some, Option.some.injEq, Prod.mk.injEq] at h
    obtain ⟨hmax, rfl, rfl⟩ := h
    refine ⟨?_, by norm_num, by omega, hmax⟩
    rw [hbit, zpow_add₀ (by norm_num)]
    norm_num
    ring
  · simp only [if_neg hbit, Option.ite_none_right_eq_some, Option.some.injEq, Prod.mk.injEq] at h
    obtain ⟨hmax, rfl, rfl⟩ := h
    exact ⟨rfl, hmantissa, hleast, hmax⟩

/-- A power of two that a ratio reaches is reached by the nearest number, unless that is zero. -/
lemma pow_le_nearest (ha : a ≠ 0) (hb : 0 < b) (h : nearest? a b = some (m, e)) (hm : m ≠ 0)
    (hk : (2 : ℚ) ^ k ≤ a / b) : (2 : ℚ) ^ k ≤ m * 2 ^ e := by
  obtain ⟨e₀, hvalue, -⟩ := exists_of_nearest? ha hb h
  rw [hvalue]
  rcases lt_or_ge k e₀ with hlt | hge
  · -- the power is below the unit of the rounding
    have hpos : roundScaled a b e₀ ≠ 0 := by
      intro hzero
      rw [hzero, Nat.cast_zero, zero_mul] at hvalue
      exact absurd hvalue (by positivity)
    have hone : (1 : ℚ) ≤ roundScaled a b e₀ := by exact_mod_cast Nat.one_le_iff_ne_zero.mpr hpos
    calc (2 : ℚ) ^ k ≤ 1 * 2 ^ e₀ := by
          rw [one_mul]
          exact zpow_le_zpow_right₀ (by norm_num) hlt.le
      _ ≤ roundScaled a b e₀ * 2 ^ e₀ := mul_le_mul_of_nonneg_right hone (by positivity)
  · have hsplit := pow_eq_mul_pow hge
    rw [hsplit] at hk ⊢
    have hle : (2 ^ (k - e₀).toNat : ℕ) ≤ roundScaled a b e₀ := le_roundScaled hb hk
    exact mul_le_mul_of_nonneg_right (by exact_mod_cast hle) (by positivity)

/-- A power of two that a ratio does not pass is not passed by the nearest number. -/
lemma nearest_le_pow (ha : a ≠ 0) (hb : 0 < b) (h : nearest? a b = some (m, e))
    (hk : a / b ≤ (2 : ℚ) ^ k) : m * 2 ^ e ≤ (2 : ℚ) ^ k := by
  obtain ⟨e₀, hvalue, -⟩ := exists_of_nearest? ha hb h
  rw [hvalue]
  rcases lt_or_ge k e₀ with hlt | hge
  · -- the power is at most half of the unit of the rounding
    have hhalf : (a : ℚ) / b ≤ 2 ^ (e₀ - 1) :=
      hk.trans (zpow_le_zpow_right₀ (by norm_num) (by omega))
    rw [roundScaled_eq_zero hb hhalf, Nat.cast_zero, zero_mul]
    positivity
  · have hsplit := pow_eq_mul_pow hge
    rw [hsplit] at hk ⊢
    have hle : roundScaled a b e₀ ≤ (2 ^ (k - e₀).toNat : ℕ) := roundScaled_le hb hk
    exact mul_le_mul_of_nonneg_right (by exact_mod_cast hle) (by positivity)

/-! ### The logarithm -/

lemma pow_le_value (hm : m ≠ 0) (e : ℤ) :
    (2 : ℚ) ^ (m.log2 + e) ≤ m * 2 ^ e ∧ m * 2 ^ e < (2 : ℚ) ^ (m.log2 + e + 1) := by
  have hlow : (2 : ℚ) ^ m.log2 ≤ m := by exact_mod_cast Nat.log2_self_le hm
  have hhigh : (m : ℚ) < 2 ^ (m.log2 + 1) := by exact_mod_cast Nat.lt_log2_self
  rw [add_right_comm, zpow_add₀ (by norm_num), zpow_add₀ (by norm_num)]
  exact ⟨mul_le_mul_of_nonneg_right (by exact_mod_cast hlow) (by positivity),
    mul_lt_mul_of_pos_right (by exact_mod_cast hhigh) (by positivity)⟩

lemma roundedLog2_cases (m : ℕ) (e : ℤ) :
    roundedLog2 m e = m.log2 + e ∨ roundedLog2 m e = m.log2 + e + 1 := by
  simp only [roundedLog2]
  split_ifs <;> simp

lemma logDigits_one : ∀ n done : ℕ, logDigits n (2 ^ logPrecision) done = 2 ^ n * done
  | 0, done => (one_mul done).symm
  | n + 1, done => by
      have hsquare : 2 ^ logPrecision * 2 ^ logPrecision / Nat.pow 2 logPrecision
          = 2 ^ logPrecision := Nat.mul_div_cancel _ (Nat.two_pow_pos logPrecision)
      have hless (p : ℕ) : ¬ Nat.pow 2 (p + 1) ≤ 2 ^ p :=
        not_le.mpr (Nat.pow_lt_pow_succ Nat.one_lt_two)
      simp only [logDigits, hsquare, if_neg (hless logPrecision)]
      rw [logDigits_one n, pow_succ, mul_assoc]

lemma halfWindow_lt (hlow : minExponent ≤ e) (hhigh : e ≤ 1024) : halfWindow e < 2 ^ 63 := by
  simp only [halfWindow]
  split
  · decide
  · rename_i n hn
    have hdigits : (n + 1).log2 < 11 := by
      refine (Nat.log2_lt (Nat.succ_ne_zero n)).mpr ?_
      rw [minExponent] at hlow
      split_ifs at hn <;> omega
    exact Nat.pow_lt_pow_right Nat.one_lt_two (by omega)

/-- The logarithm of a power of two is exact. -/
lemma roundedLog2_of_pow (hm : m = 2 ^ m.log2) (hbound : m ≤ 2 ^ 53)
    (hlow : minExponent ≤ e) (hhigh : e ≤ maxExponent) : roundedLog2 m e = m.log2 + e := by
  have hlog : m.log2 ≤ 53 := by
    rw [hm] at hbound
    exact (Nat.pow_le_pow_iff_right Nat.one_lt_two).mp hbound
  have hdigits : logDigits 64 (m * Nat.pow 2 (logPrecision - m.log2)) 0 = 0 := by
    have hone : m * Nat.pow 2 (logPrecision - m.log2) = 2 ^ logPrecision := by
      conv_lhs => rw [hm]
      rw [Nat.log2_two_pow]
      exact pow_mul_pow_sub 2 (hlog.trans (by decide))
    rw [hone, logDigits_one, mul_zero]
  have hwindow : ¬ Nat.pow 2 63 ≤ halfWindow (m.log2 + e) :=
    not_le.mpr (halfWindow_lt (by omega) (by rw [maxExponent] at hhigh; omega))
  simp only [roundedLog2, hdigits, Nat.zero_max, Nat.zero_min, Nat.sub_zero, if_neg hwindow]
  exact if_pos (by decide)

/-! ### The logarithm of a ratio -/

/-- The rounded logarithm of a ratio is not below that of a power of two that the ratio reaches,
unless the nearest number is zero. -/
lemma le_roundedLog2_nearest (ha : a ≠ 0) (hb : 0 < b) (h : nearest? a b = some (m, e))
    (hm : m ≠ 0) (hk : (2 : ℚ) ^ k ≤ a / b) : k ≤ roundedLog2 m e := by
  have hless : (2 : ℚ) ^ k < 2 ^ (m.log2 + e + 1) :=
    (pow_le_nearest ha hb h hm hk).trans_lt (pow_le_value hm e).2
  have hk' : k < m.log2 + e + 1 := (zpow_lt_zpow_iff_right₀ (by norm_num)).mp hless
  rcases roundedLog2_cases m e with heq | heq <;> omega

/-- The rounded logarithm of a ratio is not above that of a power of two that the ratio does not
pass. -/
lemma roundedLog2_nearest_le (ha : a ≠ 0) (hb : 0 < b) (h : nearest? a b = some (m, e))
    (hm : m ≠ 0) (hk : a / b ≤ (2 : ℚ) ^ k) : roundedLog2 m e ≤ k := by
  have hvalue := nearest_le_pow ha hb h hk
  obtain ⟨-, -, hbound, hlow, hhigh⟩ := exists_of_nearest? ha hb h
  have hwhole : (m.log2 : ℤ) + e ≤ k :=
    (zpow_le_zpow_iff_right₀ (by norm_num)).mp ((pow_le_value hm e).1.trans hvalue)
  rcases hwhole.lt_or_eq with hlt | heq
  · rcases roundedLog2_cases m e with hcase | hcase <;> omega
  · -- the nearest number is the power of two, and its logarithm is exact
    have hpow : m = 2 ^ m.log2 := by
      refine le_antisymm ?_ (Nat.log2_self_le hm)
      rw [← heq, zpow_add₀ (by norm_num), zpow_natCast] at hvalue
      exact_mod_cast le_of_mul_le_mul_right hvalue (by positivity)
    rw [roundedLog2_of_pow hpow hbound hlow hhigh, heq]

end StarkCalldata.Binary64
