/-
The folding steps of a degree.

A folding of a degree is told apart from how it is computed: a zero step, then full steps with at
most one shorter step at their end, together the degree. No degree has more than one folding, and a
degree below zero has none. The computed list is the folding of the degree, except that below zero
it is that of the remainder by a full step: division rounds down, so the full steps that would have
to be taken away are left out.

* `IsFolding`: what a list of steps has to be for a degree;
* `isFolding_iff`: the only folding of a degree is the computed list, and only from zero on;
* `stepsOfDegree_of_neg`: the computed list below zero;
* `le_degree`, `degree_le`: the degree of a quotient between powers of two;
* `steps_fold_degree`: when the steps fold the degree, and what they fold otherwise.
-/
import StarkCalldata.Proofs.Binary64
import StarkCalldata.Fri
import Mathlib.Algebra.BigOperators.Group.List.Basic
import Mathlib.Data.List.Basic
import Mathlib.Tactic

namespace StarkCalldata.Fri

/-- The list folds the degree: a zero step, and then steps of at most a full one, of which only the
last may be shorter, together as many as the degree. -/
structure IsFolding (d : ℤ) (list : List ℤ) : Prop where
  zero : list.head? = some 0
  bounds : ∀ s ∈ list.tail, 1 ≤ s ∧ s ≤ foldStep
  full : ∀ s ∈ list.tail.dropLast, s = foldStep
  sum : list.sum = d

lemma tail_stepsOfDegree (d : ℤ) :
    (stepsOfDegree d).tail = List.replicate (d / foldStep).toNat foldStep
      ++ if d % foldStep = 0 then [] else [d % foldStep] := rfl

/-- Steps that are full ones, but for the last, are the computed ones of their sum. -/
lemma eq_tail_stepsOfDegree : ∀ {later : List ℤ}, (∀ s ∈ later, 1 ≤ s ∧ s ≤ foldStep) →
    (∀ s ∈ later.dropLast, s = foldStep) →
    0 ≤ later.sum ∧ later = (stepsOfDegree later.sum).tail
  | [], _, _ => ⟨le_rfl, rfl⟩
  | [s], hbounds, _ => by
      obtain ⟨hlow, hhigh⟩ := hbounds s (List.mem_singleton_self s)
      rw [List.sum_singleton]
      refine ⟨by omega, ?_⟩
      rw [foldStep] at hhigh
      interval_cases s <;> rfl
  | s :: t :: rest, hbounds, hfull => by
      obtain ⟨hsum, heq⟩ := @eq_tail_stepsOfDegree (t :: rest)
        (fun u hu => hbounds u (List.mem_cons_of_mem s hu))
        (fun u hu => hfull u (List.mem_cons_of_mem s hu))
      have hs : s = foldStep := hfull s List.mem_cons_self
      have hrest : (s :: t :: rest).sum = (t :: rest).sum + foldStep * 1 := by
        rw [List.sum_cons, hs]
        ring
      have hquotient : ((s :: t :: rest).sum / foldStep).toNat
          = ((t :: rest).sum / foldStep).toNat + 1 := by
        rw [hrest, Int.add_mul_ediv_left _ _ (by decide)]
        have := Int.ediv_nonneg hsum (show (0 : ℤ) ≤ foldStep by decide)
        omega
      have hremainder : (s :: t :: rest).sum % foldStep = (t :: rest).sum % foldStep := by
        rw [hrest, Int.add_mul_emod_self_left]
      refine ⟨by rw [hrest, foldStep]; omega, ?_⟩
      rw [tail_stepsOfDegree, hquotient, hremainder, List.replicate_succ, List.cons_append,
        ← tail_stepsOfDegree, ← heq, hs]

/-- From zero on, the computed list folds the degree. -/
lemma isFolding_stepsOfDegree {d : ℤ} (hd : 0 ≤ d) : IsFolding d (stepsOfDegree d) := by
  have hremainder := Int.emod_nonneg d (show foldStep ≠ 0 by decide)
  have hless := Int.emod_lt_of_pos d (show (0 : ℤ) < foldStep by decide)
  have hquotient := Int.ediv_nonneg hd (show (0 : ℤ) ≤ foldStep by decide)
  have hdivision := Int.mul_ediv_add_emod d foldStep
  constructor
  · rfl
  · intro s hs
    rw [tail_stepsOfDegree] at hs
    rcases List.mem_append.mp hs with hs | hs
    · rw [List.eq_of_mem_replicate hs]
      decide
    · split at hs
      · exact absurd hs List.not_mem_nil
      · rw [List.mem_singleton.mp hs]
        omega
  · intro s hs
    rw [tail_stepsOfDegree] at hs
    split at hs
    · rw [List.append_nil] at hs
      exact List.eq_of_mem_replicate (List.mem_of_mem_dropLast hs)
    · rw [List.dropLast_concat] at hs
      exact List.eq_of_mem_replicate hs
  · show (0 :: (stepsOfDegree d).tail).sum = d
    rw [List.sum_cons, tail_stepsOfDegree, List.sum_append, List.sum_replicate, nsmul_eq_mul,
      Int.toNat_of_nonneg hquotient]
    split
    · rw [List.sum_nil]
      linarith
    · rw [List.sum_singleton]
      linarith

/-- **The folding of a degree**: there is one from zero on, which is the computed list, and no other
and none below zero. -/
lemma isFolding_iff {d : ℤ} {list : List ℤ} :
    IsFolding d list ↔ 0 ≤ d ∧ list = stepsOfDegree d := by
  constructor
  · rintro ⟨hzero, hbounds, hfull, hsum⟩
    obtain ⟨later, rfl⟩ : ∃ later, list = 0 :: later := by
      obtain ⟨later, hlater⟩ := List.head?_eq_some_iff.mp hzero
      exact ⟨later, hlater⟩
    rw [List.sum_cons, zero_add] at hsum
    obtain ⟨hnonneg, heq⟩ := eq_tail_stepsOfDegree hbounds hfull
    rw [List.tail_cons, hsum] at hnonneg heq
    refine ⟨hnonneg, ?_⟩
    rw [heq]
    rfl
  · rintro ⟨hd, rfl⟩
    exact isFolding_stepsOfDegree hd

lemma stepsOfDegree_of_neg {d : ℤ} (hd : d < 0) :
    stepsOfDegree d = stepsOfDegree (d % foldStep) := by
  have hquotient : (d / foldStep).toNat = 0 :=
    Int.toNat_of_nonpos (Int.ediv_neg_of_neg_of_pos hd (by decide)).le
  have hremainder : (d % foldStep / foldStep).toNat = 0 := by
    rw [Int.ediv_eq_zero_of_lt (Int.emod_nonneg d (by decide)) (Int.emod_lt_of_pos d (by decide)),
      Int.toNat_zero]
  simp only [stepsOfDegree, hquotient, hremainder, Int.emod_emod]

/-- A degree comes from the logarithm of the number nearest to a positive quotient. -/
lemma exists_of_degree {n bound d : ℤ} (hd : degree n bound = .ok d) :
    0 < n ∧ 0 < bound ∧ ∃ m e, Binary64.nearest? n.toNat bound.toNat = some (m, e) ∧ m ≠ 0 ∧
      d = Binary64.roundedLog2 m e + degreeOffset := by
  unfold degree at hd
  split at hd
  · cases hd
  · split at hd
    · cases hd
    · cases hd
    · rename_i hpositive _ m e hm hnearest
      exact ⟨by omega, by omega, m, e, hnearest, hm, (Except.ok.inj hd).symm⟩

lemma le_degree {n bound d k : ℤ} (hd : degree n bound = .ok d) (hk : (2 : ℚ) ^ k ≤ n / bound) :
    k + degreeOffset ≤ d := by
  obtain ⟨hn, hbound, m, e, hnearest, hm, hvalue⟩ := exists_of_degree hd
  lift n to ℕ using hn.le
  lift bound to ℕ using hbound.le
  rw [hvalue]
  exact Int.add_le_add_right
    (Binary64.le_roundedLog2_nearest (by omega) (by omega) hnearest hm hk) degreeOffset

lemma degree_le {n bound d k : ℤ} (hd : degree n bound = .ok d) (hk : n / bound ≤ (2 : ℚ) ^ k) :
    d ≤ k + degreeOffset := by
  obtain ⟨hn, hbound, m, e, hnearest, hm, hvalue⟩ := exists_of_degree hd
  lift n to ℕ using hn.le
  lift bound to ℕ using hbound.le
  rw [hvalue]
  exact Int.add_le_add_right
    (Binary64.roundedLog2_nearest_le (by omega) (by omega) hnearest hm hk) degreeOffset

/-- **When the steps fold the degree.** For every trace length and bound that have a degree there
are steps. From zero on they are the only folding of the degree. Below zero the degree has none, and
they fold its remainder by a full step. The degree is from zero on when the trace length is at least
a sixteenth of the bound, and below zero when it is at most half of that. -/
theorem steps_fold_degree {n bound d : ℤ} (hd : degree n bound = .ok d) :
    (∃ list, steps n bound = .ok list ∧
      IsFolding (if 0 ≤ d then d else d % foldStep) list ∧
      ∀ other, IsFolding d other ↔ 0 ≤ d ∧ other = list) ∧
    (bound ≤ 16 * n → 0 ≤ d) ∧ (32 * n ≤ bound → d < 0) := by
  have hbound : (0 : ℚ) < bound := by exact_mod_cast (exists_of_degree hd).2.1
  refine ⟨⟨stepsOfDegree d, by rw [steps, hd]; rfl, ?_, fun other => isFolding_iff⟩, ?_, ?_⟩
  · split
    · exact isFolding_stepsOfDegree ‹_›
    · rw [stepsOfDegree_of_neg (not_le.mp ‹_›)]
      exact isFolding_stepsOfDegree (Int.emod_nonneg d (by decide))
  · intro hlarge
    have hlarge' : (bound : ℚ) ≤ 16 * n := by exact_mod_cast hlarge
    refine @le_degree n bound d (-4) hd ?_
    rw [le_div_iff₀ hbound]
    norm_num
    linarith
  · intro hsmall
    have hsmall' : 32 * (n : ℚ) ≤ bound := by exact_mod_cast hsmall
    have hless : d ≤ -5 + degreeOffset := by
      refine degree_le hd ?_
      rw [div_le_iff₀ hbound]
      norm_num
      linarith
    rw [degreeOffset] at hless
    omega

/-- Two steps and a bound of one have a degree of five, which is folded by a full step and a step of
one. -/
theorem twoSteps_folded : ∃ list, steps 2 1 = .ok list ∧ IsFolding 5 list := by
  obtain ⟨⟨list, hlist, hfolding, -⟩, -⟩ := @steps_fold_degree 2 1 5 rfl
  exact ⟨list, hlist, hfolding⟩

/-- One step and a bound of sixty-four have a degree below zero, which the steps do not fold. -/
theorem oneStep_not_folded : ¬ ∀ n bound d : ℤ, 0 < n → 0 < bound → degree n bound = .ok d →
    ∃ list, steps n bound = .ok list ∧ IsFolding d list := by
  intro hclaim
  obtain ⟨list, -, hfolding⟩ := hclaim 1 64 (-2) (by decide) (by decide) rfl
  exact absurd (isFolding_iff.mp hfolding).1 (by decide)

end StarkCalldata.Fri
