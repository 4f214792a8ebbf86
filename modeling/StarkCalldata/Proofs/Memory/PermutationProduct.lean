import Mathlib.Algebra.BigOperators.Group.List.Basic
import Mathlib.Tactic
import StarkCalldata.Memory.PermutationProduct
import StarkCalldata.Proofs.Field

/-!
The permutation product as a product.

The running product is reduced at every step, which does not show in the end: the result is the
residue of the plain product of the factors. Everything else about it is seen in the field. There a
slot is a line, which stands at `address + alpha * value` at the challenge `alpha`, and the product
is that of the distances of `z` from the lines of all slots:

* `permutationProduct_eq`: the permutation product as a residue;
* `permutationProduct_perm`, `permutationProduct_append`: the order of the slots is irrelevant, and
  slots put one after another multiply their products;
* `lineAt`, `natCast_permutationProduct`: the product of a page by the lines of its slots;
* `permutationProduct_eq_zero`: a product vanishes when a line stands at `z`, as a field has no zero
  divisors;
* `permutationProduct_reduced`: reducing everything before makes no difference;
* `permutationProduct_is_fieldProduct`: the permutation product is the product in the field.
-/

namespace StarkCalldata.Memory

variable {slots slots' : List Slot} {z alpha : ℤ}

/-- The product of the factors of all slots, as an integer. -/
def slotProduct (slots : List Slot) (z alpha : ℤ) : ℤ := (slots.map (factor z alpha)).prod

/-- The running product, from any start, is the residue of the start times the product. -/
lemma foldl_residue_mul (slots : List Slot) (z alpha : ℤ) (start : ℕ) :
    ((slots.foldl (fun (product : ℕ) s => Field.residue (product * factor z alpha s)) start : ℕ) :
      ℤ) ≡ start * slotProduct slots z alpha [ZMOD Field.prime] := by
  induction slots generalizing start with
  | nil => simp [slotProduct, Int.ModEq.refl]
  | cons s slots ih =>
      have hstep : (Field.residue (start * factor z alpha s) : ℤ) ≡ start * factor z alpha s
          [ZMOD Field.prime] := by
        rw [Field.residue_emod]
        exact Int.mod_modEq _ _
      calc
        _ ≡ Field.residue (start * factor z alpha s) * slotProduct slots z alpha
            [ZMOD Field.prime] := ih _
        _ ≡ start * factor z alpha s * slotProduct slots z alpha [ZMOD Field.prime] :=
          hstep.mul_right _
        _ = start * slotProduct (s :: slots) z alpha := by
          rw [slotProduct, slotProduct, List.map_cons, List.prod_cons, mul_assoc]

lemma permutationProduct_lt (slots : List Slot) (z alpha : ℤ) :
    permutationProduct slots z alpha < Field.prime := by
  induction slots using List.reverseRecOn with
  | nil => exact (by decide : 1 < Field.prime)
  | append_singleton slots s _ =>
      rw [permutationProduct, List.foldl_append]
      exact Field.residue_lt _

/-- **The permutation product is the residue of the product of the factors.** -/
theorem permutationProduct_eq (slots : List Slot) (z alpha : ℤ) :
    (permutationProduct slots z alpha : ℤ) = slotProduct slots z alpha % Field.prime := by
  have hcongr := foldl_residue_mul slots z alpha 1
  rw [Nat.cast_one, one_mul] at hcongr
  have hlt : (permutationProduct slots z alpha : ℤ) < Field.prime :=
    Int.ofNat_lt.mpr (permutationProduct_lt slots z alpha)
  rw [← hcongr.eq]
  exact (Int.emod_eq_of_lt (Int.natCast_nonneg _) hlt).symm

/-- The order of the slots is irrelevant to the permutation product. -/
theorem permutationProduct_perm (h : slots.Perm slots') (z alpha : ℤ) :
    permutationProduct slots z alpha = permutationProduct slots' z alpha := by
  have hprod : slotProduct slots z alpha = slotProduct slots' z alpha := (h.map _).prod_eq
  have heq : (permutationProduct slots z alpha : ℤ) = permutationProduct slots' z alpha := by
    rw [permutationProduct_eq, permutationProduct_eq, hprod]
  exact Int.ofNat_inj.mp heq

/-- Slots that are put one after another multiply their permutation products. -/
lemma permutationProduct_append (slots slots' : List Slot) (z alpha : ℤ) :
    permutationProduct (slots ++ slots') z alpha =
      permutationProduct slots z alpha * permutationProduct slots' z alpha % Field.prime := by
  have hprod : slotProduct (slots ++ slots') z alpha =
      slotProduct slots z alpha * slotProduct slots' z alpha := by
    rw [slotProduct, List.map_append, List.prod_append, slotProduct, slotProduct]
  rw [← Int.ofNat_inj]
  calc (permutationProduct (slots ++ slots') z alpha : ℤ)
      = slotProduct slots z alpha * slotProduct slots' z alpha % Field.prime := by
        rw [permutationProduct_eq, hprod]
    _ = permutationProduct slots z alpha * permutationProduct slots' z alpha % Field.prime := by
        rw [Int.mul_emod, permutationProduct_eq, permutationProduct_eq]
    _ = _ := by push_cast; rfl

/-! ### The product in the field -/

/-- The place of the line of a slot at a challenge. -/
def lineAt (alpha : ZMod Field.prime) (s : Slot) : ZMod Field.prime :=
  s.address + alpha * s.value

/-- In the field, the permutation product is that of the distances from the lines. -/
lemma natCast_permutationProduct (slots : List Slot) (z alpha : ℤ) :
    ((permutationProduct slots z alpha : ℕ) : ZMod Field.prime) =
      (slots.map fun s => (z : ZMod Field.prime) - lineAt alpha s).prod := by
  rw [← Int.cast_natCast (permutationProduct slots z alpha), permutationProduct_eq,
    ZMod.intCast_mod, slotProduct, Int.cast_list_prod, List.map_map]
  refine congrArg List.prod (List.map_congr_left fun s _ => ?_)
  simp [factor, lineAt]

lemma permutationProduct_eq_of_natCast_eq {z' alpha' : ℤ}
    (h : ((permutationProduct slots z alpha : ℕ) : ZMod Field.prime) =
      (permutationProduct slots' z' alpha' : ℕ)) :
    permutationProduct slots z alpha = permutationProduct slots' z' alpha' := by
  rw [ZMod.natCast_eq_natCast_iff'] at h
  rwa [Nat.mod_eq_of_lt (permutationProduct_lt _ _ _),
    Nat.mod_eq_of_lt (permutationProduct_lt _ _ _)] at h

lemma sub_lineAt_eq_zero {s : Slot} : (z : ZMod Field.prime) - lineAt alpha s = 0 ↔
    z ≡ s.address + alpha * s.value [ZMOD Field.prime] := by
  rw [lineAt, sub_eq_zero, ← ZMod.intCast_eq_intCast_iff]
  push_cast
  rfl

/-- The permutation product vanishes when the line of some slot stands at `z`. -/
lemma permutationProduct_eq_zero : permutationProduct slots z alpha = 0 ↔
    ∃ s ∈ slots, z ≡ s.address + alpha * s.value [ZMOD Field.prime] := by
  have hcast : permutationProduct slots z alpha = 0 ↔
      ((permutationProduct slots z alpha : ℕ) : ZMod Field.prime) = 0 := by
    rw [ZMod.natCast_eq_zero_iff]
    exact ⟨fun h => h ▸ dvd_zero _,
      fun h => Nat.eq_zero_of_dvd_of_lt h (permutationProduct_lt slots z alpha)⟩
  rw [hcast, natCast_permutationProduct, List.prod_eq_zero_iff, List.mem_map]
  simp only [sub_lineAt_eq_zero]

/-! ### Reduction -/

/-- A slot with address and value reduced. -/
def Slot.reduced (s : Slot) : Slot := ⟨Field.residue s.address, Field.residue s.value⟩

/-- It does not matter to the permutation product whether everything is reduced before. -/
lemma permutationProduct_reduced (slots : List Slot) (z alpha : ℤ) :
    permutationProduct (slots.map Slot.reduced) (Field.residue z) (Field.residue alpha) =
      permutationProduct slots z alpha := by
  refine permutationProduct_eq_of_natCast_eq ?_
  rw [natCast_permutationProduct, natCast_permutationProduct, List.map_map]
  refine congrArg List.prod (List.map_congr_left fun s _ => ?_)
  simp [lineAt, Slot.reduced, Field.natCast_residue]

/-- **The permutation product is the product in the field.** For slots and challenges of any size and
sign it is canonical and the residue of the plain product of the integers
`z - (address + alpha * value)`, whether or not everything is reduced before, and as an element of
the field it is the product of the distances of `z` from the lines of the slots. Slots that are put
one after another multiply their products, and the product is zero exactly when the line of some
slot stands at `z`. -/
theorem permutationProduct_is_fieldProduct (slots : List Slot) (z alpha : ℤ) :
    Field.IsCanonical (permutationProduct slots z alpha) ∧
    (permutationProduct slots z alpha : ℤ) =
      (slots.map fun s => z - (s.address + alpha * s.value)).prod % Field.prime ∧
    permutationProduct (slots.map Slot.reduced) (Field.residue z) (Field.residue alpha) =
      permutationProduct slots z alpha ∧
    ((permutationProduct slots z alpha : ℕ) : ZMod Field.prime) =
      (slots.map fun s => (z : ZMod Field.prime) - lineAt alpha s).prod ∧
    (∀ slots', permutationProduct (slots ++ slots') z alpha =
      permutationProduct slots z alpha * permutationProduct slots' z alpha % Field.prime) ∧
    (permutationProduct slots z alpha = 0 ↔
      ∃ s ∈ slots, z ≡ s.address + alpha * s.value [ZMOD Field.prime]) := by
  have hcanonical : Field.IsCanonical (permutationProduct slots z alpha) :=
    ⟨Int.natCast_nonneg _, Int.ofNat_lt.mpr (permutationProduct_lt slots z alpha)⟩
  refine ⟨hcanonical, permutationProduct_eq slots z alpha, permutationProduct_reduced slots z alpha,
    natCast_permutationProduct slots z alpha, fun slots' => ?_, permutationProduct_eq_zero⟩
  exact permutationProduct_append slots slots' z alpha

end StarkCalldata.Memory
