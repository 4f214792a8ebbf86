import Mathlib.Tactic
import StarkCalldata.Run

/-!
Outcomes of computations that follow one another.

A chain of computations has a result exactly when every link has one
(`bind_eq_ok`, `bind_ok`, `mapM_eq_ok`), so a result of the whole can be taken apart link by link; a
row fails at its first link that does (`mapM_eq_error`).

* `Fault.kind_quoting`: the class of a failure whose words quote integers;
* `FailsWith P`, `FaultsIn P`: whatever fault an outcome is, the fault itself or its class has a
  property; this passes along a chain and along a row;
* `Agree R`: two outcomes side by side, both of them results that `R` relates, or both of them
  faults of one class. This is the relation between two runs of one program on inputs that the
  program is not meant to tell apart;
* `Agree.bind`, `Agree.mapM`: agreement passes along a chain and along a row, `Agree.rfl` starts it,
  and `agree_eq_iff_mapError` says what agreement up to equality amounts to: the results are equal,
  or the classes of the faults are.
-/

namespace StarkCalldata

variable {α β γ δ ε : Type}

/-- A failure whose words quote integers belongs to its class if the integers can be written. -/
lemma Fault.kind_quoting (integers : List ℤ) (fault : Fault) :
    (quoting integers fault).kind =
      if ∀ n ∈ integers, Text.Writable n then fault.kind else .value := by
  rw [quoting]
  split_ifs <;> rfl

/-! ### Taking a chain apart -/

namespace Outcome

/-- A chain of two has a result when both links have one. -/
lemma bind_ok {x : Except ε α} {f : α → Except ε β} {b : β} :
    Except.bind x f = .ok b ↔ ∃ a, x = .ok a ∧ f a = .ok b := by
  cases x <;> simp [Except.bind]

/-- `bind_ok` for a chain written with the operator. -/
lemma bind_eq_ok {x : Except ε α} {f : α → Except ε β} {b : β} :
    (x >>= f) = .ok b ↔ ∃ a, x = .ok a ∧ f a = .ok b := bind_ok

/-- `bind_ok` along a list: a row of links has a result when every link has its own. -/
lemma mapM_eq_ok {f : α → Except ε β} {as : List α} {bs : List β} :
    as.mapM f = .ok bs ↔ List.Forall₂ (fun a b => f a = .ok b) as bs := by
  induction as generalizing bs with
  | nil => simp [pure, Except.pure, eq_comm]
  | cons a as ih =>
      simp only [List.mapM_cons, bind_eq_ok, ih, List.forall₂_cons_left_iff]
      constructor
      · rintro ⟨b, hb, bs', hbs, h⟩
        cases h
        exact ⟨b, bs', hb, hbs, rfl⟩
      · rintro ⟨b, bs', hb, hbs, rfl⟩
        exact ⟨b, hb, bs', hbs, rfl⟩

/-- A row of links fails at the first link that does. -/
lemma mapM_eq_error {f : α → Except ε β} {as : List α} {e : ε} :
    as.mapM f = .error e ↔ ∃ before a after, as = before ++ a :: after ∧
      (∀ b ∈ before, ∃ c, f b = .ok c) ∧ f a = .error e := by
  induction as with
  | nil => simp [pure, Except.pure]
  | cons first rest ih =>
      rw [List.mapM_cons]
      cases hfirst : f first with
      | error e' =>
          constructor
          · intro h
            cases h
            exact ⟨[], first, rest, rfl, by simp, hfirst⟩
          · rintro ⟨before, a, after, has, hbefore, ha⟩
            cases before with
            | nil =>
                obtain ⟨rfl, rfl⟩ : first = a ∧ rest = after := by simpa using has
                rw [hfirst] at ha
                cases ha
                rfl
            | cons b before =>
                obtain ⟨rfl, -⟩ : first = b ∧ rest = before ++ a :: after := by simpa using has
                obtain ⟨c, hc⟩ := hbefore first (.head _)
                rw [hfirst] at hc
                cases hc
      | ok b =>
          have hrest : ((do let bs ← rest.mapM f; pure (b :: bs)) : Except ε (List β)) = .error e ↔
              rest.mapM f = .error e := by
            cases rest.mapM f <;> simp [bind, Except.bind, pure, Except.pure]
          refine Iff.trans hrest (ih.trans ?_)
          constructor
          · rintro ⟨before, a, after, rfl, hbefore, ha⟩
            exact ⟨first :: before, a, after, rfl,
              List.forall_mem_cons.mpr ⟨⟨b, hfirst⟩, hbefore⟩, ha⟩
          · rintro ⟨before, a, after, has, hbefore, ha⟩
            cases before with
            | nil =>
                obtain ⟨rfl, -⟩ : first = a ∧ rest = after := by simpa using has
                rw [hfirst] at ha
                cases ha
            | cons b' before =>
                obtain ⟨-, rfl⟩ : first = b' ∧ rest = before ++ a :: after := by simpa using has
                exact ⟨before, a, after, rfl, (List.forall_mem_cons.mp hbefore).2, ha⟩

lemma toOption_eq_some {x : Except ε α} {a : α} : x.toOption = some a ↔ x = .ok a := by
  cases x <;> simp [Except.toOption]

lemma toOption_mapError {ε' : Type} (g : ε → ε') (x : Except ε α) :
    (x.mapError g).toOption = x.toOption := by
  cases x <;> rfl

/-- A plain result is the only one it has. -/
@[simp] lemma pure_eq_ok {a b : α} : (pure a : Except ε α) = .ok b ↔ a = b := by
  simp [pure, Except.pure]

end Outcome

@[simp] lemma Run.outcome_liftM (o : Except Fault α) : (liftM o : Run α).outcome = o := rfl

/-! ### Faults and their classes -/

/-- Whatever fault an outcome is, it has a given property. -/
def FailsWith (P : Fault → Prop) (x : Except Fault α) : Prop := ∀ f, x = .error f → P f

namespace FailsWith

variable {P Q : Fault → Prop}

lemma ok (a : α) : FailsWith P (.ok a) := by
  intro f h
  cases h

lemma of_ok {x : Except Fault α} {a : α} (h : x = .ok a) : FailsWith P x := h ▸ ok a

lemma error {f : Fault} (h : P f) : FailsWith P (.error f : Except Fault α) := by
  intro e he
  cases he
  exact h

/-- The faults of a chain are those of its links. -/
lemma bind {x : Except Fault α} {g : α → Except Fault β} (hx : FailsWith P x)
    (hg : ∀ a, x = .ok a → FailsWith P (g a)) : FailsWith P (x.bind g) := by
  cases hresult : x with
  | ok a => exact hg a hresult
  | error f => exact error (hx f hresult)

/-- The faults of a row are those of its links. -/
lemma mapM {g : α → Except Fault β} {as : List α} (h : ∀ a ∈ as, FailsWith P (g a)) :
    FailsWith P (as.mapM g) := by
  induction as with
  | nil => exact ok []
  | cons a as ih =>
      obtain ⟨ha, has⟩ := List.forall_mem_cons.mp h
      rw [List.mapM_cons]
      exact ha.bind fun b _ => (ih has).bind fun bs _ => ok (b :: bs)

lemma mono {x : Except Fault α} (hPQ : ∀ f, P f → Q f) (h : FailsWith P x) : FailsWith Q x :=
  fun f hf => hPQ f (h f hf)

end FailsWith

/-- Whatever fault an outcome is, its class has a given property. -/
def FaultsIn (P : Fault.Kind → Prop) (x : Except Fault α) : Prop := ∀ f, x = .error f → P f.kind

/-- A failure whose words quote integers has a property if it has it by itself and as the failure to
write an integer. -/
lemma Fault.of_quoting {P : Fault → Prop} {integers : List ℤ} {fault : Fault} (hfault : P fault)
    (hlong : P (.numeralTooLong none)) : P (quoting integers fault) := by
  rw [quoting]
  split_ifs
  · exact hfault
  · exact hlong

/-- A failure whose words quote integers belongs to its class if the integers can be written, and
the class of values is the only other one. -/
lemma Fault.of_kind_quoting {P : Kind → Prop} {integers : List ℤ} {fault : Fault}
    (hfault : P fault.kind) (h : (∀ n ∈ integers, Text.Writable n) ∨ P .value) :
    P (quoting integers fault).kind := by
  rw [kind_quoting]
  split_ifs with hwritable
  · exact hfault
  · exact h.resolve_left hwritable

namespace FaultsIn

variable {P Q : Fault.Kind → Prop}

lemma ok (a : α) : FaultsIn P (.ok a) := FailsWith.ok a

lemma error {f : Fault} (h : P f.kind) : FaultsIn P (.error f : Except Fault α) :=
  FailsWith.error (P := fun f => P f.kind) h

/-- The faults of a chain are those of its links. -/
lemma bind {x : Except Fault α} {g : α → Except Fault β} (hx : FaultsIn P x)
    (hg : ∀ a, x = .ok a → FaultsIn P (g a)) : FaultsIn P (x.bind g) :=
  FailsWith.bind hx hg

lemma map {x : Except Fault α} (hx : FaultsIn P x) (g : α → β) : FaultsIn P (x.map g) := by
  cases x with
  | ok a => exact ok (g a)
  | error f => exact error (hx f rfl)

/-- The faults of a row are those of its links. -/
lemma mapM {g : α → Except Fault β} {as : List α} (h : ∀ a ∈ as, FaultsIn P (g a)) :
    FaultsIn P (as.mapM g) :=
  FailsWith.mapM h

lemma mono {x : Except Fault α} (hPQ : ∀ k, P k → Q k) (h : FaultsIn P x) : FaultsIn Q x :=
  FailsWith.mono (fun f => hPQ f.kind) h

end FaultsIn

/-! ### Two outcomes side by side -/

/-- Two outcomes agree up to a relation: both are results that it relates, or both are faults of
one class. -/
inductive Agree (R : α → β → Prop) : Except Fault α → Except Fault β → Prop
  | result {a : α} {b : β} : R a b → Agree R (.ok a) (.ok b)
  | fault {e f : Fault} : e.kind = f.kind → Agree R (.error e) (.error f)

namespace Agree

variable {R : α → β → Prop} {S : γ → δ → Prop}

/-- An outcome agrees with itself up to any relation that is reflexive. -/
lemma rfl {R : α → α → Prop} (hR : ∀ a, R a a) (x : Except Fault α) : Agree R x x := by
  cases x with
  | ok a => exact .result (hR a)
  | error e => exact .fault (Eq.refl _)

/-- Agreement passes along a chain whose further links agree on related results. -/
lemma bind {x : Except Fault α} {y : Except Fault β} {f : α → Except Fault γ}
    {g : β → Except Fault δ} (hxy : Agree R x y) (hfg : ∀ a b, R a b → Agree S (f a) (g b)) :
    Agree S (x.bind f) (y.bind g) := by
  cases hxy with
  | result h => exact hfg _ _ h
  | fault h => exact .fault h

/-- Agreement passes along two rows of links that agree one by one. -/
lemma mapM {Q : α → β → Prop} {f : α → Except Fault γ} {g : β → Except Fault δ} {as : List α}
    {bs : List β} (h : List.Forall₂ Q as bs)
    (hfg : ∀ a ∈ as, ∀ b ∈ bs, Q a b → Agree S (f a) (g b)) :
    Agree (List.Forall₂ S) (as.mapM f) (bs.mapM g) := by
  induction h with
  | nil => exact .result .nil
  | @cons a b as bs hab _ ih =>
      rw [List.mapM_cons, List.mapM_cons]
      refine (hfg a (.head _) b (.head _) hab).bind fun c d hcd => ?_
      refine (ih fun a ha b hb => hfg a (.tail _ ha) b (.tail _ hb)).bind fun cs ds hcds => ?_
      exact .result (.cons hcd hcds)

lemma mono {R' : α → β → Prop} (hR : ∀ a b, R a b → R' a b) {x : Except Fault α}
    {y : Except Fault β} (h : Agree R x y) : Agree R' x y := by
  cases h with
  | result h => exact .result (hR _ _ h)
  | fault h => exact .fault h

end Agree

/-- Agreement up to equality: the results are equal, or the classes of the faults are. -/
theorem agree_eq_iff_mapError {x y : Except Fault α} :
    Agree (· = ·) x y ↔ x.mapError Fault.kind = y.mapError Fault.kind := by
  constructor
  · intro h
    cases h with
    | result h => rw [h]
    | fault h => simp [Except.mapError, h]
  · intro h
    cases x <;> cases y <;> simp [Except.mapError] at h
    · exact .fault h
    · exact .result h

end StarkCalldata
