import Rill.Proofs.Outcome

/-! Two computations side by side: from like states they go alike. -/
namespace Rill

section

variable {ε σ α β : Type}

/-- Both results are values or both are failures. `S` relates the states that are left, `E` the
failures and `R` the values. -/
inductive Matched (S : σ → σ → Prop) (E : ε → ε → Prop) (R : α → β → Prop) :
    EStateM.Result ε σ α → EStateM.Result ε σ β → Prop
  | ok {a b s t} : R a b → S s t → Matched S E R (.ok a s) (.ok b t)
  | error {e f s t} : E e f → S s t → Matched S E R (.error e s) (.error f t)

/-- From related states, the results match. -/
def Mirrors (S : σ → σ → Prop) (E : ε → ε → Prop) (R : α → β → Prop) (x : EStateM ε σ α)
    (y : EStateM ε σ β) : Prop :=
  ∀ s t, S s t → Matched S E R (x s) (y t)

end

namespace Matched

variable {ε σ α : Type} {S : σ → σ → Prop} {E : ε → ε → Prop}

theorem symm {r r' : EStateM.Result ε σ α} (h : Matched S E Eq r r') (hS : Equivalence S)
    (hE : Equivalence E) : Matched S E Eq r' r := by
  cases h with
  | ok hr hst => exact .ok hr.symm (hS.symm hst)
  | error he hst => exact .error (hE.symm he) (hS.symm hst)

theorem trans {p q r : EStateM.Result ε σ α} (h : Matched S E Eq p q) (h' : Matched S E Eq q r)
    (hS : Equivalence S) (hE : Equivalence E) : Matched S E Eq p r := by
  cases h with
  | ok hr hst =>
    cases h' with
    | ok hr' hst' => exact .ok (hr.trans hr') (hS.trans hst hst')
  | error he hst =>
    cases h' with
    | error he' hst' => exact .error (hE.trans he he') (hS.trans hst hst')

end Matched

namespace Mirrors

variable {ε σ α β γ δ : Type} {S : σ → σ → Prop} {E : ε → ε → Prop} {R : α → β → Prop}
  {Q : γ → δ → Prop} {x : EStateM ε σ α} {y : EStateM ε σ β}

theorem pure {a : α} {b : β} (h : R a b) : Mirrors S E R (pure a) (pure b) :=
  fun _ _ hst => .ok h hst

theorem throw {e f : ε} (h : E e f) : Mirrors S E R (throw e) (throw f) :=
  fun _ _ hst => .error h hst

theorem get : Mirrors (ε := ε) S E S get get := fun _ _ hst => .ok hst hst

theorem bind {f : α → EStateM ε σ γ} {g : β → EStateM ε σ δ} (hx : Mirrors S E R x y)
    (hf : ∀ a b, R a b → Mirrors S E Q (f a) (g b)) : Mirrors S E Q (x >>= f) (y >>= g) := by
  intro s t hst
  have hxy := hx s t hst
  generalize hs : x s = r at hxy
  generalize ht : y t = r' at hxy
  cases hxy with
  | ok hr hst =>
    rw [bind_of_ok hs, bind_of_ok ht]
    exact hf _ _ hr _ _ hst
  | error he hst =>
    rw [bind_of_error hs, bind_of_error ht]
    exact .error he hst

theorem mapM {f : α → EStateM ε σ γ} {g : α → EStateM ε σ γ}
    (h : ∀ a, Mirrors S E Eq (f a) (g a)) (as : List α) :
    Mirrors S E Eq (as.mapM f) (as.mapM g) := by
  induction as with
  | nil => exact pure rfl
  | cons a as ih =>
    rw [List.mapM_cons, List.mapM_cons]
    apply bind (h a)
    rintro b _ rfl
    apply bind ih
    rintro bs _ rfl
    exact pure rfl

end Mirrors
end Rill
