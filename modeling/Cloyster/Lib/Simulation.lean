import Cloyster.Lib.Effect

/-! Programs side by side. Two runs from related states are the same when both return the
same value or both throw the same exception, in states that are related again. Sequences
and loops keep this, so a program is related to itself as soon as its steps are. -/

namespace Cloyster.Lib

variable {ε σ τ α β : Type} {R : σ → τ → Prop}

/-- The same outcome, in related states. -/
inductive SameRun (R : σ → τ → Prop) : EStateM.Result ε σ α → EStateM.Result ε τ α → Prop
  | ok (a : α) {s : σ} {t : τ} (h : R s t) : SameRun R (.ok a s) (.ok a t)
  | error (e : ε) {s : σ} {t : τ} (h : R s t) : SameRun R (.error e s) (.error e t)

/-- Related states give the same run. -/
def Simulates (R : σ → τ → Prop) (x : EStateM ε σ α) (y : EStateM ε τ α) : Prop :=
  ∀ s t, R s t → SameRun R (x s) (y t)

theorem SameRun.finalState {r : EStateM.Result ε σ α} {r' : EStateM.Result ε τ α}
    (h : SameRun R r r') : R (finalState r) (finalState r') := by
  cases h with
  | ok a h => exact h
  | error e h => exact h

theorem simulates_pure (a : α) :
    Simulates R (pure a : EStateM ε σ α) (pure a : EStateM ε τ α) := by
  intro s t h
  exact .ok a h

/-- A sequence whose second half may look at the states the first half ends in. -/
theorem SameRun.bind {x : EStateM ε σ α} {y : EStateM ε τ α} {f : α → EStateM ε σ β}
    {g : α → EStateM ε τ β} {s : σ} {t : τ} (hx : SameRun R (x s) (y t))
    (hf : ∀ a, Simulates R (f a) (g a)) : SameRun R ((x >>= f) s) ((y >>= g) t) := by
  rw [bind_apply, bind_apply]
  generalize x s = r, y t = r' at hx
  cases hx with
  | ok a h => exact hf a _ _ h
  | error e h => exact .error e h

theorem simulates_bind {x : EStateM ε σ α} {y : EStateM ε τ α} {f : α → EStateM ε σ β}
    {g : α → EStateM ε τ β} (hx : Simulates R x y) (hf : ∀ a, Simulates R (f a) (g a)) :
    Simulates R (x >>= f) (y >>= g) := by
  intro s t h
  exact (hx s t h).bind hf

theorem simulates_forM {l : List α} {f : α → EStateM ε σ PUnit} {g : α → EStateM ε τ PUnit}
    (h : ∀ a ∈ l, Simulates R (f a) (g a)) : Simulates R (l.forM f) (l.forM g) := by
  induction l with
  | nil => exact simulates_pure PUnit.unit
  | cons a l ih =>
    rw [List.forall_mem_cons] at h
    exact simulates_bind h.1 fun _ => ih h.2

end Cloyster.Lib
