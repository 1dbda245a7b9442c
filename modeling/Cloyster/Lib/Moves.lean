import Cloyster.Lib.Effect

/-! Programs that move the state along a relation. What every step of a program keeps to, each of
its runs keeps to, whether it returns or throws, as soon as the relation is reflexive and
transitive. A program that is made of the transitions of a system moves along their closure, and
then along every preorder that one transition keeps to. -/

namespace Cloyster.Lib

open Relation

variable {ε σ α β : Type} {R : σ → σ → Prop}

/-- Every run ends in a state that is related to the one it starts from. -/
def Moves (R : σ → σ → Prop) (x : EStateM ε σ α) : Prop := ∀ s, R s (finalState (x s))

theorem moves_mono {Q : σ → σ → Prop} {x : EStateM ε σ α} (h : ∀ s t, Q s t → R s t)
    (hx : Moves Q x) : Moves R x := fun s => h s _ (hx s)

theorem moves_modify {f : σ → σ} (h : ∀ s, R s (f s)) : Moves R (modify f : EStateM ε σ PUnit) := h

theorem moves_ite {p : Prop} [Decidable p] {x y : EStateM ε σ α} (hx : p → Moves R x)
    (hy : ¬ p → Moves R y) : Moves R (if p then x else y) := by
  split_ifs with h
  · exact hx h
  · exact hy h

section

variable [IsPreorder σ R]

theorem moves_pure (a : α) : Moves R (pure a : EStateM ε σ α) := fun s => refl s

theorem moves_throw (e : ε) : Moves R (throw e : EStateM ε σ α) := fun s => refl s

theorem moves_get : Moves R (get : EStateM ε σ σ) := fun s => refl s

theorem moves_refuseIf {p : Prop} [Decidable p] (e : ε) :
    Moves R (refuseIf p e : EStateM ε σ PUnit) :=
  moves_ite (fun _ => moves_throw e) fun _ => moves_pure _

theorem moves_of_unchanged {x : EStateM ε σ α} (h : ∀ s, Unchanged x s) : Moves R x := by
  intro s
  rw [h s]
  exact refl s

theorem moves_bind {x : EStateM ε σ α} {f : α → EStateM ε σ β} (hx : Moves R x)
    (hf : ∀ a, Moves R (f a)) : Moves R (x >>= f) := by
  intro s
  have hfirst := hx s
  rw [bind_apply]
  cases hrun : x s with
  | ok a t =>
    rw [hrun] at hfirst
    exact trans_of R hfirst (hf a t)
  | error e t =>
    rw [hrun] at hfirst
    exact hfirst

/-- What follows the first program may rely on its having returned. -/
theorem moves_bind_of_ok {x : EStateM ε σ α} {f : α → EStateM ε σ β} (hx : Moves R x)
    (hf : ∀ s a t, x s = .ok a t → R t (finalState (f a t))) : Moves R (x >>= f) := by
  intro s
  have hfirst := hx s
  rw [bind_apply]
  cases hrun : x s with
  | ok a t =>
    rw [hrun] at hfirst
    exact trans_of R hfirst (hf s a t hrun)
  | error e t =>
    rw [hrun] at hfirst
    exact hfirst

theorem moves_forM {l : List α} {f : α → EStateM ε σ PUnit} (h : ∀ a ∈ l, Moves R (f a)) :
    Moves R (l.forM f) := by
  induction l with
  | nil => exact moves_pure _
  | cons a l ih =>
    exact moves_bind (h a List.mem_cons_self)
      fun _ => ih fun b hb => h b (List.mem_cons_of_mem _ hb)

theorem moves_optionForM {o : Option α} {f : α → EStateM ε σ PUnit} (h : ∀ a, Moves R (f a)) :
    Moves R (o.forM f) := by
  cases o with
  | none => exact moves_pure _
  | some a => exact h a

/-- A program made of transitions keeps to every preorder that each of them keeps to. -/
theorem moves_of_transitions {step : σ → σ → Prop} {x : EStateM ε σ α}
    (hstep : ∀ s t, step s t → R s t) (hx : Moves (ReflTransGen step) x) : Moves R x := by
  intro s
  have hrun := hx s
  generalize finalState (x s) = t at hrun ⊢
  induction hrun with
  | refl => exact refl s
  | tail _ hlast ih => exact trans_of R ih (hstep _ _ hlast)

end

end Cloyster.Lib
