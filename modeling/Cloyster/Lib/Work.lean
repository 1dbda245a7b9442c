import Cloyster.Lib.Effect

/-! Programs that work through a list. To have done the work of a list is a relation between two
states, which holds of no work at all and of works one after another. A run that returns has done
all of the list, and a run that throws a first part of it. -/

namespace Cloyster.Lib

variable {ε σ α β γ : Type}

/-- What it is to have done the work of a list. -/
structure Work (σ β : Type) where
  Done : List β → σ → σ → Prop
  nil : ∀ s, Done [] s s
  append : ∀ {l m : List β} {s t u : σ}, Done l s t → Done m t u → Done (l ++ m) s u

namespace Work

variable (work : Work σ β)

/-- From a state of the invariant every run does a first part of the list, and all of it if it
returns. -/
def Through (I : σ → Prop) (l : List β) (x : EStateM ε σ α) : Prop :=
  ∀ s, I s → I (finalState (x s)) ∧ ∃ k, work.Done (l.take k) s (finalState (x s)) ∧
    ∀ a t, x s = .ok a t → l.length ≤ k

variable {work} {I : σ → Prop} {l m : List β} {x : EStateM ε σ α} {f : α → EStateM ε σ γ}

theorem through_nil (h : ∀ s, I s → I (finalState (x s)) ∧ work.Done [] s (finalState (x s))) :
    work.Through I [] x :=
  fun s hs => ⟨(h s hs).1, 0, (h s hs).2, fun _ _ _ => le_rfl⟩

theorem through_pure (a : α) : work.Through I [] (pure a : EStateM ε σ α) :=
  through_nil fun s hs => ⟨hs, work.nil s⟩

theorem through_throw (e : ε) (l : List β) : work.Through I l (throw e : EStateM ε σ α) :=
  fun s hs => ⟨hs, 0, work.nil s, fun _ _ h => absurd h (by simp)⟩

theorem through_bind (hx : work.Through I l x) (hf : ∀ a, work.Through I m (f a)) :
    work.Through I (l ++ m) (x >>= f) := by
  intro s hs
  obtain ⟨ht, k, hdone, hall⟩ := hx s hs
  rw [bind_apply]
  cases hrun : x s with
  | ok a t =>
    rw [hrun] at ht hdone
    obtain ⟨hu, j, hdone', hall'⟩ := hf a t ht
    refine ⟨hu, l.length + j, ?_, fun b u h => ?_⟩
    · rw [List.take_of_length_le (hall a t hrun)] at hdone
      rw [List.take_length_add_append]
      exact work.append hdone hdone'
    · rw [List.length_append]
      exact Nat.add_le_add_left (hall' b u h) _
  | error e t =>
    rw [hrun] at ht hdone
    refine ⟨ht, min k l.length, ?_, fun b u h => absurd h (by simp)⟩
    rw [List.take_append_of_le_length (min_le_right _ _), ← List.take_take, List.take_length]
    exact hdone

/-- What comes before the work and what comes after it. -/
theorem through_nil_bind (hx : work.Through I [] x) (hf : ∀ a, work.Through I l (f a)) :
    work.Through I l (x >>= f) := through_bind hx hf

theorem through_bind_nil (hx : work.Through I l x) (hf : ∀ a, work.Through I [] (f a)) :
    work.Through I l (x >>= f) := by
  have hbind := through_bind hx hf
  rwa [List.append_nil] at hbind

/-- Each round of a loop does the work of its element. -/
theorem through_forM {as : List α} {works : α → List β} {g : α → EStateM ε σ PUnit}
    (h : ∀ a ∈ as, work.Through I (works a) (g a)) :
    work.Through I (as.flatMap works) (as.forM g) := by
  induction as with
  | nil => exact through_pure _
  | cons a as ih =>
    rw [List.flatMap_cons]
    exact through_bind (h a List.mem_cons_self)
      fun _ => ih fun b hb => h b (List.mem_cons_of_mem _ hb)

end Work

end Cloyster.Lib
