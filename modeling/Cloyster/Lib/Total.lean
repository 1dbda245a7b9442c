import Cloyster.Lib.Moves

/-! Programs that return. A contract says that from every state with the precondition a run
returns, with a value and a state that have the postcondition. Contracts compose bind by bind,
and a loop returns when each of its rounds keeps one predicate. -/

namespace Cloyster.Lib

variable {ε σ α β : Type} {P P' : σ → Prop} {Q Q' : α → σ → Prop} {R : β → σ → Prop}

/-- From a state with `P` the run returns, and `Q` holds then. -/
def Total (P : σ → Prop) (x : EStateM ε σ α) (Q : α → σ → Prop) : Prop :=
  ∀ s, P s → ∃ a t, x s = .ok a t ∧ Q a t

/-- The run returns and keeps the predicate. -/
abbrev Runs (P : σ → Prop) (x : EStateM ε σ α) : Prop := Total P x fun _ => P

section

variable {x : EStateM ε σ α} {f : α → EStateM ε σ β}

theorem total_bind (hx : Total P x Q) (hf : ∀ a, Total (Q a) (f a) R) : Total P (x >>= f) R := by
  intro s hs
  obtain ⟨a, t, hfirst, ht⟩ := hx s hs
  rw [bind_of_ok hfirst]
  exact hf a t ht

theorem total_pre (h : Total P x Q) (hP : ∀ s, P' s → P s) : Total P' x Q :=
  fun s hs => h s (hP s hs)

theorem total_post (h : Total P x Q) (hQ : ∀ a t, Q a t → Q' a t) : Total P x Q' := by
  intro s hs
  obtain ⟨a, t, hrun, ht⟩ := h s hs
  exact ⟨a, t, hrun, hQ a t ht⟩

/-- What is known of the value before may be used. -/
theorem total_of_fact {p : Prop} (h : p → Total P x Q) : Total (fun s => p ∧ P s) x Q :=
  fun s hs => h hs.1 s hs.2

theorem total_pure {a : α} (h : ∀ s, P s → Q a s) : Total P (pure a : EStateM ε σ α) Q :=
  fun s hs => ⟨a, s, rfl, h s hs⟩

theorem runs_pure (a : α) : Runs P (pure a : EStateM ε σ α) := total_pure fun _ hs => hs

/-- The value is not looked at. -/
theorem runs_discard (hx : Runs P x) (b : β) : Runs P (x >>= fun _ => pure b) :=
  total_bind hx fun _ => runs_pure b

/-- What comes after reading the state is run from the state that was read. -/
theorem total_get {f : σ → EStateM ε σ β} (h : ∀ s, P s → Total (· = s) (f s) R) :
    Total P (get >>= f) R := fun s hs => h s hs s rfl

theorem runs_get {f : σ → EStateM ε σ β} (h : ∀ r, Runs P (f r)) : Runs P (get >>= f) :=
  fun s hs => h s s hs

theorem total_ite {p : Prop} [Decidable p] {y : EStateM ε σ α} (hx : p → Total P x Q)
    (hy : ¬ p → Total P y Q) : Total P (if p then x else y) Q := by
  by_cases h : p
  · rw [if_pos h]
    exact hx h
  · rw [if_neg h]
    exact hy h

theorem runs_refuseIf {p : Prop} [Decidable p] (h : ¬ p) (e : ε) :
    Runs P (refuseIf p e : EStateM ε σ PUnit) := by
  rw [refuseIf, if_neg h]
  exact runs_pure _

theorem runs_forM {l : List β} {f : β → EStateM ε σ PUnit} (h : ∀ b ∈ l, Runs P (f b)) :
    Runs P (l.forM f) := by
  induction l with
  | nil => exact runs_pure _
  | cons b l ih =>
    refine total_bind (h b List.mem_cons_self) fun _ => ?_
    exact ih fun c hc => h c (List.mem_cons_of_mem _ hc)

theorem total_forM_append {l r : List β} {f : β → EStateM ε σ PUnit}
    (hl : Total P (l.forM f) fun _ => P') {Q : PUnit → σ → Prop} (hr : Total P' (r.forM f) Q) :
    Total P ((l ++ r).forM f) Q := by
  intro s hs
  rw [forM_append_apply]
  exact total_bind hl (fun _ => hr) s hs

/-- What every move of the run keeps may be added to the contract. -/
theorem total_frame {M : σ → σ → Prop} {K : σ → Prop} (hx : Total P x Q) (hmoves : Moves M x)
    (hkeep : ∀ s t, M s t → K s → K t) :
    Total (fun s => P s ∧ K s) x fun a t => Q a t ∧ K t := by
  intro s hs
  obtain ⟨a, t, hrun, ht⟩ := hx s hs.1
  have hmove := hmoves s
  rw [hrun] at hmove
  exact ⟨a, t, hrun, ht, hkeep s t hmove hs.2⟩

/-! ### Runs that throw -/

/-- From a state with `P` the run throws just this, and `E` holds then. -/
def Throws (P : σ → Prop) (x : EStateM ε σ α) (e : ε) (E : σ → Prop) : Prop :=
  ∀ s, P s → ∃ t, x s = .error e t ∧ E t

variable {e : ε} {E : σ → Prop}

theorem throws_bind (hx : Total P x Q) (hf : ∀ a, Throws (Q a) (f a) e E) :
    Throws P (x >>= f) e E := by
  intro s hs
  obtain ⟨a, t, hfirst, ht⟩ := hx s hs
  rw [bind_of_ok hfirst]
  exact hf a t ht

theorem throws_bind_left (hx : Throws P x e E) : Throws P (x >>= f) e E := by
  intro s hs
  obtain ⟨t, hfirst, ht⟩ := hx s hs
  exact ⟨t, bind_of_error hfirst f, ht⟩

theorem throws_get {f : σ → EStateM ε σ β} (h : ∀ r, Throws P (f r) e E) :
    Throws P (get >>= f) e E := fun s hs => h s s hs

theorem throws_pre (h : Throws P x e E) (hP : ∀ s, P' s → P s) : Throws P' x e E :=
  fun s hs => h s (hP s hs)

theorem throws_throw (h : ∀ s, P s → E s) : Throws P (throw e : EStateM ε σ α) e E :=
  fun s hs => ⟨s, rfl, h s hs⟩

end

end Cloyster.Lib
