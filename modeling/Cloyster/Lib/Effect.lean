import Mathlib

/-! Programs that change a state and may throw. A throw keeps the state reached
so far, so what a failed call did remains visible. The rules below take such a
program apart: what a successful run of a sequence consists of, which programs
never move a given state, and which predicates on the state survive a program
whether it returns or throws. -/

namespace Cloyster.Lib

variable {ε σ α β : Type}

instance instDecidableEqResult [DecidableEq ε] [DecidableEq σ] [DecidableEq α] :
    DecidableEq (EStateM.Result ε σ α)
  | .ok a s, .ok b t => decidable_of_iff (a = b ∧ s = t) (by simp)
  | .error e s, .error f t => decidable_of_iff (e = f ∧ s = t) (by simp)
  | .ok _ _, .error _ _ => isFalse (by simp)
  | .error _ _, .ok _ _ => isFalse (by simp)

/-- The state a run ends in, thrown or not. -/
def finalState : EStateM.Result ε σ α → σ
  | .ok _ s => s
  | .error _ s => s

/-- The exceptions and values of a run with the state forgotten. -/
def outcome : EStateM.Result ε σ α → Except ε α
  | .ok a _ => .ok a
  | .error e _ => .error e

theorem outcome_ok_iff {r : EStateM.Result ε σ α} {a : α} :
    outcome r = .ok a ↔ ∃ s, r = .ok a s := by
  cases r <;> simp [outcome]

theorem bind_apply (x : EStateM ε σ α) (f : α → EStateM ε σ β) (s : σ) :
    (x >>= f) s = match x s with
      | .ok a t => f a t
      | .error e t => .error e t := rfl

theorem bind_of_ok {x : EStateM ε σ α} {s t : σ} {a : α} (h : x s = .ok a t)
    (f : α → EStateM ε σ β) : (x >>= f) s = f a t := by
  rw [bind_apply, h]

theorem bind_of_error {x : EStateM ε σ α} {s t : σ} {e : ε} (h : x s = .error e t)
    (f : α → EStateM ε σ β) : (x >>= f) s = .error e t := by
  rw [bind_apply, h]

/-- A sequence returns exactly when both halves do. -/
theorem bind_ok_iff {x : EStateM ε σ α} {f : α → EStateM ε σ β} {s u : σ} {b : β} :
    (x >>= f) s = .ok b u ↔ ∃ a t, x s = .ok a t ∧ f a t = .ok b u := by
  rw [bind_apply]
  cases h : x s with
  | ok a t => simp
  | error e t => simp

@[simp] theorem pure_apply (a : α) (s : σ) : (pure a : EStateM ε σ α) s = .ok a s := rfl

@[simp] theorem throw_apply (e : ε) (s : σ) : (throw e : EStateM ε σ α) s = .error e s := rfl

@[simp] theorem get_apply (s : σ) : (get : EStateM ε σ σ) s = .ok s s := rfl

@[simp] theorem set_apply (s t : σ) : (set t : EStateM ε σ PUnit) s = .ok ⟨⟩ t := rfl

@[simp] theorem modify_apply (f : σ → σ) (s : σ) :
    (modify f : EStateM ε σ PUnit) s = .ok ⟨⟩ (f s) := rfl

/-- Throw when the condition holds. -/
def refuseIf (p : Prop) [Decidable p] (e : ε) : EStateM ε σ PUnit := if p then throw e else pure ⟨⟩

@[simp] theorem refuseIf_ok_iff {p : Prop} [Decidable p] {e : ε} {s t : σ} {u : PUnit} :
    refuseIf p e s = .ok u t ↔ ¬ p ∧ s = t := by
  unfold refuseIf
  split_ifs with h <;> simp [h]

@[simp] theorem modify_ok_iff {f : σ → σ} {s t : σ} {u : PUnit} :
    (modify f : EStateM ε σ PUnit) s = .ok u t ↔ f s = t := by
  simp

theorem refuseIf_modify_ok_iff {p : Prop} [Decidable p] {e : ε} {f : σ → σ} {s t : σ}
    {u : PUnit} : (refuseIf p e >>= fun _ => modify f) s = .ok u t ↔ ¬ p ∧ f s = t := by
  simp [bind_ok_iff]

/-! ### Running on a plain value -/

/-- Run a program for its effect on the state. -/
def exec (x : EStateM ε σ α) (s : σ) : Except ε σ :=
  match x s with
  | .ok _ t => .ok t
  | .error e _ => .error e

theorem exec_ok_iff {x : EStateM ε σ α} {s t : σ} : exec x s = .ok t ↔ ∃ a, x s = .ok a t := by
  unfold exec
  cases h : x s with
  | ok a u => simp
  | error e u => simp

/-- Run a program for its value and the state. -/
def runOn (x : EStateM ε σ α) (s : σ) : Except ε (α × σ) :=
  match x s with
  | .ok a t => .ok (a, t)
  | .error e _ => .error e

theorem exec_bind (x : EStateM ε σ α) (f : α → EStateM ε σ β) (s : σ) :
    exec (x >>= f) s = runOn x s >>= fun r => exec (f r.1) r.2 := by
  unfold exec runOn
  rw [bind_apply]
  cases x s <;> rfl

theorem runOn_eq_exec (x : EStateM ε σ PUnit) (s : σ) :
    runOn x s = (fun t => (⟨⟩, t)) <$> exec x s := by
  unfold exec runOn
  cases x s <;> rfl

theorem exec_forM (l : List α) (f : α → EStateM ε σ PUnit) (s : σ) :
    exec (l.forM f) s = l.foldlM (fun s a => exec (f a) s) s := by
  induction l generalizing s with
  | nil => rfl
  | cons a l ih =>
    rw [List.foldlM_cons]
    change exec (f a >>= fun _ => l.forM f) s = _
    rw [exec_bind, runOn_eq_exec]
    cases exec (f a) s with
    | ok t => exact ih t
    | error e => rfl

/-! ### Running on a part of the state -/

/-- Run on the part that `part` reads and `put` writes. -/
def zoom {τ : Type} (part : σ → τ) (put : τ → σ → σ) (x : EStateM ε τ α) : EStateM ε σ α :=
  fun s => match x (part s) with
    | .ok a t => .ok a (put t s)
    | .error e t => .error e (put t s)

theorem zoom_ok_iff {τ : Type} {part : σ → τ} {put : τ → σ → σ} {x : EStateM ε τ α} {s s' : σ}
    {a : α} : zoom part put x s = .ok a s' ↔ ∃ t, x (part s) = .ok a t ∧ put t s = s' := by
  unfold zoom
  cases h : x (part s) <;> simp

/-! ### Programs that leave the state alone -/

/-- The run from `s` ends in `s`, whether it returns or throws. -/
def Unchanged (x : EStateM ε σ α) (s : σ) : Prop := finalState (x s) = s

theorem unchanged_bind {x : EStateM ε σ α} {f : α → EStateM ε σ β} {s : σ}
    (hx : Unchanged x s) (hf : ∀ a, x s = .ok a s → Unchanged (f a) s) :
    Unchanged (x >>= f) s := by
  unfold Unchanged at hx ⊢
  rw [bind_apply]
  cases h : x s with
  | ok a t =>
    rw [h] at hx
    obtain rfl : t = s := hx
    exact hf a h
  | error e t =>
    rw [h] at hx
    exact hx

theorem unchanged_refuseIf {p : Prop} [Decidable p] (e : ε) (s : σ) :
    Unchanged (refuseIf p e) s := by
  unfold Unchanged refuseIf
  split_ifs <;> rfl

/-! ### Programs that change the state only when they return -/

def Atomic (x : EStateM ε σ α) : Prop := ∀ s t e, x s = .error e t → t = s

theorem atomic_modify (f : σ → σ) : Atomic (modify f : EStateM ε σ PUnit) := by
  intro s t e h
  exact absurd h (by simp)

theorem atomic_throw (e : ε) : Atomic (throw e : EStateM ε σ α) := by
  intro s t e' h
  rw [throw_apply] at h
  injection h with _ hst
  exact hst.symm

/-- Checks that come before the one change. -/
theorem atomic_bind {x : EStateM ε σ α} {f : α → EStateM ε σ β} (hx : ∀ s, Unchanged x s)
    (hf : ∀ a, Atomic (f a)) : Atomic (x >>= f) := by
  intro s t e h
  have hs := hx s
  unfold Unchanged at hs
  rw [bind_apply] at h
  cases hrun : x s with
  | ok a u =>
    rw [hrun] at h hs
    obtain rfl : u = s := hs
    exact hf a u t e h
  | error e' u =>
    rw [hrun] at h hs
    injection h with _ hut
    exact hut.symm.trans hs

theorem atomic_refuseIf_bind {p : Prop} [Decidable p] {e : ε} {f : PUnit → EStateM ε σ β}
    (hf : Atomic (f ⟨⟩)) : Atomic (refuseIf p e >>= f) :=
  atomic_bind (unchanged_refuseIf e) fun _ => hf

theorem forM_cons_apply (a : α) (l : List α) (f : α → EStateM ε σ PUnit) (s : σ) :
    (a :: l).forM f s = match f a s with
      | .ok _ t => l.forM f t
      | .error e t => .error e t := by
  change (f a >>= fun _ => l.forM f) s = _
  rw [bind_apply]
  cases f a s <;> rfl

theorem forM_append_apply (l r : List α) (f : α → EStateM ε σ PUnit) (s : σ) :
    (l ++ r).forM f s = (l.forM f >>= fun _ => r.forM f) s := by
  induction l generalizing s with
  | nil => rfl
  | cons a l ih =>
    rw [List.cons_append, forM_cons_apply, bind_apply, forM_cons_apply]
    cases f a s with
    | ok u t => exact ih t
    | error e t => rfl

/-- A loop whose every round returns without moving the state does so too. -/
theorem forM_of_ok {l : List α} {f : α → EStateM ε σ PUnit} {s : σ}
    (h : ∀ a ∈ l, f a s = .ok ⟨⟩ s) : l.forM f s = .ok ⟨⟩ s := by
  induction l with
  | nil => rfl
  | cons a l ih =>
    rw [forM_cons_apply, h a List.mem_cons_self]
    exact ih fun b hb => h b (List.mem_cons_of_mem _ hb)

/-! ### Invariants -/

/-- `P` survives every run, returned or thrown. -/
def Preserves (P : σ → Prop) (x : EStateM ε σ α) : Prop := ∀ s, P s → P (finalState (x s))

theorem preserves_bind {P : σ → Prop} {x : EStateM ε σ α} {f : α → EStateM ε σ β}
    (hx : Preserves P x) (hf : ∀ a, Preserves P (f a)) : Preserves P (x >>= f) := by
  intro s hs
  have h := hx s hs
  rw [bind_apply]
  cases hr : x s with
  | ok a t => rw [hr] at h; exact hf a t h
  | error e t => rw [hr] at h; exact h

theorem preserves_forM {P : σ → Prop} {l : List α} {f : α → EStateM ε σ PUnit}
    (h : ∀ a ∈ l, Preserves P (f a)) : Preserves P (l.forM f) := by
  induction l with
  | nil => exact fun s hs => hs
  | cons a l ih =>
    exact preserves_bind (h a List.mem_cons_self)
      fun _ => ih fun b hb => h b (List.mem_cons_of_mem _ hb)

/-- What every round that returns keeps, a loop that returns keeps. -/
theorem forM_ok_induction {P : σ → Prop} {l : List α} {f : α → EStateM ε σ PUnit} {s t : σ}
    {u : PUnit} (hstep : ∀ a ∈ l, ∀ s t, P s → f a s = .ok u t → P t) (hs : P s)
    (h : l.forM f s = .ok u t) : P t := by
  induction l generalizing s with
  | nil =>
    obtain ⟨-, rfl⟩ := EStateM.Result.ok.inj h
    exact hs
  | cons a l ih =>
    obtain ⟨v, r, hfirst, hrest⟩ := bind_ok_iff.mp h
    exact ih (fun b hb => hstep b (List.mem_cons_of_mem _ hb))
      (hstep a List.mem_cons_self s r hs hfirst) hrest

/-- A loop whose rounds that throw keep what holds before them has done a first part of its list,
all of it when the loop returns. -/
theorem forM_take_induction {P : ℕ → σ → Prop} {l : List α} {f : α → EStateM ε σ PUnit}
    (hthrow : ∀ i a s t e, l[i]? = some a → P i s → f a s = .error e t → P i t)
    (hstep : ∀ i a s t u, l[i]? = some a → P i s → f a s = .ok u t → P (i + 1) t) {s : σ}
    (hs : P 0 s) : ∃ n ≤ l.length, (∀ u t, l.forM f s = .ok u t → n = l.length) ∧
      P n (finalState (l.forM f s)) := by
  induction l generalizing s P with
  | nil => exact ⟨0, le_rfl, fun _ _ _ => rfl, hs⟩
  | cons a l ih =>
    rw [forM_cons_apply]
    cases hfirst : f a s with
    | error e t =>
      refine ⟨0, Nat.zero_le _, fun u t' h => ?_, hthrow 0 a s t e rfl hs hfirst⟩
      exact absurd h (by simp)
    | ok u t =>
      obtain ⟨n, hn, hreturn, hP⟩ := ih (P := fun i => P (i + 1))
        (fun i b s t e hb => hthrow (i + 1) b s t e (by simpa using hb))
        (fun i b s t u hb => hstep (i + 1) b s t u (by simpa using hb))
        (hstep 0 a s t u rfl hs hfirst)
      exact ⟨n + 1, Nat.succ_le_succ hn, fun u' t' h => congrArg (· + 1) (hreturn u' t' h), hP⟩

/-! ### Every step of a run -/

/-- `P` holds of every step of a run, in the state the step is taken from. -/
def Along (step : σ → α → σ) (P : σ → α → Prop) : σ → List α → Prop
  | _, [] => True
  | s, a :: l => P s a ∧ Along step P (step s a) l

section

variable {step : σ → α → σ} {I : σ → Prop} {P Q : σ → α → Prop}

/-- Two properties of steps that agree wherever the invariant holds, and either of which keeps
it, hold along the same runs. -/
theorem along_iff (hiff : ∀ s a, I s → (P s a ↔ Q s a)) (hkeep : ∀ s a, I s → P s a → I (step s a))
    {s : σ} (hs : I s) (l : List α) : Along step P s l ↔ Along step Q s l := by
  induction l generalizing s with
  | nil => exact Iff.rfl
  | cons a l ih =>
    constructor
    · rintro ⟨hfirst, hrest⟩
      exact ⟨(hiff s a hs).mp hfirst, (ih (hkeep s a hs hfirst)).mp hrest⟩
    · rintro ⟨hfirst, hrest⟩
      have hfirst' := (hiff s a hs).mpr hfirst
      exact ⟨hfirst', (ih (hkeep s a hs hfirst')).mpr hrest⟩

end

/-! ### Programs that always return -/

def Returns (x : EStateM ε σ α) : Prop := ∀ s, ∃ a t, x s = .ok a t

theorem returns_pure (a : α) : Returns (pure a : EStateM ε σ α) := fun s => ⟨a, s, rfl⟩

theorem returns_modify (f : σ → σ) : Returns (modify f : EStateM ε σ PUnit) :=
  fun s => ⟨⟨⟩, f s, rfl⟩

theorem returns_bind {x : EStateM ε σ α} {f : α → EStateM ε σ β} (hx : Returns x)
    (hf : ∀ a, Returns (f a)) : Returns (x >>= f) := by
  intro s
  obtain ⟨a, t, hfirst⟩ := hx s
  rw [bind_of_ok hfirst]
  exact hf a t

theorem returns_forM {l : List α} {f : α → EStateM ε σ PUnit} (h : ∀ a, Returns (f a)) :
    Returns (l.forM f) := by
  induction l with
  | nil => exact returns_pure _
  | cons a l ih => exact returns_bind (h a) fun _ => ih

theorem returns_optionForM {o : Option α} {f : α → EStateM ε σ PUnit} (h : ∀ a, Returns (f a)) :
    Returns (o.forM f) := by
  cases o with
  | none => exact returns_pure _
  | some a => exact h a

/-! ### Parts of the state that a returning run leaves alone -/

/-- A run that returns does not change what `f` reads. -/
def Keeps (f : σ → β) (x : EStateM ε σ α) : Prop := ∀ s a t, x s = .ok a t → f t = f s

section

variable {γ : Type} {f : σ → β}

theorem keeps_pure (a : α) : Keeps f (pure a : EStateM ε σ α) := by
  intro s b t h
  rw [pure_apply] at h
  injection h with _ hst
  rw [hst]

theorem keeps_throw (e : ε) : Keeps f (throw e : EStateM ε σ α) := by
  intro s a t h
  exact absurd h (by simp)

theorem keeps_modify {g : σ → σ} (h : ∀ s, f (g s) = f s) :
    Keeps f (modify g : EStateM ε σ PUnit) := by
  intro s a t hrun
  rw [← modify_ok_iff.mp hrun]
  exact h s

theorem keeps_refuseIf {p : Prop} [Decidable p] (e : ε) :
    Keeps f (refuseIf p e : EStateM ε σ PUnit) := by
  intro s a t h
  rw [(refuseIf_ok_iff.mp h).2]

theorem keeps_bind {x : EStateM ε σ α} {g : α → EStateM ε σ γ} (hx : Keeps f x)
    (hg : ∀ a, Keeps f (g a)) : Keeps f (x >>= g) := by
  intro s c u h
  obtain ⟨a, t, hfirst, hrest⟩ := bind_ok_iff.mp h
  rw [hg a t c u hrest, hx s a t hfirst]

theorem keeps_forM {l : List α} {g : α → EStateM ε σ PUnit} (h : ∀ a ∈ l, Keeps f (g a)) :
    Keeps f (l.forM g) := by
  induction l with
  | nil => exact keeps_pure _
  | cons a l ih =>
    exact keeps_bind (h a List.mem_cons_self)
      fun _ => ih fun b hb => h b (List.mem_cons_of_mem _ hb)

theorem keeps_optionForM {o : Option α} {g : α → EStateM ε σ PUnit} (h : ∀ a, Keeps f (g a)) :
    Keeps f (o.forM g) := by
  cases o with
  | none => exact keeps_pure _
  | some a => exact h a

end

end Cloyster.Lib
