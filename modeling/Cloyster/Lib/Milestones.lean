import Cloyster.Lib.EventLog

/-! Events that come in an order. An event may reach a milestone and may need others, and a log is
in order when every event of it comes after the milestones that it needs. A program keeps the log
in order from a state that knows enough of them, and a returning one leaves a state that knows
more; such programs are put together bind by bind. -/

namespace Cloyster.Lib

open EventLog

variable {ε σ ι κ α β : Type}

/-- A view of the log, the events that reach a milestone, and the milestones that an event needs. -/
structure Plan (σ ι κ : Type) where
  view : σ → List ι
  reached : κ → ι → Prop
  needs : ι → κ → Prop

namespace Plan

variable (plan : Plan σ ι κ)

/-! ### Logs in order -/

def Reached (log : List ι) (k : κ) : Prop := ∃ e ∈ log, plan.reached k e

/-- Every event comes after the milestones that it needs. -/
def Ordered (log : List ι) : Prop :=
  ∀ l e r, log = l ++ e :: r → ∀ k, plan.needs e k → plan.Reached l k

variable {plan} {log more : List ι} {k : κ} {s t : σ}

theorem reached_append (h : plan.Reached log k) (more : List ι) : plan.Reached (log ++ more) k := by
  obtain ⟨e, he, hreached⟩ := h
  exact ⟨e, List.mem_append_left _ he, hreached⟩

theorem reached_of_prefix {log' : List ι} (h : plan.Reached log k) (hle : log <+: log') :
    plan.Reached log' k := by
  obtain ⟨more, rfl⟩ := hle
  exact reached_append h more

theorem ordered_nil : plan.Ordered [] := by
  intro l e r h
  exact absurd h.symm (by simp)

theorem ordered_concat {e : ι} (hlog : plan.Ordered log)
    (he : ∀ k, plan.needs e k → plan.Reached log k) : plan.Ordered (log ++ [e]) := by
  intro l d r h k hneeds
  obtain rfl | ⟨r, last, rfl⟩ := List.eq_nil_or_concat r
  · obtain ⟨rfl, hlast⟩ := List.append_inj' h rfl
    obtain rfl := (List.cons.inj hlast).1
    exact he k hneeds
  · rw [List.concat_eq_append, ← List.cons_append, ← List.append_assoc] at h
    exact hlog l d r (List.append_inj' h rfl).1 k hneeds

/-- Events that need only what is there already. -/
theorem ordered_append (hlog : plan.Ordered log)
    (hmore : ∀ e ∈ more, ∀ k, plan.needs e k → plan.Reached log k) :
    plan.Ordered (log ++ more) := by
  induction more using List.reverseRecOn with
  | nil => rwa [List.append_nil]
  | append_singleton more e ih =>
    rw [← List.append_assoc]
    refine ordered_concat (ih fun d hd => hmore d (List.mem_append_left _ hd)) fun k hneeds => ?_
    exact reached_append (hmore e (List.mem_append_right _ (List.mem_singleton_self e)) k hneeds) _

/-! ### Programs that keep to the order -/

variable (plan)

/-- The milestones are in the log. -/
def Knows (ks : List κ) (s : σ) : Prop := ∀ k ∈ ks, plan.Reached (plan.view s) k

/-- From a state of the precondition the log stays in order, and returning establishes the
postcondition. -/
def Orderly (P : σ → Prop) (x : EStateM ε σ α) (Q : α → σ → Prop) : Prop :=
  ∀ s, P s → plan.Ordered (plan.view s) → plan.Ordered (plan.view (finalState (x s))) ∧
    ∀ a t, x s = .ok a t → Q a t

variable {plan} {ks js : List κ} {P : σ → Prop} {Q Q' : α → σ → Prop} {R : β → σ → Prop}
  {x : EStateM ε σ α} {f : α → EStateM ε σ β}

theorem Knows.mono (h : plan.Knows ks s) (hjs : js ⊆ ks) : plan.Knows js s :=
  fun k hk => h k (hjs hk)

theorem knows_of_prefix (h : plan.Knows ks s) (hle : plan.view s <+: plan.view t) :
    plan.Knows ks t := fun k hk => reached_of_prefix (h k hk) hle

theorem orderly_post (h : plan.Orderly P x Q) (hQ : ∀ a t, Q a t → Q' a t) :
    plan.Orderly P x Q' := by
  intro s hs hlog
  obtain ⟨hfinal, hpost⟩ := h s hs hlog
  exact ⟨hfinal, fun a t hrun => hQ a t (hpost a t hrun)⟩

theorem orderly_pre {P' : σ → Prop} (h : plan.Orderly P x Q) (hP : ∀ s, P' s → P s) :
    plan.Orderly P' x Q := fun s hs => h s (hP s hs)

theorem orderly_bind (hx : plan.Orderly P x Q) (hf : ∀ a, plan.Orderly (Q a) (f a) R) :
    plan.Orderly P (x >>= f) R := by
  intro s hs hlog
  obtain ⟨hfinal, hpost⟩ := hx s hs hlog
  rw [bind_apply]
  cases hrun : x s with
  | ok a t =>
    rw [hrun] at hfinal
    exact hf a t (hpost a t hrun) hfinal
  | error e t =>
    rw [hrun] at hfinal
    exact ⟨hfinal, fun b u h => absurd h (by simp)⟩

theorem orderly_pure {a : α} (h : ∀ s, P s → Q a s) :
    plan.Orderly P (pure a : EStateM ε σ α) Q := by
  refine fun s hs hlog => ⟨hlog, fun b t hrun => ?_⟩
  obtain ⟨rfl, rfl⟩ := EStateM.Result.ok.inj hrun
  exact h s hs

theorem orderly_throw (e : ε) : plan.Orderly P (throw e : EStateM ε σ α) Q :=
  fun _ _ hlog => ⟨hlog, fun _ _ h => absurd h (by simp)⟩

/-- A program that looks at the state first is what it is in that state. -/
theorem orderly_get {f : σ → EStateM ε σ β} (h : ∀ r, P r → plan.Orderly (· = r) (f r) R) :
    plan.Orderly P (get >>= f) R := fun s hs => h s hs s rfl

/-- Reading keeps the precondition. -/
theorem orderly_get_keep {f : σ → EStateM ε σ β} (h : ∀ r, P r → plan.Orderly P (f r) R) :
    plan.Orderly P (get >>= f) R := fun s hs => h s hs s hs

theorem orderly_ite {p : Prop} [Decidable p] {x y : EStateM ε σ α} (hx : p → plan.Orderly P x Q)
    (hy : ¬ p → plan.Orderly P y Q) : plan.Orderly P (if p then x else y) Q := by
  split_ifs with h
  · exact hx h
  · exact hy h

theorem orderly_refuseIf {p : Prop} [Decidable p] (e : ε) {Q : PUnit → σ → Prop}
    (h : ∀ s, P s → ¬ p → Q ⟨⟩ s) : plan.Orderly P (refuseIf p e : EStateM ε σ PUnit) Q :=
  orderly_ite (fun _ => orderly_throw e) fun hp => orderly_pure fun s hs => h s hs hp

/-- Each round of a loop starts from what the last one leaves. -/
theorem orderly_forM {l : List β} {g : β → EStateM ε σ PUnit}
    (h : ∀ b ∈ l, plan.Orderly P (g b) fun _ => P) : plan.Orderly P (l.forM g) fun _ => P := by
  induction l with
  | nil => exact orderly_pure fun s hs => hs
  | cons b l ih =>
    exact orderly_bind (h b List.mem_cons_self)
      fun _ => ih fun d hd => h d (List.mem_cons_of_mem _ hd)

/-- Events that need only known milestones are in order, and nothing becomes unknown. -/
theorem orderly_of_extends {N : ι → Prop} (hx : Moves (Extends plan.view N) x)
    (hN : ∀ e, N e → ∀ k, plan.needs e k → k ∈ ks) {I : σ → Prop}
    (hI : Moves (fun s t => I s → I t) x) :
    plan.Orderly (fun s => I s ∧ plan.Knows ks s) x fun _ s => I s ∧ plan.Knows ks s := by
  rintro s ⟨hs, hknown⟩ hlog
  obtain ⟨more, hmore, hN'⟩ := hx s
  refine ⟨?_, fun a t hrun => ?_⟩
  · rw [hmore]
    exact ordered_append hlog fun e he k hneeds => hknown k (hN e (hN' e he) k hneeds)
  · have hfinal := hI s hs
    rw [hrun] at hmore hfinal
    exact ⟨hfinal, knows_of_prefix hknown ⟨more, hmore.symm⟩⟩

end Plan

end Cloyster.Lib
