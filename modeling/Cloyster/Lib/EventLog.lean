import Cloyster.Lib.Moves

/-! Programs that keep a log of what they did. The state has a view of the log, and nothing is
taken from it again. -/

namespace Cloyster.Lib.EventLog

variable {ε σ ι α : Type}

variable {view : σ → List ι}

/-- The log has grown by events of the kind. -/
def Extends (view : σ → List ι) (P : ι → Prop) (s t : σ) : Prop :=
  ∃ more, view t = view s ++ more ∧ ∀ e ∈ more, P e

instance (P : ι → Prop) : IsPreorder σ (Extends view P) where
  refl s := ⟨[], (List.append_nil _).symm, fun e he => absurd he List.not_mem_nil⟩
  trans := by
    rintro s t u ⟨l, ht, hl⟩ ⟨l', hu, hl'⟩
    refine ⟨l ++ l', by rw [hu, ht, List.append_assoc], fun e he => ?_⟩
    exact (List.mem_append.mp he).elim (hl e) (hl' e)

theorem extends_of_eq {P : ι → Prop} {s t : σ} (h : view t = view s) : Extends view P s t :=
  ⟨[], by rw [h, List.append_nil], fun e he => absurd he List.not_mem_nil⟩

theorem extends_of_concat {P : ι → Prop} {s t : σ} {e : ι} (h : view t = view s ++ [e]) (he : P e) :
    Extends view P s t :=
  ⟨[e], h, by simpa using he⟩

theorem Extends.mono {P Q : ι → Prop} {s t : σ} (h : Extends view P s t) (hPQ : ∀ e, P e → Q e) :
    Extends view Q s t := by
  obtain ⟨more, ht, hmore⟩ := h
  exact ⟨more, ht, fun e he => hPQ e (hmore e he)⟩

/-- Nothing is taken from the log. -/
abbrev Grows (view : σ → List ι) (x : EStateM ε σ α) : Prop :=
  Moves (Extends view fun _ => True) x

theorem Extends.isPrefix {P : ι → Prop} {s t : σ} (h : Extends view P s t) :
    view s <+: view t := by
  obtain ⟨more, ht, -⟩ := h
  exact ⟨more, ht.symm⟩

end Cloyster.Lib.EventLog
