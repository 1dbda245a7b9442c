import Mathlib

/-! Loops that may go on for ever. A round goes on in a new state or leaves with a result.
The loop is run with a bound on its rounds, and ends when some bound is enough. An invariant
with a measure that falls shows that a loop ends; an invariant under which no round leaves
shows that it does not. -/

namespace Cloyster.Lib

/-- What one round of a loop comes to. -/
inductive Round (σ β : Type*) where
  | go (s : σ)
  | leave (b : β)

namespace Round

variable {σ β : Type*} {round : σ → Round σ β} {s t : σ} {b c : β}

/-- At most this many rounds. -/
def run (round : σ → Round σ β) : ℕ → σ → Option β
  | 0, _ => none
  | fuel + 1, s =>
    match round s with
    | .go t => run round fuel t
    | .leave b => some b

/-- The loop from this state leaves with this result. -/
def Ends (round : σ → Round σ β) (s : σ) (b : β) : Prop := ∃ fuel, run round fuel s = some b

theorem run_of_go (h : round s = .go t) (fuel : ℕ) :
    run round (fuel + 1) s = run round fuel t := by
  simp only [run, h]

theorem run_of_leave (h : round s = .leave b) (fuel : ℕ) : run round (fuel + 1) s = some b := by
  simp only [run, h]

/-- Rounds that are not needed change nothing. -/
theorem run_mono {m n : ℕ} (hle : m ≤ n) (h : run round m s = some b) :
    run round n s = some b := by
  induction m generalizing n s with
  | zero => exact absurd h (by simp [run])
  | succ m ih =>
    obtain ⟨n, rfl⟩ : ∃ k, n = k + 1 := ⟨n - 1, by omega⟩
    cases hround : round s with
    | go t =>
      rw [run_of_go hround] at h ⊢
      apply ih _ h
      omega
    | leave c =>
      rw [run_of_leave hround] at h ⊢
      exact h

theorem Ends.eq (hb : Ends round s b) (hc : Ends round s c) : b = c := by
  obtain ⟨m, hm⟩ := hb
  obtain ⟨n, hn⟩ := hc
  have hm' := run_mono (le_max_left m n) hm
  have hn' := run_mono (le_max_right m n) hn
  exact Option.some.inj (hm'.symm.trans hn')

theorem ends_of_leave (h : round s = .leave b) : Ends round s b := ⟨1, run_of_leave h 0⟩

theorem ends_of_go (h : round s = .go t) : Ends round s b ↔ Ends round t b := by
  constructor
  · rintro ⟨fuel, hrun⟩
    cases fuel with
    | zero => exact absurd hrun (by simp [run])
    | succ fuel => exact ⟨fuel, by rw [← run_of_go h fuel, hrun]⟩
  · rintro ⟨fuel, hrun⟩
    exact ⟨fuel + 1, by rw [run_of_go h, hrun]⟩

/-- Where a round goes on to, or what it leaves with. -/
def Post (Q : σ → Prop) (P : β → Prop) : Round σ β → Prop
  | .go t => Q t
  | .leave b => P b

/-- The rule for a loop that ends: each round that goes on keeps the invariant and makes the
measure smaller, and each round that leaves has the result that is wanted. -/
theorem ends_of_measure (I : σ → Prop) (P : β → Prop) (μ : σ → ℕ)
    (h : ∀ s, I s → (round s).Post (fun t => I t ∧ μ t < μ s) P) (hs : I s) :
    ∃ b, Ends round s b ∧ P b := by
  induction hn : μ s using Nat.strong_induction_on generalizing s with
  | _ n ih =>
    have hpost := h s hs
    cases hround : round s with
    | leave b =>
      rw [hround] at hpost
      exact ⟨b, ends_of_leave hround, hpost⟩
    | go t =>
      rw [hround] at hpost
      obtain ⟨ht, hlt⟩ := hpost
      obtain ⟨b, hb, hP⟩ := ih (μ t) (by omega) ht rfl
      exact ⟨b, (ends_of_go hround).mpr hb, hP⟩

/-- The rule for a loop that goes on for ever. -/
theorem not_ends_of_invariant (I : σ → Prop) (h : ∀ s, I s → ∃ t, round s = .go t ∧ I t)
    (hs : I s) : ¬ Ends round s b := by
  rintro ⟨fuel, hrun⟩
  induction fuel generalizing s with
  | zero => exact absurd hrun (by simp [run])
  | succ fuel ih =>
    obtain ⟨t, hround, ht⟩ := h s hs
    rw [run_of_go hround] at hrun
    exact ih ht hrun

/-! ### Loops that take an input each round -/

variable {α τ : Type*} {step : α → σ → Round σ β} {intended : α → τ → Round τ β} {emb : τ → σ}
  {A G : τ → α → Prop} {bad : β}

/-- What the loop leaves with, if the inputs last until then. -/
def feed (step : α → σ → Round σ β) : List α → σ → Option β
  | [], _ => none
  | a :: l, s =>
    match step a s with
    | .go t => feed step l t
    | .leave b => some b

/-- `P` holds of every round that the inputs lead to. -/
def Reached (step : α → σ → Round σ β) (P : σ → α → Prop) : List α → σ → Prop
  | [], _ => True
  | a :: l, s => P s a ∧ ∀ t, step a s = .go t → Reached step P l t

def map (f : τ → σ) : Round τ β → Round σ β
  | .go t => .go (f t)
  | .leave b => .leave b

/-- A loop that follows another one while a guard holds leaves as that one does. -/
theorem feed_eq_of_reached (hgood : ∀ t a, A t a → G t a → step a (emb t) = (intended a t).map emb)
    {l : List α} {t : τ} (hA : Reached intended A l t) (hG : Reached intended G l t) :
    feed step l (emb t) = feed intended l t := by
  induction l generalizing t with
  | nil => rfl
  | cons a l ih =>
    rw [feed, hgood t a hA.1 hG.1, feed]
    cases hround : intended a t with
    | go u => exact ih (hA.2 u hround) (hG.2 u hround)
    | leave b => rfl

/-- If it goes wrong wherever the guard fails, one round that fails the guard is enough. -/
theorem feed_eq_bad (hgood : ∀ t a, A t a → G t a → step a (emb t) = (intended a t).map emb)
    (hbad : ∀ t a, A t a → ¬ G t a → step a (emb t) = .leave bad) {l : List α} {t : τ}
    (hA : Reached intended A l t) (hG : ¬ Reached intended G l t) :
    feed step l (emb t) = some bad := by
  induction l generalizing t with
  | nil => exact absurd trivial hG
  | cons a l ih =>
    by_cases hfirst : G t a
    · rw [Reached, and_iff_right hfirst] at hG
      push Not at hG
      obtain ⟨u, hround, hrest⟩ := hG
      rw [feed, hgood t a hA.1 hfirst, hround]
      exact ih (hA.2 u hround) hrest
    · rw [feed, hbad t a hA.1 hfirst]

end Round

end Cloyster.Lib
