import Cloyster.Lib.Effect

/-! Slots that are filled once and read afterwards. A program keeps the events in their order,
and reading an empty slot throws. The rules say from which filled slots a program reads nothing
too early, and which slots are filled when it returns. -/

namespace Cloyster.Lib.Registry

inductive Event (ι : Type) where
  | fill (slot : ι)
  | read (slot : ι)
  deriving DecidableEq

/-- What happened, the first event first. -/
abbrev Trace (ι : Type) := List (Event ι)

abbrev RegistryM (ε ι : Type) := EStateM ε (Trace ι)

variable {ε ι α β : Type} {trace : Trace ι} {slot : ι}

/-- A program that touches no slot. -/
def aside : Except ε α → RegistryM ε ι α
  | .ok a => pure a
  | .error e => throw e

section

variable [DecidableEq ι]

/-- The attempt is an event even where it throws. -/
def read (missing : ε) (slot : ι) : RegistryM ε ι Unit := fun trace =>
  if .fill slot ∈ trace then .ok () (trace ++ [.read slot])
  else .error missing (trace ++ [.read slot])

/-- The factory runs the first time only, and the slot is filled when it has returned. -/
def fill (slot : ι) (factory : RegistryM ε ι Unit) : RegistryM ε ι Unit := fun trace =>
  if .fill slot ∈ trace then .ok () trace
  else match factory trace with
    | .ok _ t => .ok () (t ++ [.fill slot])
    | .error e t => .error e t

end

/-- No slot is read before it is filled. -/
def InOrder (trace : Trace ι) : Prop :=
  ∀ earlier slot later, trace = earlier ++ .read slot :: later → .fill slot ∈ earlier

def filled (trace : Trace ι) : Set ι := {slot | .fill slot ∈ trace}

/-! ### Traces -/

theorem inOrder_nil : InOrder ([] : Trace ι) := by
  intro earlier slot later h
  exact absurd h.symm (by simp)

theorem filled_nil : filled ([] : Trace ι) = ∅ := by
  ext slot
  simp [filled]

theorem inOrder_concat {e : Event ι} :
    InOrder (trace ++ [e]) ↔ InOrder trace ∧ ∀ slot, e = .read slot → slot ∈ filled trace := by
  constructor
  · intro h
    refine ⟨fun earlier slot later htrace => ?_, fun slot he => ?_⟩
    · apply h earlier slot (later ++ [e])
      rw [htrace, List.append_assoc, List.cons_append]
    · apply h trace slot []
      rw [he]
  · rintro ⟨htrace, he⟩ earlier slot later h
    obtain rfl | ⟨later, last, rfl⟩ := List.eq_nil_or_concat later
    · obtain ⟨rfl, hlast⟩ := List.append_inj' h rfl
      exact he slot (List.cons.inj hlast).1
    · rw [List.concat_eq_append, ← List.cons_append, ← List.append_assoc] at h
      exact htrace earlier slot later (List.append_inj' h rfl).1

theorem inOrder_concat_fill : InOrder (trace ++ [.fill slot]) ↔ InOrder trace := by
  simp [inOrder_concat]

theorem inOrder_concat_read :
    InOrder (trace ++ [.read slot]) ↔ InOrder trace ∧ slot ∈ filled trace := by
  simp [inOrder_concat]

theorem filled_concat_fill : filled (trace ++ [.fill slot]) = insert slot (filled trace) := by
  ext s
  simp [filled, or_comm]

theorem filled_concat_read : filled (trace ++ [.read slot]) = filled trace := by
  ext s
  simp [filled]

/-! ### Programs that read nothing too early -/

/-- With these slots filled, all that the program does is in order, and those are filled when it
returns. -/
def Orderly (before : Set ι) (x : RegistryM ε ι α) (after : Set ι) : Prop :=
  ∀ trace, InOrder trace → before ⊆ filled trace →
    InOrder (finalState (x trace)) ∧ ∀ a t, x trace = .ok a t → after ⊆ filled t

section

variable {S T U : Set ι} {x : RegistryM ε ι α} {f : α → RegistryM ε ι β}

theorem orderly_mono (h : Orderly S x T) (hle : U ⊆ T) : Orderly S x U := by
  intro trace horder hfilled
  obtain ⟨hfinal, hreturn⟩ := h trace horder hfilled
  exact ⟨hfinal, fun a t hrun => hle.trans (hreturn a t hrun)⟩

/-- The second program may rely on what the first one returns. -/
theorem orderly_bind (hx : Orderly S x T) (hf : ∀ a s t, x s = .ok a t → Orderly T (f a) U) :
    Orderly S (x >>= f) U := by
  intro trace horder hfilled
  obtain ⟨hfinal, hreturn⟩ := hx trace horder hfilled
  rw [bind_apply]
  cases hrun : x trace with
  | ok a t =>
    rw [hrun] at hfinal
    exact hf a trace t hrun t hfinal (hreturn a t hrun)
  | error e t =>
    rw [hrun] at hfinal
    exact ⟨hfinal, fun b u h => absurd h (by simp)⟩

theorem orderly_pure (a : α) : Orderly S (pure a : RegistryM ε ι α) S := by
  intro trace horder hfilled
  refine ⟨horder, fun b t h => ?_⟩
  obtain ⟨-, rfl⟩ := EStateM.Result.ok.inj h
  exact hfilled

theorem orderly_throw (e : ε) : Orderly S (throw e : RegistryM ε ι α) T :=
  fun _ horder _ => ⟨horder, fun _ _ h => absurd h (by simp)⟩

theorem orderly_aside (y : Except ε α) : Orderly S (aside y : RegistryM ε ι α) S := by
  cases y with
  | ok a => exact orderly_pure a
  | error e => exact orderly_throw e

theorem aside_ok_iff {y : Except ε α} {a : α} {t : Trace ι} :
    (aside y : RegistryM ε ι α) trace = .ok a t ↔ y = .ok a ∧ trace = t := by
  cases y <;> simp [aside]

theorem orderly_ite {p : Prop} [Decidable p] {y : RegistryM ε ι α} (hx : p → Orderly S x T)
    (hy : ¬ p → Orderly S y T) : Orderly S (if p then x else y) T := by
  split_ifs with hp
  · exact hx hp
  · exact hy hp

theorem orderly_foldlM {l : List β} {f : α → β → RegistryM ε ι α}
    (h : ∀ a, ∀ b ∈ l, Orderly S (f a b) S) (a : α) : Orderly S (l.foldlM f a) S := by
  induction l generalizing a with
  | nil => exact orderly_pure a
  | cons b l ih =>
    rw [List.foldlM_cons]
    refine orderly_bind (h a b List.mem_cons_self) fun a' _ _ _ => ?_
    exact ih (fun a c hc => h a c (List.mem_cons_of_mem _ hc)) a'

variable [DecidableEq ι]

theorem read_of_mem (missing : ε) (h : slot ∈ filled trace) :
    read missing slot trace = .ok () (trace ++ [.read slot]) := if_pos h

theorem read_of_not_mem (missing : ε) (h : slot ∉ filled trace) :
    read missing slot trace = .error missing (trace ++ [.read slot]) := if_neg h

theorem fill_of_mem (factory : RegistryM ε ι Unit) (h : slot ∈ filled trace) :
    fill slot factory trace = .ok () trace := if_pos h

theorem fill_of_not_mem (factory : RegistryM ε ι Unit) (h : slot ∉ filled trace) :
    fill slot factory trace = match factory trace with
      | .ok _ t => .ok () (t ++ [.fill slot])
      | .error e t => .error e t := if_neg h

theorem orderly_read (missing : ε) (h : slot ∈ S) : Orderly S (read missing slot) S := by
  intro trace horder hfilled
  rw [read_of_mem missing (hfilled h)]
  refine ⟨inOrder_concat_read.mpr ⟨horder, hfilled h⟩, fun a t hreturn => ?_⟩
  obtain ⟨-, rfl⟩ := EStateM.Result.ok.inj hreturn
  rwa [filled_concat_read]

theorem orderly_fill {factory : RegistryM ε ι Unit} (h : Orderly S factory S) :
    Orderly S (fill slot factory) (insert slot S) := by
  intro trace horder hfilled
  by_cases hslot : slot ∈ filled trace
  · rw [fill_of_mem factory hslot]
    refine ⟨horder, fun b u hu => ?_⟩
    obtain ⟨-, rfl⟩ := EStateM.Result.ok.inj hu
    exact Set.insert_subset hslot hfilled
  · obtain ⟨hfinal, hreturn⟩ := h trace horder hfilled
    rw [fill_of_not_mem factory hslot]
    cases hrun : factory trace with
    | ok a t =>
      rw [hrun] at hfinal
      refine ⟨inOrder_concat_fill.mpr hfinal, fun b u hu => ?_⟩
      obtain ⟨-, rfl⟩ := EStateM.Result.ok.inj hu
      rw [filled_concat_fill]
      exact Set.insert_subset_insert (hreturn a t hrun)
    | error e t =>
      rw [hrun] at hfinal
      exact ⟨hfinal, fun b u hu => absurd hu (by simp)⟩

/-- Reads of filled slots, one after another. -/
theorem orderly_forM_read (missing : ε) {l : List ι} (h : ∀ slot ∈ l, slot ∈ S) :
    Orderly S (l.forM (read missing)) S := by
  induction l with
  | nil => exact orderly_pure _
  | cons slot l ih =>
    refine orderly_bind (orderly_read missing (h slot List.mem_cons_self)) fun _ _ _ _ => ?_
    exact ih fun s hs => h s (List.mem_cons_of_mem _ hs)

end

/-! ### Programs that return -/

/-- With these slots filled, the program returns this value, and those are filled then. -/
def Completes (before : Set ι) (x : RegistryM ε ι α) (a : α) (after : Set ι) : Prop :=
  ∀ trace, filled trace = before → ∃ t, x trace = .ok a t ∧ filled t = after

section

variable {S T U : Set ι} {x : RegistryM ε ι α} {f : α → RegistryM ε ι β} {a : α} {b : β}

theorem completes_bind (hx : Completes S x a T) (hf : Completes T (f a) b U) :
    Completes S (x >>= f) b U := by
  intro trace hfilled
  obtain ⟨t, hrun, ht⟩ := hx trace hfilled
  rw [bind_of_ok hrun]
  exact hf t ht

theorem completes_pure (a : α) : Completes S (pure a : RegistryM ε ι α) a S :=
  fun trace hfilled => ⟨trace, rfl, hfilled⟩

theorem completes_aside {y : Except ε α} (h : y = .ok a) :
    Completes S (aside y : RegistryM ε ι α) a S := by
  rw [h]
  exact completes_pure a

variable [DecidableEq ι]

theorem completes_read (missing : ε) (h : slot ∈ S) : Completes S (read missing slot) () S := by
  rintro trace rfl
  exact ⟨_, read_of_mem missing h, filled_concat_read⟩

theorem completes_fill {factory : RegistryM ε ι Unit} (hslot : slot ∉ S)
    (h : Completes S factory () S) : Completes S (fill slot factory) () (insert slot S) := by
  rintro trace rfl
  obtain ⟨t, hrun, ht⟩ := h trace rfl
  refine ⟨t ++ [.fill slot], ?_, ?_⟩
  · rw [fill_of_not_mem factory hslot, hrun]
  · rw [filled_concat_fill, ht]

end

/-! ### What a program comes to -/

/-- With these slots filled, the program comes to the same as one without slots. -/
def Yields (before : Set ι) (x : RegistryM ε ι α) (y : Except ε α) : Prop :=
  ∀ trace, before ⊆ filled trace → outcome (x trace) = y ∧ before ⊆ filled (finalState (x trace))

section

variable {S : Set ι} {x : RegistryM ε ι α} {y : Except ε α} {f : α → RegistryM ε ι β}
  {g : α → Except ε β}

theorem yields_aside (y : Except ε α) : Yields S (aside y : RegistryM ε ι α) y := by
  intro trace hfilled
  cases y with
  | ok a => exact ⟨rfl, hfilled⟩
  | error e => exact ⟨rfl, hfilled⟩

theorem yields_bind (hx : Yields S x y) (hf : ∀ a, Yields S (f a) (g a)) :
    Yields S (x >>= f) (y >>= g) := by
  intro trace hfilled
  obtain ⟨hout, hfinal⟩ := hx trace hfilled
  rw [bind_apply]
  cases hrun : x trace with
  | ok a t =>
    rw [hrun] at hout hfinal
    rw [← hout]
    exact hf a t hfinal
  | error e t =>
    rw [hrun] at hout hfinal
    rw [← hout]
    exact ⟨rfl, hfinal⟩

theorem yields_read [DecidableEq ι] (missing : ε) (h : slot ∈ S) :
    Yields S (read missing slot) (.ok ()) := by
  intro trace hfilled
  rw [read_of_mem missing (hfilled h)]
  refine ⟨rfl, ?_⟩
  rwa [finalState, filled_concat_read]

end

/-! ### Programs that read too early -/

/-- With these slots filled, the program throws, and what it did is not in order. -/
def TooEarly (before : Set ι) (x : RegistryM ε ι α) : Prop :=
  ∀ trace, filled trace = before → ∃ e t, x trace = .error e t ∧ ¬ InOrder t

section

variable {S T : Set ι} {x : RegistryM ε ι α} {f : α → RegistryM ε ι β} {a : α}

theorem tooEarly_bind (hx : Completes S x a T) (hf : TooEarly T (f a)) : TooEarly S (x >>= f) := by
  intro trace hfilled
  obtain ⟨t, hrun, ht⟩ := hx trace hfilled
  rw [bind_of_ok hrun]
  exact hf t ht

/-- Nothing of the second program runs. -/
theorem tooEarly_bind_left (hx : TooEarly S x) : TooEarly S (x >>= f) := by
  intro trace hfilled
  obtain ⟨e, t, hrun, ht⟩ := hx trace hfilled
  exact ⟨e, t, bind_of_error hrun f, ht⟩

theorem tooEarly_read [DecidableEq ι] (missing : ε) (h : slot ∉ S) :
    TooEarly S (read missing slot) := by
  rintro trace rfl
  exact ⟨missing, _, read_of_not_mem missing h, fun horder => h (inOrder_concat_read.mp horder).2⟩

end

end Cloyster.Lib.Registry
