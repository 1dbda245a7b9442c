import Cloyster.Lib.Lines

/-! Lines that are appended to files unless a key is found there first. Running a list of them
again changes nothing exactly when every key is found after the first run. A key is found after
it when the line it guards has it, and a key that no line can bring in is found only when it was
found before. -/

namespace Cloyster.Lib.Guarded

variable {κ α : Type*} [DecidableEq κ] [DecidableEq α]

structure Step (κ α : Type*) where
  file : κ
  key : List α
  line : List α

/-- Some line has the key. -/
def Found (sep : α) (key cs : List α) : Prop := ∃ l ∈ Lines.lines sep cs, key <:+: l

instance (sep : α) (key cs : List α) : Decidable (Found sep key cs) :=
  inferInstanceAs (Decidable (∃ l ∈ Lines.lines sep cs, key <:+: l))

def Step.run (sep : α) (step : Step κ α) (files : κ → List α) : κ → List α :=
  if Found sep step.key (files step.file) then files
  else Function.update files step.file (files step.file ++ (step.line ++ [sep]))

def run (sep : α) (steps : List (Step κ α)) (files : κ → List α) : κ → List α :=
  steps.foldl (fun files step => step.run sep files) files

/-- No occurrence of the key can begin before the line and end in it, and none is in it. -/
def Foreign (key line : List α) : Prop :=
  (∀ v ∈ key.tails, v ≠ [] → ¬ v <+: line) ∧ ¬ key <:+: line

instance (key line : List α) : Decidable (Foreign key line) :=
  inferInstanceAs (Decidable (_ ∧ _))

variable {sep : α} {key line cs l r : List α} {step : Step κ α} {steps : List (Step κ α)}
  {files : κ → List α} {file : κ}

/-! ### Occurrences -/

omit [DecidableEq α] in
theorem infix_append_cons_iff (hsep : sep ∉ key) :
    key <:+: l ++ sep :: r ↔ key <:+: l ∨ key <:+: r := by
  -- an occurrence that goes on past the end of `l` has the separator
  have hcross : ¬ ∃ u v, u ≠ [] ∧ v ≠ [] ∧ key = u ++ v ∧ u <:+ l ∧ v <+: sep :: r := by
    rintro ⟨u, _ | ⟨c, v⟩, -, hv, rfl, -, hprefix⟩
    · exact hv rfl
    · obtain ⟨rfl, -⟩ := List.cons_prefix_cons.mp hprefix
      exact hsep (by simp)
  have hcons : key <:+: sep :: r ↔ key <:+: r := by
    rw [List.infix_cons_iff, or_iff_right_iff_imp]
    intro hprefix
    cases key with
    | nil => exact List.nil_infix
    | cons c key =>
      obtain ⟨rfl, -⟩ := List.cons_prefix_cons.mp hprefix
      exact absurd List.mem_cons_self hsep
  rw [List.infix_append_iff_ne_nil, or_iff_left hcross, hcons]

omit [DecidableEq α] in
/-- Appending a foreign line brings no occurrence in. -/
theorem infix_append_iff_of_foreign (hforeign : Foreign key line) :
    key <:+: cs ++ line ↔ key <:+: cs := by
  rw [List.infix_append_iff_ne_nil]
  constructor
  · rintro (h | h | ⟨u, v, -, hv, rfl, -, hprefix⟩)
    · exact h
    · exact absurd h hforeign.2
    · exact absurd hprefix (hforeign.1 v (by simp) hv)
  · exact Or.inl

omit [DecidableEq α] in
/-- A line that begins with nothing of the key is foreign when the key is not in it. -/
theorem foreign_cons {c : α} (hc : c ∉ key) (hline : ¬ key <:+: c :: line) :
    Foreign key (c :: line) := by
  refine ⟨?_, hline⟩
  rintro (_ | ⟨d, v⟩) hv hne hprefix
  · exact hne rfl
  · obtain ⟨rfl, -⟩ := List.cons_prefix_cons.mp hprefix
    exact hc (((List.mem_tails _ _).mp hv).mem List.mem_cons_self)

theorem found_iff (hsep : sep ∉ key) (hne : key ≠ []) : Found sep key cs ↔ key <:+: cs := by
  rw [Found]
  induction cs using Lines.lines_induction sep with
  | last r hr =>
    rw [Lines.lines_of_not_mem hr]
    split_ifs with hr
    · simp [hr, hne]
    · simp
  | line l cs hl ih =>
    rw [Lines.lines_append_cons hl, infix_append_cons_iff hsep, ← ih]
    simp

/-! ### Runs -/

theorem Step.run_of_found (h : Found sep step.key (files step.file)) :
    step.run sep files = files := if_pos h

theorem Step.run_apply (step : Step κ α) (files : κ → List α) (file : κ) :
    step.run sep files file = files file ∨
      step.file = file ∧ step.run sep files file = files file ++ (step.line ++ [sep]) := by
  unfold Step.run
  split_ifs
  · exact Or.inl rfl
  · by_cases hfile : step.file = file
    · subst hfile
      exact Or.inr ⟨rfl, Function.update_self _ _ _⟩
    · exact Or.inl (Function.update_of_ne (Ne.symm hfile) _ _)

theorem run_cons (sep : α) (step : Step κ α) (steps : List (Step κ α)) (files : κ → List α) :
    run sep (step :: steps) files = run sep steps (step.run sep files) := rfl

theorem Step.prefix_run (step : Step κ α) (files : κ → List α) (file : κ) :
    files file <+: step.run sep files file := by
  rcases step.run_apply files file with h | ⟨-, h⟩ <;> rw [h]
  exact List.prefix_append _ _

theorem prefix_run (steps : List (Step κ α)) (files : κ → List α) (file : κ) :
    files file <+: run sep steps files file := by
  induction steps generalizing files with
  | nil => exact List.prefix_refl _
  | cons step steps ih => exact (step.prefix_run files file).trans (ih _)

/-- Files only grow, so nothing has changed at the end when no step has changed anything. -/
theorem run_eq_self_iff :
    run sep steps files = files ↔ ∀ step ∈ steps, Found sep step.key (files step.file) := by
  induction steps generalizing files with
  | nil => simp [run]
  | cons step steps ih =>
    rw [run_cons, List.forall_mem_cons]
    by_cases hfound : Found sep step.key (files step.file)
    · rw [Step.run_of_found hfound, ih, and_iff_right hfound]
    · refine iff_of_false ?_ fun h => hfound h.1
      intro hrun
      have hprefix : step.run sep files step.file <+:
          run sep steps (step.run sep files) step.file :=
        prefix_run steps _ step.file
      rw [hrun, Step.run, if_neg hfound, Function.update_self] at hprefix
      have hle := hprefix.length_le
      simp at hle

/-- A line that has its own key leaves the key in the file. -/
theorem found_run_of_mem (hsep : sep ∉ step.key) (hne : step.key ≠ [])
    (hline : step.key <:+: step.line) (hmem : step ∈ steps) (files : κ → List α) :
    Found sep step.key (run sep steps files step.file) := by
  rw [found_iff hsep hne]
  induction steps generalizing files with
  | nil => exact absurd hmem List.not_mem_nil
  | cons first steps ih =>
    rcases List.mem_cons.mp hmem with rfl | hmem
    · rw [run_cons]
      refine List.IsInfix.trans ?_ (prefix_run steps _ _).isInfix
      by_cases hfound : Found sep step.key (files step.file)
      · rw [Step.run_of_found hfound]
        exact (found_iff hsep hne).mp hfound
      · rw [Step.run, if_neg hfound, Function.update_self]
        exact hline.trans (List.infix_append_left.trans List.infix_append_right)
    · exact ih hmem _

/-- A key that is foreign to all lines of a file is found there when it was. -/
theorem found_run_iff_of_foreign (hsep : sep ∉ key) (hne : key ≠ [])
    (hforeign : ∀ step ∈ steps, Foreign key (step.line ++ [sep])) :
    Found sep key (run sep steps files file) ↔ Found sep key (files file) := by
  induction steps generalizing files with
  | nil => rfl
  | cons step steps ih =>
    rw [List.forall_mem_cons] at hforeign
    rw [run_cons, ih hforeign.2]
    rcases step.run_apply files file with h | ⟨-, h⟩ <;> rw [h]
    rw [found_iff hsep hne, found_iff hsep hne, infix_append_iff_of_foreign hforeign.1]

end Cloyster.Lib.Guarded
