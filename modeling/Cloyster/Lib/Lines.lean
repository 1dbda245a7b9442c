import Mathlib

/-! Lists cut into lines. A separator ends a line, and what follows the last separator is a
line that has not ended. The decomposition is unique, so lines can be followed through
appending and looked up in a list that contains them. -/

namespace Cloyster.Lib.Lines

variable {α : Type*} [DecidableEq α] {sep : α} {ls : List (List α)} {cs r : List α}

/-- Each line with the separator after it. -/
def terminated (sep : α) (ls : List (List α)) : List α := ls.flatMap (· ++ [sep])

/-- The lines that have ended. -/
def complete (sep : α) (cs : List α) : List (List α) := (cs.splitOn sep).dropLast

/-- What follows the last separator. -/
def rest (sep : α) (cs : List α) : List α := (cs.splitOn sep).getLastD []

/-- All lines. An empty rest is none. -/
def lines (sep : α) (cs : List α) : List (List α) :=
  complete sep cs ++ if rest sep cs = [] then [] else [rest sep cs]

omit [DecidableEq α] in
@[simp] theorem terminated_nil : terminated sep [] = [] := rfl

omit [DecidableEq α] in
@[simp] theorem terminated_cons (l : List α) :
    terminated sep (l :: ls) = l ++ sep :: terminated sep ls := by
  simp [terminated]

omit [DecidableEq α] in
@[simp] theorem terminated_append (ms : List (List α)) :
    terminated sep (ls ++ ms) = terminated sep ls ++ terminated sep ms := by
  simp [terminated]

/-! ### Up to the first separator -/

theorem takeWhile_append_cons {l : List α} (hl : sep ∉ l) (r : List α) :
    (l ++ sep :: r).takeWhile (· ≠ sep) = l := by
  rw [List.takeWhile_append_of_pos fun a ha => decide_eq_true (ne_of_mem_of_not_mem ha hl),
    List.takeWhile_cons_of_neg (by simp), List.append_nil]

theorem dropWhile_append_cons {l : List α} (hl : sep ∉ l) (r : List α) :
    (l ++ sep :: r).dropWhile (· ≠ sep) = sep :: r := by
  rw [List.dropWhile_append_of_pos fun a ha => decide_eq_true (ne_of_mem_of_not_mem ha hl),
    List.dropWhile_cons_of_neg (by simp)]

/-! ### The decomposition -/

theorem splitOn_terminated_append (hls : ∀ l ∈ ls, sep ∉ l) (hr : sep ∉ r) :
    (terminated sep ls ++ r).splitOn sep = ls ++ [r] := by
  induction ls with
  | nil => exact List.splitOn_eq_singleton hr
  | cons l ls ih =>
    rw [List.forall_mem_cons] at hls
    rw [terminated_cons, List.append_assoc, List.cons_append,
      List.splitOn_append_cons_self_of_not_mem hls.1, ih hls.2, List.cons_append]

theorem complete_terminated_append (hls : ∀ l ∈ ls, sep ∉ l) (hr : sep ∉ r) :
    complete sep (terminated sep ls ++ r) = ls := by
  rw [complete, splitOn_terminated_append hls hr, List.dropLast_concat]

theorem rest_terminated_append (hls : ∀ l ∈ ls, sep ∉ l) (hr : sep ∉ r) :
    rest sep (terminated sep ls ++ r) = r := by
  rw [rest, splitOn_terminated_append hls hr, List.getLastD_concat]

theorem complete_append_rest (sep : α) (cs : List α) :
    complete sep cs ++ [rest sep cs] = cs.splitOn sep := by
  have hne := List.splitOn_ne_nil sep cs
  rw [complete, rest, List.getLastD_eq_getLast?, List.getLast?_eq_some_getLast hne,
    Option.getD_some, List.dropLast_append_getLast hne]

/-- Every list is lines that have ended and one that has not. -/
theorem exists_terminated (sep : α) (cs : List α) :
    ∃ ls r, cs = terminated sep ls ++ r ∧ (∀ l ∈ ls, sep ∉ l) ∧ sep ∉ r := by
  induction cs with
  | nil => exact ⟨[], [], rfl, by simp, by simp⟩
  | cons c cs ih =>
    obtain ⟨ls, r, rfl, hls, hr⟩ := ih
    by_cases hc : c = sep
    · subst hc
      exact ⟨[] :: ls, r, by simp, by simpa using hls, hr⟩
    · cases ls with
      | nil => exact ⟨[], c :: r, rfl, by simp, by simpa [Ne.symm hc] using hr⟩
      | cons l ls =>
        refine ⟨(c :: l) :: ls, r, by simp, ?_, hr⟩
        simpa [Ne.symm hc] using hls

theorem terminated_complete_append_rest (sep : α) (cs : List α) :
    terminated sep (complete sep cs) ++ rest sep cs = cs := by
  obtain ⟨ls, r, rfl, hls, hr⟩ := exists_terminated sep cs
  rw [complete_terminated_append hls hr, rest_terminated_append hls hr]

/-- Induction on the lines: the last one has not ended, and each before it ends with the
separator. -/
theorem lines_induction (sep : α) {motive : List α → Prop}
    (last : ∀ l, sep ∉ l → motive l)
    (line : ∀ l cs, sep ∉ l → motive cs → motive (l ++ sep :: cs)) (cs : List α) :
    motive cs := by
  obtain ⟨ls, r, rfl, hls, hr⟩ := exists_terminated sep cs
  induction ls with
  | nil => exact last r hr
  | cons l ls ih =>
    rw [List.forall_mem_cons] at hls
    rw [terminated_cons, List.append_assoc, List.cons_append]
    exact line l _ hls.1 (ih hls.2)

theorem not_mem_of_mem_splitOn {l : List α} (h : l ∈ cs.splitOn sep) : sep ∉ l := by
  induction cs using lines_induction sep with
  | last r hr =>
    rw [List.splitOn_eq_singleton hr, List.mem_singleton] at h
    rwa [h]
  | line m cs hm ih =>
    rw [List.splitOn_append_cons_self_of_not_mem hm, List.mem_cons] at h
    rcases h with rfl | h
    · exact hm
    · exact ih h

theorem length_splitOn (sep : α) (cs : List α) :
    (cs.splitOn sep).length = cs.count sep + 1 := by
  induction cs using lines_induction sep with
  | last r hr =>
    rw [List.splitOn_eq_singleton hr, List.count_eq_zero_of_not_mem hr]
    rfl
  | line l cs hl ih =>
    rw [List.splitOn_append_cons_self_of_not_mem hl, List.length_cons, ih, List.count_append,
      List.count_eq_zero_of_not_mem hl, List.count_cons_self, zero_add]

/-- Whatever is not a separator stands on a line. -/
theorem exists_mem_splitOn {c : α} (hmem : c ∈ cs) (hc : c ≠ sep) :
    ∃ l ∈ cs.splitOn sep, c ∈ l := by
  obtain ⟨ls, r, rfl, hls, hr⟩ := exists_terminated sep cs
  rw [splitOn_terminated_append hls hr]
  rcases List.mem_append.mp hmem with hmem | hmem
  · obtain ⟨l, hl, hcl⟩ := List.mem_flatMap.mp hmem
    exact ⟨l, List.mem_append_left _ hl, by simpa [hc] using hcl⟩
  · exact ⟨r, by simp, hmem⟩

theorem not_mem_of_mem_complete {l : List α} (h : l ∈ complete sep cs) : sep ∉ l :=
  not_mem_of_mem_splitOn (List.mem_of_mem_dropLast h)

theorem not_mem_rest (sep : α) (cs : List α) : sep ∉ rest sep cs := by
  obtain ⟨ls, r, rfl, hls, hr⟩ := exists_terminated sep cs
  rwa [rest_terminated_append hls hr]

theorem lines_of_not_mem (hr : sep ∉ r) : lines sep r = if r = [] then [] else [r] := by
  rw [lines, complete, rest, List.splitOn_eq_singleton hr]
  rfl

theorem lines_append_cons {l : List α} (hl : sep ∉ l) (cs : List α) :
    lines sep (l ++ sep :: cs) = l :: lines sep cs := by
  obtain ⟨g, gs, hgs⟩ := List.exists_cons_of_ne_nil (List.splitOn_ne_nil sep cs)
  rw [lines, complete, rest, List.splitOn_append_cons_self_of_not_mem hl, lines, complete, rest,
    hgs]
  rfl

/-- A list has a line that has not ended when it has an end that is no separator. -/
theorem rest_eq_nil_iff : rest sep cs = [] ↔ cs = [] ∨ cs.getLast? = some sep := by
  obtain ⟨ls, r, rfl, hls, hr⟩ := exists_terminated sep cs
  rw [rest_terminated_append hls hr]
  constructor
  · rintro rfl
    rcases List.eq_nil_or_concat ls with rfl | ⟨ls, l, rfl⟩
    · exact .inl rfl
    · exact .inr (by simp)
  · rintro (h | h)
    · exact (List.append_eq_nil_iff.mp h).2
    · by_contra hne
      rw [List.getLast?_append_of_ne_nil _ hne] at h
      exact hr (List.mem_of_getLast? h)

/-! ### Appending -/

/-- The first line that is appended goes on from the rest. -/
theorem append_terminated_cons (sep : α) (cs l : List α) (ls : List (List α)) :
    cs ++ terminated sep (l :: ls) =
      terminated sep (complete sep cs ++ (rest sep cs ++ l) :: ls) := by
  conv_lhs => rw [← terminated_complete_append_rest sep cs]
  simp

/-- The lines after appending lines to what may not have ended. -/
theorem not_mem_complete_append {l : List α} (hl : sep ∉ l) (hls : ∀ l ∈ ls, sep ∉ l) :
    ∀ m ∈ complete sep cs ++ (rest sep cs ++ l) :: ls, sep ∉ m := by
  intro m hm
  rw [List.mem_append, List.mem_cons] at hm
  rcases hm with hm | rfl | hm
  · exact not_mem_of_mem_complete hm
  · rw [List.mem_append, not_or]
    exact ⟨not_mem_rest sep cs, hl⟩
  · exact hls m hm

theorem complete_append (cs : List α) {l : List α} (hl : sep ∉ l) (hls : ∀ l ∈ ls, sep ∉ l) :
    complete sep (cs ++ terminated sep (l :: ls)) =
      complete sep cs ++ (rest sep cs ++ l) :: ls := by
  rw [append_terminated_cons, ← List.append_nil (terminated sep _)]
  exact complete_terminated_append (not_mem_complete_append hl hls) List.not_mem_nil

theorem rest_append (cs : List α) {l : List α} (hl : sep ∉ l) (hls : ∀ l ∈ ls, sep ∉ l) :
    rest sep (cs ++ terminated sep (l :: ls)) = [] := by
  rw [append_terminated_cons, ← List.append_nil (terminated sep _)]
  exact rest_terminated_append (not_mem_complete_append hl hls) List.not_mem_nil

theorem complete_append_of_terminated (hls : ∀ l ∈ ls, sep ∉ l) (cs : List α) :
    complete sep (terminated sep ls ++ cs) = ls ++ complete sep cs := by
  obtain ⟨ms, r, rfl, hms, hr⟩ := exists_terminated sep cs
  have hall : ∀ l ∈ ls ++ ms, sep ∉ l := by
    intro l hl
    exact (List.mem_append.mp hl).elim (hls l) (hms l)
  rw [← List.append_assoc, ← terminated_append, complete_terminated_append hall hr,
    complete_terminated_append hms hr]

/-- Lines that occur together are lines, but for the first, which may be the end of one. -/
theorem mem_complete_of_contained {l : List α} (hl : sep ∉ l) (hls : ∀ l ∈ ls, sep ∉ l)
    (h : terminated sep (l :: ls) <:+: cs) : ∀ m ∈ ls, m ∈ complete sep cs := by
  obtain ⟨pre, post, rfl⟩ := h
  intro m hm
  rw [append_terminated_cons,
    complete_append_of_terminated (not_mem_complete_append hl hls)]
  simp [hm]

end Cloyster.Lib.Lines
