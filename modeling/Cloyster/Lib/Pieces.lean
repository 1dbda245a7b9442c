import Mathlib

/-! Lists cut at the occurrences of another list. Occurrences are taken from left to right and
do not overlap, so the first one decides where the next may begin. -/

namespace Cloyster.Lib.Pieces

variable {α : Type*} [DecidableEq α] {sub s l r : List α}

/-- Where the list occurs first. -/
def firstIndex (sub : List α) : List α → Option ℕ
  | [] => if sub = [] then some 0 else none
  | a :: s => if sub <+: a :: s then some 0 else (firstIndex sub s).map (· + 1)

/-- The pieces between the occurrences. While `skip` is positive the characters belong to the
occurrence that was met last. -/
def cut (sub : List α) : ℕ → List α → List (List α)
  | _, [] => [[]]
  | skip + 1, _ :: s => cut sub skip s
  | 0, a :: s =>
    if sub <+: a :: s then [] :: cut sub (sub.length - 1) s
    else (cut sub 0 s).modifyHead (a :: ·)

def splitOnList (sub s : List α) : List (List α) := cut sub 0 s

example : splitOnList [0, 0] [0, 0, 0, 1, 0, 0] = [[], [0, 1], []] := by decide

/-- The first occurrence comes right after `l`. -/
def FirstAfter (sub l r : List α) : Prop := firstIndex sub (l ++ sub ++ r) = some l.length

/-! ### The first occurrence -/

theorem firstIndex_eq_none_iff : firstIndex sub s = none ↔ ¬ sub <:+: s := by
  induction s with
  | nil =>
    rw [firstIndex]
    split_ifs with h <;> simp [h]
  | cons a s ih =>
    rw [firstIndex, List.infix_cons_iff, not_or]
    split_ifs with h
    · simp [h]
    · rw [Option.map_eq_none_iff, ih]
      simp [h]

/-- An index that is found splits the list around the occurrence. -/
theorem exists_firstAfter {i : ℕ} (h : firstIndex sub s = some i) :
    ∃ l r, s = l ++ sub ++ r ∧ l.length = i ∧ FirstAfter sub l r := by
  suffices hsplit : ∃ l r, s = l ++ sub ++ r ∧ l.length = i by
    obtain ⟨l, r, rfl, rfl⟩ := hsplit
    exact ⟨l, r, rfl, rfl, h⟩
  induction s generalizing i with
  | nil =>
    rw [firstIndex] at h
    split_ifs at h with hsub
    exact ⟨[], [], by simp [hsub], Option.some.inj h⟩
  | cons a s ih =>
    rw [firstIndex] at h
    split_ifs at h with hsub
    · obtain ⟨r, hr⟩ := hsub
      exact ⟨[], r, hr.symm, Option.some.inj h⟩
    · obtain ⟨j, hj, rfl⟩ := Option.map_eq_some_iff.mp h
      obtain ⟨l, r, rfl, rfl⟩ := ih hj
      exact ⟨a :: l, r, rfl, rfl⟩

theorem FirstAfter.tail {a : α} (h : FirstAfter sub (a :: l) r) :
    ¬ sub <+: a :: (l ++ sub ++ r) ∧ FirstAfter sub l r := by
  rw [FirstAfter, List.cons_append, List.cons_append, firstIndex] at h
  split_ifs at h with hsub
  · simp at h
  · obtain ⟨j, hj, hlen⟩ := Option.map_eq_some_iff.mp h
    refine ⟨hsub, ?_⟩
    rw [FirstAfter, hj]
    congr 1
    simpa using hlen

/-- The empty list occurs at once. -/
theorem firstIndex_nil (s : List α) : firstIndex [] s = some 0 := by
  cases s <;> simp [firstIndex]

/-! ### The pieces -/

theorem cut_ne_nil (sub : List α) (skip : ℕ) (s : List α) : cut sub skip s ≠ [] := by
  induction s generalizing skip with
  | nil => simp [cut]
  | cons a s ih =>
    cases skip with
    | succ skip => exact ih skip
    | zero =>
      rw [cut]
      split_ifs
      · simp
      · intro h
        exact ih 0 (by simpa using congrArg List.length h)

theorem cut_skip (sub l r : List α) : cut sub l.length (l ++ r) = cut sub 0 r := by
  induction l with
  | nil => rfl
  | cons a l ih => exact ih

theorem splitOnList_eq_singleton (h : ¬ sub <:+: s) : splitOnList sub s = [s] := by
  rw [splitOnList]
  induction s with
  | nil => rfl
  | cons a s ih =>
    rw [List.infix_cons_iff, not_or] at h
    rw [cut, if_neg h.1, ih h.2]
    rfl

theorem splitOnList_of_firstAfter (hsub : sub ≠ []) (h : FirstAfter sub l r) :
    splitOnList sub (l ++ sub ++ r) = l :: splitOnList sub r := by
  rw [splitOnList, splitOnList]
  induction l with
  | nil =>
    obtain ⟨a, sub', rfl⟩ := List.exists_cons_of_ne_nil hsub
    rw [List.nil_append, List.cons_append, cut, if_pos ⟨r, rfl⟩]
    exact congrArg _ (cut_skip _ sub' r)
  | cons a l ih =>
    obtain ⟨hnot, htail⟩ := h.tail
    rw [List.cons_append, List.cons_append, cut, if_neg hnot, ih htail]
    rfl

/-- Joining after a first piece. -/
theorem intercalate_cons_splitOnList (joint : List α) (l r : List α) :
    joint.intercalate (l :: splitOnList sub r) = l ++ joint ++ joint.intercalate (splitOnList sub r) := by
  obtain ⟨p, ps, hps⟩ := List.exists_cons_of_ne_nil (cut_ne_nil sub 0 r)
  rw [splitOnList, hps]
  simp [List.intercalate]

end Cloyster.Lib.Pieces
