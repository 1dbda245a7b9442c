import Cloyster.Lib.Text
import Cloyster.Lib.Work

/-! Texts that are appended unless they are there. Each text of a list is appended at most once,
however often a first part of the list is gone through again, so a program that appends the texts
one after another can be interrupted anywhere and started again. -/

namespace Cloyster.Lib

variable {c s : String} {l m : List String}

def appendOnce (c s : String) : String := if Text.contains c s then c else c ++ s

/-- One after another. -/
def appendAll (c : String) (l : List String) : String := l.foldl appendOnce c

/-! ### What is there then -/

theorem contains_of_prefix {c' : String} (h : c.toList <+: c'.toList) (hs : Text.contains c s) :
    Text.contains c' s := by
  rw [Text.contains, decide_eq_true_iff] at hs ⊢
  exact hs.trans h.isInfix

theorem prefix_appendOnce (c s : String) : c.toList <+: (appendOnce c s).toList := by
  unfold appendOnce
  split_ifs
  · exact List.prefix_rfl
  · rw [String.toList_append]
    exact List.prefix_append _ _

theorem contains_appendOnce (c s : String) : Text.contains (appendOnce c s) s := by
  unfold appendOnce
  split_ifs with h
  · exact h
  · rw [Text.contains, decide_eq_true_iff, String.toList_append]
    exact (List.suffix_append _ _).isInfix

theorem appendOnce_empty (h : s ≠ "") : appendOnce "" s = s := by
  have hnot : ¬ Text.contains "" s := by
    rw [Text.contains, decide_eq_true_iff]
    intro hinfix
    exact h (String.toList_eq_nil_iff.mp (List.infix_nil.mp hinfix))
  rw [appendOnce, if_neg hnot, String.empty_append]

theorem appendAll_singleton (c s : String) : appendAll c [s] = appendOnce c s := rfl

theorem appendAll_append : appendAll c (l ++ m) = appendAll (appendAll c l) m := List.foldl_append

theorem prefix_appendAll (c : String) (l : List String) : c.toList <+: (appendAll c l).toList := by
  induction l generalizing c with
  | nil => exact List.prefix_rfl
  | cons s l ih => exact (prefix_appendOnce c s).trans (ih _)

theorem contains_appendAll (h : s ∈ l) : Text.contains (appendAll c l) s := by
  obtain ⟨l, r, rfl⟩ := List.append_of_mem h
  rw [appendAll_append]
  exact contains_of_prefix (prefix_appendAll _ r) (contains_appendOnce _ s)

/-! ### Going through the list again -/

theorem appendAll_of_contains (h : ∀ s ∈ l, Text.contains c s) : appendAll c l = c := by
  induction l with
  | nil => rfl
  | cons s l ih =>
    rw [List.forall_mem_cons] at h
    have hfirst : appendOnce c s = c := if_pos h.1
    change appendAll (appendOnce c s) l = c
    rw [hfirst, ih h.2]

/-- What was appended before is not appended again. -/
theorem appendAll_again (c : String) (l m : List String) :
    appendAll (appendAll c l) (l ++ m) = appendAll c (l ++ m) := by
  rw [appendAll_append, appendAll_append,
    appendAll_of_contains fun s hs => contains_appendAll hs]

theorem appendAll_take_take (c : String) (l : List String) (j k : ℕ) :
    appendAll (appendAll c (l.take j)) (l.take k) = appendAll c (l.take (max j k)) := by
  obtain hle | hle := le_total j k
  · rw [max_eq_right hle]
    have hsplit : l.take k = l.take j ++ (l.take k).drop j := by
      conv_lhs => rw [← List.take_append_drop j (l.take k), List.take_take, min_eq_left hle]
    rw [hsplit, appendAll_again]
  · rw [max_eq_left hle]
    have hsplit : l.take j = l.take k ++ (l.take j).drop k := by
      conv_lhs => rw [← List.take_append_drop k (l.take j), List.take_take, min_eq_left hle]
    refine appendAll_of_contains fun s hs => contains_appendAll ?_
    rw [hsplit]
    exact List.mem_append_left _ hs

/-! ### Programs that append -/

/-- Appending texts to what a view of the state holds, if it holds anything. -/
def appending {σ : Type} (content : σ → Option String) : Work σ String where
  Done l s t := ∀ c, content s = some c → content t = some (appendAll c l)
  nil _ _ h := h
  append h h' c hc := by rw [appendAll_append, h' _ (h c hc)]

end Cloyster.Lib
