import Mathlib

/-! Values filed under keys in an ordered map, each key with its values in the order in which
they came. Nothing is lost and nothing is filed twice. -/

namespace Cloyster.Lib.Grouping

variable {κ β γ : Type*} [Ord κ] [Std.TransOrd κ] [Std.LawfulEqOrd κ]

/-- The value comes after what the key has already. -/
def append (m : Std.TreeMap κ (List β)) (k : κ) (v : β) : Std.TreeMap κ (List β) :=
  m.insert k ((m[k]?).getD [] ++ [v])

variable (key : γ → κ) (value : γ → β)

def appendAll (m : Std.TreeMap κ (List β)) (l : List γ) : Std.TreeMap κ (List β) :=
  l.foldl (fun m c => append m (key c) (value c)) m

variable {key value} {m : Std.TreeMap κ (List β)} {l : List γ} {k : κ}

omit [Std.TransOrd κ] [Std.LawfulEqOrd κ] in
theorem appendAll_cons (c : γ) :
    appendAll key value m (c :: l) = appendAll key value (append m (key c) (value c)) l := rfl

theorem mem_append {k' : κ} {v : β} : k ∈ append m k' v ↔ k = k' ∨ k ∈ m := by
  rw [append, Std.TreeMap.mem_insert, Std.LawfulEqCmp.compare_eq_iff_eq, eq_comm]

theorem mem_appendAll : k ∈ appendAll key value m l ↔ k ∈ m ∨ ∃ c ∈ l, key c = k := by
  induction l generalizing m with
  | nil => simp [appendAll]
  | cons c l ih =>
    rw [appendAll_cons, ih, mem_append, List.exists_mem_cons_iff, eq_comm]
    tauto

/-- The values of all keys, one key after the other. -/
theorem flatMap_toList (m : Std.TreeMap κ (List β)) :
    m.toList.flatMap Prod.snd = m.keys.flatMap fun k => (m[k]?).getD [] := by
  rw [← Std.TreeMap.map_fst_toList_eq_keys, List.flatMap_map]
  refine List.flatMap_congr fun entry hentry => ?_
  rw [Std.TreeMap.mem_toList_iff_getElem?_eq_some.mp hentry, Option.getD_some]

variable [DecidableEq κ]

theorem getD_append (k' : κ) (v : β) :
    ((append m k' v)[k]?).getD [] = (m[k]?).getD [] ++ if k' = k then [v] else [] := by
  rw [append, Std.TreeMap.getElem?_insert]
  simp only [Std.LawfulEqCmp.compare_eq_iff_eq]
  split_ifs with h
  · rw [h, Option.getD_some]
  · rw [List.append_nil]

/-- What a key has are the values that were filed under it, in their order. -/
theorem getD_appendAll (m : Std.TreeMap κ (List β)) (l : List γ) (k : κ) :
    ((appendAll key value m l)[k]?).getD [] =
      (m[k]?).getD [] ++ (l.filter fun c => key c = k).map value := by
  induction l generalizing m with
  | nil => simp [appendAll]
  | cons c l ih =>
    rw [appendAll_cons, ih, getD_append, List.append_assoc, List.filter_cons]
    by_cases hc : key c = k <;> simp [hc]

omit [Ord κ] [Std.TransOrd κ] [Std.LawfulEqOrd κ] in
/-- A list taken apart by its keys. -/
theorem flatMap_filter_perm {ks : List κ} (hnodup : ks.Nodup) (hmem : ∀ c ∈ l, key c ∈ ks) :
    (ks.flatMap fun k => l.filter fun c => key c = k).Perm l := by
  induction l with
  | nil => simp
  | cons c l ih =>
    rw [List.forall_mem_cons] at hmem
    -- the key of the head is at one place only
    obtain ⟨s, t, rfl⟩ := List.append_of_mem hmem.1
    obtain ⟨hs, ht⟩ : key c ∉ s ∧ key c ∉ t := by
      rw [List.nodup_middle, List.nodup_cons, List.mem_append, not_or] at hnodup
      exact hnodup.1
    have hskip {r : List κ} (hr : key c ∉ r) :
        (r.flatMap fun k => (c :: l).filter fun c => key c = k) =
          r.flatMap fun k => l.filter fun c => key c = k := by
      refine List.flatMap_congr fun k hk => List.filter_cons_of_neg ?_
      simpa using fun h : key c = k => hr (h ▸ hk)
    have hih := ih hmem.2
    rw [List.flatMap_append, List.flatMap_cons] at hih ⊢
    rw [hskip hs, hskip ht, List.filter_cons_of_pos (by simp), List.cons_append]
    exact List.perm_middle.trans (hih.cons c)

/-- Every value is filed, and filed once. -/
theorem flatMap_toList_appendAll_perm (l : List γ) :
    ((appendAll key value ∅ l).toList.flatMap Prod.snd).Perm (l.map value) := by
  have hmem : ∀ c ∈ l, key c ∈ (appendAll key value ∅ l).keys := by
    intro c hc
    rw [Std.TreeMap.mem_keys, mem_appendAll]
    exact Or.inr ⟨c, hc, rfl⟩
  rw [flatMap_toList]
  simp only [getD_appendAll, Std.TreeMap.getElem?_emptyc, Option.getD_none, List.nil_append]
  rw [← List.map_flatMap]
  exact (flatMap_filter_perm Std.TreeMap.nodup_keys hmem).map value

end Cloyster.Lib.Grouping
