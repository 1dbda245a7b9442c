import Cloyster.Lib.Text

/-! Regular expressions that are a fixed sequence of character classes. Where groups of one
class are kept apart by another class, matching is cutting at the separators. -/

namespace Cloyster.Lib.Text

variable {p q : Char → Bool} {classes classes' : List (Char → Bool)} {s l r : List Char} {m n : ℕ}

theorem length_of_matchesClasses (h : matchesClasses classes s) : s.length = classes.length := by
  induction classes generalizing s with
  | nil =>
    cases s with
    | nil => rfl
    | cons c s => exact absurd h (by simp [matchesClasses])
  | cons cls classes ih =>
    cases s with
    | nil => exact absurd h (by simp [matchesClasses])
    | cons c s =>
      rw [matchesClasses, Bool.and_eq_true] at h
      rw [List.length_cons, List.length_cons, ih h.2]

theorem matchesClasses_append (h : l.length = classes.length) :
    matchesClasses (classes ++ classes') (l ++ r) ↔
      matchesClasses classes l ∧ matchesClasses classes' r := by
  induction classes generalizing l with
  | nil =>
    obtain rfl := List.length_eq_zero_iff.mp h
    simp [matchesClasses]
  | cons cls classes ih =>
    cases l with
    | nil => simp at h
    | cons c l =>
      simp only [List.cons_append, matchesClasses, Bool.and_eq_true, and_assoc]
      rw [ih (by simpa using h)]

theorem matchesClasses_replicate :
    matchesClasses (List.replicate m p) s ↔ s.length = m ∧ ∀ c ∈ s, p c := by
  induction m generalizing s with
  | zero => cases s <;> simp [matchesClasses]
  | succ m ih =>
    cases s with
    | nil => simp [List.replicate_succ, matchesClasses]
    | cons c s =>
      rw [List.replicate_succ, matchesClasses, Bool.and_eq_true, ih, List.forall_mem_cons,
        List.length_cons, Nat.succ_inj]
      exact and_left_comm

/-! ### Groups with separators -/

/-- Cut at the separators there are `n` groups, each of `m` characters of the class. -/
def Groups (n m : ℕ) (p q : Char → Bool) (s : List Char) : Prop :=
  (s.splitOnP q).length = n ∧ ∀ g ∈ s.splitOnP q, g.length = m ∧ ∀ c ∈ g, p c

/-- `n` separators, each after a group, and a last group. -/
def groupClasses (n m : ℕ) (p q : Char → Bool) : List (Char → Bool) :=
  (List.replicate n (List.replicate m p ++ [q])).flatten ++ List.replicate m p

theorem groupClasses_succ (n m : ℕ) (p q : Char → Bool) :
    groupClasses (n + 1) m p q = List.replicate m p ++ q :: groupClasses n m p q := by
  simp [groupClasses, List.replicate_succ]

/-- Until the next separator there is one group. -/
theorem groups_append (hpq : ∀ c, p c → q c = false) {sep : Char} (hsep : q sep) :
    Groups (n + 1) m p q (l ++ sep :: r) ∧ (∀ c ∈ l, q c = false) ↔
      (l.length = m ∧ ∀ c ∈ l, p c) ∧ Groups n m p q r := by
  constructor
  · rintro ⟨⟨hlen, hgroups⟩, hl⟩
    rw [List.splitOnP_append_cons_of_forall_mem hl sep hsep] at hlen hgroups
    rw [List.forall_mem_cons] at hgroups
    exact ⟨hgroups.1, by simpa using hlen, hgroups.2⟩
  · rintro ⟨hfirst, hlen, hgroups⟩
    have hl : ∀ c ∈ l, q c = false := fun c hc => hpq c (hfirst.2 c hc)
    refine ⟨⟨?_, ?_⟩, hl⟩ <;> rw [List.splitOnP_append_cons_of_forall_mem hl sep hsep]
    · rw [List.length_cons, hlen]
    · rw [List.forall_mem_cons]
      exact ⟨hfirst, hgroups⟩

/-- There is no separator, or a first one. -/
theorem exists_first_separator (q : Char → Bool) (s : List Char) :
    (∀ c ∈ s, q c = false) ∨
      ∃ l sep r, s = l ++ sep :: r ∧ (∀ c ∈ l, q c = false) ∧ q sep = true := by
  induction s with
  | nil => simp
  | cons c s ih =>
    by_cases hc : q c
    · exact Or.inr ⟨[], c, s, rfl, by simp, hc⟩
    · rw [Bool.not_eq_true] at hc
      obtain hnone | ⟨l, sep, r, rfl, hl, hsep⟩ := ih
      · exact Or.inl (List.forall_mem_cons.mpr ⟨hc, hnone⟩)
      · exact Or.inr ⟨c :: l, sep, r, rfl, List.forall_mem_cons.mpr ⟨hc, hl⟩, hsep⟩

/-- Nothing is cut where there is no separator. -/
theorem groups_of_forall (hs : ∀ c ∈ s, q c = false) :
    Groups n m p q s ↔ n = 1 ∧ s.length = m ∧ ∀ c ∈ s, p c := by
  rw [Groups, List.splitOnP_eq_singleton hs, List.length_singleton, List.forall_mem_singleton,
    eq_comm]

theorem matchesClasses_groups (hpq : ∀ c, p c → q c = false) :
    matchesClasses (groupClasses n m p q) s ↔ Groups (n + 1) m p q s := by
  induction n generalizing s with
  | zero =>
    rw [groupClasses, List.replicate_zero, List.flatten_nil, List.nil_append,
      matchesClasses_replicate]
    obtain hnone | ⟨l, sep, r, rfl, hl, hsep⟩ := exists_first_separator q s
    · rw [groups_of_forall hnone]
      simp
    · constructor
      · rintro ⟨-, hall⟩
        have hq := hpq sep (hall sep (by simp))
        rw [hq] at hsep
        exact absurd hsep (by simp)
      · intro h
        obtain ⟨-, hlen, -⟩ := (groups_append hpq hsep).mp ⟨h, hl⟩
        exact absurd (List.length_eq_zero_iff.mp hlen) (List.splitOnP_ne_nil q r)
  | succ n ih =>
    rw [groupClasses_succ]
    constructor
    · intro h
      have hlen := length_of_matchesClasses h
      rw [List.length_append, List.length_replicate, List.length_cons] at hlen
      obtain ⟨l, c, r, rfl, hl⟩ : ∃ l c r, s = l ++ c :: r ∧ l.length = m := by
        refine ⟨s.take m, s[m], s.drop (m + 1), ?_, List.length_take_of_le (by omega)⟩
        rw [List.getElem_cons_drop, List.take_append_drop]
      rw [matchesClasses_append (by rw [hl, List.length_replicate]), matchesClasses_replicate,
        matchesClasses, Bool.and_eq_true, ih] at h
      exact ((groups_append hpq h.2.1).mpr ⟨h.1, h.2.2⟩).1
    · intro h
      obtain hnone | ⟨l, sep, r, rfl, hl, hsep⟩ := exists_first_separator q s
      · rw [groups_of_forall hnone] at h
        omega
      · obtain ⟨hfirst, hrest⟩ := (groups_append hpq hsep).mp ⟨h, hl⟩
        rw [matchesClasses_append (by rw [hfirst.1, List.length_replicate]),
          matchesClasses_replicate, matchesClasses, Bool.and_eq_true, ih]
        exact ⟨hfirst, hsep, hrest⟩

/-- The cuts depend on which characters of the list are separators only. -/
theorem groups_congr {q' : Char → Bool} (h : ∀ c ∈ s, q c = q' c) :
    Groups n m p q s ↔ Groups n m p q' s := by
  have hsplit : s.splitOnP q = s.splitOnP q' := by
    induction s with
    | nil => rfl
    | cons c s ih =>
      rw [List.forall_mem_cons] at h
      rw [List.splitOnP_cons_eq_if_modifyHead, List.splitOnP_cons_eq_if_modifyHead, h.1, ih h.2]
  rw [Groups, Groups, hsplit]

/-- Every character is a separator or in a group. -/
theorem Groups.forall (h : Groups n m p q s) : ∀ c ∈ s, q c ∨ p c := by
  intro c hc
  by_contra hnot
  rw [not_or, Bool.not_eq_true] at hnot
  obtain ⟨hq, hp⟩ := hnot
  obtain ⟨-, hgroups⟩ := h
  suffices hmem : ∃ g ∈ s.splitOnP q, c ∈ g by
    obtain ⟨g, hg, hcg⟩ := hmem
    exact hp ((hgroups g hg).2 c hcg)
  clear hgroups hp
  induction s with
  | nil => simp at hc
  | cons d s ih =>
    rw [List.splitOnP_cons_eq_if_modifyHead]
    obtain ⟨g, gs, hgs⟩ := List.exists_cons_of_ne_nil (List.splitOnP_ne_nil q s)
    rcases List.mem_cons.mp hc with rfl | hc
    · simp [hq, hgs]
    · obtain ⟨g', hg', hcg⟩ := ih hc
      split_ifs
      · exact ⟨g', List.mem_cons_of_mem _ hg', hcg⟩
      · rw [hgs] at hg' ⊢
        rcases List.mem_cons.mp hg' with rfl | hg'
        · exact ⟨d :: g', by simp, List.mem_cons_of_mem _ hcg⟩
        · exact ⟨g', by simp [hg'], hcg⟩

end Cloyster.Lib.Text
