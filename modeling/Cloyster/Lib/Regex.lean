import Cloyster.Lib.Lines

/-! The usual shorthands for regular expressions: classes of characters, `+` and `?`. What
they match is said without derivatives, and for pieces that a separator keeps apart it is
said of the list cut at the separator. -/

namespace Cloyster.Lib.Regex

open RegularExpression

variable {α : Type*} [DecidableEq α] {r : RegularExpression α} {x : List α} {sep : α}

/-- A class of characters. -/
def oneOf (cs : List α) : RegularExpression α := cs.foldr (fun a r => char a + r) 0

def oneOrMore (r : RegularExpression α) : RegularExpression α := r * r.star

def optional (r : RegularExpression α) : RegularExpression α := 1 + r

theorem oneOf_rmatch_iff (cs : List α) : (oneOf cs).rmatch x ↔ ∃ a ∈ cs, x = [a] := by
  induction cs with
  | nil => simp [oneOf]
  | cons c cs ih =>
    show (char c + oneOf cs).rmatch x ↔ _
    rw [add_rmatch_iff, char_rmatch_iff, ih]
    simp

theorem optional_rmatch_iff : (optional r).rmatch x ↔ x = [] ∨ r.rmatch x := by
  rw [optional, add_rmatch_iff, one_rmatch_iff]

theorem star_rmatch_flatten {S : List (List α)} (h : ∀ t ∈ S, r.rmatch t) :
    r.star.rmatch S.flatten := by
  rw [star_rmatch_iff]
  refine ⟨S.filter (· ≠ []), ?_, ?_⟩
  · induction S with
    | nil => rfl
    | cons t S ih =>
      rw [List.forall_mem_cons] at h
      rw [List.flatten_cons, List.filter_cons, ih h.2]
      split_ifs with ht
      · rw [List.flatten_cons]
      · rw [show t = [] by simpa using ht, List.nil_append]
  · intro t ht
    obtain ⟨hmem, hne⟩ := List.mem_filter.mp ht
    exact ⟨by simpa using hne, h t hmem⟩

theorem star_oneOf_rmatch_iff (cs : List α) : (oneOf cs).star.rmatch x ↔ ∀ a ∈ x, a ∈ cs := by
  constructor
  · rw [star_rmatch_iff]
    rintro ⟨S, rfl, hS⟩ a ha
    obtain ⟨t, ht, hat⟩ := List.mem_flatten.mp ha
    obtain ⟨b, hb, rfl⟩ := (oneOf_rmatch_iff cs).mp (hS t ht).2
    rwa [List.mem_singleton.mp hat]
  · intro h
    have hflatten : (x.map fun a => [a]).flatten = x := by
      induction x with
      | nil => rfl
      | cons a x ih => simp [ih fun b hb => h b (List.mem_cons_of_mem _ hb)]
    rw [← hflatten]
    apply star_rmatch_flatten
    intro t ht
    obtain ⟨a, ha, rfl⟩ := List.mem_map.mp ht
    exact (oneOf_rmatch_iff cs).mpr ⟨a, h a ha, rfl⟩

/-- One or more characters of a class. -/
theorem oneOrMore_oneOf_rmatch_iff (cs : List α) :
    (oneOrMore (oneOf cs)).rmatch x ↔ x ≠ [] ∧ ∀ a ∈ x, a ∈ cs := by
  rw [oneOrMore, mul_rmatch_iff]
  simp only [oneOf_rmatch_iff, star_oneOf_rmatch_iff]
  constructor
  · rintro ⟨_, u, rfl, ⟨a, ha, rfl⟩, hu⟩
    simpa [ha] using hu
  · rintro ⟨hne, hx⟩
    cases x with
    | nil => exact absurd rfl hne
    | cons a u =>
      rw [List.forall_mem_cons] at hx
      exact ⟨[a], u, rfl, ⟨a, hx.1, rfl⟩, hx.2⟩

/-! ### Pieces with a separator -/

theorem star_terminated_rmatch_iff : (r * char sep).star.rmatch x ↔
    ∃ ls, x = Lines.terminated sep ls ∧ ∀ l ∈ ls, r.rmatch l := by
  constructor
  · rw [star_rmatch_iff]
    rintro ⟨S, rfl, hS⟩
    induction S with
    | nil => exact ⟨[], rfl, by simp⟩
    | cons t S ih =>
      rw [List.forall_mem_cons] at hS
      obtain ⟨ls, hls, hmatch⟩ := ih hS.2
      obtain ⟨l, s, rfl, hl, hs⟩ := (mul_rmatch_iff _ _ _).mp hS.1.2
      obtain rfl := (char_rmatch_iff _ _).mp hs
      refine ⟨l :: ls, ?_, ?_⟩
      · rw [List.flatten_cons, hls, Lines.terminated_cons, List.append_assoc,
          List.singleton_append]
      · rw [List.forall_mem_cons]
        exact ⟨hl, hmatch⟩
  · rintro ⟨ls, rfl, hmatch⟩
    rw [Lines.terminated, List.flatMap_def]
    apply star_rmatch_flatten
    intro t ht
    obtain ⟨l, hl, rfl⟩ := List.mem_map.mp ht
    exact (mul_rmatch_iff _ _ _).mpr ⟨l, [sep], rfl, hmatch l hl, (char_rmatch_iff _ _).mpr rfl⟩

/-- Pieces without the separator, two at least, are what cutting at it gives back. -/
theorem separated_rmatch_iff (hr : ∀ l, r.rmatch l → sep ∉ l) :
    (oneOrMore (r * char sep) * r).rmatch x ↔
      2 ≤ (x.splitOn sep).length ∧ ∀ l ∈ x.splitOn sep, r.rmatch l := by
  simp only [oneOrMore, mul_rmatch_iff, char_rmatch_iff, star_terminated_rmatch_iff]
  constructor
  · rintro ⟨_, u, rfl, ⟨_, _, rfl, ⟨l, _, rfl, hl, rfl⟩, ls, rfl, hls⟩, hu⟩
    have hall : ∀ m ∈ l :: ls, r.rmatch m := by
      rw [List.forall_mem_cons]
      exact ⟨hl, hls⟩
    have hsplit := Lines.splitOn_terminated_append (fun m hm => hr m (hall m hm)) (hr u hu)
    rw [Lines.terminated_cons, List.append_assoc, List.cons_append] at hsplit
    rw [List.append_assoc, List.append_assoc, List.singleton_append, hsplit]
    refine ⟨by simp, fun m hm => ?_⟩
    rcases List.mem_append.mp hm with hm | hm
    · exact hall m hm
    · rwa [List.mem_singleton.mp hm]
  · rintro ⟨hlength, hall⟩
    obtain ⟨ls, u, rfl, hls, hu⟩ := Lines.exists_terminated sep x
    rw [Lines.splitOn_terminated_append hls hu] at hlength hall
    cases ls with
    | nil => exact absurd hlength (by simp)
    | cons l ls =>
      refine ⟨_, u, rfl, ⟨l ++ [sep], _, ?_, ⟨l, _, rfl, hall l (by simp), rfl⟩, ls, rfl, ?_⟩,
        hall u (by simp)⟩
      · rw [Lines.terminated_cons, List.append_assoc, List.singleton_append]
      · exact fun m hm => hall m (by simp [hm])

end Cloyster.Lib.Regex
