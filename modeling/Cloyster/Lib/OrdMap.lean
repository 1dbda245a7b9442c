import Mathlib

/-! Finite maps that remember the order in which their keys were added. Setting
a key that is present changes its value in place; setting a new key adds a last
entry. Distinct keys are part of the type, so a lookup never has to choose
between two entries. -/

namespace Cloyster.Lib

variable {α β : Type*} [DecidableEq α]

/-- Set the value of `a` where its entry stands, or add a last entry. -/
def assocSet (a : α) (b : β) : List (α × β) → List (α × β)
  | [] => [(a, b)]
  | e :: l => if e.1 = a then (a, b) :: l else e :: assocSet a b l

theorem lookup_cons_eq (a : α) (e : α × β) (l : List (α × β)) :
    (e :: l).lookup a = if e.1 = a then some e.2 else l.lookup a := by
  obtain ⟨x, y⟩ := e
  by_cases h : x = a
  · subst h; simp
  · have hb : (a == x) = false := by simpa using fun h' => h h'.symm
    simp [List.lookup_cons, hb, h]

theorem lookup_assocSet (a : α) (b : β) (l : List (α × β)) (x : α) :
    (assocSet a b l).lookup x = if x = a then some b else l.lookup x := by
  induction l with
  | nil => simp only [assocSet, lookup_cons_eq, List.lookup_nil, eq_comm]
  | cons e l ih =>
    simp only [assocSet]
    split_ifs with he hx hx
    · subst hx; simp [lookup_cons_eq]
    · rw [lookup_cons_eq, lookup_cons_eq, he, if_neg (Ne.symm hx), if_neg (Ne.symm hx)]
    · subst hx; rw [lookup_cons_eq, if_neg he, ih, if_pos rfl]
    · rw [lookup_cons_eq, lookup_cons_eq, ih, if_neg hx]

theorem map_fst_assocSet (a : α) (b : β) (l : List (α × β)) :
    (assocSet a b l).map Prod.fst =
      if a ∈ l.map Prod.fst then l.map Prod.fst else l.map Prod.fst ++ [a] := by
  induction l with
  | nil => rfl
  | cons e l ih =>
    simp only [assocSet, List.map_cons, List.mem_cons]
    by_cases he : e.1 = a
    · simp [he]
    · have hne : ¬ a = e.1 := fun h => he h.symm
      rw [if_neg he, List.map_cons, ih]
      by_cases hm : a ∈ l.map Prod.fst
      · rw [if_pos hm, if_pos (Or.inr hm)]
      · rw [if_neg hm, if_neg (by simp only [hne, hm, or_self, not_false_eq_true]),
          List.cons_append]

theorem assocSet_of_lookup {a : α} {b : β} {l : List (α × β)} (h : l.lookup a = some b) :
    assocSet a b l = l := by
  induction l with
  | nil => simp at h
  | cons e l ih =>
    rw [lookup_cons_eq] at h
    simp only [assocSet]
    split_ifs at h ⊢ with he
    · obtain ⟨x, y⟩ := e
      simp only [Option.some.injEq] at h he
      rw [h, he]
    · rw [ih h]

theorem assocSet_of_not_mem {a : α} {b : β} {l : List (α × β)} (h : a ∉ l.map Prod.fst) :
    assocSet a b l = l ++ [(a, b)] := by
  induction l with
  | nil => rfl
  | cons e l ih =>
    rw [List.map_cons, List.mem_cons, not_or] at h
    rw [assocSet, if_neg (Ne.symm h.1), ih h.2, List.cons_append]

/-- An ordered finite map. -/
structure OrdMap (α β : Type*) where
  entries : List (α × β)
  nodup : (entries.map Prod.fst).Nodup
  deriving DecidableEq

namespace OrdMap

omit [DecidableEq α] in
theorem ext {m n : OrdMap α β} (h : m.entries = n.entries) : m = n := by
  cases m; cases n; simpa using h

omit [DecidableEq α] in
instance : EmptyCollection (OrdMap α β) := ⟨⟨[], List.nodup_nil⟩⟩

omit [DecidableEq α] in
instance : Inhabited (OrdMap α β) := ⟨∅⟩

def keys (m : OrdMap α β) : List α := m.entries.map Prod.fst

def get? (m : OrdMap α β) (a : α) : Option β := m.entries.lookup a

def contains (m : OrdMap α β) (a : α) : Bool := (m.get? a).isSome

def set (m : OrdMap α β) (a : α) (b : β) : OrdMap α β where
  entries := assocSet a b m.entries
  nodup := by
    rw [map_fst_assocSet]
    split_ifs with h
    · exact m.nodup
    · exact m.nodup.append (List.nodup_singleton a) (by simpa using h)

/-- Keep the entries whose key satisfies `p`. -/
def filterKeys (p : α → Bool) (m : OrdMap α β) : OrdMap α β where
  entries := m.entries.filter fun e => p e.1
  nodup := m.nodup.sublist (List.filter_sublist.map Prod.fst)

def erase (m : OrdMap α β) (a : α) : OrdMap α β := m.filterKeys fun x => !decide (x = a)

@[simp] theorem get?_empty (a : α) : (∅ : OrdMap α β).get? a = none := rfl

omit [DecidableEq α] in
@[simp] theorem keys_empty : (∅ : OrdMap α β).keys = [] := rfl

theorem get?_set (m : OrdMap α β) (a x : α) (b : β) :
    (m.set a b).get? x = if x = a then some b else m.get? x :=
  lookup_assocSet a b m.entries x

@[simp] theorem get?_set_self (m : OrdMap α β) (a : α) (b : β) : (m.set a b).get? a = some b := by
  rw [get?_set, if_pos rfl]

theorem get?_set_of_ne (m : OrdMap α β) {a x : α} (b : β) (h : x ≠ a) :
    (m.set a b).get? x = m.get? x := by
  rw [get?_set, if_neg h]

theorem keys_set (m : OrdMap α β) (a : α) (b : β) :
    (m.set a b).keys = if a ∈ m.keys then m.keys else m.keys ++ [a] :=
  map_fst_assocSet a b m.entries

/-- Writing the value a key already has changes nothing. -/
theorem set_of_get? {m : OrdMap α β} {a : α} {b : β} (h : m.get? a = some b) : m.set a b = m :=
  ext (assocSet_of_lookup h)

omit [DecidableEq α] in
theorem keys_nodup (m : OrdMap α β) : m.keys.Nodup := m.nodup

theorem get?_isSome_iff (m : OrdMap α β) (a : α) : (m.get? a).isSome ↔ a ∈ m.keys := by
  obtain ⟨l, hl⟩ := m
  simp only [get?, keys]
  induction l with
  | nil => simp
  | cons e l ih =>
    rw [lookup_cons_eq, List.map_cons, List.mem_cons]
    by_cases he : e.1 = a
    · simp [he]
    · rw [if_neg he, ih (List.nodup_cons.mp hl).2]
      simp [Ne.symm he]

theorem get?_of_mem_entries {m : OrdMap α β} {a : α} {b : β} (h : (a, b) ∈ m.entries) :
    m.get? a = some b := by
  obtain ⟨l, hl⟩ := m
  simp only [get?] at h ⊢
  induction l with
  | nil => exact absurd h List.not_mem_nil
  | cons e l ih =>
    rw [List.map_cons, List.nodup_cons] at hl
    rw [lookup_cons_eq]
    rcases List.mem_cons.mp h with rfl | h
    · rw [if_pos rfl]
    · have hne : e.1 ≠ a := fun he => hl.1 (he ▸ List.mem_map_of_mem h)
      rw [if_neg hne, ih hl.2 h]

theorem mem_keys_of_get? {m : OrdMap α β} {a : α} {b : β} (h : m.get? a = some b) : a ∈ m.keys :=
  (m.get?_isSome_iff a).mp (by rw [h]; rfl)

theorem get?_eq_none_iff (m : OrdMap α β) (a : α) : m.get? a = none ↔ a ∉ m.keys := by
  rw [← get?_isSome_iff, Option.not_isSome_iff_eq_none]

theorem exists_get?_of_mem {m : OrdMap α β} {a : α} (h : a ∈ m.keys) : ∃ b, m.get? a = some b :=
  Option.isSome_iff_exists.mp ((m.get?_isSome_iff a).mpr h)

theorem mem_keys_set (m : OrdMap α β) (a x : α) (b : β) :
    x ∈ (m.set a b).keys ↔ x = a ∨ x ∈ m.keys := by
  rw [← get?_isSome_iff, get?_set, ← get?_isSome_iff]
  split_ifs with h <;> simp [h]

theorem get?_filterKeys (p : α → Bool) (m : OrdMap α β) (a : α) :
    (m.filterKeys p).get? a = if p a then m.get? a else none := by
  obtain ⟨l, hl⟩ := m
  simp only [get?, filterKeys]
  clear hl
  induction l with
  | nil => simp
  | cons e l ih =>
    rw [List.filter_cons, lookup_cons_eq]
    by_cases hp : p e.1
    · rw [if_pos hp, lookup_cons_eq, ih]
      by_cases he : e.1 = a
      · subst he; simp [hp]
      · simp [he]
    · rw [if_neg hp, ih]
      by_cases he : e.1 = a
      · subst he; simp [hp]
      · simp [he]

omit [DecidableEq α] in
theorem filterKeys_of_forall {p : α → Bool} {m : OrdMap α β} (h : ∀ a ∈ m.keys, p a) :
    m.filterKeys p = m := by
  refine ext (List.filter_eq_self.mpr fun e he => ?_)
  exact h e.1 (List.mem_map_of_mem he)

theorem entries_set_of_not_mem {m : OrdMap α β} {a : α} {b : β} (h : a ∉ m.keys) :
    (m.set a b).entries = m.entries ++ [(a, b)] := assocSet_of_not_mem h

/-- Adding entries with new and distinct keys appends them. -/
theorem entries_foldl_set {l : List (α × β)} {m : OrdMap α β}
    (h : (m.keys ++ l.map Prod.fst).Nodup) :
    (l.foldl (fun m e => m.set e.1 e.2) m).entries = m.entries ++ l := by
  induction l generalizing m with
  | nil => simp
  | cons e l ih =>
    have hnew : e.1 ∉ m.keys := by
      intro hm
      exact (List.nodup_append.mp h).2.2 e.1 hm e.1 (by simp) rfl
    have hkeys : (m.set e.1 e.2).keys = m.keys ++ [e.1] := by
      rw [keys_set, if_neg hnew]
    rw [List.foldl_cons, ih (by simpa [hkeys] using h), entries_set_of_not_mem hnew,
      List.append_assoc, List.singleton_append]

/-- Adding the entries of a map to the empty one gives the map back. -/
theorem foldl_set_entries (m : OrdMap α β) :
    m.entries.foldl (fun acc e => acc.set e.1 e.2) ∅ = m :=
  ext (entries_foldl_set m.nodup)

theorem get?_erase (m : OrdMap α β) (a x : α) :
    (m.erase a).get? x = if x = a then none else m.get? x := by
  rw [erase, get?_filterKeys]
  by_cases h : x = a <;> simp [h]

/-! ### Setting several keys -/

/-- Maps with the same keys in the same order and the same values are equal. -/
theorem ext_get? {m n : OrdMap α β} (hkeys : m.keys = n.keys)
    (hget : ∀ a, m.get? a = n.get? a) : m = n := by
  apply ext
  have hmap : ∀ l : OrdMap α β, l.entries.map (fun e => (e.1, some e.2)) =
      l.keys.map fun a => (a, l.get? a) := by
    intro l
    rw [keys, List.map_map]
    apply List.map_congr_left
    intro e he
    rw [Function.comp_apply, get?_of_mem_entries he]
  have hsame : m.entries.map (fun e => (e.1, some e.2)) = n.entries.map fun e => (e.1, some e.2) := by
    rw [hmap, hmap, hkeys]
    apply List.map_congr_left
    intro a _
    rw [hget]
  refine List.map_injective_iff.mpr ?_ hsame
  rintro ⟨a, b⟩ ⟨c, d⟩ h
  simpa using h

/-- Only the last of two values for a key stays. -/
theorem set_set (m : OrdMap α β) (a : α) (b c : β) : (m.set a b).set a c = m.set a c := by
  apply ext_get?
  · have hmem : a ∈ (m.set a b).keys := (mem_keys_set m a a b).mpr (.inl rfl)
    rw [keys_set, if_pos hmem, keys_set, keys_set]
  · intro x
    rw [get?_set, get?_set, get?_set]
    split_ifs <;> rfl

/-- A key that is present keeps its place, so it can be set before or after another one. -/
theorem set_comm {m : OrdMap α β} {a b : α} (ha : a ∈ m.keys) (hne : a ≠ b) (x y : β) :
    (m.set b y).set a x = (m.set a x).set b y := by
  apply ext_get?
  · have hb : a ∈ (m.set b y).keys := (mem_keys_set m b a y).mpr (.inr ha)
    have hkeys : (m.set a x).keys = m.keys := by rw [keys_set, if_pos ha]
    rw [keys_set, if_pos hb, keys_set, keys_set, hkeys]
  · intro z
    rw [get?_set, get?_set, get?_set, get?_set]
    by_cases hz : z = a
    · subst hz
      rw [if_pos rfl, if_pos rfl, if_neg hne]
    · rw [if_neg hz, if_neg hz]

end OrdMap

/-! ### Sets of values told apart by a key -/

/-- Add a value, unless one with its key is there. -/
def emplaceBy (key : β → α) (set : List β) (b : β) : List β :=
  if key b ∈ set.map key then set else set ++ [b]

variable {key : β → α}

theorem nodup_foldl_emplaceBy {l set : List β} (h : (set.map key).Nodup) :
    ((l.foldl (emplaceBy key) set).map key).Nodup := by
  induction l generalizing set with
  | nil => exact h
  | cons b l ih =>
    refine ih ?_
    unfold emplaceBy
    split_ifs with hb
    · exact h
    · rw [List.map_append]
      exact h.append (List.nodup_singleton _) (by simpa using hb)

/-- What is added comes after what is there, in the order in which it is added. -/
theorem sublist_foldl_emplaceBy_append (l set : List β) :
    (l.foldl (emplaceBy key) set).Sublist (set ++ l) := by
  induction l generalizing set with
  | nil => simp
  | cons b l ih =>
    refine (ih _).trans ?_
    unfold emplaceBy
    split_ifs
    · exact (List.sublist_cons_self b l).append_left set
    · simp

/-- The value that stands for a key is the first one with it. -/
theorem find?_foldl_emplaceBy (l set : List β) (a : α) :
    (l.foldl (emplaceBy key) set).find? (key · = a) =
      (set.find? (key · = a)).or (l.find? (key · = a)) := by
  induction l generalizing set with
  | nil => simp
  | cons b l ih =>
    rw [List.foldl_cons, ih, List.find?_cons]
    unfold emplaceBy
    split_ifs with hb
    · by_cases ha : key b = a
      · subst ha
        have hfound : (set.find? (key · = key b)).isSome := by
          rw [List.find?_isSome]
          simpa using hb
        obtain ⟨c, hc⟩ := Option.isSome_iff_exists.mp hfound
        simp [hc]
      · simp [ha]
    · rw [List.find?_append, Option.or_assoc, List.find?_singleton]
      by_cases ha : key b = a
      · simp [ha]
      · simp [ha]

theorem find?_of_mem_of_nodup {set : List β} (h : (set.map key).Nodup) {b : β} (hb : b ∈ set) :
    set.find? (key · = key b) = some b := by
  induction set with
  | nil => exact absurd hb List.not_mem_nil
  | cons c set ih =>
    rw [List.map_cons, List.nodup_cons] at h
    rw [List.find?_cons]
    rcases List.mem_cons.mp hb with rfl | hb
    · simp
    · have hne : key c ≠ key b := fun he => h.1 (he ▸ List.mem_map_of_mem hb)
      simp only [hne, decide_false]
      exact ih h.2 hb

/-- A set holds of each key the first value that was added with it. -/
theorem mem_foldl_emplaceBy_iff (l : List β) (b : β) :
    b ∈ l.foldl (emplaceBy key) [] ↔ l.find? (key · = key b) = some b := by
  have hfind : (l.foldl (emplaceBy key) []).find? (key · = key b) = l.find? (key · = key b) := by
    rw [find?_foldl_emplaceBy, List.find?_nil, Option.none_or]
  rw [← hfind]
  constructor
  · exact find?_of_mem_of_nodup (nodup_foldl_emplaceBy (by simp))
  · exact List.mem_of_find?_eq_some

end Cloyster.Lib
