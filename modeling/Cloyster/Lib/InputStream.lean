import Cloyster.Lib.Lines

/-! Input streams with the state bits of the standard library, and what the same call made
again and again answers. -/

namespace Cloyster.Lib

/-- What is still to be read, and the two bits that end a stream. -/
structure InputStream (α : Type*) where
  input : List α
  eofbit : Bool := false
  failbit : Bool := false
  deriving DecidableEq

namespace InputStream

open Lines

variable {α : Type*} [DecidableEq α] {sep : α} {l r : List α}

def good (s : InputStream α) : Bool := !s.eofbit && !s.failbit

/-- `std::getline`. The separator is taken and not stored. A call that takes nothing fails, and
one that meets the end of the stream sets the end bit. -/
def getline (sep : α) (s : InputStream α) : Option (List α) × InputStream α :=
  if !s.good then (none, { s with failbit := true })
  else
    let line := s.input.takeWhile (· ≠ sep)
    match s.input.dropWhile (· ≠ sep) with
    | _ :: input => (some line, { s with input })
    | [] =>
      if line = [] then (none, ⟨[], true, true⟩)
      else (some line, { s with input := [], eofbit := true })

theorem getline_separator (hl : sep ∉ l) (r : List α) :
    getline sep ⟨l ++ sep :: r, false, false⟩ = (some l, ⟨r, false, false⟩) := by
  rw [getline, if_neg (by simp [good])]
  dsimp only
  rw [Lines.dropWhile_append_cons hl, Lines.takeWhile_append_cons hl]

/-- A line that has not ended is given once, and the stream is at its end. -/
theorem getline_last (hl : sep ∉ l) (hne : l ≠ []) :
    getline sep ⟨l, false, false⟩ = (some l, ⟨[], true, false⟩) := by
  have hall : ∀ a ∈ l, decide (a ≠ sep) := fun a ha =>
    decide_eq_true (fun he => hl (he ▸ ha))
  have htake : l.takeWhile (· ≠ sep) = l := List.takeWhile_eq_self_iff.mpr hall
  have hdrop : l.dropWhile (· ≠ sep) = [] := List.dropWhile_eq_nil_iff.mpr hall
  rw [getline, if_neg (by simp [good])]
  dsimp only
  rw [hdrop, htake, if_neg hne]

@[simp] theorem getline_nil (sep : α) :
    getline sep ⟨[], false, false⟩ = (none, ⟨[], true, true⟩) := rfl

theorem length_input_lt {s t : InputStream α} (h : getline sep s = (some l, t)) :
    t.input.length < s.input.length := by
  have hsplit := congrArg List.length
    (List.takeWhile_append_dropWhile (p := (· ≠ sep)) (l := s.input))
  rw [List.length_append] at hsplit
  unfold getline at h
  split_ifs at h with hgood
  · cases (Prod.mk.inj h).1
  dsimp only at h
  split at h
  · rename_i a input hdrop
    rw [hdrop, List.length_cons] at hsplit
    obtain ⟨-, rfl⟩ := Prod.mk.inj h
    dsimp only
    omega
  · by_cases hline : s.input.takeWhile (· ≠ sep) = []
    · rw [if_pos hline] at h
      cases (Prod.mk.inj h).1
    rw [if_neg hline] at h
    obtain ⟨-, rfl⟩ := Prod.mk.inj h
    have hpos := List.length_pos_iff.mpr hline
    dsimp only [List.length_nil]
    omega

/-- How often the stream can still be read while it is good. -/
def left (s : InputStream α) : ℕ := if s.good then s.input.length + 1 else 0

theorem left_getline_lt {s : InputStream α} (h : s.good) : (getline sep s).2.left < s.left := by
  cases hline : getline sep s with
  | mk line t =>
    rw [left, left, if_pos h]
    cases line with
    | some line =>
      have hlt := length_input_lt hline
      split_ifs with hgood
      · exact Nat.succ_lt_succ hlt
      · exact Nat.succ_pos _
    | none =>
      -- a call that takes nothing sets the end bit
      rw [getline, if_neg (by simp [h])] at hline
      dsimp only at hline
      split at hline
      · cases (Prod.mk.inj hline).1
      · split_ifs at hline
        · obtain ⟨-, rfl⟩ := Prod.mk.inj hline
          simp [good]
        · cases (Prod.mk.inj hline).1

/-- `while (stream.good())` with one `std::getline` a round, into a new string each time. -/
def linesWhileGood (sep : α) (s : InputStream α) : List (List α) :=
  if _h : s.good then
    (getline sep s).1.getD [] :: linesWhileGood sep (getline sep s).2
  else []
termination_by s.left
decreasing_by exact left_getline_lt _h

theorem linesWhileGood_of_getline {s t : InputStream α} {line : Option (List α)}
    (hgood : s.good) (h : getline sep s = (line, t)) :
    linesWhileGood sep s = line.getD [] :: linesWhileGood sep t := by
  rw [linesWhileGood, dif_pos hgood, h]

theorem linesWhileGood_of_not_good {s : InputStream α} (h : s.good = false) :
    linesWhileGood sep s = [] := by
  rw [linesWhileGood, dif_neg (by simp [h])]

/-- An empty rest is read as an empty line. -/
theorem linesWhileGood_eq (cs : List α) :
    linesWhileGood sep ⟨cs, false, false⟩ = cs.splitOn sep := by
  induction cs using lines_induction sep with
  | last r hr =>
    rw [List.splitOn_eq_singleton hr]
    by_cases hne : r = []
    · subst hne
      rw [linesWhileGood_of_getline rfl (getline_nil sep), linesWhileGood_of_not_good rfl]
      rfl
    · rw [linesWhileGood_of_getline rfl (getline_last hr hne), linesWhileGood_of_not_good rfl]
      rfl
  | line l cs hl ih =>
    rw [linesWhileGood_of_getline rfl (getline_separator hl cs), ih,
      List.splitOn_append_cons_self_of_not_mem hl]
    rfl

/-- `std::istream::read` of `n` characters. A call that finds fewer takes what is there and sets
both bits. What was taken is the answer, so its length is `gcount`. -/
def read (n : ℕ) (s : InputStream α) : List α × InputStream α :=
  if !s.good then ([], { s with failbit := true })
  else if n ≤ s.input.length then (s.input.take n, { s with input := s.input.drop n })
  else (s.input, ⟨[], true, true⟩)

omit [DecidableEq α] in
theorem read_of_le {n : ℕ} {input : List α} (h : n ≤ input.length) :
    read n ⟨input, false, false⟩ = (input.take n, ⟨input.drop n, false, false⟩) := by
  rw [read, if_neg (by simp [good]), if_pos h]

omit [DecidableEq α] in
theorem read_of_lt {n : ℕ} {input : List α} (h : input.length < n) :
    read n ⟨input, false, false⟩ = (input, ⟨[], true, true⟩) := by
  rw [read, if_neg (by simp [good]), if_neg (by simpa using h)]

end InputStream

/-! ### The same call again and again -/

variable {σ β : Type}

/-- The answer of call number `n`, the first being 0. -/
def answer (f : StateM σ β) (s : σ) : ℕ → β
  | 0 => (f s).1
  | n + 1 => answer f (f s).2 n

/-- Every call is answered by the next entry of a list, and by nothing when there is none. -/
def Yields (f : StateM σ (Option β)) (s : σ) (l : List β) : Prop := ∀ n, answer f s n = l[n]?

theorem yields_nil {f : StateM σ (Option β)} {s : σ} (h : f s = (none, s)) : Yields f s [] := by
  intro n
  induction n with
  | zero => simp [answer, h]
  | succ n ih => simpa [answer, h] using ih

theorem yields_cons {f : StateM σ (Option β)} {s t : σ} {b : β} {l : List β}
    (h : f s = (some b, t)) (hl : Yields f t l) : Yields f s (b :: l) := by
  intro n
  cases n with
  | zero => simp [answer, h]
  | succ n => simpa [answer, h] using hl n

theorem yields_of_none {f : StateM σ (Option β)} {s t : σ} (h : f s = (none, t))
    (hl : Yields f t []) : Yields f s [] := by
  intro n
  cases n with
  | zero => simp [answer, h]
  | succ n => simpa [answer, h] using hl n

/-- What is yielded is determined. -/
theorem Yields.eq {f : StateM σ (Option β)} {s : σ} {l m : List β} (hl : Yields f s l)
    (hm : Yields f s m) : l = m :=
  List.ext_getElem? fun n => (hl n).symm.trans (hm n)

end Cloyster.Lib
