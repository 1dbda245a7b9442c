import Cloyster.Lib.Loop
import Cloyster.Lib.Pieces

/-! `cloyster::functions::findAndReplace`. The loop edits the string that it searches, and goes
on behind what it has just inserted, so inserted text is never searched. Each round makes the
part that is still to be searched shorter by what was found, which is why it ends when there is
something to find and never when there is not. Strings are bytes without a limit to their
number. -/

namespace Cloyster

open Lib Lib.Pieces

/-- `std::string::find`. -/
def findFrom (s sub : List UInt8) (pos : ℕ) : Option ℕ :=
  if pos ≤ s.length then (firstIndex sub (s.drop pos)).map (pos + ·) else none

/-- `std::string::replace` of `n` bytes from `pos` on. -/
def replaceAt (s : List UInt8) (pos n : ℕ) (str : List UInt8) : List UInt8 :=
  s.take pos ++ str ++ s.drop (pos + n)

/-- The string so far, and the position from which it is searched. -/
structure ReplaceState where
  result : List UInt8
  pos : ℕ := 0

def replaceRound (find replace : List UInt8) (s : ReplaceState) :
    Round ReplaceState (List UInt8) :=
  match findFrom s.result find s.pos with
  | none => .leave s.result
  | some pos => .go
    { result := replaceAt s.result pos find.length replace
      pos := pos + replace.length }

/-- The result, unless more rounds are needed than `fuel`. -/
def findAndReplace (fuel : ℕ) (source find replace : List UInt8) : Option (List UInt8) :=
  Round.run (replaceRound find replace) fuel { result := source }

/-- The call returns, and if there is something to find it returns the source cut at its
occurrences, joined with the replacement. -/
def ReplacesAll (source find replace : List UInt8) : Prop :=
  ∃ n result, (∀ fuel ≥ n, findAndReplace fuel source find replace = some result) ∧
    (find ≠ [] → result = replace.intercalate (splitOnList find source))

variable {find replace done rest source : List UInt8}

theorem findFrom_done (sub : List UInt8) :
    findFrom (done ++ rest) sub done.length = (firstIndex sub rest).map (done.length + ·) := by
  rw [findFrom, if_pos (by simp), List.drop_left]

theorem replaceRound_none (h : firstIndex find rest = none) :
    replaceRound find replace ⟨done ++ rest, done.length⟩ = .leave (done ++ rest) := by
  simp only [replaceRound, findFrom_done, h, Option.map_none]

/-- What was found is replaced, and what follows it is still to be searched. -/
theorem replaceRound_some {l r : List UInt8} (h : FirstAfter find l r) :
    replaceRound find replace ⟨done ++ (l ++ find ++ r), done.length⟩ =
      .go ⟨(done ++ (l ++ replace)) ++ r, (done ++ (l ++ replace)).length⟩ := by
  have htake : (done ++ (l ++ find ++ r)).take (done.length + l.length) = done ++ l := by
    rw [List.take_length_add_append, List.append_assoc, List.take_left]
  have hdrop : (done ++ (l ++ find ++ r)).drop (done.length + l.length + find.length) = r := by
    rw [Nat.add_assoc, List.drop_length_add_append, ← List.length_append, List.drop_left]
  simp only [replaceRound, findFrom_done, show firstIndex find (l ++ find ++ r) = some l.length from h,
    Option.map_some, replaceAt, htake, hdrop]
  simp [Nat.add_assoc]

/-- Done so far is the start of the result, and the rest is what the cuts still come from. -/
def Replacing (find replace source : List UInt8) (s : ReplaceState) : Prop :=
  ∃ done rest, s = ⟨done ++ rest, done.length⟩ ∧
    done ++ replace.intercalate (splitOnList find rest) =
      replace.intercalate (splitOnList find source)

/-- A round moves on behind what it replaces, or leaves with nothing left to find. -/
theorem Replacing.round (hfind : find ≠ []) {s : ReplaceState}
    (hs : Replacing find replace source s) :
    (replaceRound find replace s).Post
      (fun t => Replacing find replace source t ∧
        t.result.length - t.pos < s.result.length - s.pos)
      (· = replace.intercalate (splitOnList find source)) := by
  obtain ⟨done, rest, rfl, hsplit⟩ := hs
  cases hfirst : firstIndex find rest with
  | none =>
    rw [splitOnList_eq_singleton (firstIndex_eq_none_iff.mp hfirst)] at hsplit
    rw [replaceRound_none hfirst, ← hsplit]
    simp [Round.Post, List.intercalate]
  | some i =>
    obtain ⟨l, r, rfl, rfl, hafter⟩ := exists_firstAfter hfirst
    rw [splitOnList_of_firstAfter hfind hafter, intercalate_cons_splitOnList] at hsplit
    rw [replaceRound_some hafter]
    refine ⟨⟨done ++ (l ++ replace), r, rfl, ?_⟩, ?_⟩
    · rw [← hsplit]
      simp
    · have hpos := List.length_pos_iff.mpr hfind
      simp only [List.length_append]
      omega

theorem ends_replaceRound (hfind : find ≠ []) (replace source : List UInt8) :
    Round.Ends (replaceRound find replace) { result := source }
      (replace.intercalate (splitOnList find source)) := by
  have hstart : Replacing find replace source { result := source } := ⟨[], source, rfl, rfl⟩
  obtain ⟨result, hends, rfl⟩ := Round.ends_of_measure (Replacing find replace source)
    (· = replace.intercalate (splitOnList find source)) (fun s => s.result.length - s.pos)
    (fun _ hs => hs.round hfind) hstart
  exact hends

/-- Nothing is found everywhere, so there is always another round. -/
theorem not_ends_replaceRound (replace source result : List UInt8) :
    ¬ Round.Ends (replaceRound [] replace) { result := source } result := by
  refine Round.not_ends_of_invariant
    (fun s => ∃ done rest, s = ⟨done ++ rest, done.length⟩) ?_ ⟨[], source, rfl⟩
  rintro _ ⟨done, rest, rfl⟩
  have hafter : FirstAfter [] [] rest := firstIndex_nil rest
  exact ⟨_, replaceRound_some hafter, _, _, rfl⟩

/-- All is replaced exactly when there is something to find. -/
theorem replacesAll_iff (source find replace : List UInt8) :
    ReplacesAll source find replace ↔ find ≠ [] := by
  constructor
  · rintro ⟨n, result, hreturns, -⟩ rfl
    exact not_ends_replaceRound replace source result ⟨n, hreturns n le_rfl⟩
  · intro hfind
    obtain ⟨n, hrun⟩ := ends_replaceRound hfind replace source
    exact ⟨n, _, fun fuel hfuel => Round.run_mono hfuel hrun, fun _ => rfl⟩

/-- Looking for nothing to insert nothing. -/
theorem not_replacesAll_empty : ¬ ReplacesAll [97] [] [] := by
  rintro ⟨n, result, hreturns, -⟩
  exact not_ends_replaceRound [] [97] result ⟨n, hreturns n le_rfl⟩

end Cloyster
