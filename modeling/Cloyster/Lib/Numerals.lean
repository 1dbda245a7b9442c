import Cloyster.Lib.Text

/-! Decimal numerals and what the standard conversions make of a text. A numeral is
digits and nothing else. The conversions also take blanks and a sign before the
digits and anything after them, so they accept more, and give up only on a text
without a digit in that place or on a number that is too large. -/

namespace Cloyster.Lib.Text

/-- Digits only, and at least one. -/
def IsNumeral (ds : List Char) : Prop := ds ≠ [] ∧ ∀ c ∈ ds, c.isDigit

-- over the list: characters are finite in number, and the search would go through them all
instance (ds : List Char) : Decidable (IsNumeral ds) :=
  decidable_of_iff (ds ≠ [] ∧ ds.all Char.isDigit) (by rw [IsNumeral, List.all_eq_true])

/-- What follows a numeral does not go on with a digit. -/
def EndsNumeral (rest : List Char) : Prop := ∀ c ∈ rest.head?, ¬ c.isDigit

theorem endsNumeral_nil : EndsNumeral [] := by
  intro c hc
  exact absurd hc (by simp)

theorem takeWhile_isDigit_append {ds rest : List Char} (hds : ∀ c ∈ ds, c.isDigit)
    (hrest : EndsNumeral rest) : (ds ++ rest).takeWhile Char.isDigit = ds := by
  induction ds with
  | nil =>
    cases rest with
    | nil => rfl
    | cons c rest =>
      rw [List.nil_append, List.takeWhile_cons_of_neg]
      exact hrest c (by simp)
  | cons d ds ih =>
    rw [List.forall_mem_cons] at hds
    rw [List.cons_append, List.takeWhile_cons_of_pos hds.1, ih hds.2]

/-- A digit is neither a blank nor a sign. -/
theorem isDigit_spec {c : Char} (h : c.isDigit) : isSpace c = false ∧ c ≠ '-' ∧ c ≠ '+' := by
  refine ⟨?_, ?_, ?_⟩
  · unfold isSpace
    rw [decide_eq_false_iff_not]
    intro hmem
    simp only [List.mem_cons, List.not_mem_nil, or_false] at hmem
    rcases hmem with rfl | rfl | rfl | rfl | rfl | rfl <;> exact absurd h (by decide)
  · rintro rfl
    exact absurd h (by decide)
  · rintro rfl
    exact absurd h (by decide)

/-- A text that starts with a numeral is read up to its end. -/
theorem leadingNumeral_append {ds rest : List Char} (hds : IsNumeral ds)
    (hrest : EndsNumeral rest) :
    leadingNumeral (String.ofList (ds ++ rest)) = some (false, digitsValue ds) := by
  have htake := takeWhile_isDigit_append hds.2 hrest
  obtain ⟨hne, hdigits⟩ := hds
  cases ds with
  | nil => exact absurd rfl hne
  | cons d ds =>
    obtain ⟨hspace, hminus, hplus⟩ := isDigit_spec (hdigits d List.mem_cons_self)
    have hdrop : (d :: ds ++ rest).dropWhile isSpace = d :: ds ++ rest := by
      rw [List.cons_append, List.dropWhile_cons_of_neg]
      simpa using hspace
    rw [leadingNumeral, String.toList_ofList, hdrop, List.cons_append]
    rw [List.cons_append] at htake
    dsimp only
    split
    · rename_i heq
      exact absurd (List.cons.inj heq).1 hminus
    · rename_i heq
      exact absurd (List.cons.inj heq).1 hplus
    · dsimp only
      rw [htake, if_neg hne]

theorem leadingNumeral_numeral {s : String} (h : IsNumeral s.toList) :
    leadingNumeral s = some (false, digitsValue s.toList) := by
  have hread := leadingNumeral_append h endsNumeral_nil
  rwa [List.append_nil, String.ofList_toList] at hread

/-! ### Padded numerals -/

theorem digitsValue_eq (ds : List Char) : digitsValue ds = Nat.ofDigitChars 10 ds 0 := by
  rw [Nat.ofDigitChars_eq_foldl]
  rfl

/-- Leading zeros do not change what a numeral says. -/
theorem digitsValue_zeroPad (n width : ℕ) : digitsValue (zeroPad n width).toList = n := by
  have htext : (toString n).toList = Nat.toDigits 10 n := by
    rw [Nat.toString_eq_repr, Nat.toList_repr]
  rw [zeroPad, String.toList_ofList, htext, digitsValue_eq, List.leftpad, Nat.ofDigitChars_append,
    Nat.ofDigitChars_replicate_zero, Nat.mul_zero, Nat.ofDigitChars_ten_toDigits]

theorem zeroPad_inj {m n width : ℕ} : zeroPad m width = zeroPad n width ↔ m = n := by
  constructor
  · intro h
    rw [← digitsValue_zeroPad m width, h, digitsValue_zeroPad]
  · rintro rfl
    rfl

/-! ### What the conversions return -/

theorem stoul_eq_of_leadingNumeral {s : String} {n : ℕ} (h : leadingNumeral s = some (false, n)) :
    stoul s = if n < 2 ^ 64 then .ok n else .error .outOfRange := by
  rw [stoul, h]
  rfl

theorem stoul_invalidArgument_iff {s : String} :
    stoul s = .error .invalidArgument ↔ leadingNumeral s = none := by
  unfold stoul
  cases leadingNumeral s with
  | none => simp
  | some numeral =>
    dsimp only
    split_ifs <;> simp

end Cloyster.Lib.Text
