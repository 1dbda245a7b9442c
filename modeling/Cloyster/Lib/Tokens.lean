import Cloyster.Lib.Text

/-! Tokens between runs of separators. Splitting leaves tokens without separators, of which
only the first and the last may be empty, and such tokens come back from any text that
puts separators between them. -/

namespace Cloyster.Lib.Text

variable {sep : Char → Bool} {t cs glue : List Char} {ts : List (List Char)}

/-- No separator in it. -/
def Clean (sep : Char → Bool) (t : List Char) : Prop := ∀ c ∈ t, sep c = false

/-- What may follow a run of separators: only the last token may be empty. -/
def AfterRun (sep : Char → Bool) : List (List Char) → Prop
  | [] => False
  | [t] => Clean sep t
  | t :: ts => t ≠ [] ∧ Clean sep t ∧ AfterRun sep ts

/-- The tokens of a text. The first may be empty too. -/
def IsTokens (sep : Char → Bool) : List (List Char) → Prop
  | [] => False
  | [t] => Clean sep t
  | t :: ts => Clean sep t ∧ AfterRun sep ts

theorem clean_nil : Clean sep [] := by
  intro c hc
  exact absurd hc List.not_mem_nil

theorem clean_cons {c : Char} (hc : sep c = false) (ht : Clean sep t) : Clean sep (c :: t) := by
  intro d hd
  rcases List.mem_cons.mp hd with rfl | hd
  · exact hc
  · exact ht d hd

/-- The text does not go on with a separator. -/
def NoRun (sep : Char → Bool) (cs : List Char) : Prop := ∀ c ∈ cs.head?, sep c = false

/-! ### Splitting, character by character -/

theorem splitCompress_of_not {c : Char} (hc : sep c = false) (cs : List Char) :
    splitCompress sep (c :: cs) =
      match splitCompress sep cs with
      | t :: ts => (c :: t) :: ts
      | [] => [[c]] := by
  rw [splitCompress.eq_def]
  refine (if_neg (by simp [hc])).trans ?_
  cases splitCompress sep cs <;> rfl

theorem splitCompress_run_cons {c d : Char} (hc : sep c) (hd : sep d) (cs : List Char) :
    splitCompress sep (c :: d :: cs) = splitCompress sep (d :: cs) := by
  rw [splitCompress.eq_def]
  simp [hc, hd]

/-- The last separator of a run makes the boundary. -/
theorem splitCompress_boundary {c : Char} (hc : sep c) (hcs : NoRun sep cs) :
    splitCompress sep (c :: cs) = [] :: splitCompress sep cs := by
  rw [splitCompress.eq_def]
  cases cs with
  | nil => simp [hc, splitCompress]
  | cons d ds =>
    have hd : sep d = false := hcs d rfl
    simp [hc, hd]

/-! ### What splitting leaves -/

theorem isTokens_cons {c : Char} (hc : sep c = false) (h : IsTokens sep (t :: ts)) :
    IsTokens sep ((c :: t) :: ts) ∧ AfterRun sep ((c :: t) :: ts) := by
  cases ts with
  | nil => exact ⟨clean_cons hc h, clean_cons hc h⟩
  | cons u us =>
    obtain ⟨ht, hrest⟩ := h
    exact ⟨⟨clean_cons hc ht, hrest⟩, List.cons_ne_nil _ _, clean_cons hc ht, hrest⟩

theorem isTokens_nil_cons (h : AfterRun sep ts) : IsTokens sep ([] :: ts) := by
  cases ts with
  | nil => exact h.elim
  | cons t ts => exact ⟨clean_nil, h⟩

theorem splitCompress_spec (sep : Char → Bool) (cs : List Char) :
    IsTokens sep (splitCompress sep cs) ∧
      (NoRun sep cs → AfterRun sep (splitCompress sep cs)) := by
  induction cs with
  | nil => exact ⟨clean_nil, fun _ => clean_nil⟩
  | cons c cs ih =>
    obtain ⟨htokens, hafter⟩ := ih
    by_cases hc : sep c
    · refine ⟨?_, fun h => absurd (h c rfl) (by simp [hc])⟩
      by_cases hcs : NoRun sep cs
      · rw [splitCompress_boundary hc hcs]
        exact isTokens_nil_cons (hafter hcs)
      · cases cs with
        | nil => exact absurd (fun d hd => absurd hd (by simp)) hcs
        | cons d ds =>
          have hd : sep d := by
            by_contra hd
            apply hcs
            intro e he
            rw [← Option.some.inj he]
            simpa using hd
          rw [splitCompress_run_cons hc hd]
          exact htokens
    · rw [Bool.not_eq_true] at hc
      rw [splitCompress_of_not hc]
      cases hsplit : splitCompress sep cs with
      | nil =>
        rw [hsplit] at htokens
        exact htokens.elim
      | cons t ts =>
        rw [hsplit] at htokens
        exact ⟨(isTokens_cons hc htokens).1, fun _ => (isTokens_cons hc htokens).2⟩

theorem isTokens_splitCompress (sep : Char → Bool) (cs : List Char) :
    IsTokens sep (splitCompress sep cs) := (splitCompress_spec sep cs).1

/-! ### Tokens come back -/

theorem splitCompress_append (ht : Clean sep t) (cs : List Char) :
    splitCompress sep (t ++ cs) = (splitCompress sep cs).modifyHead (t ++ ·) := by
  induction t with
  | nil =>
    rw [List.nil_append]
    cases splitCompress sep cs <;> rfl
  | cons c t ih =>
    have hc : sep c = false := ht c List.mem_cons_self
    have ih' := ih fun d hd => ht d (List.mem_cons_of_mem c hd)
    rw [List.cons_append, splitCompress_of_not hc, ih']
    cases hsplit : splitCompress sep cs with
    | nil =>
      have htokens := isTokens_splitCompress sep cs
      rw [hsplit] at htokens
      exact htokens.elim
    | cons u us => rfl

/-- A run of separators is one boundary. -/
theorem splitCompress_run (hne : glue ≠ []) (hglue : ∀ c ∈ glue, sep c) (hcs : NoRun sep cs) :
    splitCompress sep (glue ++ cs) = [] :: splitCompress sep cs := by
  induction glue with
  | nil => exact absurd rfl hne
  | cons c glue ih =>
    have hc : sep c := hglue c List.mem_cons_self
    cases glue with
    | nil => exact splitCompress_boundary hc hcs
    | cons d glue =>
      have hd : sep d := hglue d (List.mem_cons_of_mem c List.mem_cons_self)
      rw [List.cons_append, List.cons_append, splitCompress_run_cons hc hd, ← List.cons_append]
      exact ih (List.cons_ne_nil d glue) fun e he => hglue e (List.mem_cons_of_mem c he)

theorem AfterRun.noRun (h : AfterRun sep ts) : NoRun sep (glue.intercalate ts) := by
  intro c hc
  match ts, h with
  | [t], ht =>
    rw [List.intercalate_singleton] at hc
    exact ht c (List.mem_of_mem_head? hc)
  | [] :: u :: us, ⟨hne, _, _⟩ => exact absurd rfl hne
  | (d :: t) :: u :: us, ⟨_, ht, _⟩ =>
    rw [List.intercalate_cons_cons] at hc
    obtain rfl : d = c := Option.some.inj hc
    exact ht d List.mem_cons_self

theorem AfterRun.isTokens (h : AfterRun sep ts) : IsTokens sep ts := by
  match ts, h with
  | [t], ht => exact ht
  | t :: u :: us, ⟨_, ht, hrest⟩ => exact ⟨ht, hrest⟩

/-- Separators between tokens, whichever and however many, give back the tokens. -/
theorem splitCompress_intercalate (hne : glue ≠ []) (hglue : ∀ c ∈ glue, sep c)
    (h : IsTokens sep ts) : splitCompress sep (glue.intercalate ts) = ts := by
  induction ts with
  | nil => exact h.elim
  | cons t ts ih =>
    cases ts with
    | nil =>
      rw [List.intercalate_singleton, ← List.append_nil t, splitCompress_append h]
      simp [splitCompress]
    | cons u us =>
      obtain ⟨ht, hrest⟩ := h
      rw [List.intercalate_cons_cons, List.append_assoc, splitCompress_append ht,
        splitCompress_run hne hglue hrest.noRun, ih hrest.isTokens, List.modifyHead_cons,
        List.append_nil]

theorem split_join {tokens : List String} {seps glue : String} (hne : glue ≠ "")
    (hglue : ∀ c ∈ glue.toList, c ∈ seps.toList)
    (h : IsTokens (· ∈ seps.toList) (tokens.map String.toList)) :
    split (glue.intercalate tokens) seps = tokens := by
  rw [split, String.toList_intercalate, splitCompress_intercalate (by simpa using hne)
    (by simpa using hglue) h, List.map_map]
  simp [Function.comp_def]

theorem isTokens_split (s seps : String) :
    IsTokens (· ∈ seps.toList) ((split s seps).map String.toList) := by
  rw [split, List.map_map]
  simpa [Function.comp_def] using isTokens_splitCompress (· ∈ seps.toList) s.toList

end Cloyster.Lib.Text
