import Cloyster.Lib.Lines
import Cloyster.Lib.Tokens

/-! Files of directives. A line has settings with blanks between them, each a key and a value with
`=` between the two, and `#` starts a comment. What was written without these characters in the
keys and the values is read back. -/

namespace Cloyster.Lib.Directives

/-- A key and its value. -/
abbrev Setting := String × String

def blanks : String := " \t"

/-- A token up to its first `=`, and what follows. -/
def setting (token : String) : Setting :=
  (String.ofList (token.toList.takeWhile (· ≠ '=')),
    String.ofList ((token.toList.dropWhile (· ≠ '=')).drop 1))

/-- The settings of a line. There are none in a line that is blank up to its comment. -/
def settings (line : List Char) : List Setting :=
  ((Text.split (String.ofList (line.takeWhile (· ≠ '#'))) blanks).filter (· ≠ "")).map setting

/-- The lines with settings. -/
def directives (text : String) : List (List Setting) :=
  ((text.toList.splitOn '\n').map settings).filter (· ≠ [])

/-- The directives that start with the key. -/
def declared (text key : String) : List (List Setting) :=
  (directives text).filter fun directive => directive.head?.map Prod.fst = some key

/-! ### Writing -/

def format (s : Setting) : String := s.1 ++ "=" ++ s.2

/-- Neither a blank, nor a line break, nor the start of a comment. -/
def Bare (s : String) : Prop := ∀ c ∈ s.toList, c ∉ [' ', '\t', '\n', '#']

instance (s : String) : Decidable (Bare s) := List.decidableBAll _ _

/-- A setting that is read back. -/
structure Plain (s : Setting) : Prop where
  key : Bare s.1
  value : Bare s.2
  cut : '=' ∉ s.1.toList

instance (s : Setting) : Decidable (Plain s) :=
  decidable_of_iff (Bare s.1 ∧ Bare s.2 ∧ '=' ∉ s.1.toList)
    ⟨fun h => ⟨h.1, h.2.1, h.2.2⟩, fun h => ⟨h.key, h.value, h.cut⟩⟩

variable {s : Setting} {l : List Setting}

theorem plain_pair {key value : String} (hkey : Bare key ∧ '=' ∉ key.toList) (hvalue : Bare value) :
    Plain (key, value) := ⟨hkey.1, hvalue, hkey.2⟩

theorem bare_numeral (n : ℕ) : Bare (toString n) := by
  intro c hc hmem
  rw [Nat.toString_eq_repr, Nat.toList_repr] at hc
  have hdigit : c.isDigit := Nat.isDigit_of_mem_toDigits (by omega) (by omega) hc
  fin_cases hmem <;> exact absurd hdigit (by decide)

theorem Bare.append {a b : String} (ha : Bare a) (hb : Bare b) : Bare (a ++ b) := by
  intro c hc
  rw [String.toList_append, List.mem_append] at hc
  exact hc.elim (ha c) (hb c)

theorem setting_format (hcut : '=' ∉ s.1.toList) : setting (format s) = s := by
  have htext : (format s).toList = s.1.toList ++ '=' :: s.2.toList := by
    simp [format, String.toList_append]
  rw [setting, htext, Lines.takeWhile_append_cons hcut, Lines.dropWhile_append_cons hcut]
  simp

/-- What is cut at an `=` is put together again. -/
theorem format_setting {token : String} (h : '=' ∈ token.toList) : format (setting token) = token := by
  obtain ⟨l, r, hsplit, hl⟩ := List.eq_append_cons_of_mem h
  rw [← String.toList_inj, format, setting, hsplit, Lines.takeWhile_append_cons hl,
    Lines.dropWhile_append_cons hl]
  simp

theorem plain_setting {token : String} (h : Bare token) : Plain (setting token) where
  key c hc := h c ((List.takeWhile_prefix _).subset (by simpa [setting] using hc))
  value c hc := by
    have hmem : c ∈ (token.toList.dropWhile (· ≠ '=')).drop 1 := by simpa [setting] using hc
    exact h c ((List.dropWhile_suffix _).subset (List.mem_of_mem_drop hmem))
  cut hc := by
    have hmem : '=' ∈ token.toList.takeWhile (· ≠ '=') := by simpa [setting] using hc
    exact absurd (List.mem_takeWhile_imp hmem) (by simp)

theorem Plain.bare (h : Plain s) : Bare (format s) := (h.key.append (by decide)).append h.value

theorem mem_format (s : Setting) : '=' ∈ (format s).toList := by simp [format]

/-! ### A line -/

def line (l : List Setting) : String := " ".intercalate (l.map format)

theorem afterRun_of_forall {sep : Char → Bool} {ts : List (List Char)} (hne : ts ≠ [])
    (h : ∀ t ∈ ts, t ≠ [] ∧ Text.Clean sep t) : Text.AfterRun sep ts := by
  induction ts with
  | nil => exact absurd rfl hne
  | cons t ts ih =>
    rw [List.forall_mem_cons] at h
    cases ts with
    | nil => exact h.1.2
    | cons u us => exact ⟨h.1.1, h.1.2, ih (by simp) h.2⟩

theorem isTokens_formats (hne : l ≠ []) (h : ∀ s ∈ l, Plain s) :
    Text.IsTokens (· ∈ blanks.toList) ((l.map format).map String.toList) := by
  refine (afterRun_of_forall (by simpa using hne) fun t ht => ?_).isTokens
  simp only [List.map_map, List.mem_map, Function.comp_apply] at ht
  obtain ⟨s, hs, rfl⟩ := ht
  refine ⟨List.ne_nil_of_mem (mem_format s), fun c hc => ?_⟩
  have hbare := (h s hs).bare c hc
  simp only [List.mem_cons, not_or] at hbare
  simp [blanks, hbare.1, hbare.2.1]

theorem mem_line {c : Char} (hc : c ∈ (line l).toList) :
    c = ' ' ∨ ∃ s ∈ l, c ∈ (format s).toList := by
  induction l with
  | nil => exact absurd hc (by simp [line])
  | cons s l ih =>
    cases l with
    | nil => exact .inr ⟨s, List.mem_singleton_self s, by simpa [line] using hc⟩
    | cons t l =>
      have hcons : (line (s :: t :: l)).toList =
          (format s).toList ++ ' ' :: (line (t :: l)).toList := by
        simp [line, String.toList_intercalate]
      rw [hcons, List.mem_append, List.mem_cons] at hc
      obtain hc | rfl | hc := hc
      · exact .inr ⟨s, List.mem_cons_self, hc⟩
      · exact .inl rfl
      · obtain hblank | ⟨u, hu, hcu⟩ := ih hc
        · exact .inl hblank
        · exact .inr ⟨u, List.mem_cons_of_mem _ hu, hcu⟩

theorem not_mem_line (h : ∀ s ∈ l, Plain s) : '#' ∉ (line l).toList ∧ '\n' ∉ (line l).toList := by
  constructor
  · intro hmem
    obtain hblank | ⟨s, hs, hc⟩ := mem_line hmem
    · exact absurd hblank (by decide)
    · exact (h s hs).bare _ hc (by decide)
  · intro hmem
    obtain hblank | ⟨s, hs, hc⟩ := mem_line hmem
    · exact absurd hblank (by decide)
    · exact (h s hs).bare _ hc (by decide)

theorem settings_line (hne : l ≠ []) (h : ∀ s ∈ l, Plain s) : settings (line l).toList = l := by
  have hwhole : (line l).toList.takeWhile (· ≠ '#') = (line l).toList :=
    List.takeWhile_eq_self_iff.mpr fun c hc =>
      decide_eq_true (ne_of_mem_of_not_mem hc (not_mem_line h).1)
  have hsplit : Text.split (line l) blanks = l.map format :=
    Text.split_join (by decide) (by simp [blanks]) (isTokens_formats hne h)
  rw [settings, hwhole, String.ofList_toList, hsplit, List.filter_eq_self.mpr, List.map_map]
  · refine (List.map_congr_left fun s hs => ?_).trans (List.map_id l)
    exact setting_format (h s hs).cut
  · intro t ht
    obtain ⟨s, -, rfl⟩ := List.mem_map.mp ht
    have hformat : format s ≠ "" := by
      intro hempty
      have hmem := mem_format s
      rw [hempty] at hmem
      exact absurd hmem (by simp)
    exact decide_eq_true hformat

theorem settings_single (h : Plain s) : settings (format s).toList = [s] := by
  have hline : (format s).toList = (line [s]).toList := by simp [line]
  rw [hline]
  exact settings_line (by simp) (List.forall_mem_singleton.mpr h)

theorem settings_nil : settings [] = [] := by decide

theorem settings_comment (l : List Char) : settings ('#' :: l) = [] := settings_nil

/-! ### A file -/

theorem toList_join_lines (ls : List String) : (String.join (ls.map (· ++ "\n"))).toList =
    Lines.terminated '\n' (ls.map String.toList) := by
  rw [String.toList_join, Lines.terminated, List.flatMap_map, List.flatMap_map]
  simp

theorem toList_intercalate_lines {ls : List String} (h : ls ≠ []) :
    ("\n".intercalate ls ++ "\n").toList = Lines.terminated '\n' (ls.map String.toList) := by
  induction ls with
  | nil => exact absurd rfl h
  | cons l ls ih =>
    cases ls with
    | nil => simp [Lines.terminated]
    | cons m ms =>
      have hrest := ih (by simp)
      rw [String.toList_append, String.toList_intercalate] at hrest ⊢
      simp only [List.map_cons, Lines.terminated_cons, List.intercalate_cons_cons] at hrest ⊢
      rw [← hrest]
      simp

/-- Lines of which each is a directive or has no settings. -/
theorem directives_terminated {ls : List (List Char)} (h : ∀ l ∈ ls, '\n' ∉ l) :
    directives (String.ofList (Lines.terminated '\n' ls)) = (ls.map settings).filter (· ≠ []) := by
  have hsplit : (Lines.terminated '\n' ls).splitOn '\n' = ls ++ [[]] := by
    have happend := Lines.splitOn_terminated_append h (r := []) (by simp)
    rwa [List.append_nil] at happend
  rw [directives, String.toList_ofList, hsplit, List.map_append, List.filter_append,
    List.map_singleton, settings_nil]
  simp

end Cloyster.Lib.Directives
