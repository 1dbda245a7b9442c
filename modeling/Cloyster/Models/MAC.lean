import Cloyster.Lib.Classes
import Cloyster.Models.Connection

/-! Which texts are taken as MAC addresses. Three lengths are let through before the regular
expression is tried, one for each notation. The expression has two branches: it has none for
the digits alone, and in the branch for the pairs each separator may be either of the two. -/

namespace Cloyster.Connection

open Lib Lib.Text

/-- The 12 digits alone. -/
def Plain (s : List Char) : Prop := s.length = 12 ∧ ∀ c ∈ s, isHexDigit c

/-- Three groups of four digits with dots between them. -/
def Dotted (s : List Char) : Prop := Groups 3 4 isHexDigit (· == '.') s

/-- Six pairs of digits with this separator between them. -/
def Paired (sep : Char) (s : List Char) : Prop := Groups 6 2 isHexDigit (· == sep) s

/-- Six pairs of digits, with colons and hyphens between them, both of them. -/
def MixedPairs (s : List Char) : Prop :=
  Groups 6 2 isHexDigit isMacSeparator s ∧ ':' ∈ s ∧ '-' ∈ s

/-- The text is a 48-bit address in one of the three notations. -/
def Spells (s : List Char) : Prop := Plain s ∨ Dotted s ∨ Paired ':' s ∨ Paired '-' s

/-- Exactly what spells an address is accepted, it is stored in lower case, and what is stored is
accepted and stored again. A text that is refused leaves the connection as it was. -/
structure ChecksMAC (mac : String) : Prop where
  accepts : validateMAC mac = .ok true ↔ Spells mac.toList
  stores : Spells mac.toList → ∀ connection, ∃ connection',
    setMAC mac connection = .ok () connection' ∧
      connection' = { connection with mac := some (Text.lower mac) } ∧
      setMAC (Text.lower mac) connection' = .ok () connection'
  refuses : ¬ Spells mac.toList → ∀ connection, ∃ e, setMAC mac connection = .error e connection

variable {s : List Char} {mac : String}

/-! ### The two branches -/

theorem not_separator_of_isHexDigit {c : Char} (h : isHexDigit c) :
    isMacSeparator c = false ∧ (c == '.') = false := by
  have hne : c ≠ ':' ∧ c ≠ '-' ∧ c ≠ '.' := by
    refine ⟨?_, ?_, ?_⟩ <;> rintro rfl <;> exact absurd h (by decide)
  simp [isMacSeparator, hne]

theorem macPattern_iff :
    matchesClasses macPattern s ↔ Groups 6 2 isHexDigit isMacSeparator s :=
  matchesClasses_groups (n := 5) (m := 2) fun _ hc => (not_separator_of_isHexDigit hc).1

theorem ciscoMacPattern_iff : matchesClasses ciscoMacPattern s ↔ Dotted s :=
  matchesClasses_groups (n := 2) (m := 4) fun _ hc => (not_separator_of_isHexDigit hc).2

/-- Pairs with one separator are pairs without the other. -/
theorem paired_iff {sep other : Char} (hboth : ∀ c, isMacSeparator c = (c == sep || c == other))
    (hother : isHexDigit other = false) (hne : other ≠ sep) :
    Paired sep s ↔ Groups 6 2 isHexDigit isMacSeparator s ∧ other ∉ s := by
  have hcongr (hnot : other ∉ s) : ∀ c ∈ s, isMacSeparator c = (c == sep) := by
    intro c hc
    rw [hboth, Bool.or_eq_left_iff_imp]
    intro hco
    exact absurd (beq_iff_eq.mp hco ▸ hc) hnot
  constructor
  · intro h
    have hnot : other ∉ s := by
      intro hmem
      rcases h.forall other hmem with hsep | hhex
      · exact hne (beq_iff_eq.mp hsep)
      · rw [hother] at hhex
        exact absurd hhex (by simp)
    exact ⟨(groups_congr (hcongr hnot)).mpr h, hnot⟩
  · rintro ⟨h, hnot⟩
    exact (groups_congr (hcongr hnot)).mp h

theorem paired_colon_iff :
    Paired ':' s ↔ Groups 6 2 isHexDigit isMacSeparator s ∧ '-' ∉ s :=
  paired_iff (fun _ => rfl) (by decide) (by decide)

theorem paired_hyphen_iff :
    Paired '-' s ↔ Groups 6 2 isHexDigit isMacSeparator s ∧ ':' ∉ s :=
  paired_iff (fun _ => Bool.or_comm _ _) (by decide) (by decide)

/-- The branch for the pairs lets the two separators be mixed. -/
theorem groups_iff_paired : Groups 6 2 isHexDigit isMacSeparator s ↔
    Paired ':' s ∨ Paired '-' s ∨ MixedPairs s := by
  rw [paired_colon_iff, paired_hyphen_iff, MixedPairs]
  tauto

/-! ### The lengths -/

theorem utf8Size_of_isHexDigit {c : Char} (h : isHexDigit c) : c.utf8Size = 1 := by
  have hle : c.val ≤ 127 := by
    simp only [isHexDigit, Char.isDigit, Char.le_def] at h
    grind
  simp [Char.utf8Size, hle]

theorem utf8Size_of_isMacSeparator {c : Char} (h : isMacSeparator c) : c.utf8Size = 1 := by
  have hsep : c = ':' ∨ c = '-' := by simpa [isMacSeparator] using h
  rcases hsep with rfl | rfl <;> rfl

theorem size_of_groups {n m : ℕ} {q : Char → Bool} (hq : ∀ c, q c → c.utf8Size = 1)
    (h : Groups n m isHexDigit q mac.toList) : Text.size mac = mac.toList.length :=
  size_of_forall fun c hc => (h.forall c hc).elim (hq c) utf8Size_of_isHexDigit

/-- Whatever the expression matches has been let through. -/
theorem validateMAC_iff : validateMAC mac = .ok true ↔
    Groups 6 2 isHexDigit isMacSeparator mac.toList ∨ Dotted mac.toList := by
  rw [← macPattern_iff, ← ciscoMacPattern_iff, validateMAC]
  split_ifs with hsize hmatch
  · refine iff_of_false (by simp) ?_
    rintro (h | h)
    · have hlen := length_of_matchesClasses h
      rw [← size_of_groups (fun c => utf8Size_of_isMacSeparator) (macPattern_iff.mp h)] at hlen
      exact hsize.2.2 hlen
    · have hlen := length_of_matchesClasses h
      have hdot (c : Char) (hc : (c == '.') = true) : c.utf8Size = 1 := by
        rw [beq_iff_eq.mp hc]
        rfl
      rw [← size_of_groups hdot (ciscoMacPattern_iff.mp h)] at hlen
      exact hsize.2.1 hlen
  · exact iff_of_true rfl hmatch
  · exact iff_of_false (by simp) hmatch

/-- The digits alone are of a length that is let through, and no branch matches them. -/
theorem not_validateMAC_of_plain (h : Plain mac.toList) : validateMAC mac ≠ .ok true := by
  rw [ne_eq, validateMAC_iff, ← macPattern_iff, ← ciscoMacPattern_iff]
  have hlen := h.1
  rintro (h | h)
  · rw [length_of_matchesClasses h] at hlen
    exact absurd hlen (by decide)
  · rw [length_of_matchesClasses h] at hlen
    exact absurd hlen (by decide)

theorem not_spells_of_mixed (h : MixedPairs s) : ¬ Spells s := by
  obtain ⟨hgroups, hcolon, hhyphen⟩ := h
  rintro (hplain | hdotted | hpaired | hpaired)
  · exact absurd (hplain.2 ':' hcolon) (by decide)
  · exact absurd (hdotted.forall ':' hcolon) (by decide)
  · exact (paired_colon_iff.mp hpaired).2 hhyphen
  · exact (paired_hyphen_iff.mp hpaired).2 hcolon

/-! ### The setter -/

theorem validateMAC_eq (mac : String) :
    validateMAC mac = .ok true ∨ ∃ message, validateMAC mac = .error message := by
  unfold validateMAC
  split_ifs
  · exact Or.inr ⟨_, rfl⟩
  · exact Or.inl rfl
  · exact Or.inr ⟨_, rfl⟩

theorem setMAC_of_accepted (h : validateMAC mac = .ok true) (connection : Connection) :
    setMAC mac connection = .ok () { connection with mac := some (Text.lower mac) } := by
  rw [setMAC, h]
  rfl

/-- What spells an address is accepted and stored, and nothing else is, exactly when the text is
neither 12 digits alone nor pairs with both separators. -/
theorem checksMAC_iff (mac : String) :
    ChecksMAC mac ↔ ¬ Plain mac.toList ∧ ¬ MixedPairs mac.toList := by
  constructor
  · intro h
    constructor
    · intro hplain
      exact not_validateMAC_of_plain hplain (h.accepts.mpr (Or.inl hplain))
    · intro hmixed
      exact not_spells_of_mixed hmixed (h.accepts.mp (validateMAC_iff.mpr (Or.inl hmixed.1)))
  · rintro ⟨hplain, hmixed⟩
    have haccepts : validateMAC mac = .ok true ↔ Spells mac.toList := by
      rw [validateMAC_iff, groups_iff_paired, Spells]
      tauto
    refine ⟨haccepts, fun hspells connection => ?_, fun hspells connection => ?_⟩
    · have hvalid := haccepts.mpr hspells
      obtain ⟨-, hlower⟩ := validMAC_lower hvalid
      refine ⟨_, setMAC_of_accepted hvalid connection, rfl, ?_⟩
      rw [setMAC_of_accepted hlower, Text.lower_lower]
    · obtain hvalid | ⟨message, herror⟩ := validateMAC_eq mac
      · exact absurd (haccepts.mp hvalid) hspells
      · exact ⟨_, by rw [setMAC, herror]; rfl⟩

/-- Colons with one hyphen among them. -/
theorem not_checksMAC_mixed : ¬ ChecksMAC "ab:cd-ef:01:23:45" := by
  intro h
  have hspells := h.accepts.mp (by decide +kernel)
  rcases hspells with ⟨hlen, -⟩ | hdotted | hpaired | hpaired
  · exact absurd hlen (by decide)
  · exact absurd (hdotted.forall ':' (by decide)) (by decide)
  · exact (paired_colon_iff.mp hpaired).2 (by decide)
  · exact (paired_hyphen_iff.mp hpaired).2 (by decide)

end Cloyster.Connection
