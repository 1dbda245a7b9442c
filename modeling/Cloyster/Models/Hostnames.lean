import Cloyster.Models.Cluster
import Cloyster.Lib.Regex

/-! The checks of a server's names. A hostname that is refused is mostly thrown as a text,
and a text that is returned for an error converts to the value of the result instead, so no
check ever returns an error. -/

namespace Cloyster.Models.Server

open Lib Regex RegularExpression

def digits : List Char := "0123456789".toList

def alphanumerics : List Char :=
  "ABCDEFGHIJKLMNOPQRSTUVWXYZabcdefghijklmnopqrstuvwxyz".toList ++ digits

/-- Thrown texts come first; the second result is the one that is returned. -/
def validateHostname (hostname : String) : Except String (Except String String) := do
  if Text.size hostname > 63 then throw "Hostname cannot be bigger than 63 characters"
  if Text.startsWith hostname "-" || Text.endsWith hostname "-" then throw "Invalid hostname"
  if (oneOrMore (oneOf digits)).rmatch hostname.toList then
    throw "Hostname cannot contain only digits"
  -- a `std::string` converts to the expected `std::string_view`
  if !(oneOrMore (oneOf (alphanumerics ++ ['-']))).rmatch hostname.toList then
    return .ok "Hostname can only have alphanumerics"
  return .ok hostname

/-- A label of the pattern. In a raw string the two backslashes stand for one in the class. -/
def fqdnLabel : RegularExpression Char :=
  oneOf alphanumerics * optional ((oneOf (alphanumerics ++ ['\\', '-'])).star * oneOf alphanumerics)

def fqdnPattern : RegularExpression Char := oneOrMore (fqdnLabel * char '.') * fqdnLabel

/-- Both texts convert, as in `validateHostname`. -/
def validateFQDN (fqdn : String) : Except String String :=
  if Text.size fqdn > 255 then .ok "FQDN cannot be bigger than 255 characters"
  else if !fqdnPattern.rmatch fqdn.toList then .ok "Invalid FQDN format"
  else .ok fqdn

/-! ### Well-formed names -/

/-- Letters, digits and hyphens, and no hyphen at either end. -/
structure ValidLabel (label : List Char) : Prop where
  ne_nil : label ≠ []
  chars : ∀ c ∈ label, c ∈ alphanumerics ∨ c = '-'
  head : label.head? ≠ some '-'
  last : label.getLast? ≠ some '-'

structure ValidHostname (hostname : String) : Prop where
  label : ValidLabel hostname.toList
  length : hostname.toList.length ≤ 63
  notDigits : ¬ ∀ c ∈ hostname.toList, c ∈ digits

structure ValidFQDN (fqdn : String) : Prop where
  length : fqdn.toList.length ≤ 255
  two : 2 ≤ (fqdn.toList.splitOn '.').length
  labels : ∀ label ∈ fqdn.toList.splitOn '.', ValidLabel label

/-- A value for the names that are well formed, an error for all others, nothing thrown. -/
structure ChecksHostname (hostname : String) : Prop where
  value : ValidHostname hostname → ∃ v, validateHostname hostname = .ok (.ok v)
  error : ¬ ValidHostname hostname → ∃ e, validateHostname hostname = .ok (.error e)

structure ChecksFQDN (fqdn : String) : Prop where
  value : ValidFQDN fqdn → ∃ v, validateFQDN fqdn = .ok v
  error : ¬ ValidFQDN fqdn → ∃ e, validateFQDN fqdn = .error e

/-! ### The patterns -/

theorem size_eq_length {s : String} (h : ∀ c ∈ s.toList, c ∈ alphanumerics ∨ c = '-' ∨ c = '.') :
    Text.size s = s.toList.length := by
  have hall : alphanumerics.all fun c => c.utf8Size == 1 := by decide
  refine Text.size_of_forall fun c hc => ?_
  rcases h c hc with hc | rfl | rfl
  · exact beq_iff_eq.mp (List.all_eq_true.mp hall c hc)
  · rfl
  · rfl

/-- Both ends of a label are letters or digits; between them a backslash is accepted too. -/
theorem fqdnLabel_rmatch_iff {x : List Char} : fqdnLabel.rmatch x ↔
    (∀ c ∈ x, c ∈ alphanumerics ++ ['\\', '-']) ∧ (∃ a ∈ x.head?, a ∈ alphanumerics) ∧
      ∃ b ∈ x.getLast?, b ∈ alphanumerics := by
  simp only [fqdnLabel, mul_rmatch_iff, optional_rmatch_iff, oneOf_rmatch_iff,
    star_oneOf_rmatch_iff]
  constructor
  · rintro ⟨_, u, rfl, ⟨a, ha, rfl⟩, rfl | ⟨mid, _, rfl, hmid, b, hb, rfl⟩⟩
    · simp [ha]
    · have hlast : ([a] ++ (mid ++ [b])).getLast? = some b := by
        rw [← List.append_assoc, List.getLast?_concat]
      refine ⟨?_, ⟨a, rfl, ha⟩, b, hlast, hb⟩
      intro c hc
      simp only [List.mem_append, List.mem_singleton] at hc
      rcases hc with rfl | hc | rfl
      · exact List.mem_append_left _ ha
      · exact hmid c hc
      · exact List.mem_append_left _ hb
  · rintro ⟨hall, ⟨a, hhead, ha⟩, b, hlast, hb⟩
    obtain ⟨u, rfl⟩ := List.head?_eq_some_iff.mp hhead
    refine ⟨[a], u, rfl, ⟨a, ha, rfl⟩, ?_⟩
    rw [List.forall_mem_cons] at hall
    rcases List.eq_nil_or_concat' u with rfl | ⟨mid, d, rfl⟩
    · exact .inl rfl
    · have hd : (a :: (mid ++ [d])).getLast? = some d := by
        rw [← List.cons_append, List.getLast?_concat]
      obtain rfl : d = b := Option.some.inj (hd.symm.trans hlast)
      exact .inr ⟨mid, [d], rfl, fun c hc => hall.2 c (by simp [hc]), d, hb, rfl⟩

theorem fqdnPattern_rmatch_iff {x : List Char} : fqdnPattern.rmatch x ↔
    2 ≤ (x.splitOn '.').length ∧ ∀ l ∈ x.splitOn '.', fqdnLabel.rmatch l := by
  apply separated_rmatch_iff
  intro l hl hdot
  exact absurd ((fqdnLabel_rmatch_iff.mp hl).1 '.' hdot) (by decide)

theorem ValidLabel.ends {label : List Char} (h : ValidLabel label) :
    (∃ a ∈ label.head?, a ∈ alphanumerics) ∧ ∃ b ∈ label.getLast?, b ∈ alphanumerics := by
  constructor
  · have hhead := List.head?_eq_some_head h.ne_nil
    refine ⟨_, hhead, ?_⟩
    apply (h.chars _ (List.head_mem h.ne_nil)).resolve_right
    intro heq
    exact h.head (by rw [hhead, heq])
  · have hlast := List.getLast?_eq_some_getLast h.ne_nil
    refine ⟨_, hlast, ?_⟩
    apply (h.chars _ (List.getLast_mem h.ne_nil)).resolve_right
    intro heq
    exact h.last (by rw [hlast, heq])

theorem ValidLabel.rmatch {label : List Char} (h : ValidLabel label) : fqdnLabel.rmatch label := by
  refine fqdnLabel_rmatch_iff.mpr ⟨fun c hc => ?_, h.ends⟩
  rcases h.chars c hc with hc | rfl
  · exact List.mem_append_left _ hc
  · exact List.mem_append_right _ (by simp)

/-! ### What the checks return -/

/-- What is thrown: long names, names with a hyphen at an end, and numbers. -/
def Thrown (hostname : String) : Prop :=
  63 < Text.size hostname ∨ hostname.toList.head? = some '-' ∨
    hostname.toList.getLast? = some '-' ∨
    hostname.toList ≠ [] ∧ ∀ c ∈ hostname.toList, c ∈ digits

/-- The result once nothing is thrown. -/
theorem validateHostname_of_not_thrown {hostname : String} (h : ¬ Thrown hostname) :
    validateHostname hostname =
      if (oneOrMore (oneOf (alphanumerics ++ ['-']))).rmatch hostname.toList then
        .ok (.ok hostname)
      else .ok (.ok "Hostname can only have alphanumerics") := by
  simp only [Thrown, not_or] at h
  obtain ⟨hsize, hhead, hlast, hdigits⟩ := h
  have hstart : ¬ Text.startsWith hostname "-" := by
    rwa [← Text.startsWith_singleton] at hhead
  have hend : ¬ Text.endsWith hostname "-" := by
    rwa [← Text.endsWith_singleton] at hlast
  rw [← oneOrMore_oneOf_rmatch_iff] at hdigits
  unfold validateHostname
  simp only [hsize, hstart, hend, hdigits, Bool.or_self, Bool.false_eq_true, if_false]
  by_cases hchars : (oneOrMore (oneOf (alphanumerics ++ ['-']))).rmatch hostname.toList
  · simp [hchars]
    rfl
  · simp [hchars]
    rfl

theorem thrown_iff (hostname : String) :
    (∃ text, validateHostname hostname = .error text) ↔ Thrown hostname := by
  constructor
  · rintro ⟨text, htext⟩
    by_contra h
    rw [validateHostname_of_not_thrown h] at htext
    split_ifs at htext
  · intro h
    unfold validateHostname
    by_cases hsize : 63 < Text.size hostname
    · exact ⟨_, by simp only [hsize, if_true]; rfl⟩
    by_cases hends : Text.startsWith hostname "-" || Text.endsWith hostname "-"
    · exact ⟨_, by simp only [hsize, hends, if_true, if_false]; rfl⟩
    -- nothing but a number is left
    have hdigits : (oneOrMore (oneOf digits)).rmatch hostname.toList := by
      rw [oneOrMore_oneOf_rmatch_iff]
      simp only [Bool.or_eq_true, not_or] at hends
      refine ((h.resolve_left hsize).resolve_left ?_).resolve_left ?_
      · exact fun hhead => hends.1 ((Text.startsWith_singleton hostname '-').mpr hhead)
      · exact fun hlast => hends.2 ((Text.endsWith_singleton hostname '-').mpr hlast)
    exact ⟨_, by simp only [hsize, hends, hdigits, if_true, if_false]; rfl⟩

/-- A hostname that is not thrown gives a value. -/
theorem validateHostname_value (hostname : String) :
    (∃ text, validateHostname hostname = .error text) ∨
      ∃ v, validateHostname hostname = .ok (.ok v) := by
  by_cases h : Thrown hostname
  · exact .inl ((thrown_iff hostname).mpr h)
  · rw [validateHostname_of_not_thrown h]
    split_ifs
    · exact .inr ⟨_, rfl⟩
    · exact .inr ⟨_, rfl⟩

theorem ValidHostname.not_thrown {hostname : String} (h : ValidHostname hostname) :
    ¬ Thrown hostname := by
  have hsize : Text.size hostname = hostname.toList.length :=
    size_eq_length fun c hc => (h.label.chars c hc).imp_right .inl
  have hlength := h.length
  rintro (hlong | hhead | hlast | ⟨-, hdigits⟩)
  · omega
  · exact h.label.head hhead
  · exact h.label.last hlast
  · exact h.notDigits hdigits

theorem validateHostname_of_valid {hostname : String} (h : ValidHostname hostname) :
    validateHostname hostname = .ok (.ok hostname) := by
  have hmatch : (oneOrMore (oneOf (alphanumerics ++ ['-']))).rmatch hostname.toList := by
    rw [oneOrMore_oneOf_rmatch_iff]
    refine ⟨h.label.ne_nil, fun c hc => ?_⟩
    simpa using h.label.chars c hc
  rw [validateHostname_of_not_thrown h.not_thrown, if_pos hmatch]

theorem checksHostname_iff (hostname : String) :
    ChecksHostname hostname ↔ ValidHostname hostname := by
  constructor
  · intro h
    by_contra hinvalid
    obtain ⟨e, he⟩ := h.error hinvalid
    rcases validateHostname_value hostname with ⟨text, hthrow⟩ | ⟨v, hreturn⟩
    · exact absurd (he.symm.trans hthrow) (by simp)
    · exact absurd (he.symm.trans hreturn) (by simp)
  · intro hvalid
    exact ⟨fun h => ⟨hostname, validateHostname_of_valid h⟩, fun h => absurd hvalid h⟩

theorem ValidFQDN.chars {fqdn : String} (h : ValidFQDN fqdn) :
    ∀ c ∈ fqdn.toList, c ∈ alphanumerics ∨ c = '-' ∨ c = '.' := by
  intro c hc
  by_cases hdot : c = '.'
  · exact .inr (.inr hdot)
  · obtain ⟨label, hlabel, hmem⟩ := Lines.exists_mem_splitOn hc hdot
    exact ((h.labels label hlabel).chars c hmem).imp_right .inl

theorem validateFQDN_of_valid {fqdn : String} (h : ValidFQDN fqdn) :
    validateFQDN fqdn = .ok fqdn := by
  have hsize : ¬ Text.size fqdn > 255 := by
    rw [size_eq_length h.chars]
    exact Nat.not_lt.mpr h.length
  have hmatch : fqdnPattern.rmatch fqdn.toList :=
    fqdnPattern_rmatch_iff.mpr ⟨h.two, fun label hlabel => (h.labels label hlabel).rmatch⟩
  unfold validateFQDN
  rw [if_neg hsize, hmatch]
  rfl

/-- No full name gives an error. -/
theorem validateFQDN_value (fqdn : String) : ∃ v, validateFQDN fqdn = .ok v := by
  unfold validateFQDN
  split_ifs
  · exact ⟨_, rfl⟩
  · exact ⟨_, rfl⟩
  · exact ⟨_, rfl⟩

theorem checksFQDN_iff (fqdn : String) : ChecksFQDN fqdn ↔ ValidFQDN fqdn := by
  constructor
  · intro h
    by_contra hinvalid
    obtain ⟨e, he⟩ := h.error hinvalid
    obtain ⟨v, hv⟩ := validateFQDN_value fqdn
    exact absurd (he.symm.trans hv) (by simp)
  · intro hvalid
    exact ⟨fun h => ⟨fqdn, validateFQDN_of_valid h⟩, fun h => absurd hvalid h⟩

end Cloyster.Models.Server
