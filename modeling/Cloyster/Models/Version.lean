import Cloyster.Lib.Lines
import Cloyster.Lib.Numerals
import Cloyster.Models.OS

/-! The version of an operating system. Setting it writes the major version before
the rest of the text is looked at, so a text that is refused late leaves half of
itself behind. A number is taken modulo `2 ^ 32`, with the blanks, the sign and the
trailing characters that `stoul` allows. The text with the distribution shows the
minor version first. -/

namespace Cloyster.OS

open Lib

def distroText : Distro → String
  | .RHEL => "rhel"
  | .AlmaLinux => "almalinux"
  | .Rocky => "rockylinux"
  | .OL => "ol"

def getDistroString (os : OS) : Except Exn String := do
  let distro ← os.getDistro
  return s!"{distroText distro}{os.minorVersion}.{os.majorVersion}"

/-! ### What is promised -/

/-- The text starts with two numerals that a period separates. -/
def StartsWithVersion (version : String) (major minor : ℕ) : Prop :=
  ∃ ds es rest, version.toList = ds ++ '.' :: (es ++ rest) ∧ Text.IsNumeral ds ∧
    Text.IsNumeral es ∧ Text.EndsNumeral rest ∧ Text.digitsValue ds = major ∧
    Text.digitsValue es = minor

/-- The system has the version, and shows it. -/
structure ShowsVersion (os : OS) (major minor : ℕ) : Prop where
  majorVersion : os.majorVersion = major
  minorVersion : os.minorVersion = minor
  version : os.getVersion = s!"{major}.{minor}"
  distro : ∃ text, os.getDistroString = .ok text ∧ Text.endsWith text s!"{major}.{minor}"

/-- A text that throws changes no version; one that does not is the version. -/
structure SetsVersion (os : OS) (version : String) : Prop where
  thrown : ∀ e os', setVersion version os = .error e os' →
    os'.majorVersion = os.majorVersion ∧ os'.minorVersion = os.minorVersion
  returned : ∀ os', setVersion version os = .ok () os' → ∃ major minor,
    StartsWithVersion version major minor ∧ 8 ≤ major ∧ ShowsVersion os' major minor

/-! ### What a text sets -/

def majorText (version : String) : String := String.ofList (version.toList.takeWhile (· ≠ '.'))

def minorText (version : String) : String :=
  String.ofList (version.toList.dropWhile (· ≠ '.')).tail

/-- The major version a text sets, if it sets one. -/
def majorOf? (version : String) : Option ℕ :=
  ((Text.stoul (majorText version)).toOption.map (· % 2 ^ 32)).filter (8 ≤ ·)

/-- The minor version a text sets, once its major version is accepted. -/
def minorOf? (version : String) : Option ℕ :=
  if '.' ∈ version.toList then (Text.stoul (minorText version)).toOption.map (· % 2 ^ 32) else none

variable {os : OS} {version : String}

/-- What is left to do when the major version is set. -/
def setMinorText (version : String) : EStateM Exn OS Unit := do
  if '.' ∉ version.toList then
    throw (.runtimeError ("Unexpected value for system.version (in answerfile.ini). " ++
      s!"Expected M.N format, e.g., 9.5. Value found instead: {version}"))
  let n ← liftExcept ((Text.stoul (minorText version)).mapError (.ofNumError "stoul"))
  modify fun os => { os with minorVersion := n % 2 ^ 32 }

theorem setVersion_eq (version : String) : setVersion version =
    liftExcept ((Text.stoul (majorText version)).mapError (.ofNumError "stoul")) >>= fun n =>
      setMajorVersion (n % 2 ^ 32) >>= fun _ => setMinorText version := rfl

theorem setMajorVersion_apply (n : ℕ) (os : OS) : setMajorVersion n os =
    if n < 8 then
      .error (.runtimeError "Unsupported release: Major version must be 8 or greater.") os
    else .ok () { os with majorVersion := n } := by
  unfold setMajorVersion
  split_ifs <;> rfl

theorem setMinorText_of_none (h : minorOf? version = none) (os : OS) :
    ∃ e, setMinorText version os = .error e os := by
  unfold minorOf? at h
  unfold setMinorText
  split_ifs at h with hdot
  · rw [if_neg (not_not.mpr hdot)]
    cases hstoul : Text.stoul (minorText version) with
    | error e => exact ⟨_, rfl⟩
    | ok n =>
      rw [hstoul] at h
      exact absurd h (by simp [Except.toOption])
  · rw [if_pos hdot]
    exact ⟨_, rfl⟩

theorem setMinorText_of_some {minor : ℕ} (h : minorOf? version = some minor) :
    setMinorText version os = .ok () { os with minorVersion := minor } := by
  unfold minorOf? at h
  split_ifs at h with hdot
  cases hstoul : Text.stoul (minorText version) with
  | error e =>
    rw [hstoul] at h
    exact absurd h (by simp [Except.toOption])
  | ok n =>
    rw [hstoul] at h
    obtain rfl := Option.some.inj h
    rw [setMinorText, if_neg (not_not.mpr hdot), hstoul]
    rfl

theorem majorOf?_eq_none_iff : majorOf? version = none ↔
    ∀ n, Text.stoul (majorText version) = .ok n → n % 2 ^ 32 < 8 := by
  unfold majorOf?
  cases Text.stoul (majorText version) with
  | error e => simp [Except.toOption]
  | ok n => simp [Except.toOption, Option.filter]

theorem majorOf?_eq_some_iff {major : ℕ} : majorOf? version = some major ↔
    ∃ n, Text.stoul (majorText version) = .ok n ∧ n % 2 ^ 32 = major ∧ 8 ≤ major := by
  unfold majorOf?
  cases Text.stoul (majorText version) with
  | error e => simp [Except.toOption]
  | ok n =>
    simp [Except.toOption, Option.filter_eq_some_iff]

/-- Nothing is set before the major version is accepted. -/
theorem setVersion_of_major_none (h : majorOf? version = none) (os : OS) :
    ∃ e, setVersion version os = .error e os := by
  rw [setVersion_eq]
  cases hstoul : Text.stoul (majorText version) with
  | error e => exact ⟨_, rfl⟩
  | ok n =>
    have hlt := majorOf?_eq_none_iff.mp h n hstoul
    show ∃ e, (setMajorVersion (n % 2 ^ 32) >>= fun _ => setMinorText version) os = .error e os
    rw [bind_apply, setMajorVersion_apply, if_pos hlt]
    exact ⟨_, rfl⟩

/-- Once it is accepted it is set, whatever comes next. -/
theorem setVersion_of_major_some {major : ℕ} (h : majorOf? version = some major) :
    setVersion version os = setMinorText version { os with majorVersion := major } := by
  obtain ⟨n, hstoul, rfl, hle⟩ := majorOf?_eq_some_iff.mp h
  rw [setVersion_eq, hstoul]
  show (setMajorVersion (n % 2 ^ 32) >>= fun _ => setMinorText version) os = _
  rw [bind_apply, setMajorVersion_apply, if_neg (by omega)]

/-! ### Numerals -/

theorem takeWhile_ne_dot {ds : List Char} (hds : Text.IsNumeral ds) (rest : List Char) :
    (ds ++ '.' :: rest).takeWhile (· ≠ '.') = ds ∧
      ((ds ++ '.' :: rest).dropWhile (· ≠ '.')).tail = rest := by
  have hdot : '.' ∉ ds := fun hmem => absurd (hds.2 '.' hmem) (by decide)
  exact ⟨Lines.takeWhile_append_cons hdot rest, by rw [Lines.dropWhile_append_cons hdot]; rfl⟩

/-- A text that starts with a version below `2 ^ 32` sets that version. -/
theorem StartsWithVersion.sets {major minor : ℕ} (h : StartsWithVersion version major minor)
    (hmajor : major < 2 ^ 32) (hminor : minor < 2 ^ 32) :
    (∀ n, majorOf? version = some n → n = major) ∧ minorOf? version = some minor := by
  obtain ⟨ds, es, rest, hversion, hds, hes, hrest, rfl, rfl⟩ := h
  obtain ⟨htake, hdrop⟩ := takeWhile_ne_dot hds (es ++ rest)
  constructor
  · intro n hn
    obtain ⟨k, hstoul, rfl, -⟩ := majorOf?_eq_some_iff.mp hn
    have hread := Text.leadingNumeral_append hds Text.endsNumeral_nil
    rw [List.append_nil] at hread
    rw [majorText, hversion, htake, Text.stoul_eq_of_leadingNumeral hread,
      if_pos (by omega)] at hstoul
    obtain rfl := Except.ok.inj hstoul
    omega
  · have hread := Text.leadingNumeral_append hes hrest
    have hstoul : Text.stoul (minorText version) = .ok (Text.digitsValue es) := by
      rw [minorText, hversion, hdrop, Text.stoul_eq_of_leadingNumeral hread, if_pos (by omega)]
    have hdot : '.' ∈ version.toList := by simp [hversion]
    rw [minorOf?, if_pos hdot, hstoul]
    show some (Text.digitsValue es % 2 ^ 32) = _
    rw [Nat.mod_eq_of_lt hminor]

/-! ### The text with the distribution -/

theorem dot_notMem_toString (n : ℕ) : '.' ∉ (toString n).toList := by
  rw [Nat.toString_eq_repr, Nat.toList_repr]
  intro h
  exact absurd (Nat.isDigit_of_mem_toDigits (by omega) (by omega) h) (by decide)

theorem dot_notMem_distroText (distro : Distro) : '.' ∉ (distroText distro).toList := by
  cases distro <;> decide

/-- The numbers are shown in the other order, so the text ends as it should only when
they are the same. -/
theorem endsWith_distroString_iff (distro : Distro) (major minor : ℕ) :
    Text.endsWith s!"{distroText distro}{minor}.{major}" s!"{major}.{minor}" ↔
      major = minor := by
  show Text.endsWith (distroText distro ++ toString minor ++ "." ++ toString major)
    (toString major ++ "." ++ toString minor) ↔ major = minor
  rw [Text.endsWith, List.isSuffixOf_iff_suffix]
  constructor
  · rintro ⟨front, hfront⟩
    have hshown : (front ++ (toString major).toList) ++ '.' :: (toString minor).toList =
        ((distroText distro).toList ++ (toString minor).toList) ++ '.' :: (toString major).toList := by
      simpa using hfront
    have hbefore : '.' ∉ (distroText distro).toList ++ (toString minor).toList := by
      rw [List.mem_append, not_or]
      exact ⟨dot_notMem_distroText distro, dot_notMem_toString minor⟩
    have hparts := (List.append_cons_inj_of_notMem hbefore (dot_notMem_toString major)).mp hshown.symm
    have htext : toString major = toString minor := String.toList_inj.mp hparts.2.2
    exact Nat.repr_injective htext
  · rintro rfl
    exact ⟨(distroText distro).toList, by simp⟩

/-! ### When the promise holds -/

/-- A text that is refused at once; one that is refused late, when its major version is
there already; or a version whose numbers are the same, on a known distribution. -/
def MeetsVersion (os : OS) (version : String) : Prop :=
  match majorOf? version, minorOf? version with
  | none, _ => True
  | some major, none => os.majorVersion = major
  | some _, some _ => os.distro.isSome ∧ ∃ n < 2 ^ 32, StartsWithVersion version n n

theorem sets_major_none (h : majorOf? version = none) : SetsVersion os version := by
  obtain ⟨e, hthrow⟩ := setVersion_of_major_none h os
  constructor
  · intro e' os' hrun
    rw [hthrow] at hrun
    injection hrun with _ hos
    rw [hos]
    exact ⟨rfl, rfl⟩
  · intro os' hrun
    rw [hthrow] at hrun
    exact absurd hrun (by simp)

theorem sets_minor_none_iff {major : ℕ} (hmajor : majorOf? version = some major)
    (hminor : minorOf? version = none) :
    SetsVersion os version ↔ os.majorVersion = major := by
  obtain ⟨e, hthrow⟩ := setMinorText_of_none hminor { os with majorVersion := major }
  rw [← setVersion_of_major_some hmajor] at hthrow
  constructor
  · intro h
    exact ((h.thrown e _ hthrow).1).symm
  · intro hsame
    constructor
    · intro e' os' hrun
      rw [hthrow] at hrun
      injection hrun with _ hos
      rw [← hos]
      exact ⟨hsame.symm, rfl⟩
    · intro os' hrun
      rw [hthrow] at hrun
      exact absurd hrun (by simp)

theorem sets_minor_some_iff {major minor : ℕ} (hmajor : majorOf? version = some major)
    (hminor : minorOf? version = some minor) :
    SetsVersion os version ↔
      os.distro.isSome ∧ ∃ n < 2 ^ 32, StartsWithVersion version n n := by
  have hrun : setVersion version os =
      .ok () { os with majorVersion := major, minorVersion := minor } := by
    rw [setVersion_of_major_some hmajor, setMinorText_of_some hminor]
  obtain ⟨k, -, hk, hle⟩ := majorOf?_eq_some_iff.mp hmajor
  constructor
  · intro h
    obtain ⟨m, n, hstarts, -, hshows⟩ := h.returned _ hrun
    obtain ⟨text, htext, hends⟩ := hshows.distro
    simp only [getDistroString, except_bind_ok_iff, getDistro_ok_iff, except_pure_ok_iff] at htext
    obtain ⟨distro, hdistro, rfl⟩ := htext
    have hm : major = m := hshows.majorVersion
    have hn : minor = n := hshows.minorVersion
    subst hm hn
    obtain rfl := (endsWith_distroString_iff distro major minor).mp hends
    refine ⟨by rw [hdistro]; rfl, major, ?_, hstarts⟩
    rw [← hk]
    exact Nat.mod_lt _ (by omega)
  · rintro ⟨hknown, n, hlt, hstarts⟩
    obtain ⟨distro, hdistro⟩ := Option.isSome_iff_exists.mp hknown
    obtain ⟨hmajor', hminor'⟩ := hstarts.sets hlt hlt
    obtain rfl := hmajor' major hmajor
    obtain rfl := Option.some.inj (hminor.symm.trans hminor')
    constructor
    · intro e os' herror
      rw [hrun] at herror
      exact absurd herror (by simp)
    · intro os' hreturn
      rw [hrun] at hreturn
      obtain ⟨-, rfl⟩ := EStateM.Result.ok.inj hreturn
      refine ⟨_, _, hstarts, hle, rfl, rfl, rfl, _, ?_,
        (endsWith_distroString_iff distro minor minor).mpr rfl⟩
      simp only [getDistroString, except_bind_ok_iff, getDistro_ok_iff, except_pure_ok_iff]
      exact ⟨distro, hdistro, rfl⟩

/-- Every system and every text. -/
theorem setsVersion_iff (os : OS) (version : String) :
    SetsVersion os version ↔ MeetsVersion os version := by
  unfold MeetsVersion
  split
  · rename_i hmajor
    exact iff_of_true (sets_major_none hmajor) trivial
  · rename_i major hmajor hminor
    exact sets_minor_none_iff hmajor hminor
  · rename_i major minor hmajor hminor
    exact sets_minor_some_iff hmajor hminor

/-- A late refusal leaves its major version behind, and an ordinary version is shown the
wrong way round. -/
theorem not_setsVersion :
    ¬ SetsVersion { distro := some .Rocky, majorVersion := 8, minorVersion := 8 } "9" ∧
      ¬ SetsVersion { distro := some .Rocky } "9.5" := by
  constructor
  · have hmajor : majorOf? "9" = some 9 := by decide
    rw [sets_minor_none_iff hmajor (by decide)]
    decide
  · intro h
    obtain ⟨hrun, htext⟩ : setVersion "9.5" { distro := some .Rocky } =
        .ok () { distro := some .Rocky, majorVersion := 9, minorVersion := 5 } ∧
        getDistroString { distro := some .Rocky, majorVersion := 9, minorVersion := 5 } =
          .ok "rockylinux5.9" := ⟨rfl, rfl⟩
    obtain ⟨major, minor, -, -, hshows⟩ := h.returned _ hrun
    obtain rfl : 9 = major := hshows.majorVersion
    obtain rfl : 5 = minor := hshows.minorVersion
    obtain ⟨text, hshown, hends⟩ := hshows.distro
    rw [htext] at hshown
    obtain rfl := Except.ok.inj hshown
    exact absurd hends (by decide)

end Cloyster.OS
