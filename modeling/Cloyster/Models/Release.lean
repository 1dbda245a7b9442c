import Cloyster.DryRun
import Cloyster.Models.Version

/-! The system that the program runs on. Its architecture and family are what `uname` says, and on
Linux, or when it was built on a Mac, the rest is read from `os-release` line by line, each line by
its key. Reading them in one loop is the same as reading the values of every key on their own and
taking the last ones. -/

namespace Cloyster.OS

open Lib

/-! ### The setters -/

instance : NamedEnum Family where
  values := [.Linux, .Darwin]
  name
    | .Linux => "Linux"
    | .Darwin => "Darwin"

instance : NamedEnum Platform where
  values := [.el8, .el9, .el10]
  name
    | .el8 => "el8"
    | .el9 => "el9"
    | .el10 => "el10"

/-- `enums::ofStringOpt`. -/
def ofString (α : Type) [NamedEnum α] (s : String) : Option α :=
  (NamedEnum.values : List α).find? fun a => NamedEnum.name a = s

def setArch (arch : String) : EStateM Exn OS Unit := do
  refuseIf (arch ≠ "x86_64") (.runtimeError s!"Unsupported architecture: {arch}")
  modify fun os => { os with arch := .x86_64 }

def setFamily (family : String) : EStateM Exn OS Unit :=
  match ofString Family family with
  | some f => modify fun os => { os with family := f }
  | none => throw (.runtimeError s!"Unsupported OS: {family}")

def setPlatform (platform : String) : EStateM Exn OS Unit :=
  match ofStringInsensitive Platform platform with
  | some p => modify fun os => { os with platform := some p }
  | none => throw (.runtimeError s!"Unsupported Platform: {platform}")

/-- What follows the first `=`, or the whole line, without the double quotes. -/
def getValueFromKey (line : String) : String :=
  let value := if '=' ∈ line.toList then (line.toList.dropWhile (· ≠ '=')).tail else line.toList
  String.ofList (value.filter (· ≠ '"'))

/-! ### The file -/

def platformPrefix : String := "platform:"

/-- The value of `PLATFORM_ID` without its prefix. -/
def platformValue (value : String) : String :=
  if Text.startsWith value platformPrefix then
    String.ofList (value.toList.drop platformPrefix.length)
  else value

/-- A line that starts with a key is for the setter of the key. -/
def setKey (key : String) (set : String → EStateM Exn OS Unit) (line : String) :
    EStateM Exn OS Unit :=
  if Text.startsWith line key then set (getValueFromKey line) else pure ()

/-- In a test the values are not looked at. -/
def readLine (isTest : Bool) (line : String) : EStateM Exn OS Unit := do
  setKey "PLATFORM_ID=" (fun value =>
    setPlatform (if isTest then "el9" else platformValue value)) line
  setKey "ID=" (fun value => setDistro (if isTest then "rocky" else value)) line
  setKey "VERSION=" (fun value => setVersion (if isTest then "9.5" else value)) line

/-- What the preprocessor saw, and where the program was started. -/
structure Build where
  apple : Bool := false
  dummy : Bool := false
  workingDirectory : Path := []

/-- `CHROOT`, which is a relative path if it is anything. -/
def Build.chroot (build : Build) : String := if build.dummy || build.apple then "chroot" else ""

def Build.root (build : Build) : Path :=
  if build.dummy || build.apple then build.workingDirectory.child "chroot" else []

def releaseFile (build : Build) : Path := build.root ++ ["etc", "os-release"]

/-- The lines that `std::getline` gets. -/
def linesOf (text : String) : List String := (Lines.lines '\n' text.toList).map String.ofList

/-- A directory can be opened, and not read. -/
def readRelease (build : Build) (isTest : Bool) (fs : FS) : EStateM Exn OS Unit :=
  match fs.get? (releaseFile build) with
  | none => throw (.runtimeError s!"Error while opening file: {build.chroot}/etc/os-release")
  | some .dir => throw (.runtimeError s!"Error while reading file: {build.chroot}/etc/os-release")
  | some (.file text) => (linesOf text).forM (readLine isTest)

/-- `uname`. -/
structure UtsName where
  machine : String
  sysname : String
  release : String

/-- The constructor that looks at the host. -/
def detect (build : Build) (isTest : Bool) (system : UtsName) (fs : FS) : EStateM Exn OS Unit := do
  setArch system.machine
  setFamily system.sysname
  modify fun os => { os with kernel := system.release }
  let os ← get
  if build.apple ∨ os.family = .Linux then readRelease build isTest fs

/-! ### Key by key -/

/-- The values of a key, in order. -/
def valuesOf (key : String) (lines : List String) : List String :=
  (lines.filter (Text.startsWith · key)).map getValueFromKey

def platformOf (isTest : Bool) (value : String) : Option Platform :=
  ofStringInsensitive Platform (if isTest then "el9" else platformValue value)

def distroOf (isTest : Bool) (value : String) : Option Distro :=
  ofStringInsensitive Distro (if isTest then "rocky" else value)

def versionOf (isTest : Bool) (value : String) : Option (ℕ × ℕ) := do
  let major ← majorOf? (if isTest then "9.5" else value)
  let minor ← minorOf? (if isTest then "9.5" else value)
  return (major, minor)

/-- The last value of each key. A key without a line changes nothing. -/
def latest (platforms : List Platform) (distros : List Distro) (versions : List (ℕ × ℕ)) (os : OS) :
    OS :=
  { os with
    platform := platforms.getLast?.or os.platform
    distro := distros.getLast?.or os.distro
    majorVersion := (versions.getLast?.map Prod.fst).getD os.majorVersion
    minorVersion := (versions.getLast?.map Prod.snd).getD os.minorVersion }

/-- What the lines say, if each line of a key says something. -/
def release (isTest : Bool) (lines : List String) (os : OS) : Option OS := do
  let platforms ← (valuesOf "PLATFORM_ID=" lines).mapM (platformOf isTest)
  let distros ← (valuesOf "ID=" lines).mapM (distroOf isTest)
  let versions ← (valuesOf "VERSION=" lines).mapM (versionOf isTest)
  return latest platforms distros versions os

/-! ### One line -/

variable {isTest : Bool} {os os' : OS} {line : String} {lines : List String}

theorem setPlatform_ok_iff {value : String} :
    setPlatform (if isTest then "el9" else platformValue value) os = .ok () os' ↔
      ∃ p, platformOf isTest value = some p ∧ os' = { os with platform := some p } := by
  unfold setPlatform platformOf
  cases ofStringInsensitive Platform (if isTest then "el9" else platformValue value) with
  | none => simp
  | some p => simp [eq_comm]

theorem setDistro_ok_iff {value : String} :
    setDistro (if isTest then "rocky" else value) os = .ok () os' ↔
      ∃ d, distroOf isTest value = some d ∧ os' = { os with distro := some d } := by
  unfold setDistro distroOf
  cases ofStringInsensitive Distro (if isTest then "rocky" else value) with
  | none => simp
  | some d => simp [eq_comm]

theorem setVersion_ok_iff {value : String} :
    setVersion (if isTest then "9.5" else value) os = .ok () os' ↔
      ∃ v, versionOf isTest value = some v ∧
        os' = { os with majorVersion := v.1, minorVersion := v.2 } := by
  unfold versionOf
  generalize (if isTest then "9.5" else value) = value
  cases hmajor : majorOf? value with
  | none =>
    obtain ⟨e, herror⟩ := setVersion_of_major_none hmajor os
    simp [herror]
  | some major =>
    rw [setVersion_of_major_some hmajor]
    cases hminor : minorOf? value with
    | none =>
      obtain ⟨e, herror⟩ := setMinorText_of_none hminor { os with majorVersion := major }
      simp [herror]
    | some minor =>
      rw [setMinorText_of_some hminor]
      simp [eq_comm]

/-- The key of a line is seen in its first letter. -/
theorem head?_of_startsWith {key : String} (h : Text.startsWith line key) (hkey : key.toList ≠ []) :
    line.toList.head? = key.toList.head? := by
  obtain ⟨rest, hrest⟩ := List.isPrefixOf_iff_prefix.mp h
  rw [← hrest, List.head?_append_of_ne_nil _ hkey]

theorem startsWith_false {key key' : String} (h : Text.startsWith line key)
    (hkey : key.toList ≠ []) (hkey' : key'.toList ≠ [])
    (hne : key.toList.head? ≠ key'.toList.head?) : Text.startsWith line key' = false := by
  refine Bool.eq_false_iff.mpr fun h' => hne ?_
  rw [← head?_of_startsWith h hkey, head?_of_startsWith h' hkey']

theorem setKey_of_true {key : String} (h : Text.startsWith line key)
    (set : String → EStateM Exn OS Unit) : setKey key set line = set (getValueFromKey line) := if_pos h

theorem setKey_of_false {key : String} (h : Text.startsWith line key = false)
    (set : String → EStateM Exn OS Unit) : setKey key set line = pure () :=
  if_neg (by simp [h])

/-- A line has one key at most. -/
inductive KeyOf (line : String) : Prop
  | platform (h : Text.startsWith line "PLATFORM_ID=") (hid : Text.startsWith line "ID=" = false)
      (hversion : Text.startsWith line "VERSION=" = false)
  | distro (hplatform : Text.startsWith line "PLATFORM_ID=" = false)
      (h : Text.startsWith line "ID=") (hversion : Text.startsWith line "VERSION=" = false)
  | version (hplatform : Text.startsWith line "PLATFORM_ID=" = false)
      (hid : Text.startsWith line "ID=" = false) (h : Text.startsWith line "VERSION=")
  | none (hplatform : Text.startsWith line "PLATFORM_ID=" = false)
      (hid : Text.startsWith line "ID=" = false) (hversion : Text.startsWith line "VERSION=" = false)

theorem keyOf (line : String) : KeyOf line := by
  cases hplatform : Text.startsWith line "PLATFORM_ID=" with
  | true =>
    exact .platform hplatform (startsWith_false hplatform (by decide) (by decide) (by decide))
      (startsWith_false hplatform (by decide) (by decide) (by decide))
  | false =>
    cases hid : Text.startsWith line "ID=" with
    | true =>
      exact .distro hplatform hid (startsWith_false hid (by decide) (by decide) (by decide))
    | false =>
      cases hversion : Text.startsWith line "VERSION=" with
      | true => exact .version hplatform hid hversion
      | false => exact .none hplatform hid hversion

theorem readLine_platform (h : Text.startsWith line "PLATFORM_ID=")
    (hid : Text.startsWith line "ID=" = false)
    (hversion : Text.startsWith line "VERSION=" = false) :
    readLine isTest line =
      setPlatform (if isTest then "el9" else platformValue (getValueFromKey line)) := by
  rw [readLine, setKey_of_true h, setKey_of_false hid, setKey_of_false hversion, pure_bind,
    bind_pure_unit]

theorem readLine_distro (hplatform : Text.startsWith line "PLATFORM_ID=" = false)
    (h : Text.startsWith line "ID=") (hversion : Text.startsWith line "VERSION=" = false) :
    readLine isTest line = setDistro (if isTest then "rocky" else getValueFromKey line) := by
  rw [readLine, setKey_of_false hplatform, setKey_of_true h, setKey_of_false hversion, pure_bind,
    bind_pure_unit]

theorem readLine_version (hplatform : Text.startsWith line "PLATFORM_ID=" = false)
    (hid : Text.startsWith line "ID=" = false) (h : Text.startsWith line "VERSION=") :
    readLine isTest line = setVersion (if isTest then "9.5" else getValueFromKey line) := by
  rw [readLine, setKey_of_false hplatform, setKey_of_false hid, setKey_of_true h, pure_bind,
    pure_bind]

theorem readLine_none (hplatform : Text.startsWith line "PLATFORM_ID=" = false)
    (hid : Text.startsWith line "ID=" = false)
    (hversion : Text.startsWith line "VERSION=" = false) : readLine isTest line = pure () := by
  rw [readLine, setKey_of_false hplatform, setKey_of_false hid, setKey_of_false hversion, pure_bind,
    pure_bind]

/-! ### All lines -/

theorem valuesOf_concat_of_true {key : String} (h : Text.startsWith line key) :
    valuesOf key (lines ++ [line]) = valuesOf key lines ++ [getValueFromKey line] := by
  rw [valuesOf, List.filter_append, List.map_append, List.filter_singleton, h]
  rfl

theorem valuesOf_concat_of_false {key : String} (h : Text.startsWith line key = false) :
    valuesOf key (lines ++ [line]) = valuesOf key lines := by
  rw [valuesOf, List.filter_append, List.filter_singleton, h, Bool.cond_false, List.append_nil]
  rfl

theorem mapM_concat {α β : Type} {f : α → Option β} {l : List α} {a : α} {r : List β} :
    (l ++ [a]).mapM f = some r ↔ ∃ s b, l.mapM f = some s ∧ f a = some b ∧ s ++ [b] = r := by
  simp only [List.mapM_append, List.mapM_cons, List.mapM_nil, Option.bind_eq_bind,
    Option.bind_eq_some_iff, Option.pure_def, Option.some_inj]
  constructor
  · rintro ⟨s, hs, _, ⟨b, hb, _, rfl, rfl⟩, rfl⟩
    exact ⟨s, b, hs, hb, rfl⟩
  · rintro ⟨s, b, hs, hb, rfl⟩
    exact ⟨s, hs, _, ⟨b, hb, _, rfl, rfl⟩, rfl⟩

theorem release_eq_some_iff : release isTest lines os = some os' ↔ ∃ platforms distros versions,
    (valuesOf "PLATFORM_ID=" lines).mapM (platformOf isTest) = some platforms ∧
      (valuesOf "ID=" lines).mapM (distroOf isTest) = some distros ∧
      (valuesOf "VERSION=" lines).mapM (versionOf isTest) = some versions ∧
      latest platforms distros versions os = os' := by
  simp only [release, Option.bind_eq_bind, Option.bind_eq_some_iff, Option.pure_def,
    Option.some_inj]
  constructor
  · rintro ⟨platforms, hplatforms, distros, hdistros, versions, hversions, h⟩
    exact ⟨platforms, distros, versions, hplatforms, hdistros, hversions, h⟩
  · rintro ⟨platforms, distros, versions, hplatforms, hdistros, hversions, h⟩
    exact ⟨platforms, hplatforms, distros, hdistros, versions, hversions, h⟩

theorem release_platform (h : Text.startsWith line "PLATFORM_ID=")
    (hid : Text.startsWith line "ID=" = false) (hversion : Text.startsWith line "VERSION=" = false) :
    release isTest (lines ++ [line]) os = some os' ↔ ∃ mid, release isTest lines os = some mid ∧
      setPlatform (if isTest then "el9" else platformValue (getValueFromKey line)) mid =
        .ok () os' := by
  simp only [setPlatform_ok_iff, release_eq_some_iff, valuesOf_concat_of_true h,
    valuesOf_concat_of_false hid, valuesOf_concat_of_false hversion, mapM_concat]
  constructor
  · rintro ⟨_, distros, versions, ⟨platforms, p, hplatforms, hp, rfl⟩, hdistros, hversions, rfl⟩
    refine ⟨_, ⟨platforms, distros, versions, hplatforms, hdistros, hversions, rfl⟩, p, hp, ?_⟩
    simp [latest]
  · rintro ⟨_, ⟨platforms, distros, versions, hplatforms, hdistros, hversions, rfl⟩, p, hp, rfl⟩
    refine ⟨_, distros, versions, ⟨platforms, p, hplatforms, hp, rfl⟩, hdistros, hversions, ?_⟩
    simp [latest]

theorem release_distro (hplatform : Text.startsWith line "PLATFORM_ID=" = false)
    (h : Text.startsWith line "ID=") (hversion : Text.startsWith line "VERSION=" = false) :
    release isTest (lines ++ [line]) os = some os' ↔ ∃ mid, release isTest lines os = some mid ∧
      setDistro (if isTest then "rocky" else getValueFromKey line) mid = .ok () os' := by
  simp only [setDistro_ok_iff, release_eq_some_iff, valuesOf_concat_of_true h,
    valuesOf_concat_of_false hplatform, valuesOf_concat_of_false hversion, mapM_concat]
  constructor
  · rintro ⟨platforms, _, versions, hplatforms, ⟨distros, d, hdistros, hd, rfl⟩, hversions, rfl⟩
    refine ⟨_, ⟨platforms, distros, versions, hplatforms, hdistros, hversions, rfl⟩, d, hd, ?_⟩
    simp [latest]
  · rintro ⟨_, ⟨platforms, distros, versions, hplatforms, hdistros, hversions, rfl⟩, d, hd, rfl⟩
    refine ⟨platforms, _, versions, hplatforms, ⟨distros, d, hdistros, hd, rfl⟩, hversions, ?_⟩
    simp [latest]

theorem release_version (hplatform : Text.startsWith line "PLATFORM_ID=" = false)
    (hid : Text.startsWith line "ID=" = false) (h : Text.startsWith line "VERSION=") :
    release isTest (lines ++ [line]) os = some os' ↔ ∃ mid, release isTest lines os = some mid ∧
      setVersion (if isTest then "9.5" else getValueFromKey line) mid = .ok () os' := by
  simp only [setVersion_ok_iff, release_eq_some_iff, valuesOf_concat_of_true h,
    valuesOf_concat_of_false hplatform, valuesOf_concat_of_false hid, mapM_concat]
  constructor
  · rintro ⟨platforms, distros, _, hplatforms, hdistros, ⟨versions, v, hversions, hv, rfl⟩, rfl⟩
    refine ⟨_, ⟨platforms, distros, versions, hplatforms, hdistros, hversions, rfl⟩, v, hv, ?_⟩
    simp [latest]
  · rintro ⟨_, ⟨platforms, distros, versions, hplatforms, hdistros, hversions, rfl⟩, v, hv, rfl⟩
    refine ⟨platforms, distros, _, hplatforms, hdistros, ⟨versions, v, hversions, hv, rfl⟩, ?_⟩
    simp [latest]

/-- One more line is read after the others. -/
theorem release_concat : release isTest (lines ++ [line]) os = some os' ↔
    ∃ mid, release isTest lines os = some mid ∧ readLine isTest line mid = .ok () os' := by
  cases keyOf line with
  | platform h hid hversion =>
    rw [readLine_platform h hid hversion]
    exact release_platform h hid hversion
  | distro hplatform h hversion =>
    rw [readLine_distro hplatform h hversion]
    exact release_distro hplatform h hversion
  | version hplatform hid h =>
    rw [readLine_version hplatform hid h]
    exact release_version hplatform hid h
  | none hplatform hid hversion =>
    rw [readLine_none hplatform hid hversion]
    simp only [release_eq_some_iff, valuesOf_concat_of_false hplatform,
      valuesOf_concat_of_false hid, valuesOf_concat_of_false hversion, pure_apply,
      EStateM.Result.ok.injEq, true_and, exists_eq_right]

/-- The loop over the lines says what the keys say. -/
theorem readLines_ok_iff : lines.forM (readLine isTest) os = .ok ⟨⟩ os' ↔
    release isTest lines os = some os' := by
  induction lines using List.reverseRecOn generalizing os' with
  | nil =>
    have hnil : release isTest [] os = some os := by simp [release, valuesOf, latest]
    rw [hnil, Option.some_inj]
    exact ⟨fun h => (EStateM.Result.ok.inj h).2, fun h => h ▸ rfl⟩
  | append_singleton lines line ih =>
    have hone (mid : OS) : [line].forM (readLine isTest) mid = readLine isTest line mid := by
      rw [forM_cons_apply]
      cases readLine isTest line mid <;> rfl
    rw [release_concat, forM_append_apply, bind_ok_iff]
    constructor
    · rintro ⟨u, mid, hmid, hlast⟩
      rw [hone] at hlast
      exact ⟨mid, ih.mp hmid, hlast⟩
    · rintro ⟨mid, hmid, hlast⟩
      rw [← hone] at hlast
      exact ⟨⟨⟩, mid, ih.mpr hmid, hlast⟩

theorem ofString_family_iff {s : String} {family : Family} :
    ofString Family s = some family ↔ s = NamedEnum.name family := by
  constructor
  · intro h
    unfold ofString at h
    have hname := List.find?_some h
    exact (of_decide_eq_true hname).symm
  · rintro rfl
    cases family <;> decide

theorem setFamily_ok_iff {family : String} : setFamily family os = .ok () os' ↔
    ∃ f : Family, family = NamedEnum.name f ∧ os' = { os with family := f } := by
  simp only [← ofString_family_iff]
  unfold setFamily
  cases ofString Family family with
  | none => simp
  | some f => simp [eq_comm]

theorem setArch_ok_iff {arch : String} : setArch arch os = .ok () os' ↔
    arch = "x86_64" ∧ os' = { os with arch := .x86_64 } := by
  rw [setArch, refuseIf]
  split_ifs with h
  · simp [bind_apply, h]
  · simp [bind_apply, not_not.mp h, eq_comm]

section

variable {build : Build} {system : UtsName} {fs : FS}

theorem readRelease_ok_iff : readRelease build isTest fs os = .ok () os' ↔
    ∃ text, fs.content? (releaseFile build) = some text ∧
      release isTest (linesOf text) os = some os' := by
  unfold readRelease FS.content?
  cases fs.get? (releaseFile build) with
  | none => simp
  | some node =>
    cases node with
    | dir => simp
    | file text =>
      simp only [Option.some_inj, exists_eq_left']
      exact readLines_ok_iff

/-- The names of the machine and of its system decide what is read. -/
theorem detect_of_names {family : Family} (harch : system.machine = "x86_64")
    (hfamily : system.sysname = NamedEnum.name family) :
    detect build isTest system fs {} =
      if build.apple ∨ family = .Linux then
        readRelease build isTest fs { family, kernel := system.release }
      else .ok () { family, kernel := system.release } := by
  have hset : setArch system.machine ({} : OS) = .ok () {} := setArch_ok_iff.mpr ⟨harch, rfl⟩
  have hname : setFamily system.sysname ({} : OS) = .ok () { family } :=
    setFamily_ok_iff.mpr ⟨family, hfamily, rfl⟩
  rw [detect, bind_of_ok hset, bind_of_ok hname, bind_apply, modify_apply]
  dsimp only
  rw [bind_apply, get_apply]
  dsimp only
  split_ifs <;> rfl

/-- When the program gets to know its host, and as what: where `os-release` is read every line of a
key has to say something, and the last line of each key is what counts. -/
theorem detect_ok_iff : detect build isTest system fs {} = .ok () os ↔
    system.machine = "x86_64" ∧ ∃ family : Family, system.sysname = NamedEnum.name family ∧
      if build.apple ∨ family = .Linux then
        ∃ text, fs.content? (releaseFile build) = some text ∧
          release isTest (linesOf text) { family, kernel := system.release } = some os
      else os = { family, kernel := system.release } := by
  constructor
  · intro h
    obtain ⟨_, t, hset, hrest⟩ := bind_ok_iff.mp h
    obtain ⟨harch, rfl⟩ := setArch_ok_iff.mp hset
    obtain ⟨_, t, hname, -⟩ := bind_ok_iff.mp hrest
    obtain ⟨family, hfamily, rfl⟩ := setFamily_ok_iff.mp hname
    refine ⟨harch, family, hfamily, ?_⟩
    rw [detect_of_names harch hfamily] at h
    split_ifs at h ⊢ with hread
    · exact readRelease_ok_iff.mp h
    · exact (EStateM.Result.ok.inj h).2.symm
  · rintro ⟨harch, family, hfamily, h⟩
    rw [detect_of_names harch hfamily]
    split_ifs at h ⊢ with hread
    · exact readRelease_ok_iff.mpr h
    · rw [h]

end

end Cloyster.OS
