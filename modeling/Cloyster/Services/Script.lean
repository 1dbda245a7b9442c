import Cloyster.Functions

/-! Scripts: how one is built, and what the runner does with it. The text is put into a file
that is named after its hash unless something is there already, the file is made executable
and started, and the runner answers 0. -/

namespace Cloyster.Services

open Lib

structure ScriptBuilder where
  commands : List String
  /-- The constructor writes it, and commands are only added after it. -/
  shebang : commands.head? = some "#!/bin/bash -xeu"

namespace ScriptBuilder

def new : ScriptBuilder := ⟨["#!/bin/bash -xeu"], rfl⟩

def addCommand (builder : ScriptBuilder) (command : String) : ScriptBuilder where
  commands := builder.commands ++ [command]
  shebang := by rw [List.head?_append, builder.shebang]; rfl

def addNewLine (builder : ScriptBuilder) : ScriptBuilder := builder.addCommand ""

def enableService (builder : ScriptBuilder) (service : String) : ScriptBuilder :=
  builder.addCommand s!"systemctl enable --now {service}"

def addPackage (builder : ScriptBuilder) (pkg : String) : ScriptBuilder :=
  builder.addCommand s!"dnf install -y {pkg}"

def addLineToFile (builder : ScriptBuilder) (path key line : String) : ScriptBuilder :=
  builder.addCommand
    (s!"grep -q \"{key}\" \"{path}\" || \\\n" ++ s!"  echo \"{line}\" >> \"{path}\"")

def toString (builder : ScriptBuilder) : String := "\n".intercalate builder.commands

/-- The repository's own test. -/
example :
    ((((((new.addNewLine).addCommand "# Foo").addCommand "foo").addNewLine).addLineToFile
      "/etc/hosts" "example.com" "123.123.123.123 example.com").enableService
      "foo-service").toString =
    "#!/bin/bash -xeu\n\n# Foo\nfoo\n\ngrep -q \"example.com\" \"/etc/hosts\" || \\\n" ++
    "  echo \"123.123.123.123 example.com\" >> \"/etc/hosts\"\nsystemctl enable --now foo-service" := by
  decide +kernel

end ScriptBuilder

/-! ### The machine the runner works on -/

/-- The files, which of them may be executed, and what was executed with the code it left. -/
structure Machine where
  fs : FS
  executable : List Path := []
  executed : List (String × ℤ) := []

abbrev MachineM := EStateM Exn Machine

/-- What the system does with a file of this content that is to be executed: it refuses to
start it, or it gives the exit code and what the run left of the files. -/
abbrev Execute := FS → String → Except Exn (ℤ × FS)

/-- The commands the runner gives. -/
inductive Command where
  | chmodExecutable (path : Path)
  | script (path : Path)

def chmodExecutable (path : Path) : MachineM ℤ := do
  let m ← get
  if m.fs.exists path then
    set { m with executable := path :: m.executable }
    return 0
  return 1

/-- Starting a file throws when the system does not start it. -/
def executeFile (execute : Execute) (path : Path) : MachineM ℤ := do
  let m ← get
  match m.fs.get? path with
  | none => throw ⟨.systemError, "execve failed: No such file or directory"⟩
  | some .dir => throw ⟨.systemError, "execve failed: Permission denied"⟩
  | some (.file content) =>
    if path ∉ m.executable then throw ⟨.systemError, "execve failed: Permission denied"⟩
    let (code, fs) ← liftExcept (execute m.fs content)
    set { m with fs := fs, executed := m.executed ++ [(content, code)] }
    return code

def executeCommand (execute : Execute) : Command → MachineM ℤ
  | .chmodExecutable path => chmodExecutable path
  | .script path => executeFile execute path

namespace Runner

variable (opts : Options) (checksum : String → String) (execute : Execute)

/-- `/tmp/{hash}.sh`. -/
def scriptPath (script : ScriptBuilder) : Path := ["tmp", s!"{checksum script.toString}.sh"]

def run (script : ScriptBuilder) : MachineM ℤ := do
  let content := script.toString
  let path := scriptPath checksum script
  zoom Machine.fs (fun fs m => { m with fs := fs }) (installFile opts path content)
  -- neither code is looked at
  let _ ← executeCommand execute (.chmodExecutable path)
  let _ ← executeCommand execute (.script path)
  return 0

/-- The script is what was executed, and the answer tells whether it ended well. -/
def RunsScript (script : ScriptBuilder) (m : Machine) : Prop :=
  ∃ answer code m', run opts checksum execute script m = .ok answer m' ∧
    m'.executed = m.executed ++ [(script.toString, code)] ∧ (answer = 0 ↔ code = 0)

/-- The path holds the script already, or nothing and can be written. -/
def InPlace (script : ScriptBuilder) (fs : FS) : Prop :=
  fs.content? (scriptPath checksum script) = some script.toString ∨
    (fs.exists (scriptPath checksum script) = false ∧ fs.isDir ["tmp"])

/-- Executing the script with the file in place ends with 0. -/
def EndsWell (script : ScriptBuilder) (fs : FS) : Prop :=
  ∃ fs', execute (fs.set (scriptPath checksum script) (.file script.toString))
    script.toString = .ok (0, fs')

variable {opts checksum execute} {script : ScriptBuilder} {m : Machine}
  {fs : FS} {content : String}

/-! ### What is at the path when it is started -/

theorem installFile_inPlace (hdry : opts.dryRun = false) {fs : FS}
    (h : InPlace checksum script fs) :
    installFile opts (scriptPath checksum script) script.toString fs =
      .ok () (fs.set (scriptPath checksum script) (.file script.toString)) := by
  rw [installFile, if_neg (by simp [hdry]), bind_of_ok (get_apply fs)]
  obtain hcontent | ⟨hmissing, htmp⟩ := h
  · rw [FS.content?_eq_some] at hcontent
    rw [FS.set_of_get? hcontent]
    simp [FS.exists, hcontent]
  · have hnone : fs.get? (scriptPath checksum script) = none := by
      simpa [FS.exists, scriptPath] using hmissing
    have hwrite : fs.write (scriptPath checksum script) script.toString =
        .ok (fs.set (scriptPath checksum script) (.file script.toString)) := by
      rw [FS.write, hnone]
      simpa [scriptPath, Path.parent] using htmp
    simp [hmissing, hwrite]

theorem installFile_not_inPlace (hdry : opts.dryRun = false) {fs : FS}
    (h : ¬ InPlace checksum script fs) :
    installFile opts (scriptPath checksum script) script.toString fs = .ok () fs := by
  rw [InPlace, not_or] at h
  rw [installFile, if_neg (by simp [hdry]), bind_of_ok (get_apply fs)]
  by_cases hexists : fs.exists (scriptPath checksum script)
  · simp [hexists]
  · have hnone : fs.get? (scriptPath checksum script) = none := by
      simpa [FS.exists, scriptPath] using hexists
    have htmp : ¬ fs.isDir ["tmp"] := fun htmp => h.2 ⟨by simpa using hexists, htmp⟩
    have hwrite : fs.write (scriptPath checksum script) script.toString =
        .error .noSuchFile := by
      rw [FS.write, hnone]
      simpa [scriptPath, Path.parent] using htmp
    simp [hexists, hwrite]

/-! ### Starting it -/

theorem chmodExecutable_apply (path : Path) (m : Machine) :
    ∃ code, chmodExecutable path m = .ok code
      (if m.fs.exists path then { m with executable := path :: m.executable } else m) := by
  rw [chmodExecutable, bind_of_ok (get_apply m)]
  split_ifs
  · exact ⟨0, rfl⟩
  · exact ⟨1, rfl⟩

theorem executeFile_file {path : Path} (hcontent : m.fs.get? path = some (.file content))
    (hexecutable : path ∈ m.executable) :
    executeFile execute path m =
      match execute m.fs content with
      | .ok (code, fs) => .ok code { m with fs := fs, executed := m.executed ++ [(content, code)] }
      | .error e => .error e m := by
  rw [executeFile, bind_of_ok (get_apply m), hcontent]
  simp only [hexecutable, not_true_eq_false, if_false]
  cases execute m.fs content <;> rfl

theorem executeFile_no_file (execute : Execute) {path : Path}
    (hno : ∀ content, m.fs.get? path ≠ some (.file content)) :
    ∃ e, executeFile execute path m = .error e m := by
  rw [executeFile, bind_of_ok (get_apply m)]
  cases hget : m.fs.get? path with
  | none => exact ⟨_, rfl⟩
  | some node =>
    cases node with
    | dir => exact ⟨_, rfl⟩
    | file content => exact absurd hget (hno content)

/-- Whatever file is at the path is what is started, and the answer is 0. -/
theorem run_file (hcontent : fs.get? (scriptPath checksum script) = some (.file content))
    (hinstall : installFile opts (scriptPath checksum script) script.toString m.fs = .ok () fs) :
    run opts checksum execute script m =
      match execute fs content with
      | .ok (code, fs') => .ok 0
        { fs := fs', executable := scriptPath checksum script :: m.executable,
          executed := m.executed ++ [(content, code)] }
      | .error e => .error e
        { m with fs := fs, executable := scriptPath checksum script :: m.executable } := by
  have hexists : fs.exists (scriptPath checksum script) := by simp [FS.exists, hcontent]
  obtain ⟨code, hchmod⟩ := chmodExecutable_apply (scriptPath checksum script) { m with fs := fs }
  rw [if_pos hexists] at hchmod
  rw [run, bind_of_ok (zoom_ok_iff.mpr ⟨fs, hinstall, rfl⟩), executeCommand, bind_of_ok hchmod,
    executeCommand, bind_apply, executeFile_file hcontent List.mem_cons_self]
  cases execute fs content <;> rfl

theorem run_no_file (execute : Execute)
    (hno : ∀ content, fs.get? (scriptPath checksum script) ≠ some (.file content))
    (hinstall : installFile opts (scriptPath checksum script) script.toString m.fs = .ok () fs) :
    ∃ e m', run opts checksum execute script m = .error e m' := by
  obtain ⟨code, hchmod⟩ := chmodExecutable_apply (scriptPath checksum script) { m with fs := fs }
  have hfs : ∀ content, (if fs.exists (scriptPath checksum script) then
      { m with fs := fs, executable := scriptPath checksum script :: m.executable }
      else { m with fs := fs } : Machine).fs.get? (scriptPath checksum script) ≠
        some (.file content) := by
    intro content
    split_ifs <;> exact hno content
  obtain ⟨e, hstart⟩ := executeFile_no_file execute hfs
  rw [run, bind_of_ok (zoom_ok_iff.mpr ⟨fs, hinstall, rfl⟩), executeCommand, bind_of_ok hchmod,
    executeCommand, bind_of_error hstart]
  exact ⟨e, _, rfl⟩

/-- The script runs, and the answer tells how it ended, exactly when nothing else is at its path
and it ends well. -/
theorem runsScript_iff (hdry : opts.dryRun = false) (script : ScriptBuilder) (m : Machine) :
    RunsScript opts checksum execute script m ↔
      InPlace checksum script m.fs ∧ EndsWell checksum execute script m.fs := by
  by_cases hplace : InPlace checksum script m.fs
  · rw [RunsScript, run_file (FS.get?_set_self _ _ _) (installFile_inPlace hdry hplace),
      EndsWell, and_iff_right hplace]
    cases execute (m.fs.set (scriptPath checksum script) (.file script.toString))
        script.toString with
    | error e => simp
    | ok r =>
      obtain ⟨code, fs'⟩ := r
      constructor
      · rintro ⟨answer, code', m', hrun, hexecuted, hanswer⟩
        obtain ⟨rfl, rfl⟩ := EStateM.Result.ok.inj hrun
        obtain rfl : code = code' := by simpa using hexecuted
        exact ⟨fs', by rw [hanswer.mp rfl]⟩
      · rintro ⟨fs'', hends⟩
        obtain ⟨rfl, rfl⟩ := Prod.mk.inj (Except.ok.inj hends)
        exact ⟨0, 0, _, rfl, rfl, Iff.rfl⟩
  · refine iff_of_false ?_ fun h => hplace h.1
    rintro ⟨answer, code, m', hrun, hexecuted, -⟩
    have hinstall := installFile_not_inPlace hdry hplace
    by_cases hfile : ∃ content, m.fs.get? (scriptPath checksum script) = some (.file content)
    · -- a file of another content is there, and it is the one that is started
      obtain ⟨content, hcontent⟩ := hfile
      rw [run_file hcontent hinstall] at hrun
      cases hexecute : execute m.fs content with
      | error e => simp [hexecute] at hrun
      | ok r =>
        simp only [hexecute] at hrun
        obtain ⟨-, rfl⟩ := EStateM.Result.ok.inj hrun
        obtain ⟨rfl, -⟩ : content = script.toString ∧ _ := by simpa using hexecuted
        exact hplace (.inl (FS.content?_eq_some.mpr hcontent))
    · obtain ⟨e, m'', herror⟩ := run_no_file execute (not_exists.mp hfile) hinstall
      rw [herror] at hrun
      cases hrun

/-- A machine with nothing in `/tmp`. -/
def emptyTmp : Machine where
  fs := (∅ : FS).set ["tmp"] .dir

/-- The hashes of the two scripts below. -/
def sha256 (text : String) : String :=
  if text = "#!/bin/bash -xeu\ntrue" then
    "e7588c2f11ae23946d255f05d4609597e9ff94af607e3c0fbc4195296476ac8a"
  else "ff2d94931243722631604e15e8499f34809f7c7b99498e16e7d8223dc37b1328"

/-- How the shell ends on the two scripts below. -/
def bash : Execute := fun fs text =>
  if text = "#!/bin/bash -xeu\ntrue" then .ok (0, fs) else .ok (1, fs)

theorem runsScript_iff_true :
    RunsScript {} sha256 bash (.addCommand .new "true") emptyTmp :=
  (runsScript_iff rfl _ _).mpr ⟨.inr (by decide), _, if_pos (by decide +kernel)⟩

/-- The script fails, and the answer is 0. -/
theorem not_runsScript_false :
    ¬ RunsScript {} sha256 bash (.addCommand .new "false") emptyTmp := by
  rintro ⟨answer, code, m', hrun, hexecuted, hanswer⟩
  have hfails : bash (emptyTmp.fs.set (scriptPath sha256 (.addCommand .new "false"))
      (.file (ScriptBuilder.addCommand .new "false").toString))
      (ScriptBuilder.addCommand .new "false").toString = .ok (1, _) :=
    if_neg (by decide +kernel)
  rw [run_file (FS.get?_set_self _ _ _) (installFile_inPlace rfl (.inr (by decide))),
    hfails] at hrun
  obtain ⟨rfl, rfl⟩ := EStateM.Result.ok.inj hrun
  obtain rfl : 1 = code := by simpa using hexecuted
  exact absurd (hanswer.mp rfl) (by decide)

end Runner

end Cloyster.Services
