import Cloyster.Functions

/-! What a dry run does to the file system. Eight of the helpers return before
their first write. Of the others, the copies are safe because every file goes
through `copyFile`; `addStringToFile` opens its stream before it looks at the
flag, which creates a missing file; removing never looks at the flag, so moving
removes what it did not copy; and a forced backup deletes the old one first.
For each call the condition under which it does leave the files alone is a
property of the state it starts in, and a sequence of calls leaves them alone
exactly when each of its calls does. -/

namespace Cloyster

open Lib

/-- A call to one of the file helpers. -/
inductive Call where
  | touchFile (path : Path)
  | createDirectory (path : Path)
  | removeFile (filename : Path)
  | backupFile (filename : Path) (timestamp : String)
  | changeValueInConfigurationFile (filename : Path) (key value : String)
  | addStringToFile (filename : Path) (string : String)
  | copyFile (source destination : Path)
  | installFile (path : Path) (data : String)
  | copyFilesWithExtension (source destination : Path) (extension : String)
  | removeFilesWithExtension (path : Path) (extension : String)
  | moveFilesWithExtension (source destination : Path) (extension : String)
  | backupFilesByExtension (backupPath sourcePath : Path) (extension : String)

variable (opts : Options) (ini : IniFormat)

def Call.run : Call → FsM Unit
  | .touchFile path => Cloyster.touchFile opts path
  | .createDirectory path => Cloyster.createDirectory opts path
  | .removeFile filename => Cloyster.removeFile opts filename
  | .backupFile filename timestamp => Cloyster.backupFile opts filename timestamp
  | .changeValueInConfigurationFile filename key value =>
    Cloyster.changeValueInConfigurationFile opts ini filename key value
  | .addStringToFile filename string => Cloyster.addStringToFile opts filename string
  | .copyFile source destination => Cloyster.copyFile opts source destination
  | .installFile path data => Cloyster.installFile opts path data
  | .copyFilesWithExtension source destination extension =>
    Cloyster.copyFilesWithExtension opts source destination extension
  | .removeFilesWithExtension path extension => Cloyster.removeFilesWithExtension path extension
  | .moveFilesWithExtension source destination extension =>
    Cloyster.moveFilesWithExtension opts source destination extension
  | .backupFilesByExtension backupPath sourcePath extension =>
    Cloyster.backupFilesByExtension opts backupPath sourcePath extension

/-- The file system after a sequence of calls. A call that throws leaves what
it had done, and the caller goes on. -/
def runCalls (calls : List Call) (fs : FS) : FS :=
  calls.foldl (fun fs call => finalState (call.run opts ini fs)) fs

/-- No call of the sequence creates, modifies or removes anything. -/
def KeepsFilesystem (calls : List Call) (fs : FS) : Prop :=
  ∀ n, runCalls opts ini (calls.take n) fs = fs

/-- The directory has no regular file with the extension, in either case. -/
def NothingToRemove (fs : FS) (path : Path) (extension : String) : Prop :=
  fs.isDir path → ∀ name ∈ fs.children path, hasExtensionLower fs path extension name = false

/-- The states in which a call leaves the files alone under a dry run. -/
def KeepsInDryRun (fs : FS) : Call → Prop
  | .addStringToFile filename string =>
    Text.contains ((fs.content? filename).getD "") string ∨ fs.exists filename ∨
      fs.isDir filename.parent = false
  | .removeFilesWithExtension path extension => NothingToRemove fs path extension
  | .moveFilesWithExtension source _ extension => NothingToRemove fs source extension
  | .backupFilesByExtension backupPath sourcePath extension =>
    (opts.shouldForce "backups" → ∀ p ∈ fs.keys, ¬ backupPath <+: p) ∧
      (fs.exists backupPath ∨ NothingToRemove fs sourcePath extension)
  | _ => True

variable {opts ini}

/-! ### The guarded helpers -/

section Guarded
variable (h : opts.dryRun = true) (fs : FS)
include h

theorem touchFile_dryRun (path : Path) : touchFile opts path fs = .ok () fs := by
  simp [touchFile, h]

theorem createDirectory_dryRun (path : Path) : createDirectory opts path fs = .ok () fs := by
  simp [createDirectory, h]

theorem removeFile_dryRun (filename : Path) : removeFile opts filename fs = .ok () fs := by
  simp [removeFile, h]

theorem backupFile_dryRun (filename : Path) (timestamp : String) :
    backupFile opts filename timestamp fs = .ok () fs := by
  simp [backupFile, h]

theorem changeValueInConfigurationFile_dryRun (filename : Path) (key value : String) :
    changeValueInConfigurationFile opts ini filename key value fs = .ok () fs := by
  simp [changeValueInConfigurationFile, h]

theorem copyFile_dryRun (source destination : Path) :
    copyFile opts source destination fs = .ok () fs := by
  simp [copyFile, h]

theorem installFile_dryRun (path : Path) (data : String) :
    installFile opts path data fs = .ok () fs := by
  simp [installFile, h]

theorem copyEntry_dryRun (source destination : Path) (extension name : String) :
    copyEntry opts source destination extension name fs = .ok () fs := by
  rw [copyEntry, bind_apply, get_apply]
  dsimp only
  split_ifs
  · exact copyFile_dryRun h fs _ _
  · rfl

theorem copyFilesWithExtension_dryRun {source : Path} (hs : fs.isDir source)
    (destination : Path) (extension : String) :
    copyFilesWithExtension opts source destination extension fs = .ok () fs := by
  rw [copyFilesWithExtension, bind_apply, directoryIterator_of_isDir hs]
  exact forM_of_ok fun name _ => copyEntry_dryRun h fs source destination extension name

theorem unchanged_copyFilesWithExtension (source destination : Path) (extension : String) :
    Unchanged (copyFilesWithExtension opts source destination extension) fs := by
  by_cases hs : fs.isDir source
  · rw [Unchanged, copyFilesWithExtension_dryRun h fs hs]
    rfl
  · obtain ⟨e, he⟩ := directoryIterator_of_not_isDir (Bool.eq_false_iff.mpr hs)
    rw [Unchanged, copyFilesWithExtension, bind_of_error he]
    rfl

/-- The stream creates a file exactly when the name is free and its directory exists. -/
theorem unchanged_addStringToFile_iff (filename : Path) (string : String) :
    Unchanged (addStringToFile opts filename string) fs ↔
      Text.contains ((fs.content? filename).getD "") string ∨ fs.exists filename ∨
        fs.isDir filename.parent = false := by
  rw [Unchanged, addStringToFile, bind_apply, get_apply]
  dsimp only
  by_cases hc : Text.contains ((fs.content? filename).getD "") string
  · simp [hc]
    rfl
  · simp only [hc, h, Bool.false_eq_true, if_false, false_or]
    cases hn : fs.get? filename with
    | some node =>
      have he : fs.exists filename := by simp [FS.exists, hn]
      cases node with
      | file content => simp [FS.openAppend, hn, he, finalState]
      | dir => simp [FS.openAppend, hn, he, finalState]
    | none =>
      by_cases hroot : filename = []
      · subst hroot
        simp [FS.openAppend, hn, FS.exists, finalState]
      by_cases hd : fs.isDir filename.parent
      · have hne : fs.set filename (.file "") ≠ fs := by
          intro heq
          have hget := FS.get?_set_self fs filename (Node.file "")
          rw [heq, hn] at hget
          exact absurd hget (by simp)
        simp [FS.openAppend, hn, hroot, hd, FS.exists, finalState, hne]
      · simp [FS.openAppend, hn, hroot, hd, finalState]

end Guarded

/-! ### The helpers that remove -/

/-- Removing only takes names away: a path that is free stays free. -/
theorem preserves_removeEntry (q : Path) (path : Path) (extension name : String) :
    Preserves (fun fs => fs.get? q = none) (removeEntry path extension name) := by
  intro fs hq
  rw [removeEntry_apply]
  simp only [finalState]
  split_ifs
  · rw [FS.get?_erase, hq, ite_self]
  · exact hq

theorem preserves_removeFilesWithExtension (q path : Path) (extension : String) :
    Preserves (fun fs => fs.get? q = none) (removeFilesWithExtension path extension) := by
  refine preserves_bind (fun fs hq => ?_) fun names =>
    preserves_forM fun name _ => preserves_removeEntry q path extension name
  by_cases hd : fs.isDir path
  · rw [directoryIterator_of_isDir hd]
    exact hq
  · obtain ⟨e, he⟩ := directoryIterator_of_not_isDir (Bool.eq_false_iff.mpr hd)
    rw [he]
    exact hq

theorem unchanged_removeFilesWithExtension_iff (path : Path) (extension : String) (fs : FS) :
    Unchanged (removeFilesWithExtension path extension) fs ↔ NothingToRemove fs path extension := by
  by_cases hd : fs.isDir path
  · obtain ⟨fs', hrun, hget⟩ := removeEntries_apply path extension
      (fs.children path) fs
    rw [Unchanged, removeFilesWithExtension, bind_apply, directoryIterator_of_isDir hd]
    dsimp only
    rw [hrun]
    constructor
    · intro hfs _ name hm
      obtain rfl : fs' = fs := hfs
      obtain ⟨node, hnode⟩ := FS.mem_children.mp hm
      by_contra hmatch
      have hgone := hget (path.child name)
      rw [if_pos ⟨name, hm, rfl, by simpa using hmatch⟩, hnode] at hgone
      exact absurd hgone (by simp)
    · intro hnone
      have hall : ∀ name ∈ fs.children path, removeEntry path extension name fs = .ok () fs := by
        intro name hm
        rw [removeEntry_apply, hnone hd name hm]
        rfl
      rw [forM_of_ok hall] at hrun
      simp only [EStateM.Result.ok.injEq, true_and] at hrun
      exact hrun.symm
  · obtain ⟨e, he⟩ := directoryIterator_of_not_isDir (Bool.eq_false_iff.mpr hd)
    rw [Unchanged, removeFilesWithExtension, bind_of_error he]
    exact ⟨fun _ hd' => absurd hd' hd, fun _ => rfl⟩

section Moving
variable (h : opts.dryRun = true)
include h

theorem finalState_moveFilesWithExtension (source destination : Path) (extension : String)
    (fs : FS) :
    finalState (moveFilesWithExtension opts source destination extension fs) =
      finalState (removeFilesWithExtension source extension fs) := by
  rw [moveFilesWithExtension]
  by_cases hs : fs.isDir source
  · rw [bind_of_ok (copyFilesWithExtension_dryRun h fs hs destination extension)]
  · obtain ⟨e, he⟩ := directoryIterator_of_not_isDir (Bool.eq_false_iff.mpr hs)
    have hcopy : copyFilesWithExtension opts source destination extension fs = .error e fs := by
      rw [copyFilesWithExtension, bind_of_error he]
    rw [bind_of_error hcopy, removeFilesWithExtension, bind_of_error he]

theorem finalState_backupFilesByExtension (backupPath sourcePath : Path) (extension : String)
    (fs : FS) :
    finalState (backupFilesByExtension opts backupPath sourcePath extension fs) =
      let kept := if opts.shouldForce "backups" then fs.removeAll backupPath else fs
      if kept.exists backupPath then kept
      else finalState (removeFilesWithExtension sourcePath extension kept) := by
  have hrest : ∀ kept : FS, finalState ((do
      let fs ← get
      if !fs.exists backupPath then
        createDirectory opts backupPath
        moveFilesWithExtension opts sourcePath backupPath extension : FsM Unit) kept) =
      if kept.exists backupPath then kept
      else finalState (removeFilesWithExtension sourcePath extension kept) := by
    intro kept
    rw [bind_apply, get_apply]
    dsimp only
    by_cases he : kept.exists backupPath
    · simp [he, finalState]
    · simp only [he, Bool.not_false, if_true, Bool.false_eq_true, if_false]
      rw [bind_of_ok (createDirectory_dryRun h kept backupPath),
        finalState_moveFilesWithExtension h]
  rw [backupFilesByExtension]
  by_cases hf : opts.shouldForce "backups"
  · simp only [hf, if_true]
    exact hrest (fs.removeAll backupPath)
  · simp only [hf, Bool.false_eq_true, if_false]
    exact hrest fs

theorem unchanged_moveFilesWithExtension_iff (source destination : Path) (extension : String)
    (fs : FS) :
    Unchanged (moveFilesWithExtension opts source destination extension) fs ↔
      NothingToRemove fs source extension := by
  rw [← unchanged_removeFilesWithExtension_iff, Unchanged, Unchanged,
    finalState_moveFilesWithExtension h]

theorem unchanged_backupFilesByExtension_iff (backupPath sourcePath : Path) (extension : String)
    (fs : FS) :
    Unchanged (backupFilesByExtension opts backupPath sourcePath extension) fs ↔
      (opts.shouldForce "backups" → ∀ p ∈ fs.keys, ¬ backupPath <+: p) ∧
        (fs.exists backupPath ∨ NothingToRemove fs sourcePath extension) := by
  rw [Unchanged, finalState_backupFilesByExtension h]
  have hsame : (if fs.exists backupPath then fs
      else finalState (removeFilesWithExtension sourcePath extension fs)) = fs ↔
      fs.exists backupPath ∨ NothingToRemove fs sourcePath extension := by
    rw [← unchanged_removeFilesWithExtension_iff, Unchanged]
    by_cases he : fs.exists backupPath <;> simp [he]
  by_cases hf : opts.shouldForce "backups"
  · simp only [hf, if_true, true_implies]
    constructor
    · intro hfs
      have hkept : ∀ p ∈ fs.keys, ¬ backupPath <+: p := by
        intro p hp hpre
        have hgone : (fs.removeAll backupPath).get? p = none := by
          rw [FS.get?_removeAll, if_pos hpre]
        have hstill : fs.get? p = none := by
          rw [← hfs]
          split_ifs
          · exact hgone
          · exact preserves_removeFilesWithExtension p sourcePath extension _ hgone
        exact ((FS.get?_eq_none_iff fs p).mp hstill) hp
      rw [FS.removeAll_of_forall hkept] at hfs
      exact ⟨hkept, hsame.mp hfs⟩
    · rintro ⟨hkept, hrest⟩
      rw [FS.removeAll_of_forall hkept]
      exact hsame.mpr hrest
  · simp only [hf, Bool.false_eq_true, if_false, false_implies, true_and]
    exact hsame

/-- One call leaves the files alone exactly when its condition holds. -/
theorem unchanged_call_iff (call : Call) (fs : FS) :
    Unchanged (call.run opts ini) fs ↔ KeepsInDryRun opts fs call := by
  cases call with
  | touchFile path => simp [Call.run, KeepsInDryRun, Unchanged, touchFile_dryRun h, finalState]
  | createDirectory path =>
    simp [Call.run, KeepsInDryRun, Unchanged, createDirectory_dryRun h, finalState]
  | removeFile filename =>
    simp [Call.run, KeepsInDryRun, Unchanged, removeFile_dryRun h, finalState]
  | backupFile filename timestamp =>
    simp [Call.run, KeepsInDryRun, Unchanged, backupFile_dryRun h, finalState]
  | changeValueInConfigurationFile filename key value =>
    simp [Call.run, KeepsInDryRun, Unchanged, changeValueInConfigurationFile_dryRun h, finalState]
  | addStringToFile filename string => exact unchanged_addStringToFile_iff h fs filename string
  | copyFile source destination =>
    simp [Call.run, KeepsInDryRun, Unchanged, copyFile_dryRun h, finalState]
  | installFile path data =>
    simp [Call.run, KeepsInDryRun, Unchanged, installFile_dryRun h, finalState]
  | copyFilesWithExtension source destination extension =>
    simp only [Call.run, KeepsInDryRun, iff_true]
    exact unchanged_copyFilesWithExtension h fs source destination extension
  | removeFilesWithExtension path extension =>
    exact unchanged_removeFilesWithExtension_iff path extension fs
  | moveFilesWithExtension source destination extension =>
    exact unchanged_moveFilesWithExtension_iff h source destination extension fs
  | backupFilesByExtension backupPath sourcePath extension =>
    exact unchanged_backupFilesByExtension_iff h backupPath sourcePath extension fs

end Moving

/-! ### Sequences of calls -/

theorem runCalls_cons (call : Call) (calls : List Call) (fs : FS) :
    runCalls opts ini (call :: calls) fs =
      runCalls opts ini calls (finalState (call.run opts ini fs)) := rfl

/-- A sequence keeps the files when its first call does and the rest does. -/
theorem keepsFilesystem_cons (call : Call) (calls : List Call) (fs : FS) :
    KeepsFilesystem opts ini (call :: calls) fs ↔
      Unchanged (call.run opts ini) fs ∧ KeepsFilesystem opts ini calls fs := by
  constructor
  · intro hall
    have hfirst : Unchanged (call.run opts ini) fs := hall 1
    refine ⟨hfirst, fun n => ?_⟩
    have hn := hall (n + 1)
    rwa [List.take_succ_cons, runCalls_cons, hfirst] at hn
  · rintro ⟨hfirst, hrest⟩ n
    cases n with
    | zero => rfl
    | succ n => rw [List.take_succ_cons, runCalls_cons, hfirst, hrest n]

/-- Under a dry run a sequence of calls keeps the files exactly when every call
of it meets its own condition in the initial state. -/
theorem keepsFilesystem_iff (h : opts.dryRun = true) (calls : List Call) (fs : FS) :
    KeepsFilesystem opts ini calls fs ↔ ∀ call ∈ calls, KeepsInDryRun opts fs call := by
  induction calls with
  | nil => exact ⟨fun _ call hc => absurd hc List.not_mem_nil, fun _ n => by simp [runCalls]⟩
  | cons call calls ih =>
    rw [keepsFilesystem_cons, unchanged_call_iff h, ih, List.forall_mem_cons]

/-- A dry run over a directory with one file. -/
theorem keepsFilesystem_iff_hosts :
    KeepsFilesystem { dryRun := true } ⟨fun _ => none, fun _ => ("", true)⟩
        [.touchFile ["etc", "motd"], .addStringToFile ["etc", "hosts"] "10.0.0.1 headnode\n"]
        { nodes := ⟨[(["etc"], .dir), (["etc", "hosts"], .file "127.0.0.1 localhost\n")],
          by decide⟩ } ↔
      ∀ call ∈ [Call.touchFile ["etc", "motd"],
          .addStringToFile ["etc", "hosts"] "10.0.0.1 headnode\n"],
        KeepsInDryRun { dryRun := true }
          { nodes := ⟨[(["etc"], .dir), (["etc", "hosts"], .file "127.0.0.1 localhost\n")],
            by decide⟩ } call :=
  keepsFilesystem_iff rfl _ _

/-- A dry run that deletes the operator's repository files without a backup. -/
theorem not_keepsFilesystem_backup :
    ¬ KeepsFilesystem { dryRun := true } ⟨fun _ => none, fun _ => ("", true)⟩
      [.backupFilesByExtension ["backup"] ["repos"] ".repo"]
      { nodes :=
          ⟨[(["repos"], .dir), (["repos", "epel.repo"], .file "[epel]\n")], by decide⟩ } := by
  intro h
  have hfile := congrArg (FS.get? · ["repos", "epel.repo"]) (h 1)
  exact absurd hfile (by decide)

end Cloyster
