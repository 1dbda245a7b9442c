import Cloyster.Basic

/-! The file helpers of `cloyster::functions`. Each reads the dry run flag for
itself, or leaves that to a helper it calls, or forgets it. A thrown exception
keeps what the helper had already done to the file system. Boost's INI reader
and writer are a parameter. -/

namespace Cloyster

open Lib

/-- A `boost::property_tree::ptree`. -/
inductive Ptree where
  | node (data : String) (children : List (String × Ptree))

namespace Ptree

def empty : Ptree := .node "" []

/-- Apply `f` to the first child called `key`, or to a new last child. -/
def upsert (key : String) (f : Ptree → Ptree) : List (String × Ptree) → List (String × Ptree)
  | [] => [(key, f empty)]
  | c :: cs => if c.1 = key then (key, f c.2) :: cs else c :: upsert key f cs

/-- `ptree::put` along the fragments of a dotted path. -/
def put : List String → String → Ptree → Ptree
  | [], value, .node _ children => .node value children
  | key :: keys, value, .node data children => .node data (upsert key (put keys value) children)

end Ptree

/-- Boost's INI format. The writer gives the text it emits and whether it got
to the end: it throws on a tree that is too deep, after the file was opened. -/
structure IniFormat where
  read : String → Option Ptree
  write : Ptree → String × Bool

variable (opts : Options)

def touchFile (path : Path) : FsM Unit := do
  if opts.dryRun then return
  let fs ← get
  if fs.exists path then return
  match fs.openAppend path with
  | .ok fs' => set fs'
  | .error _ => throw (.runtimeError s!"Failed to touch file: {path.toText}")

def createDirectory (path : Path) : FsM Unit := do
  if opts.dryRun then return
  let fs ← get
  match fs.createDirectories path with
  | .ok fs' => set fs'
  | .error code => throw (.filesystem code path.toText)

def removeFile (filename : Path) : FsM Unit := do
  if opts.dryRun then return
  let fs ← get
  if fs.exists filename then
    match fs.remove filename with
    | .ok fs' => set fs'
    | .error code => throw (.filesystem code filename.toText)

def installPath : Path := ["opt", "cloysterhpc"]

/-- `{installPath}/backup{filename}_{timestamp}`. -/
def backupName (filename : Path) (timestamp : String) : Path :=
  (installPath ++ ["backup"] ++ filename.parent).child s!"{filename.filename}_{timestamp}"

def backupFile (filename : Path) (timestamp : String) : FsM Unit := do
  let backupFile := backupName filename timestamp
  if opts.dryRun then return
  createDirectory opts backupFile.parent
  let fs ← get
  -- the stream opens only a file that is there already
  if fs.isRegular backupFile then return
  match fs.copy filename backupFile with
  | .ok fs' => set fs'
  | .error code => throw (.filesystem code filename.toText)

def changeValueInConfigurationFile (ini : IniFormat) (filename : Path) (key value : String) :
    FsM Unit := do
  if opts.dryRun then return
  let fs ← get
  -- a file that is missing or does not parse leaves the tree empty
  let tree := ((fs.content? filename).bind ini.read).getD Ptree.empty
  -- an empty key is the root
  let fragments := if key = "" then [] else (key.toList.splitOn '.').map String.ofList
  let (text, complete) := ini.write (tree.put fragments value)
  match fs.write filename text with
  | .error _ => throw (.runtimeError s!"{filename.toText}: cannot open file")
  | .ok fs' =>
    set fs'
    if !complete then throw (.runtimeError s!"{filename.toText}: cannot write ptree")

def addStringToFile (filename : Path) (string : String) : FsM Unit := do
  let fs ← get
  let content := (fs.content? filename).getD ""
  if Text.contains content string then return
  -- the stream is opened, and the file created, before the flag is looked at
  let opened := fs.openAppend filename
  match opened with
  | .ok fs' => set fs'
  | .error _ => pure ()
  if opts.dryRun then return
  match opened with
  | .ok fs' => set (fs'.set filename (.file (content ++ string)))
  | .error _ => throw (.runtimeError s!"Error opening file: {filename.toText}")

/-- A destination that exists is skipped. -/
def copyFile (source destination : Path) : FsM Unit := do
  if opts.dryRun then return
  let fs ← get
  match fs.copy source destination with
  | .ok fs' => set fs'
  | .error .fileExists => return
  | .error code => throw (.filesystem code source.toText)

def installFile (path : Path) (data : String) : FsM Unit := do
  if opts.dryRun then return
  let fs ← get
  if fs.exists path then return
  -- a stream that cannot be opened is not noticed
  match fs.write path data with
  | .ok fs' => set fs'
  | .error _ => return

/-! ### Directories -/

/-- `std::filesystem::directory_iterator`. -/
def directoryIterator (path : Path) : FsM (List String) := do
  let fs ← get
  match fs.readdir path with
  | .ok names => return names
  | .error code => throw (.filesystem code path.toText)

def getFilesByExtension (path : Path) (extension : String) : FsM (List String) := do
  let names ← directoryIterator path
  let fs ← get
  return names.filter fun name =>
    fs.isRegular (path.child name) && Text.extension name == extension

/-- The file is regular and has the extension up to letter case. -/
def hasExtensionLower (fs : FS) (path : Path) (extension name : String) : Bool :=
  fs.isRegular (path.child name) && Text.lower (Text.extension name) == Text.lower extension

def removeEntry (path : Path) (extension name : String) : FsM Unit := do
  let fs ← get
  if hasExtensionLower fs path extension name then set (fs.erase (path.child name))

def removeFilesWithExtension (path : Path) (extension : String) : FsM Unit := do
  let names ← directoryIterator path
  names.forM (removeEntry path extension)

def copyEntry (source destination : Path) (extension name : String) : FsM Unit := do
  let fs ← get
  if fs.isRegular (source.child name) && Text.extension name == extension then
    copyFile opts (source.child name) (destination.child name)

def copyFilesWithExtension (source destination : Path) (extension : String) : FsM Unit := do
  let names ← directoryIterator source
  names.forM (copyEntry opts source destination extension)

def moveFilesWithExtension (source destination : Path) (extension : String) : FsM Unit := do
  copyFilesWithExtension opts source destination extension
  removeFilesWithExtension source extension

def backupFilesByExtension (backupPath sourcePath : Path) (extension : String) : FsM Unit := do
  if opts.shouldForce "backups" then modify fun fs => fs.removeAll backupPath
  let fs ← get
  if !fs.exists backupPath then
    createDirectory opts backupPath
    moveFilesWithExtension opts sourcePath backupPath extension

theorem directoryIterator_of_isDir {path : Path} {fs : FS} (h : fs.isDir path) :
    directoryIterator path fs = .ok (fs.children path) fs := by
  simp [directoryIterator, bind_apply, FS.readdir, h]

theorem directoryIterator_of_not_isDir {path : Path} {fs : FS} (h : fs.isDir path = false) :
    ∃ e, directoryIterator path fs = .error e fs := by
  rw [directoryIterator, bind_apply, get_apply]
  dsimp only
  rw [FS.readdir, h]
  by_cases he : fs.exists path
  · exact ⟨_, by simp [he]; rfl⟩
  · exact ⟨_, by simp [he]; rfl⟩

/-! ### What removing removes -/

variable {path : Path} {extension : String}

theorem removeEntry_apply (name : String) (fs : FS) :
    removeEntry path extension name fs =
      .ok () (if hasExtensionLower fs path extension name then fs.erase (path.child name)
        else fs) := by
  rw [removeEntry, bind_apply, get_apply]
  dsimp only
  split_ifs <;> rfl

/-- Erasing one entry leaves the answer for the others as it was. -/
theorem hasExtensionLower_erase {fs : FS} {name other : String} (h : other ≠ name) :
    hasExtensionLower (fs.erase (path.child name)) path extension other =
      hasExtensionLower fs path extension other := by
  have hne : path.child other ≠ path.child name := fun he => h (Path.child_inj.mp he).2
  simp only [hasExtensionLower, FS.isRegular, FS.get?_erase, if_neg hne]

/-- The loop over a directory erases the matching names and nothing else. -/
theorem removeEntries_apply (path : Path) (extension : String) (names : List String) (fs : FS) :
    ∃ fs', names.forM (removeEntry path extension) fs = .ok () fs' ∧
      ∀ q, fs'.get? q =
        if ∃ name ∈ names, q = path.child name ∧ hasExtensionLower fs path extension name then none
        else fs.get? q := by
  induction names generalizing fs with
  | nil => exact ⟨fs, rfl, fun q => by simp⟩
  | cons name names ih =>
    rw [forM_cons_apply, removeEntry_apply]
    dsimp only
    by_cases hn : hasExtensionLower fs path extension name
    · rw [if_pos hn]
      obtain ⟨fs', hrun, hget⟩ := ih (fs.erase (path.child name))
      refine ⟨fs', hrun, fun q => ?_⟩
      rw [hget, FS.get?_erase]
      by_cases hq : q = path.child name
      · rw [if_pos hq, ite_self, if_pos ⟨name, List.mem_cons_self, hq, hn⟩]
      · have hiff : (∃ other ∈ names, q = path.child other ∧
              hasExtensionLower (fs.erase (path.child name)) path extension other) ↔
            ∃ other ∈ name :: names, q = path.child other ∧
              hasExtensionLower fs path extension other := by
          constructor
          · rintro ⟨other, hm, rfl, ho⟩
            have hne : other ≠ name := by rintro rfl; exact hq rfl
            rw [hasExtensionLower_erase hne] at ho
            exact ⟨other, List.mem_cons_of_mem _ hm, rfl, ho⟩
          · rintro ⟨other, hm, rfl, ho⟩
            have hne : other ≠ name := by rintro rfl; exact hq rfl
            refine ⟨other, (List.mem_cons.mp hm).resolve_left hne, rfl, ?_⟩
            rwa [hasExtensionLower_erase hne]
        simp only [if_neg hq, hiff]
    · rw [if_neg hn]
      obtain ⟨fs', hrun, hget⟩ := ih fs
      refine ⟨fs', hrun, fun q => ?_⟩
      have hiff : (∃ other ∈ names, q = path.child other ∧
            hasExtensionLower fs path extension other) ↔
          ∃ other ∈ name :: names, q = path.child other ∧
            hasExtensionLower fs path extension other := by
        simp [hn]
      rw [hget]
      simp only [hiff]

end Cloyster
