import Cloyster.Services.Repos.Generator

/-! Replacing the repository files of the system, and starting over after the
process died on the way. The replacement is a sequence of atomic steps: make the
backup directory, copy every `.repo` file into it, remove these files, write the
generated ones. A second run skips the backup as soon as its directory exists, and
skips every file that exists. The checkers look at the world outside, which is
the same for both runs. -/

namespace Cloyster

open Lib RPMRepositoryParser

namespace RPMRepositoryGenerator

def backupPath : Path := ["opt", "cloysterhpc", "backup", "etc", "yum.repos.d"]

/-- `RPMRepoManager::basedir`, and the default of `sourcePath`. -/
def basedir : Path := ["etc", "yum.repos.d"]

variable (opts : Options) (world : Query → Bool) (conffiles : RepoConfFiles) (codec : GKeyFile)

/-- The generation with its answers taken from the world. -/
def generateRepos : FsM ℕ :=
  RepoGenerator.generate opts (fun _ query => world query) basedir conffiles codec

def generate : FsM Unit := do
  backupFilesByExtension opts backupPath basedir ".repo"
  let _ ← generateRepos opts world conffiles codec
  return ()

/-! ### The steps -/

inductive Step where
  | createDirectory (path : Path)
  | copyFile (source destination : Path)
  | remove (path : Path)
  | save (file : RPMRepositoryFile)

def Step.run : Step → FsM Unit
  | .createDirectory path => Cloyster.createDirectory opts path
  | .copyFile source destination => Cloyster.copyFile opts source destination
  | .remove path => modify fun fs => fs.erase path
  | .save file => file.save codec

/-- The path a step saves a repository file to. -/
def Step.saved? : Step → Option Path
  | .save file => some file.path
  | _ => none

def runSteps (steps : List Step) : FsM Unit := steps.forM (Step.run opts codec)

def copySteps (fs : FS) (names : List String) : List Step :=
  (names.filter fun name =>
      fs.isRegular (basedir.child name) && Text.extension name == ".repo").map fun name =>
    .copyFile (basedir.child name) (backupPath.child name)

def removeSteps (fs : FS) (names : List String) : List Step :=
  (names.filter (hasExtensionLower fs basedir ".repo")).map fun name => .remove (basedir.child name)

def backupSteps (fs : FS) : List Step :=
  if fs.exists backupPath then []
  else .createDirectory backupPath ::
    (copySteps fs (fs.children basedir) ++ removeSteps fs (fs.children basedir))

def assembled (fs : FS) : Except Exn (List RPMRepositoryFile) :=
  outcome (RepoGenerator.assembleAll opts (fun _ query => world query) basedir conffiles
    (RepoGenerator.reposToGenerate conffiles (RepoGenerator.existingRepoFiles basedir fs)) 0)

def saveSteps (fs : FS) : List Step :=
  match assembled opts world conffiles fs with
  | .ok files => files.map .save
  | .error _ => []

/-- The steps of an uninterrupted run: what is generated depends on what the backup left. -/
def steps (fs : FS) : List Step :=
  backupSteps fs ++
    saveSteps opts world conffiles (finalState (runSteps opts codec (backupSteps fs) fs))

/-- The same `.repo` files, and the same backup. -/
structure SameRepos (full final : FS) : Prop where
  repos : ∀ name, Text.extension name = ".repo" →
    final.get? (basedir.child name) = full.get? (basedir.child name)
  backup : ∀ q, backupPath <+: q → final.get? q = full.get? q

/-- Dying after `k` steps and running again ends as the uninterrupted run did. -/
def Recovers (fs full : FS) (k : ℕ) : Prop :=
  ∃ crashed final,
    runSteps opts codec ((steps opts world conffiles codec fs).take k) fs = .ok () crashed ∧
      generate opts world conffiles codec crashed = .ok () final ∧ SameRepos full final

/-- The process died before the first step, or after the whole backup and not
between two writes to one file. -/
def CleanCut (fs : FS) (k : ℕ) : Prop :=
  k = 0 ∨ (backupSteps fs).length ≤ k ∧
    ∀ step ∈ (steps opts world conffiles codec fs).take k,
      ∀ other ∈ (steps opts world conffiles codec fs).drop k,
        ∀ path, step.saved? = some path → other.saved? ≠ some path

variable {opts world conffiles codec} {fs fs' : FS}

/-! ### The backup, step by step -/

theorem backupPath_apart : ∀ q ∈ backupPath.inits.tail, Path.parent q ≠ basedir ∧ q ≠ basedir := by
  decide

/-- A path under the backup directory is no name in the base directory. -/
theorem parent_ne_basedir {q : Path} (h : backupPath <+: q) : q.parent ≠ basedir ∧ q ≠ basedir := by
  obtain ⟨rest, rfl⟩ := h
  constructor
  · intro he
    have hlen := congrArg List.length he
    simp [Path.parent, backupPath, basedir] at hlen
  · intro he
    have hlen := congrArg List.length he
    simp [backupPath, basedir] at hlen

theorem backupPath_prefix_child (name : String) : backupPath <+: backupPath.child name :=
  List.prefix_append _ _

theorem not_backup_child {q : Path} (h : backupPath <+: q) (name : String) :
    q ≠ basedir.child name := by
  rintro rfl
  exact (parent_ne_basedir h).1 (Path.parent_child basedir name)

/-- Copying into the backup directory changes nothing outside it. -/
theorem copyFile_ok {source : Path} {name : String} {u : Unit}
    (h : copyFile opts source (backupPath.child name) fs = .ok u fs') :
    FS.SameListing basedir fs fs' ∧ (fs.exists backupPath → fs'.exists backupPath) := by
  unfold copyFile at h
  split_ifs at h with hd
  · obtain ⟨-, rfl⟩ := EStateM.Result.ok.inj h
    exact ⟨FS.SameListing.refl _ _, id⟩
  rw [bind_apply, get_apply] at h
  dsimp only at h
  cases hc : fs.copy source (backupPath.child name) with
  | error code =>
    rw [hc] at h
    cases code with
    | fileExists =>
      obtain ⟨-, rfl⟩ := EStateM.Result.ok.inj h
      exact ⟨FS.SameListing.refl _ _, id⟩
    | _ => simp at h
  | ok t =>
    rw [hc] at h
    obtain ⟨-, rfl⟩ := EStateM.Result.ok.inj h
    obtain ⟨s, -, rfl, -⟩ := FS.copy_ok hc
    generalize htarget : (if fs.isDir (backupPath.child name) then _ else _) = target
    have hpre : backupPath <+: target := by
      rw [← htarget]
      split_ifs
      · exact ⟨[name, source.filename], by simp [Path.child]⟩
      · exact List.prefix_append _ _
    refine ⟨FS.sameListing_set fs _ (parent_ne_basedir hpre).1 (parent_ne_basedir hpre).2, ?_⟩
    simp only [FS.exists, FS.get?_set, decide_eq_true_eq]
    rintro (hnil | hsome)
    · exact Or.inl hnil
    · split_ifs
      · exact Or.inr rfl
      · exact Or.inr hsome

/-- The copying loop is its steps. -/
theorem copyEntries_eq (codec : GKeyFile) (names : List String) {start : FS} (hsame : FS.SameListing basedir start fs) :
    names.forM (copyEntry opts basedir backupPath ".repo") fs =
      runSteps opts codec (copySteps start names) fs := by
  induction names generalizing fs with
  | nil => rfl
  | cons name names ih =>
    have hentry : copyEntry opts basedir backupPath ".repo" name fs =
        if start.isRegular (basedir.child name) && Text.extension name == ".repo" then
          copyFile opts (basedir.child name) (backupPath.child name) fs
        else .ok () fs := by
      rw [copyEntry, bind_apply, get_apply]
      dsimp only
      rw [hsame.isRegular]
      split_ifs <;> rfl
    rw [forM_cons_apply, hentry]
    by_cases hmatch : (start.isRegular (basedir.child name) && Text.extension name == ".repo") = true
    · rw [if_pos hmatch, copySteps, List.filter_cons, if_pos hmatch, List.map_cons, runSteps,
        forM_cons_apply, Step.run]
      cases hrun : copyFile opts (basedir.child name) (backupPath.child name) fs with
      | ok u t => exact ih (hsame.trans (copyFile_ok hrun).1)
      | error e t => rfl
    · rw [if_neg hmatch, copySteps, List.filter_cons, if_neg hmatch]
      exact ih hsame

/-- The removing loop is its steps. -/
theorem removeEntries_eq (opts : Options) (codec : GKeyFile) (names : List String) (hnodup : names.Nodup) {start : FS}
    (hsame : ∀ name ∈ names, hasExtensionLower fs basedir ".repo" name =
      hasExtensionLower start basedir ".repo" name) :
    names.forM (removeEntry basedir ".repo") fs =
      runSteps opts codec (removeSteps start names) fs := by
  induction names generalizing fs with
  | nil => rfl
  | cons name names ih =>
    rw [List.forall_mem_cons] at hsame
    rw [List.nodup_cons] at hnodup
    rw [forM_cons_apply, removeEntry_apply, hsame.1]
    by_cases hmatch : hasExtensionLower start basedir ".repo" name = true
    · rw [if_pos hmatch, removeSteps, List.filter_cons_of_pos hmatch, List.map_cons, runSteps,
        forM_cons_apply, Step.run]
      refine ih hnodup.2 fun other hm => ?_
      have hne : other ≠ name := by rintro rfl; exact hnodup.1 hm
      rw [hasExtensionLower_erase hne, hsame.2 other hm]
    · rw [if_neg hmatch, removeSteps, List.filter_cons_of_neg hmatch]
      exact ih hnodup.2 hsame.2

theorem runSteps_append (l r : List Step) (fs : FS) :
    runSteps opts codec (l ++ r) fs =
      (runSteps opts codec l >>= fun _ => runSteps opts codec r) fs :=
  forM_append_apply l r _ fs

/-- Copies leave the base directory alone, whether they all return or one throws. -/
theorem sameListing_copies {names : List String} {u : Unit}
    (h : runSteps opts codec (names.map fun name =>
      .copyFile (basedir.child name) (backupPath.child name)) fs = .ok u fs') :
    FS.SameListing basedir fs fs' ∧ (fs.exists backupPath → fs'.exists backupPath) := by
  induction names generalizing fs with
  | nil =>
    obtain ⟨-, rfl⟩ := EStateM.Result.ok.inj h
    exact ⟨FS.SameListing.refl _ _, id⟩
  | cons name names ih =>
    rw [List.map_cons, runSteps, forM_cons_apply, Step.run] at h
    cases hrun : copyFile opts (basedir.child name) (backupPath.child name) fs with
    | error e t => rw [hrun] at h; exact absurd h (by simp)
    | ok v t =>
      rw [hrun] at h
      obtain ⟨hsame, hexists⟩ := copyFile_ok hrun
      obtain ⟨hsame', hexists'⟩ := ih h
      exact ⟨hsame.trans hsame', fun hb => hexists' (hexists hb)⟩

theorem hasExtensionLower_congr (hsame : FS.SameListing basedir fs fs') (name : String) :
    hasExtensionLower fs' basedir ".repo" name = hasExtensionLower fs basedir ".repo" name := by
  rw [hasExtensionLower, hasExtensionLower, hsame.isRegular]

theorem createDirectories_ok {path : Path} (hdry : opts.dryRun = false) {u : Unit}
    (h : createDirectory opts path fs = .ok u fs') : fs.createDirectories path = .ok fs' := by
  rw [createDirectory, if_neg (by simp [hdry])] at h
  simp only [bind_apply, get_apply] at h
  cases hc : fs.createDirectories path with
  | error code =>
    rw [hc] at h
    exact absurd h (by simp)
  | ok t =>
    rw [hc] at h
    obtain ⟨-, rfl⟩ := EStateM.Result.ok.inj h
    rfl

theorem createDirectory_ok (hdry : opts.dryRun = false) {u : Unit}
    (h : createDirectory opts backupPath fs = .ok u fs') :
    FS.SameListing basedir fs fs' ∧ fs'.exists backupPath := by
  have hc := createDirectories_ok hdry h
  exact ⟨FS.sameListing_createDirectories hc backupPath_apart, FS.exists_createDirectories hc⟩

/-- The backup is its steps. -/
theorem backup_eq (codec : GKeyFile) (hdry : opts.dryRun = false) (hforce : opts.shouldForce "backups" = false)
    (hdir : fs.isDir basedir) :
    backupFilesByExtension opts backupPath basedir ".repo" fs =
      runSteps opts codec (backupSteps fs) fs := by
  have hguard : backupFilesByExtension opts backupPath basedir ".repo" fs =
      if fs.exists backupPath then .ok () fs
      else (createDirectory opts backupPath >>= fun _ =>
        moveFilesWithExtension opts basedir backupPath ".repo") fs := by
    rw [backupFilesByExtension, hforce]
    by_cases he : fs.exists backupPath
    · simp only [Bool.false_eq_true, if_false, bind_apply, get_apply, he]
      rfl
    · simp only [Bool.false_eq_true, if_false, bind_apply, get_apply, he]
      rfl
  rw [hguard, backupSteps]
  split_ifs with he
  · rfl
  · rw [runSteps, forM_cons_apply, Step.run, bind_apply]
    cases hmk : createDirectory opts backupPath fs with
    | error e t => rfl
    | ok u t =>
      obtain ⟨hsame, -⟩ := createDirectory_ok hdry hmk
      have hdirt : t.isDir basedir := by rw [hsame.isDir, hdir]
      dsimp only
      rw [← runSteps, runSteps_append, moveFilesWithExtension, bind_apply, bind_apply,
        copyFilesWithExtension, bind_of_ok (directoryIterator_of_isDir hdirt), hsame.children,
        copyEntries_eq codec _ hsame]
      cases hcopy : runSteps opts codec (copySteps fs (fs.children basedir)) t with
      | error e t' => rfl
      | ok v t' =>
        obtain ⟨hsame', -⟩ := sameListing_copies hcopy
        have hboth := hsame.trans hsame'
        have hdirt' : t'.isDir basedir := by rw [hboth.isDir, hdir]
        dsimp only
        rw [removeFilesWithExtension, bind_of_ok (directoryIterator_of_isDir hdirt'),
          hboth.children, removeEntries_eq opts codec _
            (FS.nodup_children fs basedir) fun name _ => hasExtensionLower_congr hboth name]

/-- After the backup its directory exists, and the base directory is still there. -/
theorem backup_ok (hdry : opts.dryRun = false) (hnone : fs.exists backupPath = false)
    (hdir : fs.isDir basedir) {u : Unit}
    (h : runSteps opts codec (backupSteps fs) fs = .ok u fs') :
    fs'.exists backupPath ∧ fs'.isDir basedir := by
  rw [backupSteps, if_neg (by simp [hnone]), runSteps, forM_cons_apply, Step.run] at h
  cases hmk : createDirectory opts backupPath fs with
  | error e t => rw [hmk] at h; exact absurd h (by simp)
  | ok v t =>
    rw [hmk] at h
    obtain ⟨hsame, hexists⟩ := createDirectory_ok hdry hmk
    dsimp only at h
    rw [← runSteps, runSteps_append] at h
    obtain ⟨w, t', hcopy, hremove⟩ := bind_ok_iff.mp h
    obtain ⟨hsame', hexists'⟩ := sameListing_copies hcopy
    have hboth := hsame.trans hsame'
    have hstart : t'.exists backupPath ∧ t'.isDir basedir :=
      ⟨hexists' hexists, by rw [hboth.isDir, hdir]⟩
    clear hcopy hmk hsame hsame' hboth hexists hexists' h
    unfold removeSteps at hremove
    generalize (fs.children basedir).filter _ = matching at hremove
    induction matching generalizing t' with
    | nil =>
      obtain ⟨-, rfl⟩ := EStateM.Result.ok.inj hremove
      exact hstart
    | cons name matching ih =>
      rw [List.map_cons, runSteps, forM_cons_apply, Step.run] at hremove
      refine ih _ ?_ hremove
      have hne : ∀ q : Path, q.length = 5 ∨ q.length = 2 → q ≠ basedir.child name := by
        rintro q hq rfl
        simp [Path.child, basedir] at hq
      simp only [FS.exists, FS.isDir, FS.get?_erase, if_neg (hne backupPath (Or.inl rfl)),
        if_neg (hne basedir (Or.inr rfl))]
      exact hstart

/-- An uninterrupted run is its steps. -/
theorem generate_iff_backup (hdry : opts.dryRun = false) (hforce : opts.shouldForce "backups" = false)
    (hdir : fs.isDir basedir) {full : FS} :
    generate opts world conffiles codec fs = .ok () full ↔
      ∃ mid, runSteps opts codec (backupSteps fs) fs = .ok () mid ∧
        ∃ n, generateRepos opts world conffiles codec mid = .ok n full := by
  rw [generate, bind_ok_iff, backup_eq codec hdry hforce hdir]
  constructor
  · rintro ⟨u, mid, hbackup, hgen⟩
    obtain ⟨n, t, hrepos, hpure⟩ := bind_ok_iff.mp hgen
    obtain ⟨-, rfl⟩ := EStateM.Result.ok.inj hpure
    exact ⟨mid, hbackup, n, hrepos⟩
  · rintro ⟨mid, hbackup, n, hgen⟩
    exact ⟨(), mid, hbackup, by rw [bind_of_ok hgen]; rfl⟩

/-- Once there is a backup a run is a generation. -/
theorem generate_iff_of_exists (hdry : opts.dryRun = false)
    (hforce : opts.shouldForce "backups" = false) (hdir : fs.isDir basedir)
    (hexists : fs.exists backupPath) {full : FS} :
    generate opts world conffiles codec fs = .ok () full ↔
      ∃ n, generateRepos opts world conffiles codec fs = .ok n full := by
  rw [generate_iff_backup hdry hforce hdir, backupSteps, if_pos hexists]
  constructor
  · rintro ⟨mid, hskip, hgen⟩
    obtain ⟨-, rfl⟩ := EStateM.Result.ok.inj hskip
    exact hgen
  · exact fun hgen => ⟨fs, rfl, hgen⟩

/-! ### What the writes leave at one path -/

/-- The node a write leaves, from the one it finds. -/
def mergeInto (codec : GKeyFile) (node : Option Node) (file : RPMRepositoryFile) : Option Node :=
  let old := match node with
    | some (.file text) => (codec.load text).getD ∅
    | _ => ∅
  some (.file (codec.toData (unparseRepos old file.repos)))

def writtenAt (codec : GKeyFile) (p : Path) (node : Option Node)
    (files : List RPMRepositoryFile) : Option Node :=
  (files.filter fun file => file.path = p).foldl (mergeInto codec) node

theorem writtenAt_of_forall {p : Path} {files : List RPMRepositoryFile}
    (h : ∀ file ∈ files, file.path ≠ p) (node : Option Node) : writtenAt codec p node files = node := by
  rw [writtenAt, List.filter_eq_nil_iff.mpr fun file hm => by simpa using h file hm]
  rfl

/-- Where something is written there is a file. -/
theorem writtenAt_file (codec : GKeyFile) {p : Path} {files : List RPMRepositoryFile}
    (node : Option Node)
    (h : (∃ file ∈ files, file.path = p) ∨ ∃ text, node = some (.file text)) :
    ∃ text, writtenAt codec p node files = some (.file text) := by
  unfold writtenAt
  have hmatching : files.filter (fun file => file.path = p) ≠ [] ∨ ∃ text, node = some (.file text) := by
    refine h.imp_left ?_
    rintro ⟨file, hm, hp⟩
    exact List.ne_nil_of_mem (List.mem_filter.mpr ⟨hm, by simpa using hp⟩)
  generalize files.filter _ = matching at hmatching
  clear h
  induction matching generalizing node with
  | nil => exact hmatching.resolve_left fun h => h rfl
  | cons file matching ih => exact ih _ (Or.inr ⟨_, rfl⟩)

/-- Writing at a path starts from something. -/
def Startable (codec : GKeyFile) (fs : FS) (p : Path) : Prop := ∃ old, startingFile codec fs p = some old

/-- Every file lies in the base directory. -/
def InBasedir (files : List RPMRepositoryFile) : Prop :=
  ∀ file ∈ files, ∃ name, file.path = basedir.child name

theorem mergeInto_eq {p : Path} {old : KeyFile} (hne : p ≠ [])
    (h : startingFile codec fs p = some old) (file : RPMRepositoryFile) :
    mergeInto codec (fs.get? p) file = some (.file (codec.toData (unparseRepos old file.repos))) := by
  unfold startingFile at h
  cases hget : fs.get? p with
  | none =>
    rw [if_neg (by simp [FS.exists, hne, hget])] at h
    obtain rfl := Option.some.inj h
    rfl
  | some node =>
    rw [if_pos (by simp [FS.exists, hget]), keyFileAt, FS.content?, hget] at h
    cases node with
    | dir => exact absurd h (by simp)
    | file text =>
      have hload : codec.load text = some old := h
      simp only [mergeInto, hload, Option.getD_some]

theorem startable_congr {p : Path} (h : fs'.get? p = fs.get? p) :
    Startable codec fs' p ↔ Startable codec fs p := by
  rw [Startable, Startable, startingFile_congr h]

/-- One write: it needs a start, sets its own path, and leaves every start a start. -/
theorem save_spec (codec : GKeyFile) {file : RPMRepositoryFile} (hdir : fs.isDir basedir)
    (hin : ∃ name, file.path = basedir.child name) :
    Startable codec fs file.path ∧ (∃ fs', file.save codec fs = .ok () fs' ∧ fs'.isDir basedir ∧
        (∀ p, fs'.get? p = if file.path = p then mergeInto codec (fs.get? p) file else fs.get? p) ∧
        ∀ p, Startable codec fs' p ↔ Startable codec fs p) ∨
      ¬ Startable codec fs file.path ∧ ∃ e, file.save codec fs = .error e fs := by
  obtain ⟨name, hname⟩ := hin
  have hne : file.path ≠ [] := by simp [hname, Path.child]
  rcases save_eq codec hdir hname with ⟨old, hold, hrun⟩ | ⟨hnone, e, he⟩
  · refine Or.inl ⟨⟨old, hold⟩, _, hrun, ?_, fun p => ?_, fun p => ?_⟩
    · rw [hname]
      exact isDir_set_child _ hdir
    · rw [FS.get?_set]
      by_cases hp : file.path = p
      · subst hp
        rw [if_pos rfl, if_pos rfl, mergeInto_eq hne hold]
      · rw [if_neg (Ne.symm hp), if_neg hp]
    · by_cases hp : p = file.path
      · subst hp
        have hkey : keyFileAt codec
            (fs.set file.path (.file (codec.toData (unparseRepos old file.repos)))) file.path =
              some (unparseRepos old file.repos) := by
          rw [keyFileAt_set, if_pos rfl]
        refine iff_of_true ⟨unparseRepos old file.repos, ?_⟩ ⟨old, hold⟩
        rw [startingFile, if_pos (exists_of_keyFileAt hkey), hkey]
      · exact startable_congr (FS.get?_set_of_ne _ _ hp)
  · refine Or.inr ⟨?_, e, he⟩
    rintro ⟨old, hold⟩
    rw [hnone] at hold
    exact absurd hold (by simp)

/-- A run of writes returns when each has a start, and then leaves at every path
what the writes to that path leave. -/
theorem saves_spec {files : List RPMRepositoryFile} (hdir : fs.isDir basedir)
    (hin : InBasedir files) {u : Unit} (h : files.forM (RPMRepositoryFile.save codec) fs = .ok u fs') :
    fs'.isDir basedir ∧ (∀ p, fs'.get? p = writtenAt codec p (fs.get? p) files) ∧
      (∀ p, Startable codec fs' p ↔ Startable codec fs p) ∧
      ∀ file ∈ files, Startable codec fs file.path := by
  induction files generalizing fs with
  | nil =>
    obtain ⟨-, rfl⟩ := EStateM.Result.ok.inj h
    exact ⟨hdir, fun _ => rfl, fun _ => Iff.rfl, fun _ hm => absurd hm List.not_mem_nil⟩
  | cons file files ih =>
    rw [forM_cons_apply] at h
    rcases save_spec codec hdir (hin file List.mem_cons_self) with
      ⟨hstart, t, hrun, hdirt, hget, hkept⟩ | ⟨-, e, he⟩
    · rw [hrun] at h
      obtain ⟨hdir', hget', hkept', hall⟩ := ih hdirt (fun f hf => hin f (List.mem_cons_of_mem _ hf)) h
      refine ⟨hdir', fun p => ?_, fun p => (hkept' p).trans (hkept p), ?_⟩
      · rw [hget', hget, writtenAt, writtenAt, List.filter_cons]
        by_cases hp : file.path = p
        · simp [hp]
        · simp [hp]
      · rw [List.forall_mem_cons]
        exact ⟨hstart, fun f hf => (hkept f.path).mp (hall f hf)⟩
    · rw [he] at h
      exact absurd h (by simp)

theorem saves_exists {files : List RPMRepositoryFile} (hdir : fs.isDir basedir)
    (hin : InBasedir files) (h : ∀ file ∈ files, Startable codec fs file.path) :
    ∃ fs', files.forM (RPMRepositoryFile.save codec) fs = .ok () fs' := by
  induction files generalizing fs with
  | nil => exact ⟨fs, rfl⟩
  | cons file files ih =>
    rw [List.forall_mem_cons] at h
    rcases save_spec codec hdir (hin file List.mem_cons_self) with
      ⟨-, t, hrun, hdirt, -, hkept⟩ | ⟨hno, -⟩
    · rw [forM_cons_apply, hrun]
      exact ih hdirt (fun f hf => hin f (List.mem_cons_of_mem _ hf))
        fun f hf => (hkept f.path).mpr (h.2 f hf)
    · exact absurd h.1 hno

theorem runSteps_saves (files : List RPMRepositoryFile) (fs : FS) :
    runSteps opts codec (files.map .save) fs = files.forM (RPMRepositoryFile.save codec) fs := by
  induction files generalizing fs with
  | nil => rfl
  | cons file files ih =>
    rw [List.map_cons, runSteps, forM_cons_apply, forM_cons_apply, Step.run]
    cases file.save codec fs with
    | ok u t => exact ih t
    | error e t => rfl

/-! ### Assembling in a fixed world -/

/-- The result does not depend on how many questions came before. -/
def Steady {α : Type} (x : AskM α) : Prop := ∀ n m, outcome (x n) = outcome (x m)

theorem steady_pure {α : Type} (a : α) : Steady (pure a) := fun _ _ => rfl

theorem steady_bind {α β : Type} {x : AskM α} {f : α → AskM β} (hx : Steady x)
    (hf : ∀ a, Steady (f a)) : Steady (x >>= f) := by
  intro n m
  have h := hx n m
  rw [bind_apply, bind_apply]
  cases hn : x n with
  | ok a t =>
    cases hm : x m with
    | ok b u =>
      rw [hn, hm] at h
      obtain rfl : a = b := Except.ok.inj h
      exact hf a t u
    | error e u => rw [hn, hm] at h; exact absurd h (by simp [outcome])
  | error e t =>
    cases hm : x m with
    | ok b u => rw [hn, hm] at h; exact absurd h (by simp [outcome])
    | error e' u => rw [hn, hm] at h; exact congrArg Except.error (Except.error.inj h)

theorem steady_ask (query : Query) : Steady (ask (fun _ query => world query) query) :=
  fun _ _ => rfl

theorem steady_liftExcept {α : Type} (x : Except Exn α) : Steady (liftExcept x) := by
  cases x <;> exact fun _ _ => rfl

theorem steady_choose (mirror upstream : RepoPaths) :
    Steady (choose opts (fun _ query => world query) mirror upstream false) := by
  have hexists : Steady (MirrorRepo.exists opts (fun _ query => world query) mirror) := by
    unfold MirrorRepo.exists
    split_ifs
    · exact steady_pure _
    · exact steady_bind (steady_liftExcept _) fun _ => steady_ask _
    · exact steady_ask _
  unfold choose
  simp only [Bool.false_eq_true, if_false]
  split_ifs
  · exact steady_pure _
  · refine steady_bind hexists fun found => ?_
    split_ifs
    · exact steady_pure _
    · exact steady_bind (steady_ask _) fun _ => steady_pure _

theorem steady_gpgkey (paths : RepoPaths) :
    Steady (UpstreamRepo.gpgkey (fun _ query => world query) paths) := by
  unfold UpstreamRepo.gpgkey
  cases paths.gpgkey with
  | none => exact steady_pure _
  | some url => exact steady_bind (steady_ask _) fun _ => steady_pure _

theorem steady_fromConfig (config : RepoConfig) :
    Steady (fromConfig opts (fun _ query => world query) config) := by
  refine steady_bind (steady_choose _ _) fun choice => ?_
  cases choice with
  | UPSTREAM =>
    exact steady_bind (steady_gpgkey _) fun _ => steady_bind (steady_gpgkey _) fun _ => steady_pure _
  | MIRROR => exact steady_pure _

theorem steady_fromConfigs (filename : String) (configs : List RepoConfig) :
    Steady (fromConfigs opts (fun _ query => world query) basedir filename configs) := by
  have hloop : ∀ repos, Steady (fromConfigsLoop opts (fun _ query => world query) repos configs) := by
    induction configs with
    | nil => exact fun repos => steady_pure _
    | cons config configs ih =>
      exact fun repos => steady_bind (steady_fromConfig config) fun _ => ih _
  exact steady_bind (hloop ∅) fun _ => steady_pure _

/-- The file an entry is assembled to. -/
def assembledFile (opts : Options) (world : Query → Bool) (entry : String × List RepoConfig) :
    RPMRepositoryFile :=
  match outcome (fromConfigs opts (fun _ query => world query) basedir entry.1 entry.2 0) with
  | .ok file => file
  | .error _ => ⟨basedir.child entry.1, ∅⟩

theorem assembledFile_of_assembled {entry : String × List RepoConfig} {file : RPMRepositoryFile}
    (h : Assembled opts (fun _ query => world query) basedir entry file) :
    assembledFile opts world entry = file := by
  obtain ⟨n, m, hrun⟩ := h
  rw [assembledFile, steady_fromConfigs entry.1 entry.2 0 n, hrun]
  rfl

theorem assembledFile_path (entry : String × List RepoConfig) :
    (assembledFile opts world entry).path = basedir.child entry.1 := by
  unfold assembledFile
  split
  · rename_i file hout
    cases hrun : fromConfigs opts (fun _ query => world query) basedir entry.1 entry.2 0 with
    | error e m => rw [hrun] at hout; exact absurd hout (by simp [outcome])
    | ok f m =>
      rw [hrun] at hout
      obtain rfl := Except.ok.inj hout
      obtain ⟨repos, t, -, hfile⟩ := bind_ok_iff.mp hrun
      obtain ⟨rfl, -⟩ := EStateM.Result.ok.inj hfile
      rfl
  · rfl

/-! ### The generation as a list of writes -/

def allEntries (conffiles : RepoConfFiles) : List (String × List RepoConfig) :=
  conffiles.distroRepos.files.toList ++ conffiles.nonDistroRepos.files.toList

/-- The entries whose file is missing. -/
def pending (conffiles : RepoConfFiles) (fs : FS) : List (String × List RepoConfig) :=
  (allEntries conffiles).filter fun entry =>
    entry.1 ∉ RepoGenerator.existingRepoFiles basedir fs

/-- The files an uninterrupted generation writes. -/
def pendingFiles (opts : Options) (world : Query → Bool) (conffiles : RepoConfFiles) (fs : FS) :
    List RPMRepositoryFile := (pending conffiles fs).map (assembledFile opts world)

theorem mem_existing {name : String} :
    name ∈ RepoGenerator.existingRepoFiles basedir fs ↔
      fs.isRegular (basedir.child name) ∧ Text.extension name = ".repo" := by
  constructor
  · intro h
    simpa using (List.mem_filter.mp h).2
  · rintro ⟨hreg, hext⟩
    exact (RepoGenerator.mem_existingRepoFiles hext).mpr hreg

theorem entriesToGenerate_eq (existing : List String) :
    RepoGenerator.entriesToGenerate conffiles (RepoGenerator.reposToGenerate conffiles existing) =
      (allEntries conffiles).filter fun entry => entry.1 ∉ existing := by
  refine List.filter_congr fun entry hm => ?_
  have hlisted : RepoGenerator.Listed conffiles entry := by
    obtain ⟨filename, configs⟩ := entry
    simpa [allEntries, RepoGenerator.Listed, Std.TreeMap.mem_toList_iff_getElem?_eq_some] using hm
  rw [decide_eq_decide]
  exact RepoGenerator.mem_reposToGenerate hlisted

theorem inBasedir_pendingFiles : InBasedir (pendingFiles opts world conffiles fs) := by
  intro file hm
  obtain ⟨entry, -, rfl⟩ := List.mem_map.mp hm
  exact ⟨entry.1, assembledFile_path entry⟩

/-- Assembling throws over a mirror, or gives the pending files. -/
theorem assembled_ok_iff {files : List RPMRepositoryFile} :
    assembled opts world conffiles fs = .ok files ↔
      (∀ entry ∈ pending conffiles fs, ∀ config ∈ entry.2, ¬ LocalRootMirror opts config.mirror) ∧
        pendingFiles opts world conffiles fs = files := by
  have hok : ∀ files m, RepoGenerator.assembleAll opts (fun _ query => world query) basedir
      conffiles (RepoGenerator.reposToGenerate conffiles
        (RepoGenerator.existingRepoFiles basedir fs)) 0 = .ok files m →
      pendingFiles opts world conffiles fs = files := by
    intro files m h
    have hrel := RepoGenerator.assembleAll_ok h
    rw [entriesToGenerate_eq] at hrel
    have heq := hrel.imp fun _ _ hf => assembledFile_of_assembled hf
    rwa [← List.forall₂_map_left_iff (R := Eq), List.forall₂_eq_eq_eq] at heq
  have hexists : (∃ files m, RepoGenerator.assembleAll opts (fun _ query => world query) basedir
      conffiles (RepoGenerator.reposToGenerate conffiles
        (RepoGenerator.existingRepoFiles basedir fs)) 0 = .ok files m) ↔
      ∀ entry ∈ pending conffiles fs, ∀ config ∈ entry.2, ¬ LocalRootMirror opts config.mirror := by
    rw [RepoGenerator.assembleAll_exists_iff, entriesToGenerate_eq]
    rfl
  rw [← hexists, assembled, outcome_ok_iff]
  constructor
  · rintro ⟨m, h⟩
    exact ⟨⟨files, m, h⟩, hok files m h⟩
  · rintro ⟨⟨files', m, h⟩, rfl⟩
    exact ⟨m, hok files' m h ▸ h⟩

/-- The generation is to assemble and to write. -/
theorem generateRepos_iff (hdir : fs.isDir basedir) {n : ℕ} :
    generateRepos opts world conffiles codec fs = .ok n fs' ↔
      ∃ files, assembled opts world conffiles fs = .ok files ∧
        files.forM (RPMRepositoryFile.save codec) fs = .ok () fs' ∧ files.length = n := by
  rw [generateRepos, RepoGenerator.generate_ok_iff hdir]
  constructor
  · rintro ⟨files, m, hall, hsave⟩
    exact ⟨files, outcome_ok_iff.mpr ⟨m, hall⟩, hsave⟩
  · rintro ⟨files, hall, hsave⟩
    obtain ⟨m, hall⟩ := outcome_ok_iff.mp hall
    exact ⟨files, m, hall, hsave⟩

/-! ### Starting over -/

theorem exists_congr {p : Path} (h : fs'.get? p = fs.get? p) : fs'.exists p = fs.exists p := by
  simp only [FS.exists, h]

/-- The files pending for one name are all those listed under it, or none. -/
theorem filter_pendingFiles (opts : Options) (world : Query → Bool) (conffiles : RepoConfFiles)
    (fs : FS) {name : String} (hext : Text.extension name = ".repo") :
    (pendingFiles opts world conffiles fs).filter (fun file => file.path = basedir.child name) =
      if fs.isRegular (basedir.child name) then []
      else ((allEntries conffiles).filter fun entry => entry.1 = name).map
        (assembledFile opts world) := by
  have hname : ∀ entry : String × List RepoConfig,
      (assembledFile opts world entry).path = basedir.child name ↔ entry.1 = name := by
    intro entry
    rw [assembledFile_path, Path.child_inj]
    exact ⟨fun h => h.2, fun h => ⟨rfl, h⟩⟩
  have hexisting : name ∈ RepoGenerator.existingRepoFiles basedir fs ↔
      fs.isRegular (basedir.child name) := by
    rw [mem_existing]
    exact ⟨fun h => h.1, fun h => ⟨h, hext⟩⟩
  rw [pendingFiles, List.filter_map, pending, List.filter_filter]
  split_ifs with hreg
  · rw [List.map_eq_nil_iff, List.filter_eq_nil_iff]
    intro entry _ hboth
    simp only [Function.comp_apply, hname, Bool.and_eq_true, decide_eq_true_eq] at hboth
    exact hboth.2 (hboth.1 ▸ hexisting.mpr hreg)
  · congr 1
    refine List.filter_congr fun entry _ => ?_
    simp only [Function.comp_apply, hname]
    by_cases he : entry.1 = name
    · rw [he]
      simp [hexisting, hreg]
    · simp [he]

/-- After a first part of the writes, a second generation writes to each `.repo`
file what the first still had to write there. -/
theorem filter_pending_crashed {mid crashed : FS} {done rest : List RPMRepositoryFile}
    (hfiles : pendingFiles opts world conffiles mid = done ++ rest)
    (hget : ∀ p, crashed.get? p = writtenAt codec p (mid.get? p) done)
    (hcut : ∀ file ∈ done, ∀ other ∈ rest, file.path ≠ other.path) {name : String}
    (hext : Text.extension name = ".repo") :
    (pendingFiles opts world conffiles crashed).filter (fun file => file.path = basedir.child name) =
      rest.filter fun file => file.path = basedir.child name := by
  have hmid := filter_pendingFiles opts world conffiles mid hext
  rw [hfiles, List.filter_append] at hmid
  rw [filter_pendingFiles opts world conffiles crashed hext]
  by_cases hdone : ∃ file ∈ done, file.path = basedir.child name
  · -- the name was written before the crash: nothing is left to write there
    obtain ⟨file, hm, hp⟩ := hdone
    obtain ⟨text, htext⟩ := writtenAt_file codec (mid.get? (basedir.child name))
      (Or.inl ⟨file, hm, hp⟩)
    rw [if_pos (FS.isRegular_iff.mpr ⟨text, by rw [hget, htext]⟩), eq_comm,
      List.filter_eq_nil_iff]
    intro other ho
    have hne := hcut file hm other ho
    rw [hp] at hne
    simpa using Ne.symm hne
  · have hnone : ∀ file ∈ done, file.path ≠ basedir.child name := fun file hm hp =>
      hdone ⟨file, hm, hp⟩
    have hsame : crashed.isRegular (basedir.child name) = mid.isRegular (basedir.child name) := by
      simp only [FS.isRegular, hget, writtenAt_of_forall hnone]
    rw [List.filter_eq_nil_iff.mpr fun file hm => by simpa using hnone file hm,
      List.nil_append] at hmid
    rw [hsame, hmid]

/-- A crash among the writes, after the whole backup. -/
theorem recovers_writes {mid crashed full : FS} {done rest : List RPMRepositoryFile}
    (hdir : mid.isDir basedir) (hbackup : mid.exists backupPath)
    (hassembled : assembled opts world conffiles mid = .ok (done ++ rest))
    (hdone : done.forM (RPMRepositoryFile.save codec) mid = .ok () crashed)
    (hrest : rest.forM (RPMRepositoryFile.save codec) crashed = .ok () full)
    (hcut : ∀ file ∈ done, ∀ other ∈ rest, file.path ≠ other.path) :
    crashed.isDir basedir ∧ crashed.exists backupPath ∧
      ∃ n final, generateRepos opts world conffiles codec crashed = .ok n final ∧
        SameRepos full final := by
  obtain ⟨hmirrors, hfiles⟩ := assembled_ok_iff.mp hassembled
  have hin : InBasedir (done ++ rest) := hfiles ▸ inBasedir_pendingFiles
  have hindone : InBasedir done := fun file hm => hin file (List.mem_append_left _ hm)
  have hinrest : InBasedir rest := fun file hm => hin file (List.mem_append_right _ hm)
  obtain ⟨hdirc, hgetc, hkeptc, hstartdone⟩ := saves_spec hdir hindone hdone
  obtain ⟨-, hgetf, -, hstartrest⟩ := saves_spec hdirc hinrest hrest
  -- the backup is out of the reach of the writes
  have haside : ∀ {files : List RPMRepositoryFile}, InBasedir files → ∀ q, backupPath <+: q →
      ∀ node, writtenAt codec q node files = node := by
    intro files hfs q hq node
    refine writtenAt_of_forall (fun file hm => ?_) node
    obtain ⟨name, hname⟩ := hfs file hm
    rw [hname]
    exact Ne.symm (not_backup_child hq name)
  have hbackupc : crashed.exists backupPath := by
    have hsame : crashed.get? backupPath = mid.get? backupPath := by
      rw [hgetc, haside hindone _ List.prefix_rfl]
    rw [exists_congr hsame, hbackup]
  -- what is pending now was pending before the crash
  have hsubset : ∀ entry ∈ pending conffiles crashed, entry ∈ pending conffiles mid := by
    intro entry hm
    obtain ⟨hall, hnot⟩ := List.mem_filter.mp hm
    refine List.mem_filter.mpr ⟨hall, ?_⟩
    simp only [decide_eq_true_eq, mem_existing] at hnot ⊢
    rintro ⟨hreg, hext⟩
    obtain ⟨text, htext⟩ := FS.isRegular_iff.mp hreg
    have hwritten : ∃ text, writtenAt codec (basedir.child entry.1)
        (mid.get? (basedir.child entry.1)) done = some (.file text) :=
      writtenAt_file codec _ (Or.inr ⟨text, htext⟩)
    simp only [← hgetc] at hwritten
    exact hnot ⟨FS.isRegular_iff.mpr hwritten, hext⟩
  have hstart : ∀ file ∈ pendingFiles opts world conffiles crashed,
      Startable codec crashed file.path := by
    intro file hm
    obtain ⟨entry, hentry, rfl⟩ := List.mem_map.mp hm
    have hmem : assembledFile opts world entry ∈ done ++ rest := by
      rw [← hfiles]
      exact List.mem_map_of_mem (hsubset entry hentry)
    rcases List.mem_append.mp hmem with hd | hr
    · exact (hkeptc _).mpr (hstartdone _ hd)
    · exact hstartrest _ hr
  obtain ⟨final, hfinal⟩ := saves_exists hdirc inBasedir_pendingFiles hstart
  obtain ⟨-, hgetr, -, -⟩ := saves_spec hdirc inBasedir_pendingFiles hfinal
  have hagain : assembled opts world conffiles crashed =
      .ok (pendingFiles opts world conffiles crashed) :=
    assembled_ok_iff.mpr ⟨fun entry hm => hmirrors entry (hsubset entry hm), rfl⟩
  refine ⟨hdirc, hbackupc, _, final, (generateRepos_iff hdirc).mpr ⟨_, hagain, hfinal, rfl⟩, ?_, ?_⟩
  · intro name hext
    rw [hgetr, hgetf, writtenAt, writtenAt, filter_pending_crashed hfiles hgetc hcut hext]
  · intro q hq
    rw [hgetr, hgetf, haside inBasedir_pendingFiles q hq, haside hinrest q hq]

theorem saved?_of_mem_backupSteps {step : Step} (h : step ∈ backupSteps fs) :
    step.saved? = none := by
  unfold backupSteps at h
  split_ifs at h
  · exact absurd h List.not_mem_nil
  · simp only [List.mem_cons, List.mem_append, copySteps, removeSteps, List.mem_map] at h
    rcases h with rfl | ⟨name, -, rfl⟩ | ⟨name, -, rfl⟩ <;> rfl

/-- Dying right after the backup is a clean cut. -/
theorem cleanCut_backup : CleanCut opts world conffiles codec fs (backupSteps fs).length := by
  refine Or.inr ⟨le_rfl, fun step hm other _ path hpath => ?_⟩
  rw [steps, List.take_left'  rfl] at hm
  rw [saved?_of_mem_backupSteps hm] at hpath
  exact absurd hpath (by simp)

/-- A run that died at a clean cut is made good by running again. -/
theorem recovers_of_cleanCut (hdry : opts.dryRun = false)
    (hforce : opts.shouldForce "backups" = false) (hdir : fs.isDir basedir)
    (hnone : fs.exists backupPath = false) {full : FS}
    (hfull : generate opts world conffiles codec fs = .ok () full) {k : ℕ}
    (hcut : CleanCut opts world conffiles codec fs k) :
    Recovers opts world conffiles codec fs full k := by
  rcases hcut with rfl | ⟨hk, hcut⟩
  · exact ⟨fs, full, rfl, hfull, fun _ _ => rfl, fun _ _ => rfl⟩
  obtain ⟨mid, hbackup, n, hgen⟩ := (generate_iff_backup hdry hforce hdir).mp hfull
  obtain ⟨hexists, hdirm⟩ := backup_ok hdry hnone hdir hbackup
  obtain ⟨files, hassembled, hsaves, -⟩ := (generateRepos_iff hdirm).mp hgen
  have hsteps : steps opts world conffiles codec fs = backupSteps fs ++ files.map .save := by
    rw [steps, hbackup, saveSteps, finalState, hassembled]
  obtain ⟨j, rfl⟩ := Nat.exists_eq_add_of_le hk
  rw [Recovers, hsteps, List.take_length_add_append, ← List.map_take]
  rw [hsteps, List.take_length_add_append, List.drop_length_add_append, ← List.map_take,
    ← List.map_drop] at hcut
  rw [← List.take_append_drop j files] at hassembled hsaves
  obtain ⟨u, crashed, hdone, hrest⟩ := bind_ok_iff.mp (forM_append_apply _ _ _ _ ▸ hsaves)
  have hcrash : runSteps opts codec (backupSteps fs ++ (files.take j).map .save) fs =
      .ok () crashed := by
    rw [runSteps_append, bind_of_ok hbackup, runSteps_saves, hdone]
  have hapart : ∀ file ∈ files.take j, ∀ other ∈ files.drop j, file.path ≠ other.path := by
    intro file hf other ho hp
    exact hcut (.save file) (List.mem_append_right _ (List.mem_map_of_mem hf)) (.save other)
      (List.mem_map_of_mem ho) file.path rfl (congrArg some hp.symm)
  obtain ⟨hdirc, hbackupc, m, final, hagain, hsame⟩ :=
    recovers_writes hdirm hexists hassembled hdone hrest hapart
  exact ⟨crashed, final, hcrash,
    (generate_iff_of_exists hdry hforce hdirc hbackupc).mpr ⟨m, hagain⟩, hsame⟩

end RPMRepositoryGenerator

end Cloyster
