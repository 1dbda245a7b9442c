import Cloyster.Contents
import Cloyster.Services.Repos.Initialise
import Cloyster.Services.Repos.Listing

/-! What the repository manager changes: the contents of the files in the repository directory
and in the directory of its backup, and no others. The files that it has loaded are all in the
repository directory, which loading keeps. -/

namespace Cloyster

open Lib RPMRepositoryParser

namespace RPMRepoManager

/-- All files that the manager writes are in the repository directory. -/
def Sourced (manager : RPMRepoManager) : Prop := ∀ file ∈ manager.files, basedir <+: file.path

/-- The repository directory and its backup. -/
def Repositories (q : Path) : Prop := basedir <+: q ∨ RPMRepositoryGenerator.backupPath <+: q

/-- From a manager whose files are in the repository directory. -/
def Tidy (s t : RPMRepoManager × FS) : Prop :=
  Sourced s.1 → Sourced t.1 ∧ SameOutside Repositories s.2 t.2

instance : IsPreorder (RPMRepoManager × FS) Tidy where
  refl _ h := ⟨h, refl _⟩
  trans _ _ _ h h' hs := by
    obtain ⟨ht, hst⟩ := h hs
    obtain ⟨hu, htu⟩ := h' ht
    exact ⟨hu, trans_of _ hst htu⟩

variable {opts : Options} {codec : GKeyFile} {P : Path → Prop}

/-! ### Key files -/

theorem save_outside {p : Path} (key : KeyFile) (hp : P p) :
    Moves (SameOutside P) (KeyFile.save codec p key) := by
  intro fs
  rw [KeyFile.save, bind_apply, get_apply]
  dsimp only
  cases hwrite : fs.write p (codec.toData key) with
  | ok fs' => exact sameOutside_write hwrite hp
  | error code => exact refl fs

theorem unparse_outside {p : Path} (repos : RepoMap) (hp : P p) :
    Moves (SameOutside P) (unparse codec repos p) :=
  moves_bind (moves_of_unchanged (unchanged_open p)) fun _ => save_outside _ hp

/-! ### Backing up and generating -/

theorem directoryIterator_outside (p : Path) : Moves (SameOutside P) (directoryIterator p) := by
  refine moves_of_unchanged fun fs => ?_
  cases hdir : fs.isDir p with
  | true => rw [Unchanged, directoryIterator_of_isDir hdir]; rfl
  | false =>
    obtain ⟨e, he⟩ := directoryIterator_of_not_isDir hdir
    rw [Unchanged, he]
    rfl

theorem copyFilesWithExtension_outside {source destination : Path} (extension : String)
    (h : ∀ q, destination <+: q → P q) :
    Moves (SameOutside P) (copyFilesWithExtension opts source destination extension) := by
  refine moves_bind (directoryIterator_outside _) fun _ => moves_forM fun name _ => ?_
  refine moves_bind_of_ok moves_get fun fs fs' t hget => ?_
  obtain ⟨rfl, rfl⟩ := EStateM.Result.ok.inj hget
  split_ifs
  · refine copyFile_outside opts _ (fun q hq => h q ?_) fs
    exact (List.prefix_append _ _).trans hq
  · exact refl fs

theorem removeFilesWithExtension_outside {path : Path} (extension : String)
    (h : ∀ q, path <+: q → P q) :
    Moves (SameOutside P) (removeFilesWithExtension path extension) := by
  refine moves_bind (directoryIterator_outside _) fun _ => moves_forM fun name _ fs => ?_
  rw [removeEntry_apply]
  dsimp only [finalState]
  split_ifs
  · intro q hq
    have hne : q ≠ path.child name := by
      rintro rfl
      exact hq (h _ (List.prefix_append _ _))
    simp only [FS.content?, FS.get?_erase, if_neg hne]
  · exact refl fs

theorem moveFilesWithExtension_outside {source destination : Path} (extension : String)
    (hsource : ∀ q, source <+: q → P q) (hdestination : ∀ q, destination <+: q → P q) :
    Moves (SameOutside P) (moveFilesWithExtension opts source destination extension) :=
  moves_bind (copyFilesWithExtension_outside extension hdestination) fun _ =>
    removeFilesWithExtension_outside extension hsource

theorem backupFilesByExtension_outside {backup source : Path} (extension : String)
    (hbackup : ∀ q, backup <+: q → P q) (hsource : ∀ q, source <+: q → P q) :
    Moves (SameOutside P) (backupFilesByExtension opts backup source extension) := by
  have hforced : Moves (SameOutside P) (modify fun fs => fs.removeAll backup : FsM PUnit) :=
    moves_modify fun fs => sameOutside_removeAll fs hbackup
  have hbackup' : Moves (SameOutside P) (do
      createDirectory opts backup
      moveFilesWithExtension opts source backup extension) :=
    moves_bind (createDirectory_outside opts backup) fun _ =>
      moveFilesWithExtension_outside extension hsource hbackup
  have hrest : Moves (SameOutside P) (do
      let fs ← get
      if !fs.exists backup then
        createDirectory opts backup
        moveFilesWithExtension opts source backup extension) :=
    moves_bind moves_get fun fs => moves_ite (fun _ => hbackup') fun _ => moves_pure _
  exact moves_ite (fun _ => moves_bind hforced fun _ => hrest) fun _ => hrest

/-- Reading changes nothing. -/
theorem load_outside (specs : List Char → Option (String → String)) (vault : OS → Bool)
    (path : Path) (osinfo : OS) (vars : RepoConfigVars) :
    Moves (SameOutside P) (RepoConfigParser.load specs codec vault path osinfo vars) := by
  have hparse : ∀ p, Moves (SameOutside P) (RepoConfigParser.parse specs codec p {} vars) := by
    intro p
    have hgroups : Moves (SameOutside P) (do
        let file ← KeyFile.open codec p
        liftExcept (RepoConfigParser.parseGroups specs file vars {} file.getGroups)) :=
      moves_bind (moves_of_unchanged (unchanged_open p)) fun _ =>
        moves_of_unchanged (unchanged_liftExcept _)
    refine moves_bind moves_get fun fs => ?_
    exact moves_ite (fun _ => moves_bind (moves_throw _) fun _ => hgroups) fun _ => hgroups
  refine moves_bind (moves_of_unchanged (unchanged_liftExcept _)) fun distro => ?_
  refine moves_bind (hparse _) fun nonDistro => moves_bind (hparse _) fun distro' => ?_
  exact moves_pure _

theorem generate_outside (answers : Answers) (conffiles : RepoConfFiles) {dir : Path}
    (hdir : ∀ q, dir <+: q → P q) :
    Moves (SameOutside P) (RepoGenerator.generate opts answers dir conffiles codec) := by
  refine moves_bind ?_ fun existing => ?_
  · refine moves_bind (directoryIterator_outside _) fun names => ?_
    exact moves_bind moves_get fun fs => moves_pure _
  refine moves_bind_of_ok (moves_of_unchanged (unchanged_liftExcept _)) fun fs files fs' hok => ?_
  obtain ⟨hfiles, rfl⟩ := liftExcept_ok_iff.mp hok
  obtain ⟨m, hassemble⟩ := outcome_ok_iff.mp hfiles
  have hpath : ∀ file ∈ files, P file.path := by
    intro file hfile
    obtain ⟨i, hi, rfl⟩ := List.mem_iff_getElem.mp hfile
    have hassembled := RepoGenerator.assembleAll_ok hassemble
    obtain ⟨n, m, hentry⟩ := hassembled.get (hassembled.length_eq ▸ hi) hi
    obtain ⟨repos, t, -, hmade⟩ := bind_ok_iff.mp hentry
    have hfile : _ = files.get ⟨i, hi⟩ := (EStateM.Result.ok.inj hmade).1
    rw [show files[i] = files.get ⟨i, hi⟩ from rfl, ← hfile]
    exact hdir _ (List.prefix_append _ _)
  refine moves_bind ?_ (fun _ => moves_pure _) fs'
  exact moves_forM fun file hfile => unparse_outside file.repos (hpath file hfile)

/-! ### The manager -/

theorem tidy_of_files {s : RPMRepoManager × FS} {m : RPMRepoManager}
    (h : Sourced s.1 → Sourced m) : Tidy s (m, s.2) := fun hs => ⟨h hs, refl _⟩

theorem onFs_tidy {α : Type} {x : FsM α} (hx : Moves (SameOutside Repositories) x) :
    Moves Tidy (onFs x) := by
  intro s hs
  have hrun := hx s.2
  unfold onFs
  cases hx : x s.2 with
  | ok a fs =>
    rw [hx] at hrun
    exact ⟨hs, hrun⟩
  | error e fs =>
    rw [hx] at hrun
    exact ⟨hs, hrun⟩

theorem install_tidy (source : Path) : Moves Tidy (install opts codec source) := by
  have hcopy : Moves (SameOutside Repositories)
      (copyToBasedir opts source (basedir.child source.filename)) :=
    moves_ite (fun _ => moves_pure _) fun _ => copyFile_outside opts _ fun q hq =>
      .inl ((List.prefix_append _ _).trans hq)
  refine moves_bind (onFs_tidy hcopy) fun _ => moves_ite (fun _ => moves_pure _) fun _ => ?_
  refine moves_bind (onFs_tidy (moves_of_unchanged (unchanged_parse _ _))) fun repos => ?_
  refine moves_modify fun s => tidy_of_files fun hs => ?_
  intro file hfile
  rcases List.mem_append.mp hfile with hfile | hfile
  · exact hs file hfile
  · obtain rfl := List.mem_singleton.mp hfile
    exact List.prefix_append _ _

theorem loadDir_tidy (path : Path) : Moves Tidy (loadDir opts codec path) := by
  refine moves_ite (fun _ => moves_pure _) fun _ => ?_
  refine moves_bind (onFs_tidy (directoryIterator_outside path)) fun names => ?_
  exact moves_forM fun name _ => moves_ite (fun _ => install_tidy _) fun _ => moves_pure _

theorem fileAt_tidy (repo : String) : Moves Tidy (fileAt repo) := by
  refine moves_bind moves_get fun s => ?_
  cases s.1.filesIdx[repo]? with
  | some ref => exact moves_pure _
  | none => exact moves_throw _

/-- The path of a file object never changes. -/
theorem setEnabled_tidy (ref : ℕ) (repo : String) (value : Bool) :
    Moves Tidy (setEnabled ref repo value) := by
  refine moves_bind_of_ok moves_get fun s s' t hget => ?_
  obtain ⟨rfl, rfl⟩ := EStateM.Result.ok.inj hget
  cases hfile : s.1.files[ref]? with
  | none => exact refl s
  | some file =>
    dsimp only
    cases file.repos[repo]? with
    | none => exact refl s
    | some r =>
      refine tidy_of_files fun hs other hother => ?_
      rcases List.mem_or_eq_of_mem_set hother with hother | rfl
      · exact hs other hother
      · exact hs file (List.mem_of_getElem? hfile)

theorem saveFile_tidy (ref : ℕ) : Moves Tidy (saveFile codec ref) := by
  refine moves_bind_of_ok moves_get fun s s' t hget => ?_
  obtain ⟨rfl, rfl⟩ := EStateM.Result.ok.inj hget
  cases hfile : s.1.files[ref]? with
  | none => exact refl s
  | some file =>
    intro hs
    have hpath : Repositories file.path := .inl (hs file (List.mem_of_getElem? hfile))
    exact onFs_tidy (unparse_outside file.repos hpath) s hs

theorem enable_tidy (repo : String) (value : Bool) : Moves Tidy (enable codec repo value) := by
  refine moves_bind (fileAt_tidy repo) fun ref => ?_
  exact moves_bind (setEnabled_tidy ref repo value) fun _ => saveFile_tidy ref

theorem orUnknown_tidy {α : Type} (repo : String) {x : ManagerM α} (hx : Moves Tidy x) :
    Moves Tidy (orUnknown repo x) := by
  intro s
  have hrun := hx s
  unfold orUnknown
  cases hx : x s with
  | ok a t =>
    rw [hx] at hrun
    exact hrun
  | error e t =>
    rw [hx] at hrun
    dsimp only
    split_ifs
    · exact hrun
    · exact hrun

theorem enableLoop_tidy (value : Bool) (repos : List String) (toSave : List ℕ) :
    Moves Tidy (enableLoop value toSave repos) := by
  induction repos generalizing toSave with
  | nil => exact moves_pure _
  | cons repo repos ih =>
    refine moves_bind (orUnknown_tidy repo ?_) fun ref => ih _
    refine moves_bind (fileAt_tidy repo) fun ref => ?_
    exact moves_bind (setEnabled_tidy ref repo value) fun _ => moves_pure _

theorem enableAll_tidy (order : WalkOrder) (repos : List String) (value : Bool) :
    Moves Tidy (enableAll codec order repos value) :=
  moves_bind (enableLoop_tidy value repos []) fun _ => moves_forM fun ref _ => saveFile_tidy ref

/-- The initialisation works in the repository directory and its backup. -/
theorem initializeDefaultRepositories_tidy (answers : Answers)
    (specs : List Char → Option (String → String)) (vault : OS → Bool) (osinfo : OS)
    (order : WalkOrder) :
    Moves Tidy (RepoManager.initializeDefaultRepositories opts answers specs codec vault osinfo
      order) := by
  have hgenerate (vars : RepoConfigVars) : Moves (SameOutside Repositories)
      (RPMRepositoryGenerator.generateOf opts answers specs codec vault osinfo vars) := by
    refine moves_bind (backupFilesByExtension_outside _ (fun q => .inr) fun q => .inl) fun _ => ?_
    refine moves_bind (load_outside specs vault _ osinfo vars) fun conffiles => ?_
    exact moves_bind (generate_outside answers conffiles fun q => .inl) fun _ => moves_pure _
  have hnames (vars : RepoConfigVars) : Moves (SameOutside Repositories)
      (RepoNames.resolveReposNamesOf specs codec vault osinfo vars) :=
    moves_bind (load_outside specs vault _ osinfo vars) fun _ =>
      moves_of_unchanged (unchanged_liftExcept _)
  refine moves_ite (fun _ => moves_pure _) fun _ => ?_
  refine moves_bind (moves_of_unchanged (unchanged_liftExcept _)) fun _ => ?_
  refine moves_bind (onFs_tidy (hgenerate _)) fun _ => ?_
  refine moves_bind (onFs_tidy (hnames _)) fun repos => ?_
  exact moves_bind (loadDir_tidy _) fun _ => enableAll_tidy order repos true

end RPMRepoManager

end Cloyster
