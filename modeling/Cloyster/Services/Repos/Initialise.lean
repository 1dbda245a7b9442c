import Cloyster.Lib.Moves
import Cloyster.Move
import Cloyster.Services.Repos.Outside
import Cloyster.Services.Repos.Restart
import Cloyster.Services.Repos.Rows

/-! Setting up the default repositories: back up what is there, generate the files
of the conf tables, index them by identifier, enable the ones of the release. The
generated files have everything disabled, so what is enabled afterwards was
enabled by the last step. A file named just `.repo` has no extension for the
backup but the right ending for the index. -/

namespace Cloyster

open Lib RPMRepositoryParser

variable (opts : Options) (answers : Answers) (specs : List Char → Option (String → String))
  (codec : GKeyFile) (vault : OS → Bool) (osinfo : OS)

/-- `RepoConfigParser::defaultPath`. -/
def RepoConfigParser.defaultPath : Path := ["opt", "cloysterhpc", "conf", "repos"]

/-- The overload that loads the conf files itself. -/
def RepoNames.resolveReposNamesOf (vars : RepoConfigVars) : FsM (List String) := do
  let conffiles ← RepoConfigParser.load specs codec vault RepoConfigParser.defaultPath osinfo vars
  liftExcept (RepoNames.resolveReposNames osinfo conffiles)

/-- `RPMRepositoryGenerator::generate`. -/
def RPMRepositoryGenerator.generateOf (vars : RepoConfigVars) : FsM Unit := do
  backupFilesByExtension opts backupPath basedir ".repo"
  let conffiles ← RepoConfigParser.load specs codec vault RepoConfigParser.defaultPath osinfo vars
  let _ ← RepoGenerator.generate opts answers basedir conffiles codec
  return ()

namespace RepoManager

open RPMRepoManager

def repoConfigVars : RepoConfigVars where
  arch := NamedEnum.name osinfo.arch
  beegfsVersion := opts.beegfsVersion
  ohpcVersion := if osinfo.majorVersion = 8 then "2" else "3"
  osversion := osinfo.getVersion
  releasever := toString osinfo.majorVersion
  xcatVersion := opts.xcatVersion
  zabbixVersion := opts.zabbixVersion

/-- Every distribution has RPM packages. -/
def initializeDefaultRepositories (order : WalkOrder) : ManagerM Unit := do
  if opts.dryRun then return
  let vars := repoConfigVars opts osinfo
  let _ ← liftExcept osinfo.getDistro
  onFs (RPMRepositoryGenerator.generateOf opts answers specs codec vault osinfo vars)
  let repos ← onFs (RepoNames.resolveReposNamesOf specs codec vault osinfo vars)
  loadDir opts codec RPMRepoManager.basedir
  enableAll codec order repos true

variable {opts answers specs codec vault osinfo} {conffiles : RepoConfFiles} {fs mid : FS}

/-! ### What the backup leaves -/

/-- The repository files are gone; names the backup passes over, and files of other
directories, are as they were. -/
structure BackedUp (fs mid : FS) : Prop where
  isDir : mid.isDir basedir
  gone : ∀ name, hasExtensionLower fs basedir ".repo" name →
    mid.get? (basedir.child name) = none
  left : ∀ name, hasExtensionLower fs basedir ".repo" name = false →
    mid.get? (basedir.child name) = fs.get? (basedir.child name)
  elsewhere : ∀ q text, (∀ name, q ≠ basedir.child name) → fs.get? q = some (.file text) →
    mid.get? q = some (.file text)
  dirs : ∀ q, mid.isDir q ↔ fs.isDir q ∨ q <+: RPMRepositoryGenerator.backupPath
  order : mid.order = fs.order

theorem BackedUp.not_file (h : BackedUp fs mid) {name : String}
    (hext : Text.extension name = ".repo") (text : String) :
    mid.get? (basedir.child name) ≠ some (.file text) := by
  intro hfile
  cases hlower : hasExtensionLower fs basedir ".repo" name with
  | true =>
    rw [h.gone name hlower] at hfile
    exact absurd hfile (by simp)
  | false =>
    rw [h.left name hlower] at hfile
    have hregular : fs.isRegular (basedir.child name) := FS.isRegular_iff.mpr ⟨text, hfile⟩
    rw [hasExtensionLower, hregular, hext] at hlower
    exact absurd hlower (by simp)

/-- Directories are listed in the same order. -/
def SameOrder (fs fs' : FS) : Prop := fs'.order = fs.order

instance : IsPreorder FS SameOrder where
  refl _ := rfl
  trans _ _ _ h h' := h'.trans h

theorem sameOrder_copyFile (source destination : Path) :
    Moves SameOrder (copyFile opts source destination) := by
  refine moves_ite (fun _ => moves_pure _) fun _ fs => ?_
  rw [bind_apply, get_apply]
  dsimp only
  cases hcopy : fs.copy source destination with
  | ok fs' =>
    obtain ⟨text, -, rfl, -⟩ := FS.copy_ok hcopy
    rfl
  | error code => cases code <;> exact refl fs

theorem sameOrder_directoryIterator (path : Path) : Moves SameOrder (directoryIterator path) := by
  intro fs
  rw [directoryIterator, bind_apply, get_apply]
  dsimp only
  cases fs.readdir path <;> exact refl fs

theorem sameOrder_moveFilesWithExtension (source destination : Path) (extension : String) :
    Moves SameOrder (moveFilesWithExtension opts source destination extension) := by
  refine moves_bind ?_ fun _ => ?_
  · refine moves_bind (sameOrder_directoryIterator source) fun _ => moves_forM fun name _ => ?_
    exact moves_bind moves_get fun fs =>
      moves_ite (fun _ => sameOrder_copyFile _ _) fun _ => moves_pure _
  · refine moves_bind (sameOrder_directoryIterator source) fun _ => moves_forM fun name _ => ?_
    intro fs
    rw [removeEntry_apply]
    dsimp only [finalState]
    split_ifs <;> rfl

/-- A first backup returns when there is a directory to back up and one to back up to. -/
theorem backup_spec (hdry : opts.dryRun = false)
    (hnone : ∀ q, RPMRepositoryGenerator.backupPath <+: q → fs.get? q = none) :
    (∃ mid, backupFilesByExtension opts RPMRepositoryGenerator.backupPath basedir ".repo" fs =
        .ok () mid ∧ BackedUp fs mid) ∨
      ¬ (fs.isDir basedir ∧ ∃ t, fs.createDirectories RPMRepositoryGenerator.backupPath = .ok t) ∧
        ∃ e t, backupFilesByExtension opts RPMRepositoryGenerator.backupPath basedir ".repo" fs =
          .error e t := by
  rw [backup_of_none (by decide) hnone, bind_apply, createDirectory, hdry]
  simp only [Bool.false_eq_true, if_false, bind_apply, get_apply]
  cases hmk : fs.createDirectories RPMRepositoryGenerator.backupPath with
  | error code => exact Or.inr ⟨by simp, _, _, rfl⟩
  | ok fs₁ =>
    have hsame : FS.SameListing basedir fs fs₁ :=
      FS.sameListing_createDirectories hmk RPMRepositoryGenerator.backupPath_apart
    have hfresh := freshBackup_createDirectories (by decide) hnone hmk
    simp only [set_apply, moveFilesWithExtension, copyFilesWithExtension, bind_apply]
    cases hdir : fs.isDir basedir with
    | false =>
      obtain ⟨e, he⟩ := directoryIterator_of_not_isDir (hsame.isDir.trans hdir)
      rw [he]
      exact Or.inr ⟨by simp, e, fs₁, rfl⟩
    | true =>
      have hdir₁ : fs₁.isDir basedir := hsame.isDir.trans hdir
      rw [directoryIterator_of_isDir hdir₁]
      dsimp only
      rcases copyEntries_spec hdry basedir RPMRepositoryGenerator.backupPath ".repo"
        (fs₁.children basedir) fs₁ with ⟨fs₂, hcopies, hcopied, -⟩ | ⟨e, fs₂, -, -, -, hno, -⟩
      · obtain ⟨mid, hremove, hremoved⟩ := removeFilesWithExtension_copied hdir₁ hcopied
        have hlower : ∀ name, hasExtensionLower fs₁ basedir ".repo" name =
            hasExtensionLower fs basedir ".repo" name := fun name => by
          rw [hasExtensionLower, hasExtensionLower, hsame.isRegular]
        rw [hcopies]
        refine Or.inl ⟨mid, hremove, ?_, fun name hm => ?_, fun name hm => ?_,
          fun q text hq hfile => ?_, fun q => ?_, ?_⟩
        · rw [FS.isDir, hremoved.left basedir (fun name _ => by simp [basedir, Path.child]),
            ← FS.isDir, hcopied.isDir, hdir₁]
        · exact hremoved.gone name ((hlower name).trans hm)
        · rw [hremoved.left _ fun other ho he => ?_, hcopied.listed, hsame.get?]
          obtain ⟨-, rfl⟩ := Path.child_inj.mp he
          rw [hlower, hm] at ho
          exact absurd ho (by simp)
        · rw [hremoved.left q fun name _ => hq name]
          exact hcopied.kept q _ ((hfresh.files q text).mpr hfile)
        · rw [← FS.isDir_createDirectories hmk, ← hcopied.isDir]
          by_cases hmatch : ∃ name, hasExtensionLower fs₁ basedir ".repo" name ∧
              q = basedir.child name
          · obtain ⟨name, hname, rfl⟩ := hmatch
            obtain ⟨text, htext⟩ := get?_of_hasExtensionLower hname
            rw [FS.isDir, FS.isDir, hremoved.gone name hname, hcopied.kept _ _ htext]
            simp
          · rw [FS.isDir, hremoved.left q fun name hname hq => hmatch ⟨name, hname, hq⟩, ← FS.isDir]
        · have hmove : SameOrder fs₁ (finalState (moveFilesWithExtension opts basedir
              RPMRepositoryGenerator.backupPath ".repo" fs₁)) :=
            sameOrder_moveFilesWithExtension _ _ _ fs₁
          rw [moveFilesWithExtension, copyFilesWithExtension, bind_apply, bind_apply,
            directoryIterator_of_isDir hdir₁] at hmove
          dsimp only at hmove
          rw [hcopies] at hmove
          dsimp only at hmove
          rw [hremove] at hmove
          exact hmove.trans (FS.order_createDirectories hmk)
      · rw [hfresh.isDir] at hno
        exact absurd hno (by simp)

/-! ### What the generation leaves -/

/-- A generated file parses, and each of its groups is a configuration listed under
its name, disabled, at the mirror or upstream. -/
structure Written (opts : Options) (codec : GKeyFile) (conffiles : RepoConfFiles) (name : String)
    (key : KeyFile) : Prop where
  parseable : Parseable codec key
  group : ∀ group ∈ key.getGroups, ∃ configs, RepoGenerator.Listed conffiles (name, configs) ∧
    ∃ config ∈ configs, config.repoId.id = group ∧ key.value? group "enabled" = some "false" ∧
      (key.value? group "baseurl" = some (UpstreamRepo.baseurl config.upstream) ∨
        key.value? group "baseurl" = some (MirrorRepo.baseurl opts config.mirror))

theorem written_empty (name : String) : Written opts codec conffiles name ∅ :=
  ⟨parseable_empty, fun _ hm => absurd hm List.not_mem_nil⟩

/-- Every repository of the file comes from a configuration of the list. -/
def FromConfigs (opts : Options) (configs : List RepoConfig) (repos : RepoMap) : Prop :=
  ∀ (id : String) (repo : RPMRepository), repos[id]? = some repo →
    ∃ config ∈ configs, config.repoId.id = id ∧ repo.enabled = false ∧
      (repo.baseurl = some (UpstreamRepo.baseurl config.upstream) ∨
        repo.baseurl = some (MirrorRepo.baseurl opts config.mirror))

theorem fromConfigs_of_loop {all configs : List RepoConfig} (hsub : ∀ config ∈ configs, config ∈ all)
    {repos output : RepoMap} {n m : ℕ} (hrepos : FromConfigs opts all repos)
    (h : fromConfigsLoop opts answers repos configs n = .ok output m) :
    FromConfigs opts all output := by
  induction configs generalizing repos n with
  | nil =>
    obtain ⟨rfl, -⟩ := EStateM.Result.ok.inj h
    exact hrepos
  | cons config configs ih =>
    obtain ⟨repo, t, hrepo, hrest⟩ := bind_ok_iff.mp h
    refine ih (fun c hc => hsub c (List.mem_cons_of_mem _ hc)) (fun id r hr => ?_) hrest
    rw [Std.TreeMap.getElem?_insertIfNew] at hr
    simp only [Std.LawfulEqCmp.compare_eq_iff_eq] at hr
    split_ifs at hr with hcase
    · obtain rfl := Option.some.inj hr
      exact ⟨config, hsub config List.mem_cons_self, hcase.1, (fromConfig_ok hrepo).2⟩
    · exact hrepos id r hr

theorem fromConfigs_of_assembled {entry : String × List RepoConfig} {file : RPMRepositoryFile}
    (h : Assembled opts answers basedir entry file) : FromConfigs opts entry.2 file.repos := by
  obtain ⟨n, m, h⟩ := h
  obtain ⟨repos, t, hrepos, hfile⟩ := bind_ok_iff.mp h
  obtain ⟨rfl, -⟩ := EStateM.Result.ok.inj hfile
  exact fromConfigs_of_loop (fun _ hc => hc) (fun id repo hr => by simp at hr) hrepos

/-- Writing an assembled file into a generated one gives a generated one. -/
theorem Written.unparse {name : String} {old : KeyFile} {configs : List RepoConfig}
    {repos : RepoMap} (h : Written opts codec conffiles name old)
    (hlisted : RepoGenerator.Listed conffiles (name, configs)) (hkeyed : WellKeyed repos)
    (hfrom : FromConfigs opts configs repos) :
    Written opts codec conffiles name (unparseRepos old repos) := by
  refine ⟨parseable_unparseRepos h.parseable hkeyed, fun group hm => ?_⟩
  simp only [value?_unparseRepos hkeyed]
  cases hrepo : repos[group]? with
  | some repo =>
    obtain ⟨config, hconfig, hid, henabled, hurl⟩ := hfrom group repo hrepo
    refine ⟨configs, hlisted, config, hconfig, hid, ?_, ?_⟩
    · simp [knownValue, henabled]
    · rcases hurl with hurl | hurl
      · exact Or.inl (by simp [knownValue, hurl])
      · exact Or.inr (by simp [knownValue, hurl])
  | none =>
    have hnot : group ∉ repos := not_mem_of_getElem? hrepo
    exact h.group group (((mem_getGroups_unparseRepos hkeyed group).mp hm).resolve_left hnot)

/-- A state between the backup and the end of the generation. -/
structure Generated (opts : Options) (codec : GKeyFile) (conffiles : RepoConfFiles)
    (mid fs : FS) : Prop where
  isDir : fs.isDir basedir
  dirs : ∀ name, mid.get? (basedir.child name) = some .dir →
    fs.get? (basedir.child name) = some .dir
  others : ∀ q, (∀ name, Text.extension name = ".repo" → q ≠ basedir.child name) →
    fs.get? q = mid.get? q
  written : ∀ name key, Text.extension name = ".repo" →
    keyFileAt codec fs (basedir.child name) = some key → Written opts codec conffiles name key
  created : ∃ added, fs.created basedir = mid.created basedir ++ added
  order : fs.order = mid.order

theorem BackedUp.generated (h : BackedUp fs mid) : Generated opts codec conffiles mid mid := by
  refine ⟨h.isDir, fun _ hd => hd, fun _ _ => rfl, fun name key hext hkey => ?_,
    ⟨[], by simp⟩, rfl⟩
  obtain ⟨text, htext, -⟩ := Option.bind_eq_some_iff.mp hkey
  exact absurd (FS.content?_eq_some.mp htext) (h.not_file hext text)

/-- One write of the generation. -/
theorem Generated.save {name : String} {configs : List RepoConfig} {file : RPMRepositoryFile}
    {u : Unit} {fs' : FS} (h : Generated opts codec conffiles mid fs)
    (hext : Text.extension name = ".repo")
    (hlisted : RepoGenerator.Listed conffiles (name, configs))
    (hpath : file.path = basedir.child name) (hkeyed : WellKeyed file.repos)
    (hfrom : FromConfigs opts configs file.repos) (hsave : file.save codec fs = .ok u fs') :
    Generated opts codec conffiles mid fs' := by
  rcases save_eq codec h.isDir hpath with ⟨old, hold, hrun⟩ | ⟨-, e, he⟩
  · rw [hsave] at hrun
    obtain ⟨-, rfl⟩ := EStateM.Result.ok.inj hrun
    have hstart : Written opts codec conffiles name old := by
      unfold startingFile at hold
      rw [hpath] at hold
      split_ifs at hold with hexists
      · exact h.written name old hext hold
      · rw [← Option.some.inj hold]
        exact written_empty name
    rw [hpath]
    refine ⟨isDir_set_child _ h.isDir, fun other hd => ?_, fun q hq => ?_,
      fun other key hother hkey => ?_, ?_, h.order⟩
    · rw [FS.get?_set, if_neg, h.dirs other hd]
      intro he
      rw [hpath, startingFile_dir (he ▸ h.dirs other hd)] at hold
      exact absurd hold (by simp)
    · rw [FS.get?_set_of_ne _ _ (hq name hext), h.others q hq]
    · rw [keyFileAt_set] at hkey
      split_ifs at hkey with he
      · obtain ⟨-, rfl⟩ := Path.child_inj.mp he
        rw [← Option.some.inj hkey]
        exact hstart.unparse hlisted hkeyed hfrom
      · exact h.written other key hother hkey
    · obtain ⟨added, hadded⟩ := h.created
      obtain ⟨more, hmore⟩ := FS.created_set_prefix fs (basedir.child name)
        (.file (codec.toData (unparseRepos old file.repos))) basedir
      exact ⟨added ++ more, by rw [← hmore, hadded, List.append_assoc]⟩
  · rw [hsave] at he
    exact absurd he (by simp)

theorem generated_of_generate (hnamed : RepoGenerator.WellNamed conffiles) (hmid : BackedUp fs mid)
    {n : ℕ} {full : FS}
    (h : RepoGenerator.generate opts answers basedir conffiles codec mid = .ok n full) :
    Generated opts codec conffiles mid full := by
  obtain ⟨files, m, hassembled, hsaves, -⟩ := (RepoGenerator.generate_ok_iff hmid.isDir).mp h
  have hentries := RepoGenerator.assembleAll_ok hassembled
  refine forM_ok_induction (P := Generated opts codec conffiles mid) ?_ hmid.generated hsaves
  intro file hfile s t hs hsave
  obtain ⟨entry, hentry, hassembled⟩ := forall₂_exists_left hentries hfile
  have hlisted := (RepoGenerator.mem_entriesToGenerate.mp hentry).1
  obtain ⟨hpath, hkeyed, -⟩ := hassembled.spec (hnamed.named entry hlisted)
  exact hs.save (hnamed.extension entry hlisted) hlisted hpath hkeyed
    (fromConfigs_of_assembled hassembled) hsave

/-! ### What the index maps to -/

/-- The first of the names whose file has the identifier. -/
def firstFile (codec : GKeyFile) (fs : FS) (names : List String) (id : String) : Option String :=
  names.find? fun name =>
    Text.endsWith name ".repo" && decide (id ∈ groupsAt codec fs (basedir.child name))

theorem firstFile_cons (name : String) (names : List String) (id : String) :
    firstFile codec fs (name :: names) id =
      if Text.endsWith name ".repo" ∧ id ∈ groupsAt codec fs (basedir.child name) then some name
      else firstFile codec fs names id := by
  unfold firstFile
  rw [List.find?_cons]
  split_ifs with h
  · rw [h.1, decide_eq_true h.2]
    rfl
  · have hfalse : (Text.endsWith name ".repo" &&
        decide (id ∈ groupsAt codec fs (basedir.child name))) = false := by
      rw [← Bool.not_eq_true, Bool.and_eq_true, decide_eq_true_eq]
      exact h
    rw [hfalse]

theorem mem_repos_iff {path : Path} {repos : RepoMap} {fs' : FS}
    (h : parse codec path ∅ fs = .ok repos fs') (id : String) :
    id ∈ repos ↔ id ∈ groupsAt codec fs path := by
  obtain ⟨key, t, hopen, hrest⟩ := bind_ok_iff.mp h
  obtain ⟨hparse, rfl⟩ := liftExcept_ok_iff.mp hrest
  rw [(holds_of_parseRepos hparse).mem_iff]
  rw [KeyFile.open, bind_apply, get_apply] at hopen
  dsimp only at hopen
  split_ifs at hopen with hexists
  · obtain ⟨hkey, rfl⟩ := KeyFile.load_ok_iff.mp hopen
    rw [groupsAt, hkey, Option.map_some, Option.getD_some]
  · obtain ⟨rfl, rfl⟩ := EStateM.Result.ok.inj hopen
    simp only [FS.exists, decide_eq_true_eq, not_or, Option.not_isSome_iff_eq_none] at hexists
    simp [groupsAt, keyFileAt, FS.content?, hexists.2]

/-- Loading a name of the base directory itself copies nothing. -/
theorem installEntry_basedir (hdry : opts.dryRun = false) (name : String)
    (s : RPMRepoManager × FS) : installEntry opts codec basedir name s =
      if Text.endsWith name ".repo" then
        match parse codec (basedir.child name) ∅ s.2 with
        | .ok repos fs => .ok () (s.1.emplace ⟨basedir.child name, repos⟩, fs)
        | .error e fs => .error e (s.1, fs)
      else .ok () s := by
  unfold installEntry
  split_ifs with hname
  · have hcopy : onFs (copyToBasedir opts (basedir.child name) (basedir.child name)) s =
        .ok () s := by
      rw [onFs, copyToBasedir, if_pos rfl]
      rfl
    rw [install, Path.filename_child, bind_of_ok hcopy, if_neg (by simp [hdry]), bind_apply, onFs]
    cases parse codec (basedir.child name) ∅ s.2 <;> rfl
  · rfl

variable {manager : RPMRepoManager}

theorem indexedAt_emplace (hpresent : Sound manager) (repofile : RPMRepositoryFile) (id : String)
    (path : Path) : IndexedAt (manager.emplace repofile) id path ↔
      IndexedAt manager id path ∨
        id ∉ manager.filesIdx ∧ id ∈ repofile.repos ∧ path = repofile.path := by
  have hold : ∀ (ref : ℕ) file, manager.files[ref]? = some file →
      (manager.emplace repofile).files[ref]? = some file := by
    intro ref file hfile
    rw [emplace, List.getElem?_append_left (List.getElem?_eq_some_iff.mp hfile).1, hfile]
  have hlast : (manager.emplace repofile).files[manager.files.length]? = some repofile := by
    rw [emplace, List.getElem?_append_right le_rfl, Nat.sub_self]
    rfl
  have hmem : id ∈ manager.filesIdx ↔ (manager.filesIdx[id]?).isSome :=
    Std.TreeMap.mem_iff_isSome_getElem?
  unfold IndexedAt
  rw [emplace_getElem?, hmem]
  cases hidx : manager.filesIdx[id]? with
  | some ref =>
    obtain ⟨file, hfile, -⟩ := hpresent.present id ref hidx
    rw [Option.some_or]
    constructor
    · rintro ⟨ref', file', hsome, hfile', rfl⟩
      obtain rfl := Option.some.inj hsome
      rw [hold ref file hfile] at hfile'
      obtain rfl := Option.some.inj hfile'
      exact Or.inl ⟨ref, file, rfl, hfile, rfl⟩
    · rintro (⟨ref', file', hsome, hfile', rfl⟩ | ⟨hno, -⟩)
      · exact ⟨ref', file', hsome, hold ref' file' hfile', rfl⟩
      · exact absurd rfl hno
  | none =>
    rw [Option.none_or]
    constructor
    · rintro ⟨ref, file, hsome, hfile, rfl⟩
      split_ifs at hsome with hmem
      obtain rfl := Option.some.inj hsome
      rw [hlast] at hfile
      obtain rfl := Option.some.inj hfile
      exact Or.inr ⟨by simp, hmem, rfl⟩
    · rintro (⟨ref, file, hsome, -⟩ | ⟨-, hmem, rfl⟩)
      · exact absurd hsome (by simp)
      · exact ⟨_, repofile, if_pos hmem, hlast, rfl⟩

/-- Loading maps an identifier that was not there to the first file that has it. -/
theorem installEntries_ok (hdry : opts.dryRun = false) {names : List String}
    {s t : RPMRepoManager × FS} {u : Unit} (hs : Sound s.1)
    (h : names.forM (installEntry opts codec basedir) s = .ok u t) :
    t.2 = s.2 ∧ ∀ id path, IndexedAt t.1 id path ↔ IndexedAt s.1 id path ∨
      id ∉ s.1.filesIdx ∧ ∃ name, firstFile codec s.2 names id = some name ∧
        path = basedir.child name := by
  induction names generalizing s with
  | nil =>
    obtain ⟨-, rfl⟩ := EStateM.Result.ok.inj h
    exact ⟨rfl, fun id path => by simp [firstFile]⟩
  | cons name names ih =>
    rw [forM_cons_apply, installEntry_basedir hdry] at h
    simp only [firstFile_cons]
    by_cases hname : Text.endsWith name ".repo"
    · rw [if_pos hname] at h
      cases hparse : parse codec (basedir.child name) ∅ s.2 with
      | error e fs => rw [hparse] at h; exact absurd h (by simp)
      | ok repos fs =>
        rw [hparse] at h
        obtain ⟨rfl, -⟩ := parse_ok hparse
        obtain ⟨hfs, hindex⟩ := ih (hs.emplace (wellKeyed_of_parse hparse)) h
        refine ⟨hfs, fun id path => ?_⟩
        have hmem := mem_repos_iff hparse id
        rw [hindex, indexedAt_emplace hs, mem_filesIdx_emplace]
        by_cases hid : id ∈ groupsAt codec s.2 (basedir.child name)
        · simp only [hname, hid, and_self, if_true, Option.some.injEq, exists_eq_left',
            hmem.mpr hid, or_true, not_true_eq_false, false_and, or_false, true_and]
        · simp only [hid, and_false, if_false, hmem, or_false, false_and]
    · rw [if_neg hname] at h
      simp only [hname, Bool.false_eq_true, false_and, if_false]
      exact ih hs h

/-- Loading returns when every file that it loads parses. -/
theorem installEntries_returns (hdry : opts.dryRun = false) {names : List String}
    (s : RPMRepoManager × FS) (h : ∀ name ∈ names, Text.endsWith name ".repo" →
      ∃ repos, parse codec (basedir.child name) ∅ s.2 = .ok repos s.2) :
    ∃ t, names.forM (installEntry opts codec basedir) s = .ok () t := by
  induction names generalizing s with
  | nil => exact ⟨s, rfl⟩
  | cons name names ih =>
    rw [List.forall_mem_cons] at h
    rw [forM_cons_apply, installEntry_basedir hdry]
    split_ifs with hname
    · obtain ⟨repos, hparse⟩ := h.1 hname
      rw [hparse]
      exact ih _ h.2
    · exact ih s h.2

theorem loadDir_basedir (hdry : opts.dryRun = false) {s : RPMRepoManager × FS}
    (hdir : s.2.isDir basedir) : loadDir opts codec basedir s =
      (s.2.children basedir).forM (installEntry opts codec basedir) s := by
  have hnames : onFs (directoryIterator basedir) s = .ok (s.2.children basedir) s := by
    rw [onFs, directoryIterator_of_isDir hdir]
  rw [loadDir, if_neg (by simp [hdry]), bind_of_ok hnames]

/-! ### The whole initialisation -/

/-- The conf files are read from files that nobody touches. -/
theorem shippedConfs_mono {fs' : FS} (h : ShippedConfs codec fs RepoConfigParser.defaultPath)
    (hfs : ∀ name text, fs.get? (RepoConfigParser.defaultPath.child name) = some (.file text) →
      fs'.get? (RepoConfigParser.defaultPath.child name) = some (.file text)) :
    ShippedConfs codec fs' RepoConfigParser.defaultPath := by
  have hsame : ∀ {name : String} {key : KeyFile},
      keyFileAt codec fs (RepoConfigParser.defaultPath.child name) = some key →
        keyFileAt codec fs' (RepoConfigParser.defaultPath.child name) = some key := by
    intro name key hkey
    obtain ⟨text, htext, -⟩ := Option.bind_eq_some_iff.mp hkey
    have hget := FS.content?_eq_some.mp htext
    rw [keyFileAt_congr ((hfs name text hget).trans hget.symm), hkey]
  exact ⟨hsame h.repos, hsame h.rhel, hsame h.oracle, hsame h.alma, hsame h.rockyVault,
    hsame h.rockyUpstream⟩

theorem confPath_ne (name other : String) :
    RepoConfigParser.defaultPath.child name ≠ basedir.child other := by
  simp [RepoConfigParser.defaultPath, basedir, Path.child]

/-- A run of the initialisation: what the backup leaves, what is generated from the
rows of the release, what the index maps to, and what enabling does to the disk. -/
structure Run (opts : Options) (answers : Answers) (specs : List Char → Option (String → String))
    (codec : GKeyFile) (vault : OS → Bool) (osinfo : OS) (fs fs' : FS) where
  distro : OS.Distro
  mid : FS
  full : FS
  conffiles : RepoConfFiles
  own : List String
  manager : RPMRepoManager
  hdistro : osinfo.distro = some distro
  backedUp : BackedUp fs mid
  lists : RepoConfigParser.ListsRows specs (repoConfigVars opts osinfo)
    (RepoConfigParser.shippedRows (vault osinfo) distro) (RepoGenerator.Listed conffiles)
  generated : Generated opts codec conffiles mid full
  completes : RepoGenerator.Completes opts answers codec conffiles basedir mid full
  names : RepoNames.distroReposNames osinfo distro = .ok own
  indexed : ∀ id path, IndexedAt manager id path ↔
    ∃ name, firstFile codec full (full.children basedir) id = some name ∧ path = basedir.child name
  enabled : SetsOnDisk codec manager (own ++ RepoNames.commonReposNames) true full fs'

theorem distroReposNames_ok (osinfo : OS) {distro : OS.Distro} (hd : osinfo.distro = some distro) :
    ∃ own, RepoNames.distroReposNames osinfo distro = .ok own := by
  cases distro with
  | Rocky => simp [RepoNames.distroReposNames, RepoNames.resolveCodeReadyBuilderName, OS.getDistro,
      hd, except_bind_ok_iff]
  | _ => exact ⟨_, rfl⟩

/-- Every initialisation that returns outside a dry run is such a run, and leaves a manager that
agrees with the disk. -/
theorem run_of_initialise (hdry : opts.dryRun = false)
    (hconf : ShippedConfs codec fs RepoConfigParser.defaultPath)
    (hnone : ∀ q, RPMRepositoryGenerator.backupPath <+: q → fs.get? q = none) {order : WalkOrder}
    {s : RPMRepoManager × FS} {u : Unit}
    (h : initializeDefaultRepositories opts answers specs codec vault osinfo order ({}, fs) =
      .ok u s) :
    ∃ R : Run opts answers specs codec vault osinfo fs s.2, Coherent codec s.1 s.2 ∧ Sound s.1 ∧
      Enabled R.manager s.1 (R.own ++ RepoNames.commonReposNames) true := by
  rw [initializeDefaultRepositories, if_neg (by simp [hdry])] at h
  obtain ⟨distro, s₀, hget, h⟩ := bind_ok_iff.mp h
  obtain ⟨hd, rfl⟩ := liftExcept_ok_iff.mp hget
  rw [OS.getDistro_ok_iff] at hd
  obtain ⟨_, s₁, hgenerate, h⟩ := bind_ok_iff.mp h
  obtain ⟨hs₁, hgenerate⟩ := onFs_ok hgenerate
  obtain ⟨repos, s₂, hresolve, h⟩ := bind_ok_iff.mp h
  obtain ⟨hs₂, hresolve⟩ := onFs_ok hresolve
  obtain ⟨_, s₃, hload, henable⟩ := bind_ok_iff.mp h
  -- the generation
  obtain ⟨_, mid, hbackup, hrest⟩ := bind_ok_iff.mp hgenerate
  have hbackedUp : BackedUp fs mid := by
    rcases backup_spec hdry hnone with ⟨mid', hrun, hspec⟩ | ⟨-, e, t, he⟩
    · obtain ⟨-, rfl⟩ := EStateM.Result.ok.inj (hrun.symm.trans hbackup)
      exact hspec
    · exact absurd (he.symm.trans hbackup) (by simp)
  have hconfMid : ShippedConfs codec mid RepoConfigParser.defaultPath :=
    shippedConfs_mono hconf fun name text => hbackedUp.elsewhere _ text (confPath_ne name)
  obtain ⟨conffiles, hloaded, hlists⟩ := RepoConfigParser.load_rows specs hconfMid vault hd
    (repoConfigVars opts osinfo)
  rw [bind_of_ok hloaded] at hrest
  obtain ⟨n, full, hrepos, hpure⟩ := bind_ok_iff.mp hrest
  obtain ⟨-, rfl⟩ := EStateM.Result.ok.inj hpure
  have hnamed := hlists.wellNamed (RepoConfigParser.usable_shippedRows (vault osinfo) distro)
  have hgenerated := generated_of_generate hnamed hbackedUp hrepos
  -- the names
  obtain ⟨own, hown⟩ := distroReposNames_ok osinfo hd
  have hconfFull : ShippedConfs codec s₁.2 RepoConfigParser.defaultPath :=
    shippedConfs_mono hconfMid fun name text hget => by
      rw [hgenerated.others _ fun other _ => confPath_ne name other, hget]
  obtain ⟨conffiles', hloaded', -⟩ := RepoConfigParser.load_rows specs hconfFull vault hd
    (repoConfigVars opts osinfo)
  rw [RepoNames.resolveReposNamesOf, bind_of_ok hloaded', resolveReposNames_eq hd hown]
    at hresolve
  obtain ⟨rfl, hfs₂⟩ := EStateM.Result.ok.inj hresolve
  -- the index
  have hsound : Sound s₂.1 := by
    rw [hs₂, hs₁]
    exact sound_empty
  have hcoherent : Coherent codec s₂.1 s₂.2 := by
    rw [hs₂, hs₁]
    exact coherent_empty _
  have hcoherent' := coherent_loadDir hdry hcoherent hload
  have hsound' : SoundState (finalState (loadDir opts codec basedir s₂)) :=
    sound_loadDir opts basedir _ hsound
  rw [hload] at hsound'
  rw [loadDir_basedir hdry (by rw [← hfs₂]; exact hgenerated.isDir)] at hload
  obtain ⟨hfs₃, hindexed⟩ := installEntries_ok hdry hsound hload
  have hsaved := saved_of_savesEnabled hcoherent' (savesEnabled_enableAll henable)
  have henabled := hsaved.setsOnDisk hcoherent'
  rw [hfs₃, ← hfs₂] at henabled
  refine ⟨⟨distro, mid, s₁.2, conffiles, own, s₃.1, hd, hbackedUp, hlists, hgenerated,
    RepoGenerator.completes_of_generate hnamed hbackedUp.isDir hrepos, hown, fun id path => ?_,
    henabled⟩, hsaved.coherent hcoherent', hsound'.of_enabled hsaved.enabled, hsaved.enabled⟩
  have hempty : ¬ IndexedAt s₂.1 id path ∧ id ∉ s₂.1.filesIdx := by
    rw [hs₂, hs₁]
    exact ⟨fun ⟨ref, file, hidx, _⟩ => by simp at hidx, by simp⟩
  rw [hindexed, ← hfs₂]
  simp only [hempty, false_or, not_false_eq_true, true_and]

/-! ### An initialisation that returns -/

/-- In agreement with the disk, a batch of known repositories returns. -/
theorem enableAll_returns_of_coherent {repos : List String} {s : RPMRepoManager × FS}
    (hcoherent : Coherent codec s.1 s.2) (hs : Sound s.1)
    (hall : ∀ id ∈ repos, id ∈ s.1.filesIdx) (order : WalkOrder) (value : Bool) :
    ∃ t, enableAll codec order repos value s = .ok () t := by
  refine enableAll_returns hs (fun id hid => ?_) order value
  obtain ⟨ref, hidx⟩ := exists_getElem? (hall id hid)
  obtain ⟨file, hfile, -⟩ := hs.present id ref hidx
  obtain ⟨key, hkey, -⟩ := hcoherent.onDisk ref file ⟨⟨id, hidx⟩, hfile⟩
  exact ⟨ref, file, hidx, hfile, savable_of_keyFileAt hkey⟩

theorem endsWith_of_extension {name suffix : String} (hne : suffix ≠ "")
    (h : Text.extension name = suffix) : Text.endsWith name suffix := by
  unfold Text.extension at h
  split_ifs at h with hdots
  · exact absurd h.symm hne
  · split at h
    · exact absurd h.symm hne
    · exact absurd h.symm hne
    · rename_i c d rest hdrop
      have hsplit := List.takeWhile_append_dropWhile (p := (· ≠ '.')) (l := name.toList.reverse)
      have hhead : c = '.' := by
        have hnot := List.head?_dropWhile_not (· ≠ '.') name.toList.reverse
        rw [hdrop] at hnot
        simpa using hnot
      rw [hdrop, hhead] at hsplit
      generalize List.takeWhile _ name.toList.reverse = last at h hsplit
      rw [← h, Text.endsWith, String.toList_ofList, List.isSuffixOf_iff_suffix]
      refine ⟨(d :: rest).reverse, ?_⟩
      rw [← List.reverse_reverse name.toList, ← hsplit]
      simp

/-- Every resolved name of Rocky Linux is the group of a row. -/
theorem exists_row_rocky (useVault : Bool) {name : String}
    (h : name ∈ ["appstream", "baseos", "crb"] ++ RepoNames.commonReposNames) :
    ∃ row ∈ RepoConfigParser.shippedRows useVault .Rocky, row.group = name := by
  rcases List.mem_append.mp h with h | h
  · obtain ⟨row, hrow, hgroup⟩ := (RepoConfigParser.mem_getGroups_toKeyFile _ _).mp
      (rockyReposNames_shipped useVault name h)
    exact ⟨row, List.mem_append_left _ hrow, hgroup⟩
  · obtain ⟨row, hrow, hgroup⟩ := (RepoConfigParser.mem_getGroups_toKeyFile _ _).mp
      (commonReposNames_shipped name h)
    exact ⟨row, List.mem_append_right _ hrow, hgroup⟩

theorem distroReposNames_rocky (hd : osinfo.distro = some .Rocky) :
    RepoNames.distroReposNames osinfo .Rocky = .ok ["appstream", "baseos", "crb"] := by
  simp [RepoNames.distroReposNames, RepoNames.resolveCodeReadyBuilderName, except_bind_ok_iff,
    OS.getDistro, hd]

/-- On Rocky Linux, over a base directory without repository files and with no local
mirror, the initialisation returns. -/
theorem initialise_returns (hdry : opts.dryRun = false)
    (hconf : ShippedConfs codec fs RepoConfigParser.defaultPath)
    (hrocky : osinfo.distro = some .Rocky)
    (hnone : ∀ q, RPMRepositoryGenerator.backupPath <+: q → fs.get? q = none)
    (hdir : fs.isDir basedir)
    (hmk : ∃ t, fs.createDirectories RPMRepositoryGenerator.backupPath = .ok t)
    (hempty : ∀ name ∈ fs.children basedir, Text.endsWith name ".repo" = false)
    (hmirror : MirrorRepo.isLocalUrl opts.mirrorBaseUrl = false) (order : WalkOrder) :
    ∃ s, initializeDefaultRepositories opts answers specs codec vault osinfo order ({}, fs) =
      .ok () s := by
  obtain ⟨mid, hbackup, hmid⟩ := (backup_spec hdry hnone).resolve_right fun h => h.1 ⟨hdir, hmk⟩
  have hconfMid : ShippedConfs codec mid RepoConfigParser.defaultPath :=
    shippedConfs_mono hconf fun name text => hmid.elsewhere _ text (confPath_ne name)
  obtain ⟨conffiles, hloaded, hlists⟩ := RepoConfigParser.load_rows specs hconfMid vault hrocky
    (repoConfigVars opts osinfo)
  have hnamed := hlists.wellNamed (RepoConfigParser.usable_shippedRows (vault osinfo) .Rocky)
  have hfree : ∀ name, Text.endsWith name ".repo" → mid.get? (basedir.child name) = none := by
    intro name hname
    have hget : fs.get? (basedir.child name) = none := by
      cases hnode : fs.get? (basedir.child name) with
      | none => rfl
      | some node =>
        have hfalse := hempty name (FS.mem_children.mpr ⟨node, hnode⟩)
        rw [hname] at hfalse
        exact absurd hfalse (by simp)
    rw [hmid.left name (by simp [hasExtensionLower, FS.isRegular, hget]), hget]
  have hends : ∀ entry, RepoGenerator.Listed conffiles entry → Text.endsWith entry.1 ".repo" :=
    fun entry hl => endsWith_of_extension (by simp) (hnamed.extension entry hl)
  have hgenerable : RepoGenerator.Generable opts conffiles basedir mid := by
    constructor
    · intro entry hl
      rw [hfree entry.1 (hends entry hl)]
      simp
    · intro entry _ _ config _ hroot
      have hlocal := hroot.isLocal
      rw [hmirror] at hlocal
      exact absurd hlocal (by simp)
  obtain ⟨full, hcompletes⟩ : ∃ full,
      RepoGenerator.Completes opts answers codec conffiles basedir mid full :=
    RepoGenerator.completes_of_generable hnamed hmid.isDir hgenerable
  obtain ⟨n, hgenerate⟩ := hcompletes.returns
  have hfull := generated_of_generate hnamed hmid hgenerate
  have hfirst : RPMRepositoryGenerator.generateOf opts answers specs codec vault osinfo
      (repoConfigVars opts osinfo) fs = .ok () full :=
    bind_ok_iff.mpr ⟨(), mid, hbackup, bind_ok_iff.mpr ⟨conffiles, mid, hloaded,
      bind_ok_iff.mpr ⟨n, full, hgenerate, rfl⟩⟩⟩
  have hconfFull : ShippedConfs codec full RepoConfigParser.defaultPath :=
    shippedConfs_mono hconfMid fun name text hget => by
      rw [hfull.others _ fun other _ => confPath_ne name other, hget]
  obtain ⟨conffiles', hloaded', -⟩ := RepoConfigParser.load_rows specs hconfFull vault hrocky
    (repoConfigVars opts osinfo)
  have hnames : RepoNames.resolveReposNamesOf specs codec vault osinfo
      (repoConfigVars opts osinfo) full =
        .ok (["appstream", "baseos", "crb"] ++ RepoNames.commonReposNames) full := by
    rw [RepoNames.resolveReposNamesOf, bind_of_ok hloaded',
      resolveReposNames_eq hrocky (distroReposNames_rocky hrocky)]
    rfl
  -- what the directory lists now was generated
  have hparses : ∀ name ∈ full.children basedir, Text.endsWith name ".repo" →
      ∃ repos, parse codec (basedir.child name) ∅ full = .ok repos full := by
    intro name hm hname
    obtain ⟨entry, hl, hpath⟩ := (hcompletes.added _ (hfree name hname)).mp (FS.mem_children.mp hm)
    obtain ⟨-, rfl⟩ := Path.child_inj.mp hpath
    obtain ⟨repos, hrepos, -⟩ := hcompletes.parses entry.1 ⟨entry.2, hl⟩ (hfree _ hname)
    exact ⟨repos, hrepos⟩
  obtain ⟨t, hinstall⟩ := installEntries_returns hdry (({} : RPMRepoManager), full) hparses
  have hload : loadDir opts codec basedir ({}, full) = .ok () t := by
    rw [loadDir_basedir hdry hfull.isDir, hinstall]
  obtain ⟨hfs, hindexed⟩ := installEntries_ok hdry sound_empty hinstall
  have hsound : Sound t.1 := by
    have hpreserved : SoundState (finalState (loadDir opts codec basedir ({}, full))) :=
      sound_loadDir opts basedir _ sound_empty
    rw [hload] at hpreserved
    exact hpreserved
  have hall : ∀ id ∈ ["appstream", "baseos", "crb"] ++ RepoNames.commonReposNames,
      id ∈ t.1.filesIdx := by
    intro id hid
    obtain ⟨row, hrow, rfl⟩ := exists_row_rocky (vault osinfo) hid
    obtain ⟨entry, hl, -, config, hconfig, hgroup⟩ := hlists.listed row hrow
    have hname := hends entry hl
    obtain ⟨repos, hrepos, hmem⟩ := hcompletes.parses entry.1 ⟨entry.2, hl⟩ (hfree _ hname)
    have hlisted : entry.1 ∈ full.children basedir :=
      FS.mem_children.mpr ((hcompletes.added _ (hfree _ hname)).mpr ⟨entry, hl, rfl⟩)
    have hgroupsAt : row.group ∈ groupsAt codec full (basedir.child entry.1) :=
      (mem_repos_iff hrepos row.group).mp ((hmem row.group).mpr ⟨entry.2, hl, config, hconfig, hgroup⟩)
    have hfound : (firstFile codec full (full.children basedir) row.group).isSome := by
      rw [firstFile, List.find?_isSome]
      exact ⟨entry.1, hlisted, by rw [hname, decide_eq_true hgroupsAt]; rfl⟩
    obtain ⟨name, hfirst⟩ := Option.isSome_iff_exists.mp hfound
    obtain ⟨ref, file, hidx, -⟩ := (hindexed row.group (basedir.child name)).mpr
      (Or.inr ⟨by simp, name, hfirst, rfl⟩)
    exact mem_of_getElem? hidx
  obtain ⟨s, henable⟩ := enableAll_returns_of_coherent
    (coherent_loadDir hdry (coherent_empty full) hload) hsound hall order true
  refine ⟨s, ?_⟩
  have hget : (liftExcept osinfo.getDistro : ManagerM OS.Distro) ({}, fs) = .ok .Rocky ({}, fs) :=
    liftExcept_ok_iff.mpr ⟨OS.getDistro_ok_iff.mpr hrocky, rfl⟩
  rw [initializeDefaultRepositories, if_neg (by simp [hdry]), bind_of_ok hget]
  refine bind_ok_iff.mpr ⟨(), ({}, full), by rw [onFs, hfirst], ?_⟩
  refine bind_ok_iff.mpr ⟨_, ({}, full), by rw [onFs, hnames], ?_⟩
  exact bind_ok_iff.mpr ⟨(), t, hload, henable⟩

end RepoManager

end Cloyster
