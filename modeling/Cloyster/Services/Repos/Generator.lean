import Cloyster.Services.Repos.Mirror

/-! Generating the `.repo` files that are missing. All the files are assembled
before the first one is written. A file name may be listed in both conf files;
it is then written twice, and the second write merges into the first. A name is
missing when no regular file has it, but writing opens whatever is there: a
directory of that name makes the generation throw. -/

namespace Cloyster

open Lib RPMRepositoryParser

variable (opts : Options) (answers : Answers) (basedir : Path)

def fromConfigsLoop (repos : RepoMap) : List RepoConfig → AskM RepoMap
  | [] => pure repos
  | config :: configs => do
    let repo ← fromConfig opts answers config
    fromConfigsLoop (repos.insertIfNew config.repoId.id repo) configs

/-- `RepoConfAdapter::fromConfigs`. -/
def fromConfigs (filename : String) (configs : List RepoConfig) : AskM RPMRepositoryFile := do
  let repos ← fromConfigsLoop opts answers ∅ configs
  return ⟨basedir.child filename, repos⟩

def fromConfFileLoop (repoList : List String) :
    List (String × List RepoConfig) → AskM (List RPMRepositoryFile)
  | [] => pure []
  | (filename, configs) :: files =>
    if filename ∈ repoList then do
      let repofile ← fromConfigs opts answers basedir filename configs
      let output ← fromConfFileLoop repoList files
      return repofile :: output
    else fromConfFileLoop repoList files

/-- `RepoConfAdapter::fromConfFile`. -/
def fromConfFile (conffile : RepoConfFile) (repoList : List String) :
    AskM (List RPMRepositoryFile) :=
  fromConfFileLoop opts answers basedir repoList conffile.files.toList

namespace RepoGenerator

variable (conffiles : RepoConfFiles)

def reposToGenerate (existingRepoFiles : List String) : List String :=
  conffiles.distroRepos.filesnames.filter (· ∉ existingRepoFiles) ++
    conffiles.nonDistroRepos.filesnames.filter (· ∉ existingRepoFiles)

def assembleAll (repoList : List String) : AskM (List RPMRepositoryFile) := do
  let distroRepositories ← fromConfFile opts answers basedir conffiles.distroRepos repoList
  let nonDistroRepositories ← fromConfFile opts answers basedir conffiles.nonDistroRepos repoList
  return distroRepositories ++ nonDistroRepositories

def generate (codec : GKeyFile) : FsM ℕ := do
  let existingRepoFiles ← getFilesByExtension basedir ".repo"
  let repoList := reposToGenerate conffiles existingRepoFiles
  let repofiles ← liftExcept (outcome (assembleAll opts answers basedir conffiles repoList 0))
  repofiles.forM (RPMRepositoryFile.save codec)
  return repofiles.length

end RepoGenerator

/-! ### Assembled files -/

theorem forall₂_exists_left {α β : Type} {R : α → β → Prop} {l : List α} {r : List β}
    (h : List.Forall₂ R l r) {b : β} (hb : b ∈ r) : ∃ a ∈ l, R a b := by
  induction h with
  | nil => exact absurd hb List.not_mem_nil
  | cons hab _ ih =>
    rcases List.mem_cons.mp hb with rfl | hb
    · exact ⟨_, List.mem_cons_self, hab⟩
    · obtain ⟨a, ha, hr⟩ := ih hb
      exact ⟨a, List.mem_cons_of_mem _ ha, hr⟩

theorem forall₂_exists_right {α β : Type} {R : α → β → Prop} {l : List α} {r : List β}
    (h : List.Forall₂ R l r) {a : α} (ha : a ∈ l) : ∃ b ∈ r, R a b :=
  forall₂_exists_left h.flip ha

variable {opts answers basedir}

theorem wellKeyed_empty : WellKeyed ∅ := by
  intro id repo h
  simp at h

theorem wellKeyed_insertIfNew {repos : RepoMap} (h : WellKeyed repos) {id : String}
    {repo : RPMRepository} (hrepo : repo.id = id ∧ repo.group = id ∧ repo.name ≠ "") :
    WellKeyed (repos.insertIfNew id repo) := by
  intro other r hr
  rw [Std.TreeMap.getElem?_insertIfNew] at hr
  simp only [Std.LawfulEqCmp.compare_eq_iff_eq] at hr
  split_ifs at hr with hcase
  · obtain rfl := Option.some.inj hr
    rw [← hcase.1]
    exact hrepo
  · exact h other r hr

/-- The named configurations of one file. -/
def Named (configs : List RepoConfig) : Prop := ∀ config ∈ configs, config.repoId.name ≠ ""

theorem fromConfigsLoop_ok {configs : List RepoConfig} (hnamed : Named configs)
    {repos output : RepoMap} {n m : ℕ} (hkeyed : WellKeyed repos)
    (h : fromConfigsLoop opts answers repos configs n = .ok output m) :
    WellKeyed output ∧
      ∀ id, id ∈ output ↔ id ∈ repos ∨ ∃ config ∈ configs, config.repoId.id = id := by
  induction configs generalizing repos n with
  | nil =>
    obtain ⟨rfl, -⟩ := EStateM.Result.ok.inj h
    exact ⟨hkeyed, fun id => by simp⟩
  | cons config configs ih =>
    obtain ⟨repo, t, hrepo, hrest⟩ := bind_ok_iff.mp h
    obtain ⟨hid, hgroup, hname⟩ := (fromConfig_ok hrepo).1
    have hne : repo.name ≠ "" := hname ▸ hnamed config List.mem_cons_self
    obtain ⟨hout, hids⟩ := ih (fun c hc => hnamed c (List.mem_cons_of_mem _ hc))
      (wellKeyed_insertIfNew hkeyed ⟨hid, hgroup, hne⟩) hrest
    refine ⟨hout, fun id => ?_⟩
    rw [hids, Std.TreeMap.mem_insertIfNew, Std.LawfulEqCmp.compare_eq_iff_eq,
      List.exists_mem_cons_iff]
    tauto

theorem fromConfigsLoop_exists_iff (answers : Answers) (configs : List RepoConfig)
    (repos : RepoMap) (n : ℕ) :
    (∃ output m, fromConfigsLoop opts answers repos configs n = .ok output m) ↔
      ∀ config ∈ configs, ¬ LocalRootMirror opts config.mirror := by
  induction configs generalizing repos n with
  | nil => exact ⟨fun _ c hc => absurd hc List.not_mem_nil, fun _ => ⟨_, _, rfl⟩⟩
  | cons config configs ih =>
    rw [List.forall_mem_cons, ← fromConfig_ok_iff answers config n]
    constructor
    · rintro ⟨output, m, h⟩
      obtain ⟨repo, t, hrepo, hrest⟩ := bind_ok_iff.mp h
      exact ⟨⟨repo, t, hrepo⟩, (ih _ t).mp ⟨output, m, hrest⟩⟩
    · rintro ⟨⟨repo, t, hrepo⟩, hconfigs⟩
      obtain ⟨output, m, hrest⟩ := (ih (repos.insertIfNew config.repoId.id repo) t).mpr hconfigs
      exact ⟨output, m, bind_ok_iff.mpr ⟨repo, t, hrepo, hrest⟩⟩

/-- A file assembled from an entry of a conf file. -/
def Assembled (opts : Options) (answers : Answers) (basedir : Path)
    (entry : String × List RepoConfig) (file : RPMRepositoryFile) : Prop :=
  ∃ n m, fromConfigs opts answers basedir entry.1 entry.2 n = .ok file m

theorem fromConfigs_exists_iff (answers : Answers) (basedir : Path) (filename : String) (configs : List RepoConfig) (n : ℕ) :
    (∃ file m, fromConfigs opts answers basedir filename configs n = .ok file m) ↔
      ∀ config ∈ configs, ¬ LocalRootMirror opts config.mirror := by
  rw [← fromConfigsLoop_exists_iff answers configs ∅ n]
  constructor
  · rintro ⟨file, m, h⟩
    obtain ⟨repos, t, hrepos, -⟩ := bind_ok_iff.mp h
    exact ⟨repos, t, hrepos⟩
  · rintro ⟨repos, t, hrepos⟩
    exact ⟨_, _, bind_ok_iff.mpr ⟨repos, t, hrepos, rfl⟩⟩

/-- An assembled file has the path and the identifiers of its entry. -/
theorem Assembled.spec {entry : String × List RepoConfig} {file : RPMRepositoryFile}
    (h : Assembled opts answers basedir entry file) (hnamed : Named entry.2) :
    file.path = basedir.child entry.1 ∧ WellKeyed file.repos ∧
      ∀ id, id ∈ file.repos ↔ ∃ config ∈ entry.2, config.repoId.id = id := by
  obtain ⟨n, m, h⟩ := h
  obtain ⟨repos, t, hrepos, hfile⟩ := bind_ok_iff.mp h
  obtain ⟨rfl, -⟩ := EStateM.Result.ok.inj hfile
  obtain ⟨hkeyed, hids⟩ := fromConfigsLoop_ok hnamed wellKeyed_empty hrepos
  exact ⟨rfl, hkeyed, fun id => by simpa using hids id⟩

theorem fromConfFileLoop_ok {repoList : List String} {entries : List (String × List RepoConfig)}
    {files : List RPMRepositoryFile} {n m : ℕ}
    (h : fromConfFileLoop opts answers basedir repoList entries n = .ok files m) :
    List.Forall₂ (Assembled opts answers basedir)
      (entries.filter fun entry => entry.1 ∈ repoList) files := by
  induction entries generalizing files n m with
  | nil =>
    obtain ⟨rfl, -⟩ := EStateM.Result.ok.inj h
    exact List.Forall₂.nil
  | cons entry entries ih =>
    rw [fromConfFileLoop] at h
    split_ifs at h with hmem
    · obtain ⟨file, t, hfile, hrest⟩ := bind_ok_iff.mp h
      obtain ⟨rest, u, hloop, hcons⟩ := bind_ok_iff.mp hrest
      obtain ⟨rfl, -⟩ := EStateM.Result.ok.inj hcons
      rw [List.filter_cons_of_pos (by simpa using hmem)]
      exact List.Forall₂.cons ⟨n, t, hfile⟩ (ih hloop)
    · rw [List.filter_cons_of_neg (by simpa using hmem)]
      exact ih h

theorem fromConfFileLoop_exists_iff (answers : Answers) (basedir : Path) (repoList : List String)
    (entries : List (String × List RepoConfig)) (n : ℕ) :
    (∃ files m, fromConfFileLoop opts answers basedir repoList entries n = .ok files m) ↔
      ∀ entry ∈ entries, entry.1 ∈ repoList →
        ∀ config ∈ entry.2, ¬ LocalRootMirror opts config.mirror := by
  induction entries generalizing n with
  | nil => exact ⟨fun _ e he => absurd he List.not_mem_nil, fun _ => ⟨_, _, rfl⟩⟩
  | cons entry entries ih =>
    rw [List.forall_mem_cons, fromConfFileLoop]
    split_ifs with hmem
    · rw [← fromConfigs_exists_iff answers basedir entry.1 entry.2 n]
      constructor
      · rintro ⟨files, m, h⟩
        obtain ⟨file, t, hfile, hrest⟩ := bind_ok_iff.mp h
        obtain ⟨rest, u, hrest, -⟩ := bind_ok_iff.mp hrest
        exact ⟨fun _ => ⟨file, t, hfile⟩, (ih t).mp ⟨rest, u, hrest⟩⟩
      · rintro ⟨hfile, hentries⟩
        obtain ⟨file, t, hfile⟩ := hfile hmem
        obtain ⟨rest, u, hrest⟩ := (ih t).mpr hentries
        exact ⟨_, _, bind_ok_iff.mpr ⟨file, t, hfile, bind_ok_iff.mpr ⟨rest, u, hrest, rfl⟩⟩⟩
    · rw [ih]
      exact ⟨fun h => ⟨fun hm => absurd hm hmem, h⟩, fun h => h.2⟩

namespace RepoGenerator

variable {conffiles : RepoConfFiles}

/-- The configurations listed under a file name in either conf file. -/
def Listed (conffiles : RepoConfFiles) (entry : String × List RepoConfig) : Prop :=
  conffiles.distroRepos.files[entry.1]? = some entry.2 ∨
    conffiles.nonDistroRepos.files[entry.1]? = some entry.2

/-- The entries of both conf files whose name is in the list, in the order of the writes. -/
def entriesToGenerate (conffiles : RepoConfFiles) (repoList : List String) :
    List (String × List RepoConfig) :=
  (conffiles.distroRepos.files.toList ++ conffiles.nonDistroRepos.files.toList).filter
    fun entry => entry.1 ∈ repoList

theorem mem_entriesToGenerate {repoList : List String} {entry : String × List RepoConfig} :
    entry ∈ entriesToGenerate conffiles repoList ↔ Listed conffiles entry ∧ entry.1 ∈ repoList := by
  obtain ⟨filename, configs⟩ := entry
  simp [entriesToGenerate, Listed, Std.TreeMap.mem_toList_iff_getElem?_eq_some, or_and_right]

theorem assembleAll_ok {repoList : List String} {files : List RPMRepositoryFile} {n m : ℕ}
    (h : assembleAll opts answers basedir conffiles repoList n = .ok files m) :
    List.Forall₂ (Assembled opts answers basedir) (entriesToGenerate conffiles repoList) files := by
  obtain ⟨distro, t, hdistro, hrest⟩ := bind_ok_iff.mp h
  obtain ⟨nonDistro, u, hnonDistro, hfiles⟩ := bind_ok_iff.mp hrest
  obtain ⟨rfl, -⟩ := EStateM.Result.ok.inj hfiles
  rw [entriesToGenerate, List.filter_append]
  exact List.rel_append (fromConfFileLoop_ok hdistro) (fromConfFileLoop_ok hnonDistro)

theorem assembleAll_exists_iff (answers : Answers) (basedir : Path) (repoList : List String) (n : ℕ) :
    (∃ files m, assembleAll opts answers basedir conffiles repoList n = .ok files m) ↔
      ∀ entry ∈ entriesToGenerate conffiles repoList,
        ∀ config ∈ entry.2, ¬ LocalRootMirror opts config.mirror := by
  have hsplit : (∀ entry ∈ entriesToGenerate conffiles repoList,
      ∀ config ∈ entry.2, ¬ LocalRootMirror opts config.mirror) ↔
      (∀ entry ∈ conffiles.distroRepos.files.toList, entry.1 ∈ repoList →
        ∀ config ∈ entry.2, ¬ LocalRootMirror opts config.mirror) ∧
      ∀ entry ∈ conffiles.nonDistroRepos.files.toList, entry.1 ∈ repoList →
        ∀ config ∈ entry.2, ¬ LocalRootMirror opts config.mirror := by
    simp only [entriesToGenerate, List.mem_filter, List.mem_append, decide_eq_true_eq, and_imp,
      or_imp, forall_and]
  rw [hsplit]
  constructor
  · rintro ⟨files, m, h⟩
    obtain ⟨distro, t, hdistro, hrest⟩ := bind_ok_iff.mp h
    obtain ⟨nonDistro, u, hnonDistro, -⟩ := bind_ok_iff.mp hrest
    exact ⟨(fromConfFileLoop_exists_iff answers basedir _ _ n).mp ⟨distro, t, hdistro⟩,
      (fromConfFileLoop_exists_iff answers basedir _ _ t).mp ⟨nonDistro, u, hnonDistro⟩⟩
  · rintro ⟨hdistro, hnonDistro⟩
    obtain ⟨distro, t, hdistro⟩ :=
      (fromConfFileLoop_exists_iff answers basedir _ _ n).mpr hdistro
    obtain ⟨nonDistro, u, hnonDistro⟩ :=
      (fromConfFileLoop_exists_iff answers basedir _ _ t).mpr hnonDistro
    exact ⟨_, _, bind_ok_iff.mpr ⟨distro, t, hdistro,
      bind_ok_iff.mpr ⟨nonDistro, u, hnonDistro, rfl⟩⟩⟩

end RepoGenerator

/-! ### Writing the files -/

section Saving
variable {codec : GKeyFile} {fs fs' : FS}

/-- The key file a write to the path starts from. -/
def startingFile (codec : GKeyFile) (fs : FS) (path : Path) : Option KeyFile :=
  if fs.exists path then keyFileAt codec fs path else some ∅

theorem open_eq (codec : GKeyFile) (fs : FS) (path : Path) :
    (∃ file, startingFile codec fs path = some file ∧
        KeyFile.open codec path fs = .ok file fs) ∨
      startingFile codec fs path = none ∧ ∃ e, KeyFile.open codec path fs = .error e fs := by
  unfold startingFile KeyFile.open
  rw [bind_apply, get_apply]
  dsimp only
  split_ifs with he
  · cases hk : keyFileAt codec fs path with
    | some file => exact Or.inl ⟨file, rfl, KeyFile.load_ok_iff.mpr ⟨hk, rfl⟩⟩
    | none =>
      refine Or.inr ⟨rfl, ?_⟩
      cases hl : KeyFile.load codec path fs with
      | ok file t =>
        obtain ⟨hfile, -⟩ := KeyFile.load_ok_iff.mp hl
        rw [hk] at hfile
        exact absurd hfile (by simp)
      | error e t =>
        have ht : finalState (KeyFile.load codec path fs) = fs := unchanged_load path fs
        rw [hl] at ht
        obtain rfl : t = fs := ht
        exact ⟨e, rfl⟩
  · exact Or.inl ⟨∅, rfl, rfl⟩

/-- A name in a directory can be written unless it is a directory itself. -/
theorem write_child {name text : String} (hdir : fs.isDir basedir)
    (hnode : fs.get? (basedir.child name) ≠ some .dir) :
    fs.write (basedir.child name) text = .ok (fs.set (basedir.child name) (.file text)) := by
  have hne : basedir.child name ≠ [] := by simp [Path.child]
  unfold FS.write
  cases hget : fs.get? (basedir.child name) with
  | none => simp [hne, Path.parent_child, hdir]
  | some node =>
    cases node with
    | file old => rfl
    | dir => exact absurd hget hnode

theorem startingFile_congr {path : Path} (h : fs'.get? path = fs.get? path) :
    startingFile codec fs' path = startingFile codec fs path := by
  simp only [startingFile, FS.exists, keyFileAt_congr h, h]
  rfl

theorem startingFile_dir {path : Path} (h : fs.get? path = some .dir) :
    startingFile codec fs path = none := by
  simp [startingFile, FS.exists, h, keyFileAt, FS.content?]

/-- Saving merges into what the path holds, or throws without a trace. -/
theorem save_eq (codec : GKeyFile) {file : RPMRepositoryFile} {name : String} (hdir : fs.isDir basedir)
    (hpath : file.path = basedir.child name) :
    (∃ old, startingFile codec fs file.path = some old ∧
        file.save codec fs =
          .ok () (fs.set file.path (.file (codec.toData (unparseRepos old file.repos))))) ∨
      startingFile codec fs file.path = none ∧ ∃ e, file.save codec fs = .error e fs := by
  unfold RPMRepositoryFile.save unparse
  rcases open_eq codec fs file.path with ⟨old, hold, hopen⟩ | ⟨hnone, e, he⟩
  · refine Or.inl ⟨old, hold, ?_⟩
    have hnode : fs.get? (basedir.child name) ≠ some .dir := by
      intro hd
      rw [hpath, startingFile_dir hd] at hold
      exact absurd hold (by simp)
    rw [bind_of_ok hopen, KeyFile.save, bind_apply, get_apply]
    dsimp only
    rw [hpath, write_child hdir hnode]
    rfl
  · exact Or.inr ⟨hnone, e, bind_of_error he _⟩

theorem isDir_set_child {name : String} (node : Node) (hdir : fs.isDir basedir) :
    FS.isDir (fs.set (basedir.child name) node) basedir := by
  have hne : basedir ≠ basedir.child name := by
    intro h
    simpa [Path.child] using congrArg List.length h
  simpa [FS.isDir, FS.get?_set, hne] using hdir

/-- What a path lists: the groups of its key file, if it holds one. -/
def groupsAt (codec : GKeyFile) (fs : FS) (path : Path) : List String :=
  ((keyFileAt codec fs path).map KeyFile.getGroups).getD []

/-- A path that is free or holds a file that parses. -/
def Settled (codec : GKeyFile) (fs : FS) (path : Path) : Prop :=
  fs.get? path = none ∨ ∃ file, keyFileAt codec fs path = some file ∧ Parseable codec file

theorem settled_startingFile {path : Path} (h : Settled codec fs path) (hne : path ≠ []) :
    ∃ old, startingFile codec fs path = some old ∧ Parseable codec old ∧
      old.getGroups = groupsAt codec fs path := by
  rcases h with hfree | ⟨file, hfile, hparse⟩
  · have hkey : keyFileAt codec fs path = none := by simp [keyFileAt, FS.content?, hfree]
    refine ⟨∅, ?_, parseable_empty, ?_⟩
    · simp [startingFile, FS.exists, hfree, hne]
    · simp [groupsAt, hkey]
  · refine ⟨file, ?_, hparse, ?_⟩
    · rw [startingFile, if_pos (exists_of_keyFileAt hfile), hfile]
    · rw [groupsAt, hfile, Option.map_some, Option.getD_some]

/-- The files lie in the directory and are well keyed. -/
def Writable (basedir : Path) (files : List RPMRepositoryFile) : Prop :=
  ∀ file ∈ files, (∃ name, file.path = basedir.child name) ∧ WellKeyed file.repos

/-- Writing files over settled paths returns, touches those paths only, and adds
to each the identifiers of the files written there. -/
theorem saves_ok (codec : GKeyFile) {files : List RPMRepositoryFile} (hdir : fs.isDir basedir)
    (hfiles : Writable basedir files) (hsettled : ∀ file ∈ files, Settled codec fs file.path) :
    ∃ fs', files.forM (RPMRepositoryFile.save codec) fs = .ok () fs' ∧ fs'.isDir basedir ∧
      (∀ p, p ∉ files.map RPMRepositoryFile.path → fs'.get? p = fs.get? p) ∧
      (∀ file ∈ files, ∃ key, keyFileAt codec fs' file.path = some key ∧ Parseable codec key) ∧
      ∀ p id, id ∈ groupsAt codec fs' p ↔
        id ∈ groupsAt codec fs p ∨ ∃ file ∈ files, file.path = p ∧ id ∈ file.repos := by
  induction files generalizing fs with
  | nil => exact ⟨fs, rfl, hdir, fun _ _ => rfl, fun _ h => absurd h List.not_mem_nil, by simp⟩
  | cons file files ih =>
    obtain ⟨⟨name, hname⟩, hkeyed⟩ := hfiles file List.mem_cons_self
    have hne : file.path ≠ [] := by simp [hname, Path.child]
    obtain ⟨old, hold, hparse, hgroups⟩ :=
      settled_startingFile (hsettled file List.mem_cons_self) hne
    have hsave : file.save codec fs =
        .ok () (fs.set file.path (.file (codec.toData (unparseRepos old file.repos)))) := by
      rcases save_eq codec hdir hname with ⟨old', hold', hrun⟩ | ⟨hnone, -⟩
      · rw [hold] at hold'
        rwa [Option.some.inj hold']
      · rw [hold] at hnone
        exact absurd hnone (by simp)
    have hparse' := parseable_unparseRepos hparse hkeyed
    generalize hnew : unparseRepos old file.repos = new at hsave hparse'
    have hkey : ∀ q, keyFileAt codec (fs.set file.path (.file (codec.toData new))) q =
        if q = file.path then some new else keyFileAt codec fs q :=
      fun q => keyFileAt_set fs file.path q new
    have hsettled' : ∀ other ∈ files,
        Settled codec (fs.set file.path (.file (codec.toData new))) other.path := by
      intro other hm
      by_cases hp : other.path = file.path
      · exact Or.inr ⟨new, by rw [hkey, if_pos hp], hparse'⟩
      · rw [Settled, hkey, if_neg hp, FS.get?_set_of_ne _ _ hp]
        exact hsettled other (List.mem_cons_of_mem _ hm)
    have hdir' : FS.isDir (fs.set file.path (.file (codec.toData new))) basedir := by
      rw [hname]
      exact isDir_set_child _ hdir
    obtain ⟨fs', hrun, hdir'', hframe, hfinal, hids⟩ :=
      ih hdir' (fun f hf => hfiles f (List.mem_cons_of_mem _ hf)) hsettled'
    refine ⟨fs', ?_, hdir'', ?_, ?_, ?_⟩
    · rw [forM_cons_apply, hsave]
      exact hrun
    · intro p hp
      rw [List.map_cons, List.mem_cons, not_or] at hp
      rw [hframe p hp.2, FS.get?_set_of_ne _ _ hp.1]
    · intro f hf
      by_cases hp : f.path ∈ files.map RPMRepositoryFile.path
      · obtain ⟨g, hg, hgp⟩ := List.mem_map.mp hp
        rw [← hgp]
        exact hfinal g hg
      · have hfirst : f = file := (List.mem_cons.mp hf).resolve_right
          fun hm => hp (List.mem_map_of_mem hm)
        subst hfirst
        refine ⟨new, ?_, hparse'⟩
        rw [keyFileAt_congr (hframe f.path hp), hkey, if_pos rfl]
    · intro p id
      have hgroupsAt : id ∈ groupsAt codec (fs.set file.path (.file (codec.toData new))) p ↔
          id ∈ groupsAt codec fs p ∨ file.path = p ∧ id ∈ file.repos := by
        by_cases hp : p = file.path
        · subst hp
          rw [groupsAt, hkey, if_pos rfl, Option.map_some, Option.getD_some, ← hnew,
            mem_getGroups_unparseRepos hkeyed, hgroups]
          simp [or_comm]
        · rw [groupsAt, hkey, if_neg hp, ← groupsAt]
          simp [Ne.symm hp]
      rw [hids, hgroupsAt, List.exists_mem_cons_iff, or_assoc]

/-- Writing over a directory throws. -/
theorem saves_dir {files : List RPMRepositoryFile} (hdir : fs.isDir basedir)
    (hfiles : Writable basedir files) (hd : ∃ file ∈ files, fs.get? file.path = some .dir)
    (fs' : FS) : files.forM (RPMRepositoryFile.save codec) fs ≠ .ok () fs' := by
  induction files generalizing fs with
  | nil =>
    obtain ⟨file, hm, -⟩ := hd
    exact absurd hm List.not_mem_nil
  | cons file files ih =>
    obtain ⟨⟨name, hname⟩, -⟩ := hfiles file List.mem_cons_self
    rw [forM_cons_apply]
    rcases save_eq codec hdir hname with ⟨old, hold, hrun⟩ | ⟨-, e, he⟩
    · rw [hrun]
      have hnode : fs.get? file.path ≠ some .dir := by
        intro hget
        rw [startingFile_dir hget] at hold
        exact absurd hold (by simp)
      obtain ⟨other, hm, hother⟩ := hd
      have hne : other.path ≠ file.path := fun hp => hnode (hp ▸ hother)
      have hmem : other ∈ files := (List.mem_cons.mp hm).resolve_left fun h => hne (h ▸ rfl)
      have hdir' : FS.isDir
          (fs.set file.path (.file (codec.toData (unparseRepos old file.repos)))) basedir := by
        rw [hname]
        exact isDir_set_child _ hdir
      refine ih hdir' (fun f hf => hfiles f (List.mem_cons_of_mem _ hf)) ⟨other, hmem, ?_⟩
      rw [FS.get?_set_of_ne _ _ hne, hother]
    · rw [he]
      simp

end Saving

/-! ### The generator -/

namespace RepoGenerator

section
variable {codec : GKeyFile} {conffiles : RepoConfFiles} {fs : FS}

/-- File names are plain names with the extension of repository files, and every
repository has a name. -/
structure WellNamed (conffiles : RepoConfFiles) : Prop where
  plain : ∀ entry, Listed conffiles entry → '/' ∉ entry.1.toList
  extension : ∀ entry, Listed conffiles entry → Text.extension entry.1 = ".repo"
  named : ∀ entry, Listed conffiles entry → Named entry.2

/-- The generator returns; what was there is untouched, the missing files and no
others are added, each parses to the identifiers listed under its name, and a
second run does nothing. -/
structure Completes (opts : Options) (answers : Answers) (codec : GKeyFile)
    (conffiles : RepoConfFiles) (basedir : Path) (fs fs' : FS) : Prop where
  returns : ∃ n, generate opts answers basedir conffiles codec fs = .ok n fs'
  kept : ∀ p node, fs.get? p = some node → fs'.get? p = some node
  added : ∀ p, fs.get? p = none →
    ((∃ node, fs'.get? p = some node) ↔ ∃ entry, Listed conffiles entry ∧ p = basedir.child entry.1)
  parses : ∀ filename, (∃ configs, Listed conffiles (filename, configs)) →
    fs.get? (basedir.child filename) = none →
      ∃ repos, parse codec (basedir.child filename) ∅ fs' = .ok repos fs' ∧
        ∀ id, id ∈ repos ↔ ∃ configs, Listed conffiles (filename, configs) ∧
          ∃ config ∈ configs, config.repoId.id = id
  again : ∀ answers', generate opts answers' basedir conffiles codec fs' = .ok 0 fs'

/-- No listed name is a directory, and no file that is missing asks for a local
mirror at a path of slashes only. -/
structure Generable (opts : Options) (conffiles : RepoConfFiles) (basedir : Path) (fs : FS) :
    Prop where
  notDir : ∀ entry, Listed conffiles entry → fs.get? (basedir.child entry.1) ≠ some .dir
  mirrors : ∀ entry, Listed conffiles entry → fs.get? (basedir.child entry.1) = none →
    ∀ config ∈ entry.2, ¬ LocalRootMirror opts config.mirror

def existingRepoFiles (basedir : Path) (fs : FS) : List String :=
  (fs.children basedir).filter fun name =>
    fs.isRegular (basedir.child name) && Text.extension name == ".repo"

theorem getFilesByExtension_repo (hdir : fs.isDir basedir) :
    getFilesByExtension basedir ".repo" fs = .ok (existingRepoFiles basedir fs) fs := by
  rw [getFilesByExtension, bind_of_ok (directoryIterator_of_isDir hdir)]
  rfl

/-- A name with the extension exists when it is a regular file. -/
theorem mem_existingRepoFiles {filename : String} (hext : Text.extension filename = ".repo") :
    filename ∈ existingRepoFiles basedir fs ↔ fs.isRegular (basedir.child filename) := by
  simp only [existingRepoFiles, List.mem_filter, Bool.and_eq_true, beq_iff_eq, hext, and_true]
  constructor
  · exact fun h => h.2
  · intro h
    obtain ⟨text, htext⟩ := FS.isRegular_iff.mp h
    exact ⟨FS.mem_children.mpr ⟨_, htext⟩, h⟩

theorem mem_reposToGenerate {existing : List String} {entry : String × List RepoConfig}
    (h : Listed conffiles entry) :
    entry.1 ∈ reposToGenerate conffiles existing ↔ entry.1 ∉ existing := by
  have hkey : entry.1 ∈ conffiles.distroRepos.files ∨ entry.1 ∈ conffiles.nonDistroRepos.files := by
    rcases h with h | h
    · exact Or.inl (mem_of_getElem? h)
    · exact Or.inr (mem_of_getElem? h)
  simp only [reposToGenerate, RepoConfFile.filesnames, List.mem_append, List.mem_filter,
    Std.TreeMap.mem_keys, decide_eq_true_eq]
  tauto

/-- The generator returns when the files can be assembled and written. -/
theorem generate_ok_iff (hdir : fs.isDir basedir) {n : ℕ} {fs' : FS} :
    generate opts answers basedir conffiles codec fs = .ok n fs' ↔
      ∃ files m, assembleAll opts answers basedir conffiles
          (reposToGenerate conffiles (existingRepoFiles basedir fs)) 0 = .ok files m ∧
        files.forM (RPMRepositoryFile.save codec) fs = .ok () fs' ∧ files.length = n := by
  rw [generate, bind_of_ok (getFilesByExtension_repo hdir), bind_ok_iff]
  simp only [liftExcept_ok_iff, bind_ok_iff, pure_apply, EStateM.Result.ok.injEq]
  constructor
  · rintro ⟨files, t, ⟨hout, rfl⟩, u, s, hsave, rfl, rfl⟩
    cases hall : assembleAll opts answers basedir conffiles
        (reposToGenerate conffiles (existingRepoFiles basedir t)) 0 with
    | ok files' m =>
      rw [hall] at hout
      obtain rfl : files' = files := by simpa [outcome] using hout
      exact ⟨files', m, rfl, hsave, rfl⟩
    | error e m =>
      rw [hall] at hout
      simp [outcome] at hout
  · rintro ⟨files, m, hall, hsave, rfl⟩
    exact ⟨files, fs, ⟨by rw [hall]; rfl, rfl⟩, (), fs', hsave, rfl, rfl⟩

/-- What the assembled files have to do with the entries they come from. -/
theorem files_spec (hnamed : WellNamed conffiles) {repoList : List String}
    {files : List RPMRepositoryFile}
    (h : List.Forall₂ (Assembled opts answers basedir) (entriesToGenerate conffiles repoList)
      files) :
    Writable basedir files ∧
      (∀ file ∈ files, ∃ entry, Listed conffiles entry ∧ entry.1 ∈ repoList ∧
        file.path = basedir.child entry.1 ∧
        ∀ id, id ∈ file.repos ↔ ∃ config ∈ entry.2, config.repoId.id = id) ∧
      ∀ entry, Listed conffiles entry → entry.1 ∈ repoList → ∃ file ∈ files,
        file.path = basedir.child entry.1 ∧
        ∀ id, id ∈ file.repos ↔ ∃ config ∈ entry.2, config.repoId.id = id := by
  have hspec : ∀ entry ∈ entriesToGenerate conffiles repoList, ∀ file,
      Assembled opts answers basedir entry file → file.path = basedir.child entry.1 ∧
        WellKeyed file.repos ∧ ∀ id, id ∈ file.repos ↔ ∃ config ∈ entry.2, config.repoId.id = id :=
    fun entry hm _ hfile => hfile.spec (hnamed.named entry (mem_entriesToGenerate.mp hm).1)
  refine ⟨fun file hm => ?_, fun file hm => ?_, fun entry hlisted hmem => ?_⟩
  · obtain ⟨entry, hentry, hfile⟩ := forall₂_exists_left h hm
    obtain ⟨hpath, hkeyed, -⟩ := hspec entry hentry file hfile
    exact ⟨⟨entry.1, hpath⟩, hkeyed⟩
  · obtain ⟨entry, hentry, hfile⟩ := forall₂_exists_left h hm
    obtain ⟨hpath, -, hids⟩ := hspec entry hentry file hfile
    obtain ⟨hlisted, hmem⟩ := mem_entriesToGenerate.mp hentry
    exact ⟨entry, hlisted, hmem, hpath, hids⟩
  · have hentry := mem_entriesToGenerate.mpr ⟨hlisted, hmem⟩
    obtain ⟨file, hm, hfile⟩ := forall₂_exists_right h hentry
    obtain ⟨hpath, -, hids⟩ := hspec entry hentry file hfile
    exact ⟨file, hm, hpath, hids⟩

/-- With every listed name present there is nothing to generate. -/
theorem generate_again (hnamed : WellNamed conffiles) (hdir : fs.isDir basedir)
    (hall : ∀ entry, Listed conffiles entry → fs.isRegular (basedir.child entry.1)) :
    generate opts answers basedir conffiles codec fs = .ok 0 fs := by
  have hnone : entriesToGenerate conffiles
      (reposToGenerate conffiles (existingRepoFiles basedir fs)) = [] := by
    rw [List.eq_nil_iff_forall_not_mem]
    intro entry hentry
    obtain ⟨hlisted, hmem⟩ := mem_entriesToGenerate.mp hentry
    rw [mem_reposToGenerate hlisted, mem_existingRepoFiles (hnamed.extension entry hlisted)] at hmem
    exact hmem (hall entry hlisted)
  obtain ⟨files, m, hfiles⟩ := (assembleAll_exists_iff answers basedir
    (reposToGenerate conffiles (existingRepoFiles basedir fs)) 0).mpr
    (by rw [hnone]; exact fun _ h => absurd h List.not_mem_nil)
  have hrel := assembleAll_ok hfiles
  rw [hnone, List.forall₂_nil_left_iff] at hrel
  subst hrel
  exact (generate_ok_iff hdir).mpr ⟨[], m, hfiles, rfl, rfl⟩

/-- What is to be generated is neither a regular file nor a directory. -/
theorem Generable.mem_reposToGenerate_iff (h : Generable opts conffiles basedir fs)
    (hnamed : WellNamed conffiles) {entry : String × List RepoConfig}
    (hlisted : Listed conffiles entry) :
    entry.1 ∈ reposToGenerate conffiles (existingRepoFiles basedir fs) ↔
      fs.get? (basedir.child entry.1) = none := by
  rw [mem_reposToGenerate hlisted, mem_existingRepoFiles (hnamed.extension entry hlisted)]
  have hdir := h.notDir entry hlisted
  cases hget : fs.get? (basedir.child entry.1) with
  | none => simp [FS.isRegular, hget]
  | some node =>
    cases node with
    | file text => simp [FS.isRegular, hget]
    | dir => exact absurd hget hdir

theorem completes_of_generable (hnamed : WellNamed conffiles) (hdir : fs.isDir basedir)
    (h : Generable opts conffiles basedir fs) :
    ∃ fs', Completes opts answers codec conffiles basedir fs fs' := by
  have hfree : ∀ entry, Listed conffiles entry →
      (entry.1 ∈ reposToGenerate conffiles (existingRepoFiles basedir fs) ↔
        fs.get? (basedir.child entry.1) = none) :=
    fun entry => h.mem_reposToGenerate_iff hnamed
  obtain ⟨files, m, hfiles⟩ := (assembleAll_exists_iff answers basedir
    (reposToGenerate conffiles (existingRepoFiles basedir fs)) 0).mpr (by
      intro entry hentry
      obtain ⟨hlisted, hmem⟩ := mem_entriesToGenerate.mp hentry
      exact h.mirrors entry hlisted ((hfree entry hlisted).mp hmem))
  obtain ⟨hwritable, hfrom, hto⟩ := files_spec hnamed (assembleAll_ok hfiles)
  have hpaths : ∀ file ∈ files, fs.get? file.path = none := by
    intro file hm
    obtain ⟨entry, hlisted, hmem, hpath, -⟩ := hfrom file hm
    rw [hpath]
    exact (hfree entry hlisted).mp hmem
  obtain ⟨fs', hrun, hdir', hframe, hfinal, hids⟩ :=
    saves_ok codec hdir hwritable fun file hm => Or.inl (hpaths file hm)
  have hkept : ∀ p node, fs.get? p = some node → fs'.get? p = some node := by
    intro p node hp
    have hnot : p ∉ files.map RPMRepositoryFile.path := by
      intro hmap
      obtain ⟨file, hm, rfl⟩ := List.mem_map.mp hmap
      rw [hpaths file hm] at hp
      exact absurd hp (by simp)
    rw [hframe p hnot, hp]
  have hsaved : ∀ entry, Listed conffiles entry → fs.get? (basedir.child entry.1) = none →
      ∃ key, keyFileAt codec fs' (basedir.child entry.1) = some key ∧ Parseable codec key := by
    intro entry hlisted hnone
    obtain ⟨file, hm, hpath, -⟩ := hto entry hlisted ((hfree entry hlisted).mpr hnone)
    rw [← hpath]
    exact hfinal file hm
  have hregular : ∀ entry, Listed conffiles entry → fs'.isRegular (basedir.child entry.1) := by
    intro entry hlisted
    rw [FS.isRegular_iff]
    cases hget : fs.get? (basedir.child entry.1) with
    | none =>
      obtain ⟨key, hkey, -⟩ := hsaved entry hlisted hget
      obtain ⟨text, htext, -⟩ := Option.bind_eq_some_iff.mp hkey
      exact ⟨text, FS.content?_eq_some.mp htext⟩
    | some node =>
      cases node with
      | file text => exact ⟨text, hkept _ _ hget⟩
      | dir => exact absurd hget (h.notDir entry hlisted)
  refine ⟨fs', ⟨files.length, (generate_ok_iff hdir).mpr ⟨files, m, hfiles, hrun, rfl⟩⟩, hkept,
    fun p hp => ⟨?_, ?_⟩, fun filename hlisted hnone => ?_,
    fun _ => generate_again hnamed hdir' hregular⟩
  · rintro ⟨node, hnode⟩
    by_contra hno
    have hnot : p ∉ files.map RPMRepositoryFile.path := by
      intro hmap
      obtain ⟨file, hm, rfl⟩ := List.mem_map.mp hmap
      obtain ⟨entry, hlisted, -, hpath, -⟩ := hfrom file hm
      exact hno ⟨entry, hlisted, hpath⟩
    rw [hframe p hnot, hp] at hnode
    exact absurd hnode (by simp)
  · rintro ⟨entry, hlisted, rfl⟩
    obtain ⟨text, htext⟩ := FS.isRegular_iff.mp (hregular entry hlisted)
    exact ⟨_, htext⟩
  · obtain ⟨configs, hlisted⟩ := hlisted
    obtain ⟨key, hkey, hparse⟩ := hsaved _ hlisted hnone
    obtain ⟨repos, hrepos, hmem⟩ := parse_of_parseable hkey hparse
    refine ⟨repos, hrepos, fun id => ?_⟩
    have hgroups : groupsAt codec fs' (basedir.child filename) = key.getGroups := by
      rw [groupsAt, hkey, Option.map_some, Option.getD_some]
    have hnew : groupsAt codec fs (basedir.child filename) = [] := by
      simp [groupsAt, keyFileAt, FS.content?, hnone]
    rw [hmem, ← hgroups, hids, hnew]
    constructor
    · rintro (hno | ⟨file, hm, hpath, hid⟩)
      · exact absurd hno List.not_mem_nil
      · obtain ⟨⟨name, configs'⟩, hlisted', -, hpath', hids'⟩ := hfrom file hm
        obtain ⟨-, rfl⟩ := Path.child_inj.mp (hpath'.symm.trans hpath)
        exact ⟨configs', hlisted', (hids' id).mp hid⟩
    · rintro ⟨configs', hlisted', hconfig⟩
      obtain ⟨file, hm, hpath, hids'⟩ := hto _ hlisted' ((hfree _ hlisted').mpr hnone)
      exact Or.inr ⟨file, hm, hpath, (hids' id).mpr hconfig⟩

theorem generable_of_generate (hnamed : WellNamed conffiles) (hdir : fs.isDir basedir) {n : ℕ}
    {fs' : FS} (h : generate opts answers basedir conffiles codec fs = .ok n fs') :
    Generable opts conffiles basedir fs := by
  obtain ⟨files, m, hfiles, hrun, -⟩ := (generate_ok_iff hdir).mp h
  have hmem : ∀ entry, Listed conffiles entry → fs.isRegular (basedir.child entry.1) = false →
      entry.1 ∈ reposToGenerate conffiles (existingRepoFiles basedir fs) := by
    intro entry hlisted hreg
    rw [mem_reposToGenerate hlisted, mem_existingRepoFiles (hnamed.extension entry hlisted), hreg]
    simp
  obtain ⟨hwritable, -, hto⟩ := files_spec hnamed (assembleAll_ok hfiles)
  constructor
  · intro entry hlisted hd
    obtain ⟨file, hm, hpath, -⟩ := hto entry hlisted (hmem entry hlisted (by simp [FS.isRegular, hd]))
    exact saves_dir hdir hwritable ⟨file, hm, by rw [hpath, hd]⟩ fs' hrun
  · intro entry hlisted hnone
    have hall := (assembleAll_exists_iff answers basedir _ 0).mp ⟨files, m, hfiles⟩
    exact hall entry (mem_entriesToGenerate.mpr
      ⟨hlisted, hmem entry hlisted (by simp [FS.isRegular, hnone])⟩)

/-- The generator does its work, for whatever the existence checkers answer,
exactly when no listed name is a directory and no local mirror path is empty. -/
theorem generate_completes_iff (hnamed : WellNamed conffiles) (hdir : fs.isDir basedir) :
    (∃ fs', Completes opts answers codec conffiles basedir fs fs') ↔
      Generable opts conffiles basedir fs := by
  constructor
  · rintro ⟨fs', h⟩
    obtain ⟨n, hn⟩ := h.returns
    exact generable_of_generate hnamed hdir hn
  · exact completes_of_generable hnamed hdir

/-- A generation that returns has done its work. -/
theorem completes_of_generate (hnamed : WellNamed conffiles) (hdir : fs.isDir basedir) {n : ℕ}
    {fs' : FS} (h : generate opts answers basedir conffiles codec fs = .ok n fs') :
    Completes opts answers codec conffiles basedir fs fs' := by
  obtain ⟨full, hfull⟩ : ∃ full, Completes opts answers codec conffiles basedir fs full :=
    completes_of_generable hnamed hdir (generable_of_generate hnamed hdir h)
  obtain ⟨m, hm⟩ := hfull.returns
  obtain ⟨-, rfl⟩ := EStateM.Result.ok.inj (h.symm.trans hm)
  exact hfull

end

/-- One repository in one file of its own. -/
def epelConffiles (mirrorRepo : String) : RepoConfFiles where
  nonDistroRepos := RepoConfFile.insert {} "epel.repo"
    { repoId := { id := "epel", name := "EPEL", filename := "epel.repo" }
      mirror := { repo := mirrorRepo }
      upstream := { repo := "https://dl.fedoraproject.org/pub/epel/9/Everything/x86_64/" } }

def emptyRepoDirectory : FS := { nodes := ⟨[(["repos"], .dir)], by decide⟩ }

theorem listed_epel_iff (mirrorRepo : String) (entry : String × List RepoConfig) :
    Listed (epelConffiles mirrorRepo) entry ↔ entry.1 = "epel.repo" ∧ entry.2 =
      [{ repoId := { id := "epel", name := "EPEL", filename := "epel.repo" }
         mirror := { repo := mirrorRepo }
         upstream := { repo := "https://dl.fedoraproject.org/pub/epel/9/Everything/x86_64/" } }] := by
  obtain ⟨filename, configs⟩ := entry
  simp only [Listed, epelConffiles, RepoConfFile.insert, Std.TreeMap.getElem?_insert,
    Std.TreeMap.getElem?_emptyc, Std.LawfulEqCmp.compare_eq_iff_eq]
  by_cases h : "epel.repo" = filename
  · simp [h, eq_comm]
  · simp [h, Ne.symm h]

theorem wellNamed_epel (mirrorRepo : String) : WellNamed (epelConffiles mirrorRepo) := by
  constructor
  · intro entry h
    rw [((listed_epel_iff mirrorRepo entry).mp h).1]
    decide
  · intro entry h
    rw [((listed_epel_iff mirrorRepo entry).mp h).1]
    decide
  · intro entry h config hm
    rw [((listed_epel_iff mirrorRepo entry).mp h).2, List.mem_singleton] at hm
    simp [hm]

theorem generate_completes_epel :
    (∃ fs', Completes {} (fun _ _ => true) GKeyFile.text (epelConffiles "epel/9/x86_64") ["repos"]
        emptyRepoDirectory fs') ↔
      Generable {} (epelConffiles "epel/9/x86_64") ["repos"] emptyRepoDirectory :=
  generate_completes_iff (wellNamed_epel _) (by decide)

/-- The root directory as the mirror, and as the path in it. -/
theorem not_generate_completes_root :
    ¬ ∃ fs', Completes { mirrorBaseUrl := "file://" } (fun _ _ => true) GKeyFile.text
        (epelConffiles "/") ["repos"] emptyRepoDirectory fs' := by
  rintro ⟨fs', h⟩
  obtain ⟨n, hn⟩ := h.returns
  have hgen := generable_of_generate (wellNamed_epel _) (by decide) hn
  have hlisted := (listed_epel_iff "/" ⟨_, _⟩).mpr ⟨rfl, rfl⟩
  refine hgen.mirrors _ hlisted (by decide) _ List.mem_cons_self ?_
  constructor <;> simp [MirrorRepo.isLocalUrl, Text.startsWith]

end RepoGenerator

end Cloyster
