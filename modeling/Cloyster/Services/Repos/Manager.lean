import Cloyster.Services.Repos.RPM

/-! The repository manager. It maps identifiers to file objects that are shared:
the object that first brought an identifier keeps it, and several identifiers
point to one object. Enabling a repository changes the copy in memory and writes
the whole file from it. The invariant is that no two objects in use have the same
path, and that each agrees with the disk. -/

namespace Cloyster

open Lib RPMRepositoryParser

/-- The file objects by their reference, and `m_filesIdx`. -/
structure RPMRepoManager where
  files : List RPMRepositoryFile := []
  filesIdx : Std.TreeMap String ℕ := ∅

namespace RPMRepoManager

def basedir : Path := ["etc", "yum.repos.d"]

abbrev ManagerM := EStateM Exn (RPMRepoManager × FS)

def onFs {α : Type} (x : FsM α) : ManagerM α := fun s =>
  match x s.2 with
  | .ok a fs => .ok a (s.1, fs)
  | .error e fs => .error e (s.1, fs)

variable (opts : Options) (codec : GKeyFile)

/-- Identifiers that are there already keep their file. -/
def emplaceAll (filesIdx : Std.TreeMap String ℕ) (ref : ℕ) (ids : List String) :
    Std.TreeMap String ℕ :=
  ids.foldl (fun idx id => idx.insertIfNew id ref) filesIdx

def emplace (repofile : RPMRepositoryFile) (manager : RPMRepoManager) : RPMRepoManager where
  files := manager.files ++ [repofile]
  filesIdx := emplaceAll manager.filesIdx manager.files.length repofile.repos.keys

def copyToBasedir (source dest : Path) : FsM Unit :=
  if source = dest then pure () else copyFile opts source dest

def install (source : Path) : ManagerM Unit := do
  let dest := basedir.child source.filename
  onFs (copyToBasedir opts source dest)
  if opts.dryRun then return
  let repos ← onFs (parse codec dest ∅)
  modify fun s => (s.1.emplace ⟨dest, repos⟩, s.2)

def installEntry (path : Path) (name : String) : ManagerM Unit :=
  if Text.endsWith name ".repo" then install opts codec (path.child name) else pure ()

def loadDir (path : Path) : ManagerM Unit := do
  if opts.dryRun then return
  let names ← onFs (directoryIterator path)
  names.forM (installEntry opts codec path)

/-- `m_filesIdx.at`. -/
def fileAt (repo : String) : ManagerM ℕ := do
  let s ← get
  match s.1.filesIdx[repo]? with
  | some ref => return ref
  | none => throw ⟨.outOfRange, "map::at"⟩

/-- Set the flag of a repository in the copy that a file object holds. -/
def setEnabled (ref : ℕ) (repo : String) (value : Bool) : ManagerM Unit := do
  let s ← get
  match s.1.files[ref]? with
  | none => throw ⟨.undefinedBehaviour, "dangling pointer"⟩
  | some file =>
    match file.repos[repo]? with
    | none => throw ⟨.outOfRange, "map::at"⟩
    | some r =>
      let file' := { file with repos := file.repos.insert repo { r with enabled := value } }
      set ({ s.1 with files := s.1.files.set ref file' }, s.2)

def saveFile (ref : ℕ) : ManagerM Unit := do
  let s ← get
  match s.1.files[ref]? with
  | none => throw ⟨.undefinedBehaviour, "dangling pointer"⟩
  | some file => onFs (file.save codec)

def enable (repo : String) (value : Bool) : ManagerM Unit := do
  let ref ← fileAt repo
  setEnabled ref repo value
  saveFile codec ref

/-- The message of an identifier that is not there. -/
def orUnknown {α : Type} (repo : String) (x : ManagerM α) : ManagerM α := fun s =>
  match x s with
  | .ok a t => .ok a t
  | .error e t =>
    if e.type = .outOfRange then
      .error (.runtimeError (s!"Trying to enable unknown repository {repo}, " ++
        "failed because the repository was not found.")) t
    else .error e t

def enableLoop (value : Bool) (toSave : List ℕ) : List String → ManagerM (List ℕ)
  | [] => pure toSave
  | repo :: repos => do
    let ref ← orUnknown repo do
      let ref ← fileAt repo
      setEnabled ref repo value
      return ref
    enableLoop value (if ref ∈ toSave then toSave else toSave ++ [ref]) repos

/-- The order in which a hash set is walked. -/
structure WalkOrder where
  walk : List ℕ → List ℕ
  perm : ∀ refs, (walk refs).Perm refs

/-- The batch `enable`: every file that is touched is written once. -/
def enableAll (order : WalkOrder) (repos : List String) (value : Bool) : ManagerM Unit := do
  let toSave ← enableLoop value [] repos
  (order.walk toSave).forM (saveFile codec)

/-! ### Calls -/

inductive Call where
  | install (source : Path)
  | loadDir (path : Path)
  | enable (repo : String) (value : Bool)
  | enableAll (order : WalkOrder) (repos : List String) (value : Bool)

def Call.run : Call → ManagerM Unit
  | .install source => RPMRepoManager.install opts codec source
  | .loadDir path => RPMRepoManager.loadDir opts codec path
  | .enable repo value => RPMRepoManager.enable codec repo value
  | .enableAll order repos value => RPMRepoManager.enableAll codec order repos value

/-! ### What is promised -/

/-- Every identifier is in the file it maps to, and parsing that file again gives
the repositories in memory. -/
structure InSync (manager : RPMRepoManager) (fs : FS) : Prop where
  present : ∀ (id : String) (ref : ℕ), manager.filesIdx[id]? = some ref →
    ∃ file, manager.files[ref]? = some file ∧ id ∈ file.repos
  reparsed : ∀ (id : String) (ref : ℕ) (file : RPMRepositoryFile),
    manager.filesIdx[id]? = some ref → manager.files[ref]? = some file →
      ∃ repos, parse codec file.path ∅ fs = .ok repos fs ∧
        ∀ other : String, repos[other]? = file.repos[other]?

/-- The two values decode alike; the flags are booleans, the other keys are texts. -/
def SameValue (key : String) (old new : Option String) : Prop :=
  if key = "enabled" ∨ key = "gpgcheck" then
    old.bind codec.parseBoolean = new.bind codec.parseBoolean
  else old = new

/-- The identifier maps to a file at the path. -/
def IndexedAt (manager : RPMRepoManager) (id : String) (path : Path) : Prop :=
  ∃ ref file, manager.filesIdx[id]? = some ref ∧ manager.files[ref]? = some file ∧ file.path = path

/-- The flags of the given repositories have the value on disk, each in the file
it maps to; every other group and key of every file decodes as before. -/
structure SetsOnDisk (manager : RPMRepoManager) (repos : List String) (value : Bool)
    (fs fs' : FS) : Prop where
  set : ∀ id ∈ repos, ∃ path key, IndexedAt manager id path ∧
    keyFileAt codec fs' path = some key ∧ key.getBoolean codec id "enabled" = .ok value
  kept : ∀ path key, keyFileAt codec fs path = some key → ∃ key',
    keyFileAt codec fs' path = some key' ∧ (∀ group, key'.hasGroup group = key.hasGroup group) ∧
      ∀ group name, ¬ (name = "enabled" ∧ group ∈ repos ∧ IndexedAt manager group path) →
        SameValue codec name (key.value? group name) (key'.value? group name)
  untouched : ∀ path, keyFileAt codec fs path = none → fs'.get? path = fs.get? path

/-! ### One file and its copy in memory -/

section File
variable {codec} {source : String} {key : KeyFile} {repos repos' : RepoMap}

/-- The map is what the key file parses to. -/
structure Holds (codec : GKeyFile) (source : String) (key : KeyFile) (repos : RepoMap) : Prop where
  reads : ∀ (id : String) (repo : RPMRepository), repos[id]? = some repo →
    parseRepo codec source key id = .ok repo
  mem_iff : ∀ id, id ∈ repos ↔ id ∈ key.getGroups

/-- Parsing again gives the map. -/
theorem Holds.reparse (h : Holds codec source key repos) :
    ∃ output, parseRepos codec source key ∅ key.getGroups = .ok output ∧
      ∀ id : String, output[id]? = repos[id]? := by
  obtain ⟨output, hout⟩ := (parseRepos_exists_iff source key.getGroups ∅).mpr fun id hm => by
    obtain ⟨repo, hrepo⟩ := exists_getElem? ((h.mem_iff id).mpr hm)
    exact ⟨repo, h.reads id repo hrepo⟩
  refine ⟨output, hout, fun id => ?_⟩
  rw [parseRepos_ok hout, Std.TreeMap.getElem?_emptyc, Option.none_or]
  split_ifs with hm
  · obtain ⟨repo, hrepo⟩ := exists_getElem? ((h.mem_iff id).mpr hm)
    rw [h.reads id repo hrepo, hrepo]
    rfl
  · have hnot : id ∉ repos := fun hin => hm ((h.mem_iff id).mp hin)
    rw [Std.TreeMap.getElem?_eq_none hnot]

theorem holds_of_parseRepos (h : parseRepos codec source key ∅ key.getGroups = .ok repos) :
    Holds codec source key repos := by
  have hread := (parseRepos_exists_iff source key.getGroups ∅).mp ⟨repos, h⟩
  have hget : ∀ id : String, repos[id]? =
      if id ∈ key.getGroups then (parseRepo codec source key id).toOption else none := by
    intro id
    rw [parseRepos_ok h, Std.TreeMap.getElem?_emptyc, Option.none_or]
  constructor
  · intro id repo hrepo
    rw [hget] at hrepo
    split_ifs at hrepo with hm
    obtain ⟨r, hr⟩ := hread id hm
    rw [hr] at hrepo ⊢
    exact congrArg Except.ok (Option.some.inj hrepo)
  · intro id
    rw [Std.TreeMap.mem_iff_isSome_getElem?, hget]
    split_ifs with hm
    · obtain ⟨r, hr⟩ := hread id hm
      simp [hr, hm, Except.toOption]
    · simp [hm]

theorem Holds.wellKeyed (h : Holds codec source key repos) : WellKeyed repos := by
  intro id repo hrepo
  obtain ⟨hreads, hid⟩ := parseRepo_ok_iff.mp (h.reads id repo hrepo)
  exact ⟨hid, hreads.group.trans hid, hreads.name_ne⟩

/-- The second map is the first with the flag set where the predicate holds. -/
def Updated (p : String → Prop) [DecidablePred p] (value : Bool) (repos repos' : RepoMap) : Prop :=
  ∀ id : String, repos'[id]? =
    repos[id]?.map fun repo => { repo with enabled := if p id then value else repo.enabled }

variable {p : String → Prop} [DecidablePred p] {value : Bool}

theorem updated_refl (h : ∀ id, ¬ p id) : Updated p value repos repos := by
  intro id
  simp only [if_neg (h id)]
  cases repos[id]? <;> rfl

theorem Updated.mem_iff (h : Updated p value repos repos') (id : String) :
    id ∈ repos' ↔ id ∈ repos := by
  rw [Std.TreeMap.mem_iff_isSome_getElem?, Std.TreeMap.mem_iff_isSome_getElem?, h id,
    Option.isSome_map]

theorem Updated.wellKeyed (h : Updated p value repos repos') (hkeyed : WellKeyed repos) :
    WellKeyed repos' := by
  intro id repo hrepo
  rw [h id] at hrepo
  obtain ⟨old, hold, rfl⟩ := Option.map_eq_some_iff.mp hrepo
  exact hkeyed id old hold

/-- What writing an updated map leaves in the key file. -/
theorem Holds.value?_unparse (h : Holds codec source key repos)
    (hupd : Updated p value repos repos') (group name : String) :
    (unparseRepos key repos').value? group name =
      match repos[group]? with
      | none => key.value? group name
      | some repo =>
        if name = "enabled" then
          some (if (if p group then value else repo.enabled) then "true" else "false")
        else if name = "gpgcheck" then some (if repo.gpgcheck then "true" else "false")
        else key.value? group name := by
  rw [value?_unparseRepos (hupd.wellKeyed h.wellKeyed), hupd group]
  cases hrepo : repos[group]? with
  | none => rfl
  | some repo =>
    obtain ⟨hreads, rfl⟩ := parseRepo_ok_iff.mp (h.reads group repo hrepo)
    simp only [Option.map_some, Option.bind_some, knownValue]
    have hname := hreads.name
    have hgpgkey := hreads.gpgkey
    have hmetalink := hreads.metalink
    have hbaseurl := hreads.baseurl
    split_ifs <;> simp_all

/-- The file that was written parses to the updated map. -/
theorem Holds.unparse (h : Holds codec source key repos) (hupd : Updated p value repos repos') :
    Holds codec source (unparseRepos key repos') repos' := by
  constructor
  · intro id repo' hrepo'
    rw [hupd id] at hrepo'
    obtain ⟨repo, hrepo, rfl⟩ := Option.map_eq_some_iff.mp hrepo'
    obtain ⟨hreads, rfl⟩ := parseRepo_ok_iff.mp (h.reads id repo hrepo)
    refine parseRepo_ok_iff.mpr ⟨?_, rfl⟩
    have hvalue := fun name => h.value?_unparse hupd repo.id name
    simp only [hrepo] at hvalue
    constructor
    · exact hreads.group
    · exact hreads.source
    · rw [hvalue, if_neg (by simp), if_neg (by simp), hreads.name]
    · exact hreads.name_ne
    · rw [hvalue, if_pos rfl, Option.bind_some, codec.parseBoolean_text]
    · rw [hvalue, if_neg (by simp), if_pos rfl, Option.bind_some, codec.parseBoolean_text]
    · rw [hvalue, if_neg (by simp), if_neg (by simp), hreads.gpgkey]
    · rw [hvalue, if_neg (by simp), if_neg (by simp), hreads.metalink]
    · rw [hvalue, if_neg (by simp), if_neg (by simp), hreads.baseurl]
  · intro id
    rw [mem_getGroups_unparseRepos (hupd.wellKeyed h.wellKeyed), hupd.mem_iff, h.mem_iff, or_self]

/-- Everything but the flags that were set decodes as before. -/
theorem Holds.sameValue (h : Holds codec source key repos) (hupd : Updated p value repos repos')
    {group name : String} (hnot : ¬ (name = "enabled" ∧ p group)) :
    SameValue codec name (key.value? group name) ((unparseRepos key repos').value? group name) := by
  rw [h.value?_unparse hupd]
  cases hrepo : repos[group]? with
  | none => simp [SameValue]
  | some repo =>
    obtain ⟨hreads, rfl⟩ := parseRepo_ok_iff.mp (h.reads group repo hrepo)
    unfold SameValue
    by_cases he : name = "enabled"
    · subst he
      have hp : ¬ p repo.id := fun hp => hnot ⟨rfl, hp⟩
      simp only [true_or, if_true, hreads.enabled, if_neg hp, Option.bind_some,
        codec.parseBoolean_text]
    · by_cases hg : name = "gpgcheck"
      · subst hg
        simp only [or_true, if_true, hreads.gpgcheck, if_neg he, Option.bind_some,
          codec.parseBoolean_text]
      · simp [he, hg]

end File

/-! ### The invariant -/

/-- A file object that some identifier maps to. -/
def InUse (manager : RPMRepoManager) (ref : ℕ) (file : RPMRepositoryFile) : Prop :=
  (∃ id : String, manager.filesIdx[id]? = some ref) ∧ manager.files[ref]? = some file

/-- The path holds a key file with these repositories. -/
def OnDisk (codec : GKeyFile) (fs : FS) (file : RPMRepositoryFile) : Prop :=
  ∃ key, keyFileAt codec fs file.path = some key ∧ Holds codec file.path.toText key file.repos

/-- The path holds a key file with these groups. Its flags may be others. -/
def GroupsOnDisk (codec : GKeyFile) (fs : FS) (file : RPMRepositoryFile) : Prop :=
  ∃ key, keyFileAt codec fs file.path = some key ∧ ∀ id, id ∈ file.repos ↔ id ∈ key.getGroups

theorem OnDisk.groups {codec : GKeyFile} {fs : FS} {file : RPMRepositoryFile}
    (h : OnDisk codec fs file) : GroupsOnDisk codec fs file := by
  obtain ⟨key, hkey, hholds⟩ := h
  exact ⟨key, hkey, hholds.mem_iff⟩

structure Coherent (codec : GKeyFile) (manager : RPMRepoManager) (fs : FS) : Prop where
  present : ∀ (id : String) (ref : ℕ), manager.filesIdx[id]? = some ref →
    ∃ file, manager.files[ref]? = some file ∧ id ∈ file.repos
  onDisk : ∀ ref file, InUse manager ref file → OnDisk codec fs file
  apart : ∀ ref file ref' file', InUse manager ref file → InUse manager ref' file' →
    file.path = file'.path → ref = ref'
  indexed : ∀ ref file, InUse manager ref file → ∀ id ∈ file.repos, id ∈ manager.filesIdx

variable {opts codec} {manager manager' : RPMRepoManager} {fs fs' : FS}

theorem coherent_empty (fs : FS) : Coherent codec {} fs := by
  have hunused : ∀ ref file, ¬ InUse {} ref file := by
    rintro ref file ⟨⟨id, h⟩, -⟩
    simp at h
  constructor
  · intro id ref h
    simp at h
  · exact fun ref file h => absurd h (hunused ref file)
  · exact fun ref file _ _ h => absurd h (hunused ref file)
  · exact fun ref file h => absurd h (hunused ref file)

theorem parse_eq {path : Path} {key : KeyFile} (h : keyFileAt codec fs path = some key) :
    parse codec path ∅ fs = liftExcept (parseRepos codec path.toText key ∅ key.getGroups) fs := by
  rw [parse, bind_of_ok (KeyFile.open_of_keyFileAt h)]

theorem Coherent.inSync (h : Coherent codec manager fs) : InSync codec manager fs := by
  refine ⟨h.present, fun id ref file hidx hfile => ?_⟩
  obtain ⟨key, hkey, hholds⟩ := h.onDisk ref file ⟨⟨id, hidx⟩, hfile⟩
  obtain ⟨repos, hrepos, hsame⟩ := hholds.reparse
  refine ⟨repos, ?_, hsame⟩
  rw [parse_eq hkey, hrepos]
  rfl

theorem OnDisk.mono {file : RPMRepositoryFile} (h : OnDisk codec fs file)
    (hfs : ∀ p node, fs.get? p = some node → fs'.get? p = some node) : OnDisk codec fs' file := by
  obtain ⟨key, hkey, hholds⟩ := h
  obtain ⟨text, htext, hload⟩ := Option.bind_eq_some_iff.mp hkey
  have hget := FS.content?_eq_some.mp htext
  exact ⟨key, by rw [keyFileAt_congr ((hfs _ _ hget).trans hget.symm), hkey], hholds⟩

/-! ### Installing -/

theorem copyToBasedir_ok {source dest : Path} {u : Unit}
    (h : copyToBasedir opts source dest fs = .ok u fs') {p : Path} {node : Node}
    (hp : fs.get? p = some node) : fs'.get? p = some node := by
  unfold copyToBasedir copyFile at h
  split_ifs at h
  · obtain ⟨-, rfl⟩ := EStateM.Result.ok.inj h
    exact hp
  · obtain ⟨-, rfl⟩ := EStateM.Result.ok.inj h
    exact hp
  · rw [bind_apply, get_apply] at h
    dsimp only at h
    cases hc : fs.copy source dest with
    | error code =>
      rw [hc] at h
      cases code with
      | fileExists =>
        obtain ⟨-, rfl⟩ := EStateM.Result.ok.inj h
        exact hp
      | _ => exact absurd h (by simp)
    | ok t =>
      rw [hc] at h
      obtain ⟨-, rfl⟩ := EStateM.Result.ok.inj h
      obtain ⟨s, -, rfl, hnew⟩ := FS.copy_ok hc
      rw [FS.get?_set_of_ne, hp]
      rintro rfl
      rw [hp] at hnew
      exact absurd hnew (by simp)

/-- What parsing gives is on disk, or there was nothing to parse. -/
theorem parse_ok {path : Path} {repos : RepoMap} (h : parse codec path ∅ fs = .ok repos fs') :
    fs' = fs ∧ (OnDisk codec fs ⟨path, repos⟩ ∨ ∀ id, id ∉ repos) := by
  rw [parse] at h
  obtain ⟨key, t, hopen, hrest⟩ := bind_ok_iff.mp h
  obtain ⟨hparse, rfl⟩ := liftExcept_ok_iff.mp hrest
  rw [KeyFile.open, bind_apply, get_apply] at hopen
  dsimp only at hopen
  split_ifs at hopen with he
  · obtain ⟨hkey, rfl⟩ := KeyFile.load_ok_iff.mp hopen
    exact ⟨rfl, Or.inl ⟨key, hkey, holds_of_parseRepos hparse⟩⟩
  · obtain ⟨rfl, rfl⟩ := EStateM.Result.ok.inj hopen
    refine ⟨rfl, Or.inr fun id hm => ?_⟩
    exact absurd (((holds_of_parseRepos hparse).mem_iff id).mp hm) List.not_mem_nil

theorem emplaceAll_getElem? (filesIdx : Std.TreeMap String ℕ) (ref : ℕ) (ids : List String)
    (id : String) : (emplaceAll filesIdx ref ids)[id]? =
      (filesIdx[id]?).or (if id ∈ ids then some ref else none) := by
  induction ids generalizing filesIdx with
  | nil => simp [emplaceAll]
  | cons first ids ih =>
    rw [emplaceAll, List.foldl_cons, ← emplaceAll, ih, Std.TreeMap.getElem?_insertIfNew]
    simp only [Std.LawfulEqCmp.compare_eq_iff_eq]
    by_cases hid : first = id
    · subst hid
      cases hold : filesIdx[first]? with
      | some old =>
        have hmem : first ∈ filesIdx := mem_of_getElem? hold
        simp [hmem]
      | none =>
        have hmem : first ∉ filesIdx := not_mem_of_getElem? hold
        simp [hmem]
    · simp [hid, Ne.symm hid]

theorem emplace_getElem? (repofile : RPMRepositoryFile) (id : String) :
    (manager.emplace repofile).filesIdx[id]? = (manager.filesIdx[id]?).or
      (if id ∈ repofile.repos then some manager.files.length else none) := by
  rw [emplace, emplaceAll_getElem?]
  simp only [Std.TreeMap.mem_keys]

theorem emplace_last (repofile : RPMRepositoryFile) :
    (manager.emplace repofile).files[manager.files.length]? = some repofile := by
  rw [emplace, List.getElem?_append_right le_rfl, Nat.sub_self]
  rfl

theorem mem_filesIdx_emplace (repofile : RPMRepositoryFile) (id : String) :
    id ∈ (manager.emplace repofile).filesIdx ↔ id ∈ manager.filesIdx ∨ id ∈ repofile.repos := by
  rw [Std.TreeMap.mem_iff_isSome_getElem?, Std.TreeMap.mem_iff_isSome_getElem?, emplace_getElem?]
  cases manager.filesIdx[id]? <;> simp

section

variable {repofile : RPMRepositoryFile}
  (hpresent : ∀ (id : String) (ref : ℕ), manager.filesIdx[id]? = some ref →
    ∃ file, manager.files[ref]? = some file ∧ id ∈ file.repos)

include hpresent

/-- A reference of the index is an old one, or the new one for an identifier without a file. -/
theorem emplace_filesIdx {id : String} {ref : ℕ}
    (hidx : (manager.emplace repofile).filesIdx[id]? = some ref) :
    manager.filesIdx[id]? = some ref ∧
        (manager.emplace repofile).files[ref]? = manager.files[ref]? ∨
      manager.filesIdx[id]? = none ∧ id ∈ repofile.repos ∧ ref = manager.files.length := by
  rw [emplace_getElem?] at hidx
  cases hget : manager.filesIdx[id]? with
  | some old =>
    rw [hget, Option.some_or] at hidx
    obtain rfl := Option.some.inj hidx
    obtain ⟨file, hfile, -⟩ := hpresent id old hget
    exact .inl ⟨rfl, List.getElem?_append_left (List.getElem?_eq_some_iff.mp hfile).1⟩
  | none =>
    rw [hget, Option.none_or] at hidx
    split_ifs at hidx with hm
    exact .inr ⟨rfl, hm, (Option.some.inj hidx).symm⟩

theorem present_emplace (id : String) (ref : ℕ)
    (hidx : (manager.emplace repofile).filesIdx[id]? = some ref) :
    ∃ file, (manager.emplace repofile).files[ref]? = some file ∧ id ∈ file.repos := by
  rcases emplace_filesIdx hpresent hidx with ⟨hidx, hsame⟩ | ⟨-, hm, rfl⟩
  · rw [hsame]
    exact hpresent id ref hidx
  · exact ⟨repofile, emplace_last repofile, hm⟩

theorem inUse_emplace {file : RPMRepositoryFile} {ref : ℕ}
    (hin : InUse (manager.emplace repofile) ref file) :
    InUse manager ref file ∨ ref = manager.files.length ∧ file = repofile ∧
      ∃ id, manager.filesIdx[id]? = none ∧ id ∈ repofile.repos := by
  obtain ⟨⟨id, hidx⟩, hget⟩ := hin
  rcases emplace_filesIdx hpresent hidx with ⟨hidx, hsame⟩ | ⟨hnone, hm, rfl⟩
  · rw [hsame] at hget
    exact .inl ⟨⟨id, hidx⟩, hget⟩
  · rw [emplace_last] at hget
    exact .inr ⟨rfl, (Option.some.inj hget).symm, id, hnone, hm⟩

theorem indexed_emplace
    (hindexed : ∀ ref file, InUse manager ref file → ∀ id ∈ file.repos, id ∈ manager.filesIdx)
    (ref : ℕ) (file : RPMRepositoryFile) (hin : InUse (manager.emplace repofile) ref file)
    (id : String) (hm : id ∈ file.repos) : id ∈ (manager.emplace repofile).filesIdx := by
  rw [mem_filesIdx_emplace]
  rcases inUse_emplace hpresent hin with hin | ⟨-, rfl, -⟩
  · exact .inl (hindexed ref file hin id hm)
  · exact .inr hm

/-- A new object is used only for identifiers that had no file before. All groups of a path
in use have one, so the new path is another. -/
theorem apart_emplace
    (honDisk : ∀ ref file, InUse manager ref file → GroupsOnDisk codec fs file)
    (hapart : ∀ ref file ref' file', InUse manager ref file → InUse manager ref' file' →
      file.path = file'.path → ref = ref')
    (hindexed : ∀ ref file, InUse manager ref file → ∀ id ∈ file.repos, id ∈ manager.filesIdx)
    (hfile : GroupsOnDisk codec fs repofile ∨ ∀ id, id ∉ repofile.repos)
    (ref : ℕ) (file : RPMRepositoryFile) (ref' : ℕ) (file' : RPMRepositoryFile)
    (hin : InUse (manager.emplace repofile) ref file)
    (hin' : InUse (manager.emplace repofile) ref' file') (hpath : file.path = file'.path) :
    ref = ref' := by
  have hfresh : ∀ ref file, InUse manager ref file →
      (∃ id, manager.filesIdx[id]? = none ∧ id ∈ repofile.repos) → file.path ≠ repofile.path := by
    rintro ref file hin ⟨id, hnone, hm⟩ hpath
    obtain ⟨key, hkey, hgroups⟩ := hfile.resolve_right fun hno => hno id hm
    obtain ⟨key', hkey', hgroups'⟩ := honDisk ref file hin
    rw [hpath, hkey] at hkey'
    obtain rfl := Option.some.inj hkey'
    have hmem := hindexed ref file hin id ((hgroups' id).mpr ((hgroups id).mp hm))
    exact not_mem_of_getElem? hnone hmem
  rcases inUse_emplace hpresent hin with hused | ⟨rfl, rfl, hex⟩
  · rcases inUse_emplace hpresent hin' with hused' | ⟨-, rfl, hex'⟩
    · exact hapart ref file ref' file' hused hused' hpath
    · exact absurd hpath (hfresh ref file hused hex')
  · rcases inUse_emplace hpresent hin' with hused' | ⟨rfl, -, -⟩
    · exact absurd hpath.symm (hfresh ref' file' hused' hex)
    · rfl

end

theorem coherent_emplace (h : Coherent codec manager fs) {repofile : RPMRepositoryFile}
    (hfile : OnDisk codec fs repofile ∨ ∀ id, id ∉ repofile.repos) :
    Coherent codec (manager.emplace repofile) fs := by
  constructor
  · exact present_emplace h.present
  · intro ref file hin
    rcases inUse_emplace h.present hin with hin | ⟨-, rfl, id, -, hm⟩
    · exact h.onDisk ref file hin
    · exact hfile.resolve_right fun hno => hno id hm
  · exact apart_emplace h.present (fun ref file hin => (h.onDisk ref file hin).groups) h.apart
      h.indexed (hfile.imp_left OnDisk.groups)
  · exact indexed_emplace h.present h.indexed

theorem onFs_ok {α : Type} {x : FsM α} {s t : RPMRepoManager × FS} {a : α}
    (h : onFs x s = .ok a t) : t.1 = s.1 ∧ x s.2 = .ok a t.2 := by
  unfold onFs at h
  cases hx : x s.2 with
  | ok b fs =>
    rw [hx] at h
    obtain ⟨rfl, rfl⟩ := EStateM.Result.ok.inj h
    exact ⟨rfl, rfl⟩
  | error e fs =>
    rw [hx] at h
    exact absurd h (by simp)

theorem coherent_install (hdry : opts.dryRun = false) {source : Path}
    {s t : RPMRepoManager × FS} {u : Unit} (hs : Coherent codec s.1 s.2)
    (h : install opts codec source s = .ok u t) : Coherent codec t.1 t.2 := by
  unfold install at h
  obtain ⟨v, s₁, hcopy, hrest⟩ := bind_ok_iff.mp h
  obtain ⟨hm, hcopy⟩ := onFs_ok hcopy
  rw [if_neg (by simp [hdry])] at hrest
  obtain ⟨repos, s₂, hparse, hmodify⟩ := bind_ok_iff.mp hrest
  obtain ⟨hm', hparse⟩ := onFs_ok hparse
  obtain ⟨-, rfl⟩ := EStateM.Result.ok.inj hmodify
  obtain ⟨hfs, hfile⟩ := parse_ok hparse
  have hcoherent : Coherent codec s₁.1 s₁.2 := by
    rw [hm]
    exact ⟨hs.present, fun ref file hin => (hs.onDisk ref file hin).mono
      fun p node => copyToBasedir_ok hcopy, hs.apart, hs.indexed⟩
  dsimp only
  rw [hm', hfs]
  exact coherent_emplace hcoherent hfile

theorem coherent_loadDir (hdry : opts.dryRun = false) {path : Path}
    {s t : RPMRepoManager × FS} {u : Unit} (hs : Coherent codec s.1 s.2)
    (h : loadDir opts codec path s = .ok u t) : Coherent codec t.1 t.2 := by
  rw [loadDir, if_neg (by simp [hdry])] at h
  obtain ⟨names, s₁, hiter, hrest⟩ := bind_ok_iff.mp h
  obtain ⟨hm, hiter⟩ := onFs_ok hiter
  have hfs : s₁.2 = s.2 := by
    by_cases hd : s.2.isDir path
    · rw [directoryIterator_of_isDir hd] at hiter
      exact (EStateM.Result.ok.inj hiter).2.symm
    · obtain ⟨e, he⟩ := directoryIterator_of_not_isDir (Bool.eq_false_iff.mpr hd)
      rw [he] at hiter
      exact absurd hiter (by simp)
  have hs₁ : Coherent codec s₁.1 s₁.2 := by rwa [hm, hfs]
  refine forM_ok_induction (P := fun s => Coherent codec s.1 s.2) ?_ hs₁ hrest
  intro name _ s s' hs hrun
  unfold installEntry at hrun
  split_ifs at hrun
  · exact coherent_install hdry hs hrun
  · obtain ⟨-, rfl⟩ := EStateM.Result.ok.inj hrun
    exact hs

/-! ### Enabling in memory -/

/-- The flags of the listed repositories are set, each in the object it maps to. -/
structure Enabled (manager manager' : RPMRepoManager) (repos : List String) (value : Bool) :
    Prop where
  filesIdx : manager'.filesIdx = manager.filesIdx
  none_iff : ∀ ref : ℕ, manager'.files[ref]? = none ↔ manager.files[ref]? = none
  files : ∀ ref file, manager.files[ref]? = some file → ∃ file',
    manager'.files[ref]? = some file' ∧ file'.path = file.path ∧
      Updated (fun id => id ∈ repos ∧ manager.filesIdx[id]? = some ref) value file.repos file'.repos

/-- Every object of the new state comes from one of the old state. -/
theorem Enabled.back {repos : List String} {value : Bool}
    (h : Enabled manager manager' repos value) {ref : ℕ} {file' : RPMRepositoryFile}
    (hfile' : manager'.files[ref]? = some file') : ∃ file,
      manager.files[ref]? = some file ∧ file'.path = file.path ∧
        Updated (fun id => id ∈ repos ∧ manager.filesIdx[id]? = some ref) value file.repos
          file'.repos := by
  cases hfile : manager.files[ref]? with
  | none =>
    rw [(h.none_iff ref).mpr hfile] at hfile'
    exact absurd hfile' (by simp)
  | some file =>
    obtain ⟨other, hother, hpath, hupd⟩ := h.files ref file hfile
    rw [hfile'] at hother
    obtain rfl := Option.some.inj hother
    exact ⟨file, rfl, hpath, hupd⟩

theorem enabled_nil (manager : RPMRepoManager) (value : Bool) : Enabled manager manager [] value := by
  refine ⟨rfl, fun _ => Iff.rfl, fun ref file hfile => ⟨file, hfile, rfl, updated_refl ?_⟩⟩
  exact fun id h => absurd h.1 List.not_mem_nil

theorem Enabled.append {manager₁ manager₂ manager₃ : RPMRepoManager} {repos repos' : List String}
    {value : Bool} (h : Enabled manager₁ manager₂ repos value)
    (h' : Enabled manager₂ manager₃ repos' value) :
    Enabled manager₁ manager₃ (repos ++ repos') value := by
  refine ⟨h'.filesIdx.trans h.filesIdx, fun ref => (h'.none_iff ref).trans (h.none_iff ref), ?_⟩
  intro ref file hfile
  obtain ⟨file₂, hfile₂, hpath₂, hupd₂⟩ := h.files ref file hfile
  obtain ⟨file₃, hfile₃, hpath₃, hupd₃⟩ := h'.files ref file₂ hfile₂
  refine ⟨file₃, hfile₃, hpath₃.trans hpath₂, fun id => ?_⟩
  rw [hupd₃ id, hupd₂ id, Option.map_map]
  congr 1
  funext repo
  rw [h.filesIdx]
  by_cases hidx : manager₁.filesIdx[id]? = some ref
  · by_cases hm : id ∈ repos'
    · simp [hidx, hm]
    · simp [hidx, hm]
  · simp [hidx]

theorem setEnabled_ok {ref : ℕ} {repo : String} {value : Bool} {s t : RPMRepoManager × FS}
    {u : Unit} (hidx : s.1.filesIdx[repo]? = some ref)
    (h : setEnabled ref repo value s = .ok u t) : t.2 = s.2 ∧ Enabled s.1 t.1 [repo] value := by
  rw [setEnabled, bind_apply, get_apply] at h
  dsimp only at h
  cases hfile : s.1.files[ref]? with
  | none => rw [hfile] at h; exact absurd h (by simp)
  | some file =>
    rw [hfile] at h
    cases hrepo : file.repos[repo]? with
    | none => simp only [hrepo] at h; exact absurd h (by simp)
    | some r =>
      simp only [hrepo] at h
      obtain ⟨-, rfl⟩ := EStateM.Result.ok.inj h
      obtain ⟨hlt, -⟩ := List.getElem?_eq_some_iff.mp hfile
      refine ⟨rfl, rfl, fun other => ?_, fun other old hold => ?_⟩
      · rw [List.getElem?_eq_none_iff, List.getElem?_eq_none_iff, List.length_set]
      · by_cases hother : ref = other
        · subst hother
          rw [hfile] at hold
          obtain rfl := Option.some.inj hold
          refine ⟨_, List.getElem?_set_self hlt, rfl, fun id => ?_⟩
          simp only [Std.TreeMap.getElem?_insert, Std.LawfulEqCmp.compare_eq_iff_eq,
            List.mem_singleton]
          by_cases hid : repo = id
          · subst hid
            simp [hrepo, hidx]
          · cases file.repos[id]? <;> simp [hid, Ne.symm hid]
        · refine ⟨old, by rw [List.getElem?_set_ne hother, hold], rfl, updated_refl ?_⟩
          rintro id ⟨hm, hsome⟩
          rw [List.mem_singleton.mp hm, hidx] at hsome
          exact hother (Option.some.inj hsome)

theorem fileAt_ok {repo : String} {s t : RPMRepoManager × FS} {ref : ℕ} :
    fileAt repo s = .ok ref t ↔ s.1.filesIdx[repo]? = some ref ∧ t = s := by
  rw [fileAt, bind_apply, get_apply]
  dsimp only
  cases s.1.filesIdx[repo]? <;> simp [eq_comm]

theorem orUnknown_ok {α : Type} {repo : String} {x : ManagerM α} {s t : RPMRepoManager × FS}
    {a : α} : orUnknown repo x s = .ok a t ↔ x s = .ok a t := by
  unfold orUnknown
  cases x s with
  | ok b r => rfl
  | error e r =>
    dsimp only
    split_ifs <;> simp

/-- The loop of the batch sets the flags and collects the files that are touched. -/
theorem enableLoop_ok {value : Bool} {repos : List String} {toSave out : List ℕ}
    {s t : RPMRepoManager × FS} (h : enableLoop value toSave repos s = .ok out t) :
    t.2 = s.2 ∧ Enabled s.1 t.1 repos value ∧ (toSave.Nodup → out.Nodup) ∧
      (∀ ref, ref ∈ out ↔ ref ∈ toSave ∨ ∃ id ∈ repos, s.1.filesIdx[id]? = some ref) ∧
      ∀ id ∈ repos, ∃ ref : ℕ, s.1.filesIdx[id]? = some ref := by
  induction repos generalizing toSave s with
  | nil =>
    obtain ⟨rfl, rfl⟩ := EStateM.Result.ok.inj h
    exact ⟨rfl, enabled_nil _ value, id, by simp, by simp⟩
  | cons repo repos ih =>
    obtain ⟨ref, s₁, hone, hrest⟩ := bind_ok_iff.mp h
    obtain ⟨ref', s₂, hat, hthen⟩ := bind_ok_iff.mp (orUnknown_ok.mp hone)
    obtain ⟨hidx, rfl⟩ := fileAt_ok.mp hat
    obtain ⟨u, s₃, hset, hpure⟩ := bind_ok_iff.mp hthen
    obtain ⟨rfl, rfl⟩ := EStateM.Result.ok.inj hpure
    obtain ⟨hfs, henabled⟩ := setEnabled_ok hidx hset
    obtain ⟨hfs', henabled', hnodup, hmem, hall⟩ := ih hrest
    rw [henabled.filesIdx] at hmem hall
    refine ⟨hfs'.trans hfs, henabled.append henabled', fun hn => hnodup ?_, fun other => ?_, ?_⟩
    · split_ifs with hin
      · exact hn
      · rw [← List.concat_eq_append]
        exact hn.concat hin
    · rw [hmem, List.exists_mem_cons_iff, hidx, Option.some.injEq]
      split_ifs with hin
      · constructor
        · rintro (hm | hm)
          · exact Or.inl hm
          · exact Or.inr (Or.inr hm)
        · rintro (hm | rfl | hm)
          · exact Or.inl hm
          · exact Or.inl hin
          · exact Or.inr hm
      · rw [List.mem_append, List.mem_singleton, eq_comm (a := other)]
        tauto
    · rw [List.forall_mem_cons]
      exact ⟨⟨ref', hidx⟩, hall⟩

/-! ### Saving -/

theorem saveFile_ok {ref : ℕ} {s t : RPMRepoManager × FS} {u : Unit}
    (h : saveFile codec ref s = .ok u t) :
    t.1 = s.1 ∧ ∃ file, s.1.files[ref]? = some file ∧ file.save codec s.2 = .ok () t.2 := by
  rw [saveFile, bind_apply, get_apply] at h
  dsimp only at h
  cases hfile : s.1.files[ref]? with
  | none => rw [hfile] at h; exact absurd h (by simp)
  | some file =>
    rw [hfile] at h
    obtain ⟨hm, hsave⟩ := onFs_ok h
    exact ⟨hm, file, rfl, hsave⟩

theorem save_onDisk {file : RPMRepositoryFile} {key : KeyFile} {u : Unit}
    (hkey : keyFileAt codec fs file.path = some key) (h : file.save codec fs = .ok u fs') :
    fs' = fs.set file.path (.file (codec.toData (unparseRepos key file.repos))) := by
  rw [RPMRepositoryFile.save, unparse, bind_of_ok (KeyFile.open_of_keyFileAt hkey)] at h
  exact KeyFile.save_ok h

/-- Saving objects of different paths: each path is merged into once, and no other changes. -/
theorem saveFiles_ok {refs : List ℕ} {s t : RPMRepoManager × FS} {u : Unit} (hnodup : refs.Nodup)
    (hapart : ∀ ref ∈ refs, ∀ ref' ∈ refs, ∀ file file', s.1.files[ref]? = some file →
      s.1.files[ref']? = some file' → file.path = file'.path → ref = ref')
    (hkeys : ∀ ref ∈ refs, ∀ file, s.1.files[ref]? = some file →
      ∃ key, keyFileAt codec s.2 file.path = some key)
    (h : refs.forM (saveFile codec) s = .ok u t) :
    t.1 = s.1 ∧
      (∀ ref ∈ refs, ∀ file key, s.1.files[ref]? = some file →
        keyFileAt codec s.2 file.path = some key →
          keyFileAt codec t.2 file.path = some (unparseRepos key file.repos)) ∧
      ∀ p, (∀ ref ∈ refs, ∀ file, s.1.files[ref]? = some file → file.path ≠ p) →
        t.2.get? p = s.2.get? p := by
  induction refs generalizing s with
  | nil =>
    obtain ⟨-, rfl⟩ := EStateM.Result.ok.inj h
    exact ⟨rfl, fun ref hm => absurd hm List.not_mem_nil, fun _ _ => rfl⟩
  | cons ref refs ih =>
    rw [List.nodup_cons] at hnodup
    obtain ⟨v, s₁, hfirst, hrest⟩ := bind_ok_iff.mp h
    obtain ⟨hm, file, hfile, hsave⟩ := saveFile_ok hfirst
    obtain ⟨key, hkey⟩ := hkeys ref List.mem_cons_self file hfile
    have hfs := save_onDisk hkey hsave
    have hne : ∀ other ∈ refs, ∀ file', s.1.files[other]? = some file' → file'.path ≠ file.path := by
      intro other ho file' hfile' hpath
      have heq := hapart other (List.mem_cons_of_mem _ ho) ref List.mem_cons_self file' file hfile'
        hfile hpath
      exact hnodup.1 (heq ▸ ho)
    have hsame : ∀ q, q ≠ file.path → keyFileAt codec s₁.2 q = keyFileAt codec s.2 q := by
      intro q hq
      rw [hfs, keyFileAt_set, if_neg hq]
    have hrest' := ih hnodup.2
      (fun a ha b hb f f' hf hf' => by
        rw [hm] at hf hf'
        exact hapart a (List.mem_cons_of_mem _ ha) b (List.mem_cons_of_mem _ hb) f f' hf hf')
      (fun a ha f hf => by
        rw [hm] at hf
        rw [hsame _ (hne a ha f hf)]
        exact hkeys a (List.mem_cons_of_mem _ ha) f hf) hrest
    rw [hm] at hrest'
    obtain ⟨hm', hwritten, hkept⟩ := hrest'
    refine ⟨hm', ?_, fun p hp => ?_⟩
    · rw [List.forall_mem_cons]
      constructor
      · intro f k hf hk
        rw [hfile] at hf
        obtain rfl := Option.some.inj hf
        rw [hkey] at hk
        obtain rfl := Option.some.inj hk
        have hget := hkept file.path fun a ha f hf => hne a ha f hf
        rw [keyFileAt_congr hget, hfs, keyFileAt_set, if_pos rfl]
      · intro a ha f k hf hk
        exact hwritten a ha f k hf (by rw [hsame _ (hne a ha f hf), hk])
    · rw [List.forall_mem_cons] at hp
      rw [hkept p hp.2, hfs, FS.get?_set_of_ne]
      exact Ne.symm (hp.1 file hfile)

theorem Holds.congr {source : String} {key : KeyFile} {repos repos' : RepoMap}
    (h : Holds codec source key repos) (hsame : ∀ id : String, repos'[id]? = repos[id]?) :
    Holds codec source key repos' := by
  constructor
  · intro id repo hrepo
    rw [hsame] at hrepo
    exact h.reads id repo hrepo
  · intro id
    rw [← h.mem_iff, Std.TreeMap.mem_iff_isSome_getElem?, Std.TreeMap.mem_iff_isSome_getElem?, hsame]

/-- The flags are set in memory, then each object that has one of them is saved once. -/
def SavesEnabled (codec : GKeyFile) (repos : List String) (value : Bool)
    (s t : RPMRepoManager × FS) : Prop :=
  ∃ (refs : List ℕ) (manager' : RPMRepoManager), Enabled s.1 manager' repos value ∧ refs.Nodup ∧
    (∀ ref, ref ∈ refs ↔ ∃ id ∈ repos, s.1.filesIdx[id]? = some ref) ∧
    (∀ id ∈ repos, ∃ ref : ℕ, s.1.filesIdx[id]? = some ref) ∧
    refs.forM (saveFile codec) (manager', s.2) = .ok () t

theorem savesEnabled_enable {repo : String} {value : Bool} {s t : RPMRepoManager × FS} {u : Unit}
    (h : enable codec repo value s = .ok u t) : SavesEnabled codec [repo] value s t := by
  obtain ⟨ref, s₁, hat, hrest⟩ := bind_ok_iff.mp h
  obtain ⟨hidx, rfl⟩ := fileAt_ok.mp hat
  obtain ⟨v, s₂, hset, hsave⟩ := bind_ok_iff.mp hrest
  obtain ⟨hfs, henabled⟩ := setEnabled_ok hidx hset
  refine ⟨[ref], s₂.1, henabled, List.nodup_singleton ref, fun other => ?_, fun id hid => ?_, ?_⟩
  · simp [hidx, eq_comm]
  · rw [List.mem_singleton.mp hid]
    exact ⟨ref, hidx⟩
  · rw [forM_cons_apply, ← hfs, hsave]
    rfl

theorem savesEnabled_enableAll {order : WalkOrder} {repos : List String} {value : Bool}
    {s t : RPMRepoManager × FS} {u : Unit} (h : enableAll codec order repos value s = .ok u t) :
    SavesEnabled codec repos value s t := by
  obtain ⟨toSave, s₁, hloop, hsave⟩ := bind_ok_iff.mp h
  obtain ⟨hfs, henabled, hnodup, hmem, hall⟩ := enableLoop_ok hloop
  have hperm := order.perm toSave
  refine ⟨order.walk toSave, s₁.1, henabled, hperm.nodup_iff.mpr (hnodup List.nodup_nil),
    fun ref => ?_, hall, ?_⟩
  · rw [hperm.mem_iff, hmem]
    simp
  · rw [← hfs]
    exact hsave

/-- What saving leaves: each object that has one of the flags is written with it, and all else
on disk is as it was. -/
structure Saved (codec : GKeyFile) (repos : List String) (value : Bool)
    (s t : RPMRepoManager × FS) : Prop where
  enabled : Enabled s.1 t.1 repos value
  known : ∀ id ∈ repos, ∃ ref : ℕ, s.1.filesIdx[id]? = some ref
  disk : ∀ ref file, InUse s.1 ref file → ∃ file' key,
    t.1.files[ref]? = some file' ∧ file'.path = file.path ∧
      keyFileAt codec s.2 file.path = some key ∧ Holds codec file.path.toText key file.repos ∧
      Updated (fun id => id ∈ repos ∧ s.1.filesIdx[id]? = some ref) value file.repos
        file'.repos ∧
      keyFileAt codec t.2 file.path =
        some (if ∃ id ∈ repos, s.1.filesIdx[id]? = some ref then unparseRepos key file'.repos
          else key)
  kept : ∀ p, (∀ ref file, (∃ id ∈ repos, s.1.filesIdx[id]? = some ref) →
    s.1.files[ref]? = some file → file.path ≠ p) → t.2.get? p = s.2.get? p

section
variable {repos : List String} {value : Bool} {s t : RPMRepoManager × FS}

theorem saved_of_savesEnabled (hs : Coherent codec s.1 s.2)
    (h : SavesEnabled codec repos value s t) : Saved codec repos value s t := by
  obtain ⟨manager, fs⟩ := s
  obtain ⟨refs, manager', henabled, hnodup, hrefs, hall, h⟩ := h
  dsimp only at hs henabled hrefs hall h
  have huse : ∀ ref ∈ refs, ∀ file, manager.files[ref]? = some file → InUse manager ref file := by
    intro ref hm file hfile
    obtain ⟨id, -, hidx⟩ := (hrefs ref).mp hm
    exact ⟨⟨id, hidx⟩, hfile⟩
  obtain ⟨hsame, hwritten, hkept⟩ := saveFiles_ok hnodup
    (by
      intro ref hm ref' hm' f' g' hf' hg' hpath
      obtain ⟨f, hf, hfp, -⟩ := henabled.back hf'
      obtain ⟨g, hg, hgp, -⟩ := henabled.back hg'
      exact hs.apart ref f ref' g (huse ref hm f hf) (huse ref' hm' g hg)
        (by rw [← hfp, ← hgp, hpath]))
    (by
      intro ref hm f' hf'
      obtain ⟨f, hf, hfp, -⟩ := henabled.back hf'
      obtain ⟨key, hkey, -⟩ := hs.onDisk ref f (huse ref hm f hf)
      exact ⟨key, by rw [hfp, hkey]⟩) h
  dsimp only at hsame hwritten hkept
  have hkept' : ∀ p, (∀ ref ∈ refs, ∀ file, manager.files[ref]? = some file → file.path ≠ p) →
      t.2.get? p = fs.get? p := by
    intro p hp
    refine hkept p fun ref hm f' hf' => ?_
    obtain ⟨f, hf, hfp, -⟩ := henabled.back hf'
    rw [hfp]
    exact hp ref hm f hf
  refine ⟨hsame.symm ▸ henabled, hall, fun ref file hin => ?_, fun p hp => ?_⟩
  · obtain ⟨file', hfile', hpath, hupd⟩ := henabled.files ref file hin.2
    obtain ⟨key, hkey, hholds⟩ := hs.onDisk ref file hin
    refine ⟨file', key, hsame.symm ▸ hfile', hpath, hkey, hholds, hupd, ?_⟩
    simp only [← hrefs]
    split_ifs with hm
    · rw [← hpath] at hkey ⊢
      exact hwritten ref hm file' key hfile' hkey
    · have hget : t.2.get? file.path = fs.get? file.path := by
        refine hkept' file.path fun other ho g hg hp => ?_
        exact hm (hs.apart other g ref file (huse other ho g hg) hin hp ▸ ho)
      rw [keyFileAt_congr hget, hkey]
  · exact hkept' p fun ref hm file => hp ref file ((hrefs ref).mp hm)

/-- An object in use was in use before, and is on disk as it is in memory. -/
theorem Saved.inUse (h : Saved codec repos value s t) {ref : ℕ} {file' : RPMRepositoryFile}
    (hin' : InUse t.1 ref file') : ∃ file, InUse s.1 ref file ∧ file'.path = file.path ∧
      (∀ id, id ∈ file'.repos ↔ id ∈ file.repos) ∧ OnDisk codec t.2 file' := by
  obtain ⟨⟨id, hidx⟩, hfile'⟩ := hin'
  rw [h.enabled.filesIdx] at hidx
  obtain ⟨file, hfile, hpath, hupd⟩ := h.enabled.back hfile'
  have hin : InUse s.1 ref file := ⟨⟨id, hidx⟩, hfile⟩
  obtain ⟨f', key, hf', -, -, hholds, -, hafter⟩ := h.disk ref file hin
  rw [hfile'] at hf'
  obtain rfl := Option.some.inj hf'
  refine ⟨file, hin, hpath, hupd.mem_iff, _, by rw [hpath, hafter], ?_⟩
  rw [hpath]
  split_ifs with hm
  · exact hholds.unparse hupd
  · refine hholds.congr fun other => ?_
    have hnot : ¬ (other ∈ repos ∧ s.1.filesIdx[other]? = some ref) := fun ho => hm ⟨other, ho⟩
    rw [hupd other]
    simp only [if_neg hnot]
    cases file.repos[other]? <;> rfl

theorem Saved.coherent (h : Saved codec repos value s t) (hs : Coherent codec s.1 s.2) :
    Coherent codec t.1 t.2 := by
  constructor
  · intro id ref hidx
    rw [h.enabled.filesIdx] at hidx
    obtain ⟨file, hfile, hmem⟩ := hs.present id ref hidx
    obtain ⟨file', hfile', -, hupd⟩ := h.enabled.files ref file hfile
    exact ⟨file', hfile', (hupd.mem_iff id).mpr hmem⟩
  · intro ref file' hin
    obtain ⟨-, -, -, -, hon⟩ := h.inUse hin
    exact hon
  · intro ref f' ref' g' hf' hg' hpath
    obtain ⟨f, hf, hfp, -⟩ := h.inUse hf'
    obtain ⟨g, hg, hgp, -⟩ := h.inUse hg'
    exact hs.apart ref f ref' g hf hg (by rw [← hfp, ← hgp, hpath])
  · intro ref file' hin id hmem
    obtain ⟨file, hin, -, hids, -⟩ := h.inUse hin
    rw [h.enabled.filesIdx]
    exact hs.indexed ref file hin id ((hids id).mp hmem)

theorem Saved.setsOnDisk (h : Saved codec repos value s t) (hs : Coherent codec s.1 s.2) :
    SetsOnDisk codec s.1 repos value s.2 t.2 := by
  constructor
  · intro id hid
    obtain ⟨ref, hidx⟩ := h.known id hid
    obtain ⟨file, hfile, hmem⟩ := hs.present id ref hidx
    obtain ⟨file', key, -, -, -, hholds, hupd, hafter⟩ := h.disk ref file ⟨⟨id, hidx⟩, hfile⟩
    rw [if_pos ⟨id, hid, hidx⟩] at hafter
    refine ⟨file.path, _, ⟨ref, file, hidx, hfile, rfl⟩, hafter, ?_⟩
    obtain ⟨repo, hrepo⟩ := exists_getElem? hmem
    rw [getBoolean_ok_iff, hholds.value?_unparse hupd, hrepo]
    simp only [if_true, if_pos (And.intro hid hidx), Option.bind_some, codec.parseBoolean_text]
  · intro path key hkey
    by_cases hex : ∃ ref file, (∃ id ∈ repos, s.1.filesIdx[id]? = some ref) ∧
        s.1.files[ref]? = some file ∧ file.path = path
    · obtain ⟨ref, file, htouched, hfile, rfl⟩ := hex
      have hin : InUse s.1 ref file := ⟨htouched.imp fun _ hid => hid.2, hfile⟩
      obtain ⟨file', key', -, -, hkey', hholds, hupd, hafter⟩ := h.disk ref file hin
      rw [hkey] at hkey'
      obtain rfl := Option.some.inj hkey'
      rw [if_pos htouched] at hafter
      refine ⟨_, hafter, fun group => ?_, fun group name hnot => ?_⟩
      · rw [Bool.eq_iff_iff, ← KeyFile.mem_getGroups_iff, ← KeyFile.mem_getGroups_iff,
          mem_getGroups_unparseRepos (hupd.wellKeyed hholds.wellKeyed), hupd.mem_iff,
          hholds.mem_iff, or_self]
      · refine hholds.sameValue hupd ?_
        rintro ⟨hname, hgroup, hidx⟩
        exact hnot ⟨hname, hgroup, ref, file, hidx, hfile, rfl⟩
    · have hget : t.2.get? path = s.2.get? path :=
        h.kept path fun ref file htouched hfile hp => hex ⟨ref, file, htouched, hfile, hp⟩
      refine ⟨key, by rw [keyFileAt_congr hget, hkey], fun _ => rfl, fun _ name _ => ?_⟩
      unfold SameValue
      split_ifs <;> rfl
  · intro path hnone
    refine h.kept path fun ref file htouched hfile hp => ?_
    obtain ⟨key, hkey, -⟩ := hs.onDisk ref file ⟨htouched.imp fun _ hid => hid.2, hfile⟩
    rw [hp, hnone] at hkey
    exact absurd hkey (by simp)

/-- Flags set in memory, then the touched objects saved: the invariant is back,
and the disk has changed in these flags only. -/
theorem enabled_saved (hs : Coherent codec s.1 s.2) (h : SavesEnabled codec repos value s t) :
    Coherent codec t.1 t.2 ∧ SetsOnDisk codec s.1 repos value s.2 t.2 := by
  have hsaved := saved_of_savesEnabled hs h
  exact ⟨hsaved.coherent hs, hsaved.setsOnDisk hs⟩

end

theorem enable_ok {repo : String} {value : Bool} {s t : RPMRepoManager × FS} {u : Unit}
    (hs : Coherent codec s.1 s.2) (h : enable codec repo value s = .ok u t) :
    Coherent codec t.1 t.2 ∧ SetsOnDisk codec s.1 [repo] value s.2 t.2 :=
  enabled_saved hs (savesEnabled_enable h)

theorem enableAll_ok {order : WalkOrder} {repos : List String} {value : Bool}
    {s t : RPMRepoManager × FS} {u : Unit} (hs : Coherent codec s.1 s.2)
    (h : enableAll codec order repos value s = .ok u t) :
    Coherent codec t.1 t.2 ∧ SetsOnDisk codec s.1 repos value s.2 t.2 :=
  enabled_saved hs (savesEnabled_enableAll h)

/-! ### Whole runs -/

theorem coherent_call (hdry : opts.dryRun = false) (call : Call) {s t : RPMRepoManager × FS}
    {u : Unit} (hs : Coherent codec s.1 s.2) (h : call.run opts codec s = .ok u t) :
    Coherent codec t.1 t.2 := by
  cases call with
  | install source => exact coherent_install hdry hs h
  | loadDir path => exact coherent_loadDir hdry hs h
  | enable repo value => exact (enable_ok hs h).1
  | enableAll order repos value => exact (enableAll_ok hs h).1

theorem coherent_calls (hdry : opts.dryRun = false) {calls : List Call} {fs : FS}
    {t : RPMRepoManager × FS} {u : Unit} (h : calls.forM (Call.run opts codec) ({}, fs) = .ok u t) :
    Coherent codec t.1 t.2 :=
  forM_ok_induction (P := fun s => Coherent codec s.1 s.2)
    (fun call _ _ _ hs hrun => coherent_call hdry call hs hrun) (coherent_empty fs) h

/-- In every state that calls on a new manager reach, index, memory and disk
agree, and the next call that enables changes on disk what it says and no more. -/
theorem inSync_of_calls (hdry : opts.dryRun = false) {calls : List Call} {fs : FS}
    {s : RPMRepoManager × FS} (h : calls.forM (Call.run opts codec) ({}, fs) = .ok () s) :
    InSync codec s.1 s.2 ∧
      (∀ repo value t, enable codec repo value s = .ok () t →
        SetsOnDisk codec s.1 [repo] value s.2 t.2) ∧
      ∀ order repos value t, enableAll codec order repos value s = .ok () t →
        SetsOnDisk codec s.1 repos value s.2 t.2 := by
  have hs : Coherent codec s.1 s.2 := coherent_calls hdry h
  exact ⟨hs.inSync, fun _ _ _ henable => (enable_ok hs henable).2,
    fun _ _ _ _ henable => (enableAll_ok hs henable).2⟩

/-- A repository file outside the base directory. -/
def downloaded : FS :=
  { nodes := ⟨[(["etc"], .dir), (basedir, .dir), (["tmp"], .dir),
    (["tmp", "epel.repo"], .file "[epel]\nname=EPEL\nenabled=1\ngpgcheck=0\n")], by decide⟩ }

theorem inSync_downloaded :
    ∃ s, [Call.install ["tmp", "epel.repo"], .enable "epel" false].forM
        (Call.run {} GKeyFile.text) ({}, downloaded) = .ok () s ∧ InSync GKeyFile.text s.1 s.2 := by
  have hreturns : outcome ([Call.install ["tmp", "epel.repo"], .enable "epel" false].forM
      (Call.run {} GKeyFile.text) ({}, downloaded)) = .ok () := by
    decide +kernel
  obtain ⟨s, h⟩ := outcome_ok_iff.mp hreturns
  exact ⟨s, h, (inSync_of_calls rfl h).1⟩

end RPMRepoManager

end Cloyster
