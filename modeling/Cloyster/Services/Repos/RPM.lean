import Cloyster.Functions
import Cloyster.Services.KeyFile

/-! RPM repositories and the `.repo` files that hold them. A file is parsed into
a map from identifiers to repositories, one for each group; writing merges the
known keys of each repository into whatever the file holds at that moment. -/

namespace Cloyster

open Lib

structure RPMRepository where
  id : String := ""
  enabled : Bool := true
  name : String := ""
  baseurl : Option String := none
  metalink : Option String := none
  gpgkey : Option String := none
  gpgcheck : Bool := true
  source : String := ""
  group : String := ""
  deriving DecidableEq

/-- Repositories by identifier, in the order of a `std::map`. -/
abbrev RepoMap := Std.TreeMap String RPMRepository

section

variable {β : Type} {m : Std.TreeMap String β} {id : String}

theorem exists_getElem? (h : id ∈ m) : ∃ b, m[id]? = some b :=
  ⟨m[id], Std.TreeMap.getElem?_eq_some_getElem h⟩

theorem mem_of_getElem? {b : β} (h : m[id]? = some b) : id ∈ m := by
  rw [Std.TreeMap.mem_iff_isSome_getElem?, h]
  rfl

theorem not_mem_of_getElem? (h : m[id]? = none) : id ∉ m := by
  rw [Std.TreeMap.mem_iff_isSome_getElem?, h]
  simp

end

namespace RPMRepositoryParser

/-- One group of a `.repo` file. -/
def parseRepo (codec : GKeyFile) (source : String) (file : KeyFile) (repogroup : String) :
    Except Exn RPMRepository := do
  let name ← file.getString repogroup "name"
  throwIf (name = "") (.runtimeError s!"Could not load repo name from repo '{repogroup}'")
  let metalink ← file.getStringOpt repogroup "metalink"
  let baseurl ← file.getStringOpt repogroup "baseurl"
  let enabled ← file.getBoolean codec repogroup "enabled"
  let gpgcheck ← file.getBoolean codec repogroup "gpgcheck"
  let gpgkey ← file.getStringOpt repogroup "gpgkey"
  return { id := repogroup, group := repogroup, name, metalink, baseurl, enabled, gpgcheck,
           gpgkey, source }

def parseRepos (codec : GKeyFile) (source : String) (file : KeyFile) (output : RepoMap) :
    List String → Except Exn RepoMap
  | [] => .ok output
  | repogroup :: groups => do
    let repo ← parseRepo codec source file repogroup
    parseRepos codec source file (output.insertIfNew repo.id repo) groups

variable (codec : GKeyFile)

def parse (path : Path) (output : RepoMap) : FsM RepoMap := do
  let file ← KeyFile.open codec path
  liftExcept (parseRepos codec path.toText file output file.getGroups)

/-- Write the known keys of a repository. -/
def unparseRepo (file : KeyFile) (repo : RPMRepository) : KeyFile :=
  let file := file.setString repo.group "name" repo.name
  let file := file.setBoolean repo.group "enabled" repo.enabled
  let file := file.setBoolean repo.group "gpgcheck" repo.gpgcheck
  let file := file.setStringOpt repo.group "gpgkey" repo.gpgkey
  let file := file.setStringOpt repo.group "metalink" repo.metalink
  file.setStringOpt repo.group "baseurl" repo.baseurl

def unparseRepos (file : KeyFile) (repos : RepoMap) : KeyFile :=
  repos.toList.foldl (fun file entry => unparseRepo file entry.2) file

def unparse (repos : RepoMap) (path : Path) : FsM Unit := do
  let file ← KeyFile.open codec path
  KeyFile.save codec path (unparseRepos file repos)

end RPMRepositoryParser

/-- A file of `/etc/yum.repos.d` with the repositories read from it. -/
structure RPMRepositoryFile where
  path : Path
  repos : RepoMap

def RPMRepositoryFile.save (codec : GKeyFile) (file : RPMRepositoryFile) : FsM Unit :=
  RPMRepositoryParser.unparse codec file.repos file.path

namespace RPMRepositoryParser

variable {codec : GKeyFile} {file : KeyFile} {source : String}

/-! ### What writing does to a key file -/

/-- The value a repository gives to a key, where it gives one. -/
def knownValue (repo : RPMRepository) (key : String) : Option String :=
  if key = "name" then some repo.name
  else if key = "enabled" then some (if repo.enabled then "true" else "false")
  else if key = "gpgcheck" then some (if repo.gpgcheck then "true" else "false")
  else if key = "gpgkey" then repo.gpgkey
  else if key = "metalink" then repo.metalink
  else if key = "baseurl" then repo.baseurl
  else none

theorem value?_setBoolean (g k : String) (b : Bool) (group key : String) :
    (file.setBoolean g k b).value? group key =
      if group = g ∧ key = k then some (if b then "true" else "false")
      else file.value? group key :=
  KeyFile.value?_setString g k _

/-- Writing a repository sets its known keys in its own group and nothing else. -/
theorem value?_unparseRepo (repo : RPMRepository) (group key : String) :
    (unparseRepo file repo).value? group key =
      if group = repo.group then (knownValue repo key).or (file.value? group key)
      else file.value? group key := by
  simp only [unparseRepo, KeyFile.value?_setStringOpt, value?_setBoolean, KeyFile.value?_setString]
  by_cases hg : group = repo.group
  · simp only [hg, true_and, if_true, knownValue]
    by_cases hkey : key ∈ ["name", "enabled", "gpgcheck", "gpgkey", "metalink", "baseurl"]
    · simp only [List.mem_cons, List.not_mem_nil, or_false] at hkey
      rcases hkey with rfl | rfl | rfl | rfl | rfl | rfl <;> simp
    · simp only [List.mem_cons, List.not_mem_nil, or_false, not_or] at hkey
      simp [hkey]
  · simp [hg]

theorem mem_getGroups_setStringOpt (g k : String) (v : Option String) (group : String) :
    group ∈ (file.setStringOpt g k v).getGroups ↔
      group = g ∧ v.isSome ∨ group ∈ file.getGroups := by
  cases v with
  | none => simp [KeyFile.setStringOpt]
  | some v => simp [KeyFile.setStringOpt, KeyFile.mem_getGroups_setString]

theorem mem_getGroups_unparseRepo (repo : RPMRepository) (group : String) :
    group ∈ (unparseRepo file repo).getGroups ↔ group = repo.group ∨ group ∈ file.getGroups := by
  simp only [unparseRepo, KeyFile.setBoolean, mem_getGroups_setStringOpt,
    KeyFile.mem_getGroups_setString]
  tauto

/-! ### What reading sees -/

/-- The repository is what the group says. -/
structure Reads (codec : GKeyFile) (source : String) (file : KeyFile) (repo : RPMRepository) :
    Prop where
  group : repo.group = repo.id
  source : repo.source = source
  name : file.value? repo.id "name" = some repo.name
  name_ne : repo.name ≠ ""
  enabled : (file.value? repo.id "enabled").bind codec.parseBoolean = some repo.enabled
  gpgcheck : (file.value? repo.id "gpgcheck").bind codec.parseBoolean = some repo.gpgcheck
  gpgkey : file.value? repo.id "gpgkey" = repo.gpgkey
  metalink : file.value? repo.id "metalink" = repo.metalink
  baseurl : file.value? repo.id "baseurl" = repo.baseurl

theorem getBoolean_ok_iff {group key : String} {b : Bool} :
    file.getBoolean codec group key = .ok b ↔
      (file.value? group key).bind codec.parseBoolean = some b := by
  unfold KeyFile.getBoolean
  cases (file.value? group key).bind codec.parseBoolean <;> simp

theorem parseRepo_ok_iff {repogroup : String} {repo : RPMRepository} :
    parseRepo codec source file repogroup = .ok repo ↔
      Reads codec source file repo ∧ repo.id = repogroup := by
  simp only [parseRepo, except_bind_ok_iff, throwIf_ok_iff, KeyFile.getString_ok_iff,
    KeyFile.getStringOpt_ok_iff, getBoolean_ok_iff, except_pure_ok_iff]
  constructor
  · rintro ⟨name, hname, -, hne, metalink, ⟨-, hm⟩, baseurl, ⟨-, hb⟩, enabled, he, gpgcheck, hg,
      gpgkey, ⟨-, hk⟩, rfl⟩
    exact ⟨⟨rfl, rfl, hname, hne, he, hg, hk, hm, hb⟩, rfl⟩
  · rintro ⟨h, rfl⟩
    have hgroup := KeyFile.hasGroup_of_value? h.name
    refine ⟨_, h.name, (), h.name_ne, _, ⟨hgroup, h.metalink⟩, _, ⟨hgroup, h.baseurl⟩, _,
      h.enabled, _, h.gpgcheck, _, ⟨hgroup, h.gpgkey⟩, ?_⟩
    obtain ⟨id, enabled, name, baseurl, metalink, gpgkey, gpgcheck, src, group⟩ := repo
    obtain rfl : group = id := h.group
    obtain rfl : src = source := h.source
    rfl

/-- Reading succeeds exactly when every group can be read; the result has one
repository for each group, and keeps what was there before. -/
theorem parseRepos_ok {groups : List String} {output repos : RepoMap}
    (h : parseRepos codec source file output groups = .ok repos) (id : String) :
    repos[id]? = (output[id]?).or
      (if id ∈ groups then (parseRepo codec source file id).toOption else none) := by
  induction groups generalizing output with
  | nil =>
    obtain rfl : output = repos := by simpa [parseRepos] using h
    simp
  | cons repogroup groups ih =>
    simp only [parseRepos, except_bind_ok_iff] at h
    obtain ⟨repo, hrepo, hrest⟩ := h
    obtain rfl : repo.id = repogroup := (parseRepo_ok_iff.mp hrepo).2
    rw [ih hrest, Std.TreeMap.getElem?_insertIfNew]
    simp only [Std.LawfulEqCmp.compare_eq_iff_eq]
    by_cases hid : repo.id = id
    · subst hid
      simp only [List.mem_cons, true_or, if_true, hrepo, true_and]
      cases hout : output[repo.id]? with
      | some old =>
        have hmem : repo.id ∈ output := mem_of_getElem? hout
        simp [hmem]
      | none =>
        have hmem : repo.id ∉ output := not_mem_of_getElem? hout
        simp [hmem, Except.toOption]
    · simp [hid, Ne.symm hid]

/-- Reading succeeds when every group can be read. -/
theorem parseRepos_exists_iff (source : String) (groups : List String) (output : RepoMap) :
    (∃ repos, parseRepos codec source file output groups = .ok repos) ↔
      ∀ repogroup ∈ groups, ∃ repo, parseRepo codec source file repogroup = .ok repo := by
  induction groups generalizing output with
  | nil => simp [parseRepos]
  | cons repogroup groups ih =>
    simp only [parseRepos, except_bind_ok_iff, List.forall_mem_cons]
    constructor
    · rintro ⟨repos, repo, hrepo, hrest⟩
      exact ⟨⟨repo, hrepo⟩, (ih _).mp ⟨repos, hrest⟩⟩
    · rintro ⟨⟨repo, hrepo⟩, hgroups⟩
      obtain ⟨repos, hrepos⟩ := (ih (output.insertIfNew repo.id repo)).mpr hgroups
      exact ⟨repos, repo, hrepo, hrepos⟩

/-! ### Writing a whole map -/

/-- Every repository is filed under its own identifier and has a name. -/
def WellKeyed (repos : RepoMap) : Prop :=
  ∀ (id : String) (repo : RPMRepository), repos[id]? = some repo →
    repo.id = id ∧ repo.group = id ∧ repo.name ≠ ""

/-- A list of repositories with distinct groups, written one after another. -/
theorem value?_foldl_unparseRepo {l : List (String × RPMRepository)}
    (hgroup : ∀ e ∈ l, e.2.group = e.1) (hnodup : (l.map Prod.fst).Nodup) (group key : String) :
    (l.foldl (fun file e => unparseRepo file e.2) file).value? group key =
      ((l.lookup group).bind (knownValue · key)).or (file.value? group key) := by
  induction l generalizing file with
  | nil => rfl
  | cons e l ih =>
    rw [List.forall_mem_cons] at hgroup
    rw [List.map_cons, List.nodup_cons] at hnodup
    rw [List.foldl_cons, ih hgroup.2 hnodup.2, value?_unparseRepo, hgroup.1, lookup_cons_eq]
    by_cases he : e.1 = group
    · have hnone : l.lookup group = none := by
        rw [List.lookup_eq_none_iff]
        intro x hx
        have hne : x.1 ≠ group := by
          rintro rfl
          exact hnodup.1 (he ▸ List.mem_map_of_mem hx)
        simpa using Ne.symm hne
      rw [if_pos he, if_pos he.symm, hnone]
      rfl
    · rw [if_neg he, if_neg (Ne.symm he)]

theorem mem_getGroups_foldl_unparseRepo {l : List (String × RPMRepository)}
    (hgroup : ∀ e ∈ l, e.2.group = e.1) (group : String) :
    group ∈ (l.foldl (fun file e => unparseRepo file e.2) file).getGroups ↔
      group ∈ l.map Prod.fst ∨ group ∈ file.getGroups := by
  induction l generalizing file with
  | nil => simp
  | cons e l ih =>
    rw [List.forall_mem_cons] at hgroup
    rw [List.foldl_cons, ih hgroup.2, mem_getGroups_unparseRepo, hgroup.1, List.map_cons,
      List.mem_cons]
    tauto

variable {repos : RepoMap}

theorem lookup_toList (repos : RepoMap) (id : String) : repos.toList.lookup id = repos[id]? := by
  have hnodup : (repos.toList.map Prod.fst).Nodup := by
    rw [Std.TreeMap.map_fst_toList_eq_keys]
    exact Std.TreeMap.nodup_keys
  have hget := fun repo => OrdMap.get?_of_mem_entries (m := ⟨repos.toList, hnodup⟩) (a := id) (b := repo)
  cases h : repos[id]? with
  | some repo => exact hget repo (Std.TreeMap.mem_toList_iff_getElem?_eq_some.mpr h)
  | none =>
    rw [List.lookup_eq_none_iff]
    intro e he
    have hne : e.1 ≠ id := by
      rintro rfl
      rw [Std.TreeMap.mem_toList_iff_getElem?_eq_some.mp he] at h
      exact absurd h (by simp)
    simpa using Ne.symm hne

theorem group_of_mem_toList (h : WellKeyed repos) : ∀ e ∈ repos.toList, e.2.group = e.1 :=
  fun e he => (h e.1 e.2 (Std.TreeMap.mem_toList_iff_getElem?_eq_some.mp he)).2.1

/-- Writing a map sets the known keys of its repositories and nothing else. -/
theorem value?_unparseRepos (h : WellKeyed repos) (group key : String) :
    (unparseRepos file repos).value? group key =
      (repos[group]?.bind (knownValue · key)).or (file.value? group key) := by
  have hnodup : (repos.toList.map Prod.fst).Nodup := by
    rw [Std.TreeMap.map_fst_toList_eq_keys]
    exact Std.TreeMap.nodup_keys
  rw [unparseRepos, value?_foldl_unparseRepo (group_of_mem_toList h) hnodup, lookup_toList]

theorem mem_getGroups_unparseRepos (h : WellKeyed repos) (group : String) :
    group ∈ (unparseRepos file repos).getGroups ↔ group ∈ repos ∨ group ∈ file.getGroups := by
  rw [unparseRepos, mem_getGroups_foldl_unparseRepo (group_of_mem_toList h),
    Std.TreeMap.map_fst_toList_eq_keys, Std.TreeMap.mem_keys]

/-! ### Files that parse -/

/-- Every group of the file is a repository. -/
def Parseable (codec : GKeyFile) (file : KeyFile) : Prop :=
  ∀ repogroup ∈ file.getGroups, ∀ source, ∃ repo, parseRepo codec source file repogroup = .ok repo

theorem parseable_empty : Parseable codec ∅ := fun _ h => absurd h List.not_mem_nil

theorem parseRepo_exists_iff (source repogroup : String) :
    (∃ repo, parseRepo codec source file repogroup = .ok repo) ↔
      (∃ name, file.value? repogroup "name" = some name ∧ name ≠ "") ∧
        (∃ b, (file.value? repogroup "enabled").bind codec.parseBoolean = some b) ∧
        ∃ b, (file.value? repogroup "gpgcheck").bind codec.parseBoolean = some b := by
  simp only [parseRepo_ok_iff]
  constructor
  · rintro ⟨repo, h, rfl⟩
    exact ⟨⟨_, h.name, h.name_ne⟩, ⟨_, h.enabled⟩, _, h.gpgcheck⟩
  · rintro ⟨⟨name, hname, hne⟩, ⟨enabled, he⟩, gpgcheck, hg⟩
    exact ⟨⟨repogroup, enabled, name, file.value? repogroup "baseurl",
      file.value? repogroup "metalink", file.value? repogroup "gpgkey", gpgcheck, source,
      repogroup⟩, ⟨rfl, rfl, hname, hne, he, hg, rfl, rfl, rfl⟩, rfl⟩

/-- Writing well keyed repositories into a file that parses gives a file that parses. -/
theorem parseable_unparseRepos (hfile : Parseable codec file) (h : WellKeyed repos) :
    Parseable codec (unparseRepos file repos) := by
  intro group hm source
  rw [parseRepo_exists_iff]
  simp only [value?_unparseRepos h]
  cases hr : repos[group]? with
  | some repo =>
    refine ⟨⟨repo.name, rfl, (h group repo hr).2.2⟩, ⟨repo.enabled, ?_⟩, repo.gpgcheck, ?_⟩
    · simp [knownValue, codec.parseBoolean_text]
    · simp [knownValue, codec.parseBoolean_text]
  | none =>
    have hold := ((mem_getGroups_unparseRepos h group).mp hm).resolve_left (not_mem_of_getElem? hr)
    exact (parseRepo_exists_iff source group).mp (hfile group hold source)

/-- Parsing a file that parses gives its groups. -/
theorem parse_of_parseable {fs : FS} {path : Path} (h : keyFileAt codec fs path = some file)
    (hfile : Parseable codec file) :
    ∃ output, parse codec path ∅ fs = .ok output fs ∧ ∀ id, id ∈ output ↔ id ∈ file.getGroups := by
  obtain ⟨output, hout⟩ := (parseRepos_exists_iff path.toText file.getGroups ∅).mpr
    fun group hm => hfile group hm path.toText
  refine ⟨output, ?_, fun id => ?_⟩
  · rw [parse, bind_of_ok (KeyFile.open_of_keyFileAt h), hout]
    rfl
  · rw [Std.TreeMap.mem_iff_isSome_getElem?, parseRepos_ok hout]
    by_cases hm : id ∈ file.getGroups
    · obtain ⟨repo, hrepo⟩ := hfile id hm path.toText
      simp [hm, hrepo, Except.toOption]
    · simp [hm]

end RPMRepositoryParser

end Cloyster
