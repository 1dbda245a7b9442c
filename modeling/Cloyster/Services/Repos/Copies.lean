import Cloyster.Services.Repos.Outside

/-! Copies in memory that say the same. What a call does depends on what lookups in the
copies give and not on how the copies are kept. Writing a copy over a file that has been
written from it leaves what writing it once leaves, as the flags are the only keys that
change in between and every key stands in the file already. -/

namespace Cloyster

open Lib RPMRepositoryParser

namespace RPMRepoManager

variable {repos repos' repos'' : RepoMap} {p : String → Prop} [DecidablePred p] {value : Bool}

/-- Lookups give the same. -/
def SameRepos (repos repos' : RepoMap) : Prop := ∀ id : String, repos'[id]? = repos[id]?

omit [DecidablePred p] in
theorem SameRepos.toList (h : SameRepos repos repos') : repos'.toList = repos.toList :=
  (Std.TreeMap.Equiv.of_forall_constGet?_eq h).toList_eq

theorem SameRepos.unparseRepos (h : SameRepos repos repos') (file : KeyFile) :
    unparseRepos file repos' = unparseRepos file repos := by
  rw [RPMRepositoryParser.unparseRepos, RPMRepositoryParser.unparseRepos, h.toList]

/-! ### The keys of a repository -/

/-- The keys that a repository is written to, and the values. -/
def entriesOf (repo : RPMRepository) : List ((String × String) × String) :=
  [((repo.group, "name"), repo.name),
    ((repo.group, "enabled"), if repo.enabled then "true" else "false"),
    ((repo.group, "gpgcheck"), if repo.gpgcheck then "true" else "false")] ++
  ((repo.gpgkey.map fun v => ((repo.group, "gpgkey"), v)).toList ++
    ((repo.metalink.map fun v => ((repo.group, "metalink"), v)).toList ++
      (repo.baseurl.map fun v => ((repo.group, "baseurl"), v)).toList))

theorem setAll_option (file : KeyFile) (group key : String) (v : Option String) :
    file.setAll (v.map fun v => ((group, key), v)).toList = file.setStringOpt group key v := by
  cases v <;> rfl

theorem unparseRepo_eq (file : KeyFile) (repo : RPMRepository) :
    unparseRepo file repo = file.setAll (entriesOf repo) := by
  rw [entriesOf, KeyFile.setAll_append, KeyFile.setAll_append, KeyFile.setAll_append,
    setAll_option, setAll_option, setAll_option]
  rfl

theorem unparseRepos_eq (file : KeyFile) (repos : RepoMap) :
    unparseRepos file repos = file.setAll (repos.toList.flatMap fun entry => entriesOf entry.2) := by
  unfold RPMRepositoryParser.unparseRepos
  generalize repos.toList = entries
  induction entries generalizing file with
  | nil => rfl
  | cons entry entries ih =>
    rw [List.foldl_cons, ih, List.flatMap_cons, KeyFile.setAll_append, unparseRepo_eq]

theorem group_of_mem_entriesOf {repo : RPMRepository} {key : String × String}
    (h : key ∈ (entriesOf repo).map Prod.fst) : key.1 = repo.group := by
  obtain ⟨entry, hentry, rfl⟩ := List.mem_map.mp h
  simp only [entriesOf, List.mem_append, List.mem_cons, List.not_mem_nil, or_false,
    Option.mem_toList, Option.map_eq_some_iff] at hentry
  rcases hentry with (rfl | rfl | rfl) | ⟨v, -, rfl⟩ | ⟨v, -, rfl⟩ | ⟨v, -, rfl⟩ <;> rfl

theorem nodup_entriesOf (repo : RPMRepository) : ((entriesOf repo).map Prod.fst).Nodup := by
  unfold entriesOf
  cases repo.gpgkey <;> cases repo.metalink <;> cases repo.baseurl <;> simp

/-- Every key is written once. -/
theorem nodup_entries (h : WellKeyed repos) :
    ((repos.toList.flatMap fun entry => entriesOf entry.2).map Prod.fst).Nodup := by
  rw [List.map_flatMap, List.nodup_flatMap]
  refine ⟨fun entry _ => nodup_entriesOf entry.2, ?_⟩
  have hdistinct : repos.toList.Pairwise fun e e' => e.1 ≠ e'.1 := by
    rw [← List.pairwise_map, Std.TreeMap.map_fst_toList_eq_keys]
    exact Std.TreeMap.nodup_keys
  have hgroup := group_of_mem_toList h
  refine hdistinct.imp_of_mem fun {e e'} he he' hne => ?_
  intro key hkey hkey'
  apply hne
  rw [← hgroup e he, ← hgroup e' he', ← group_of_mem_entriesOf hkey,
    ← group_of_mem_entriesOf hkey']

theorem Updated.toList (h : Updated p value repos repos') : repos'.toList =
    repos.toList.map fun entry =>
      (entry.1, { entry.2 with enabled := if p entry.1 then value else entry.2.enabled }) := by
  have hsame : SameRepos (repos.map fun id repo =>
      { repo with enabled := if p id then value else repo.enabled }) repos' := by
    intro id
    rw [Std.TreeMap.getElem?_map, h id]
  exact hsame.toList.trans Std.TreeMap.toList_map

/-- Only the flags have changed in between. -/
theorem unparseRepos_unparseRepos (hkeyed : WellKeyed repos)
    (hupd : Updated p value repos repos') (file : KeyFile) :
    unparseRepos (unparseRepos file repos) repos' = unparseRepos file repos' := by
  have hkeys : (repos'.toList.flatMap fun entry => entriesOf entry.2).map Prod.fst =
      (repos.toList.flatMap fun entry => entriesOf entry.2).map Prod.fst := by
    rw [hupd.toList, List.flatMap_map, List.map_flatMap, List.map_flatMap]
    apply List.flatMap_congr
    intro entry _
    simp [entriesOf, Function.comp_def, Option.toList_map]
  rw [unparseRepos_eq, unparseRepos_eq, unparseRepos_eq]
  exact KeyFile.setAll_setAll hkeys (nodup_entries hkeyed) file

/-! ### Managers that say the same -/

structure SameFile (file file' : RPMRepositoryFile) : Prop where
  path : file'.path = file.path
  repos : SameRepos file.repos file'.repos

/-- The same index, and objects that say the same. In particular all flags are the same. -/
structure SameManager (manager manager' : RPMRepoManager) : Prop where
  filesIdx : manager'.filesIdx = manager.filesIdx
  length : manager'.files.length = manager.files.length
  files : ∀ (ref : ℕ) (file : RPMRepositoryFile), manager.files[ref]? = some file →
    ∃ file', manager'.files[ref]? = some file' ∧ SameFile file file'

/-- Two updates where the predicates agree. -/
theorem Updated.same {q : String → Prop} [DecidablePred q] (h : Updated p value repos repos')
    (h' : Updated q value repos repos'') (hpq : ∀ id, p id ↔ q id) : SameRepos repos' repos'' := by
  intro id
  rw [h id, h' id]
  simp only [hpq]

variable {manager manager' manager'' : RPMRepoManager} {ids ids' : List String}

theorem Enabled.length (h : Enabled manager manager' ids value) :
    manager'.files.length = manager.files.length := by
  have hlt := fun ref => not_congr (h.none_iff ref)
  simp only [List.getElem?_eq_none_iff, not_le] at hlt
  have hle := hlt manager.files.length
  have hge := hlt manager'.files.length
  omega

/-- Enabling the same repositories gives managers that say the same. -/
theorem Enabled.same (h : Enabled manager manager' ids value)
    (h' : Enabled manager manager'' ids' value) (hids : ∀ id, id ∈ ids ↔ id ∈ ids') :
    SameManager manager' manager'' := by
  refine ⟨h'.filesIdx.trans h.filesIdx.symm, h'.length.trans h.length.symm,
    fun ref file' hfile' => ?_⟩
  obtain ⟨file, hfile, hpath, hupd⟩ := h.back hfile'
  obtain ⟨file'', hfile'', hpath', hupd'⟩ := h'.files ref file hfile
  exact ⟨file'', hfile'', hpath'.trans hpath.symm, hupd.same hupd' fun id => by rw [hids]⟩

/-- The flag of a repository in the copy it maps to. -/
def HasFlag (manager : RPMRepoManager) (value : Bool) (id : String) : Prop :=
  ∀ (ref : ℕ) (repo : RPMRepository), manager.filesIdx[id]? = some ref →
    definition manager id ref = some repo → repo.enabled = value

/-- Enabling what is enabled already changes nothing that a lookup would notice. -/
theorem Enabled.same_of_hasFlag (h : Enabled manager manager' ids value)
    (hflags : ∀ id ∈ ids, HasFlag manager value id) : SameManager manager manager' := by
  refine ⟨h.filesIdx, h.length, fun ref file hfile => ?_⟩
  obtain ⟨file', hfile', hpath, hupd⟩ := h.files ref file hfile
  refine ⟨file', hfile', hpath, fun id => ?_⟩
  rw [hupd id]
  cases hrepo : file.repos[id]? with
  | none => rfl
  | some repo =>
    have hdef : definition manager id ref = some repo :=
      definition_eq_some.mpr ⟨file, hfile, hrepo⟩
    rw [Option.map_some]
    split_ifs with hset
    · rw [← hflags id hset.1 ref repo hset.2 hdef]
    · rfl

end RPMRepoManager

end Cloyster
