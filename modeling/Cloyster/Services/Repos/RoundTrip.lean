import Cloyster.Services.Repos.Generator

/-! Writing repositories to a file and parsing the file again. Writing merges
into what the file holds: it sets the keys a repository has and removes none, so
a key that the repository lacks comes back with the value the file had before,
and a group of the old file that is no repository stops the parser. -/

namespace Cloyster

open Lib

namespace RPMRepositoryParser

/-- The path is a regular file, or nothing yet in a directory that exists. -/
def Target (fs : FS) (path : Path) : Prop :=
  fs.isRegular path ∨ path ≠ [] ∧ fs.get? path = none ∧ fs.isDir path.parent

/-- The six keys are those of the repository. -/
structure SameFields (repo repo' : RPMRepository) : Prop where
  name : repo'.name = repo.name
  enabled : repo'.enabled = repo.enabled
  gpgcheck : repo'.gpgcheck = repo.gpgcheck
  gpgkey : repo'.gpgkey = repo.gpgkey
  metalink : repo'.metalink = repo.metalink
  baseurl : repo'.baseurl = repo.baseurl

/-- Parsing after writing gives every repository of the map back. -/
def RoundTrips (codec : GKeyFile) (repos : RepoMap) (path : Path) (fs : FS) : Prop :=
  ∃ fs' output, unparse codec repos path fs = .ok () fs' ∧
    parse codec path ∅ fs' = .ok output fs' ∧
    ∀ (id : String) (repo : RPMRepository), repos[id]? = some repo →
      ∃ repo' : RPMRepository, output[id]? = some repo' ∧ SameFields repo repo'

/-- The old content is a key file, and each group the map does not have is a repository. -/
def Mergeable (codec : GKeyFile) (repos : RepoMap) (path : Path) (fs : FS) : Prop :=
  ∃ old, startingFile codec fs path = some old ∧
    ∀ group ∈ old.getGroups, group ∉ repos →
      ∃ repo, parseRepo codec path.toText old group = .ok repo

/-- A repository with the optional keys it lacks filled in from its old group. -/
def filledFrom (old : KeyFile) (repo : RPMRepository) : RPMRepository :=
  { repo with
    gpgkey := repo.gpgkey.or (old.value? repo.group "gpgkey")
    metalink := repo.metalink.or (old.value? repo.group "metalink")
    baseurl := repo.baseurl.or (old.value? repo.group "baseurl") }

/-- Writing and parsing return, and what comes back is the map merged into the old file. -/
def RoundTripsMerged (codec : GKeyFile) (repos : RepoMap) (path : Path) (fs : FS) : Prop :=
  ∃ old fs' output, startingFile codec fs path = some old ∧
    unparse codec repos path fs = .ok () fs' ∧ parse codec path ∅ fs' = .ok output fs' ∧
    ∀ (id : String) (repo : RPMRepository), repos[id]? = some repo →
      ∃ repo' : RPMRepository, output[id]? = some repo' ∧ SameFields (filledFrom old repo) repo'

variable {codec : GKeyFile} {repos : RepoMap} {path : Path} {fs fs' : FS} {old : KeyFile}

/-- Writing to a target gives the merged file, if the old content is a key file. -/
theorem unparse_ok_iff (htarget : Target fs path) :
    unparse codec repos path fs = .ok () fs' ↔ ∃ old, startingFile codec fs path = some old ∧
      fs' = fs.set path (.file (codec.toData (unparseRepos old repos))) := by
  have hwrite : ∀ text, fs.write path text = .ok (fs.set path (.file text)) := by
    intro text
    rcases htarget with hfile | ⟨hne, hnone, hdir⟩
    · obtain ⟨s, hs⟩ := FS.isRegular_iff.mp hfile
      simp [FS.write, hs]
    · simp [FS.write, hnone, hne, hdir]
  rw [unparse]
  rcases open_eq codec fs path with ⟨old, hold, hopen⟩ | ⟨hnone, e, he⟩
  · rw [bind_of_ok hopen, KeyFile.save, bind_apply, get_apply]
    simp only [hwrite, set_apply, hold, Option.some.injEq, exists_eq_left', EStateM.Result.ok.injEq,
      true_and]
    exact eq_comm
  · rw [bind_of_error he, hnone]
    simp

/-- The group of a repository after the merge. -/
theorem parseRepo_unparseRepos (old : KeyFile) (h : WellKeyed repos) {id : String} {repo : RPMRepository}
    (hrepo : repos[id]? = some repo) (source : String) :
    ∃ repo', parseRepo codec source (unparseRepos old repos) id = .ok repo' ∧
      SameFields (filledFrom old repo) repo' := by
  obtain ⟨rfl, hgroup, hname⟩ := h id repo hrepo
  have hvalue : ∀ key, (unparseRepos old repos).value? repo.id key =
      (knownValue repo key).or (old.value? repo.id key) := by
    intro key
    rw [value?_unparseRepos h, hrepo, Option.bind_some]
  refine ⟨{ filledFrom old repo with source }, parseRepo_ok_iff.mpr ⟨?_, rfl⟩, ⟨rfl, rfl, rfl, rfl, rfl, rfl⟩⟩
  constructor
  · exact hgroup
  · rfl
  · simp [hvalue, knownValue, filledFrom]
  · exact hname
  · simp [hvalue, knownValue, filledFrom, codec.parseBoolean_text]
  · simp [hvalue, knownValue, filledFrom, codec.parseBoolean_text]
  · simp [hvalue, knownValue, filledFrom, hgroup]
  · simp [hvalue, knownValue, filledFrom, hgroup]
  · simp [hvalue, knownValue, filledFrom, hgroup]

/-- A group that the map does not have reads as it did. -/
theorem parseRepo_exists_of_not_mem (h : WellKeyed repos) {group : String} (hgroup : group ∉ repos)
    (source : String) :
    (∃ repo, parseRepo codec source (unparseRepos old repos) group = .ok repo) ↔
      ∃ repo, parseRepo codec source old group = .ok repo := by
  have hnone : repos[group]? = none := by simpa using hgroup
  have hvalue : ∀ key, (unparseRepos old repos).value? group key = old.value? group key := by
    intro key
    rw [value?_unparseRepos h, hnone]
    rfl
  simp only [parseRepo_exists_iff, hvalue]

/-- The merged file parses exactly when the groups outside the map do. -/
theorem parseRepos_unparseRepos_iff (h : WellKeyed repos) (source : String) :
    (∃ output, parseRepos codec source (unparseRepos old repos) ∅
        (unparseRepos old repos).getGroups = .ok output) ↔
      ∀ group ∈ old.getGroups, group ∉ repos →
        ∃ repo, parseRepo codec source old group = .ok repo := by
  rw [parseRepos_exists_iff]
  constructor
  · intro hall group hm hnot
    exact (parseRepo_exists_of_not_mem h hnot source).mp
      (hall group ((mem_getGroups_unparseRepos h group).mpr (Or.inr hm)))
  · intro hall group hm
    by_cases hin : group ∈ repos
    · obtain ⟨repo, hrepo⟩ := exists_getElem? hin
      obtain ⟨repo', hparse, -⟩ := parseRepo_unparseRepos old h hrepo source
      exact ⟨repo', hparse⟩
    · have hold := ((mem_getGroups_unparseRepos h group).mp hm).resolve_left hin
      exact (parseRepo_exists_of_not_mem h hin source).mpr (hall group hold hin)

/-- Parsing what was written: the run is that of the merged file. -/
theorem parse_written (codec : GKeyFile) (old : KeyFile) (repos : RepoMap) (path : Path) (fs : FS) :
    let written := fs.set path (.file (codec.toData (unparseRepos old repos)))
    parse codec path ∅ written = liftExcept (parseRepos codec path.toText (unparseRepos old repos) ∅
      (unparseRepos old repos).getGroups) written := by
  intro written
  have hkey : keyFileAt codec written path = some (unparseRepos old repos) := by
    rw [keyFileAt_set, if_pos rfl]
  rw [parse, bind_of_ok (KeyFile.open_of_keyFileAt hkey)]

/-- The repositories of the map in what the merged file parses to. -/
theorem parsed_filledFrom (h : WellKeyed repos) {source : String} {output : RepoMap}
    (hout : parseRepos codec source (unparseRepos old repos) ∅ (unparseRepos old repos).getGroups =
      .ok output) {id : String} {repo : RPMRepository} (hrepo : repos[id]? = some repo) :
    ∃ repo' : RPMRepository, output[id]? = some repo' ∧ SameFields (filledFrom old repo) repo' := by
  obtain ⟨repo', hparse, hfields⟩ := parseRepo_unparseRepos old h hrepo source
  have hmem : id ∈ repos := mem_of_getElem? hrepo
  have hgroup : id ∈ (unparseRepos old repos).getGroups :=
    (mem_getGroups_unparseRepos h id).mpr (Or.inl hmem)
  refine ⟨repo', ?_, hfields⟩
  rw [parseRepos_ok hout, if_pos hgroup, hparse]
  simp [Except.toOption]

theorem merged_of_mergeable (h : WellKeyed repos) (htarget : Target fs path)
    (hmerge : Mergeable codec repos path fs) : RoundTripsMerged codec repos path fs := by
  obtain ⟨old, hold, hothers⟩ := hmerge
  obtain ⟨output, hout⟩ := (parseRepos_unparseRepos_iff h path.toText).mpr hothers
  refine ⟨old, _, output, hold, (unparse_ok_iff htarget).mpr ⟨old, hold, rfl⟩, ?_,
    fun _ _ hrepo => parsed_filledFrom h hout hrepo⟩
  rw [parse_written, hout]
  rfl

/-- If writing and parsing return, the old file can be merged into. -/
theorem mergeable_of_parsed (h : WellKeyed repos) (htarget : Target fs path) {output : RepoMap}
    {t : FS} (hwrite : unparse codec repos path fs = .ok () fs')
    (hparse : parse codec path ∅ fs' = .ok output t) : Mergeable codec repos path fs := by
  obtain ⟨old, hold, rfl⟩ := (unparse_ok_iff htarget).mp hwrite
  rw [parse_written, liftExcept_ok_iff] at hparse
  exact ⟨old, hold, (parseRepos_unparseRepos_iff h path.toText).mp ⟨output, hparse.1⟩⟩

/-- Writing into a file and parsing it again returns exactly when the old content
is a key file whose other groups are repositories. Then every repository of the
map comes back, with the optional keys it lacks as the old file had them. -/
theorem roundTripsMerged_iff (h : WellKeyed repos) (htarget : Target fs path) :
    (RoundTripsMerged codec repos path fs ↔ Mergeable codec repos path fs) ∧
      ((∃ fs' t output, unparse codec repos path fs = .ok () fs' ∧
        parse codec path ∅ fs' = .ok output t) ↔ Mergeable codec repos path fs) := by
  refine ⟨⟨?_, merged_of_mergeable h htarget⟩, ?_, fun hmerge => ?_⟩
  · rintro ⟨old, fs', output, -, hwrite, hparse, -⟩
    exact mergeable_of_parsed h htarget hwrite hparse
  · rintro ⟨fs', t, output, hwrite, hparse⟩
    exact mergeable_of_parsed h htarget hwrite hparse
  · obtain ⟨old, fs', output, -, hwrite, hparse, -⟩ := merged_of_mergeable h htarget hmerge
    exact ⟨fs', fs', output, hwrite, hparse⟩

/-- A file whose group gives the key that the new repository does not have. -/
def staleFile : FS :=
  { nodes := ⟨[(["repos"], .dir), (["repos", "epel.repo"],
    .file "[epel]\nname=E\nenabled=1\ngpgcheck=1\nmetalink=m\n")], by decide⟩ }

/-- A file with a group that is no repository. -/
def foreignFile : FS :=
  { nodes := ⟨[(["repos"], .dir), (["repos", "epel.repo"], .file "[main]\n")], by decide⟩ }

def epelRepos : RepoMap :=
  (∅ : RepoMap).insert "epel" { id := "epel", group := "epel", name := "EPEL", baseurl := some "u" }

theorem epelRepos_get {id : String} {repo : RPMRepository} (h : epelRepos[id]? = some repo) :
    id = "epel" ∧ repo = { id := "epel", group := "epel", name := "EPEL", baseurl := some "u" } := by
  simp only [epelRepos, Std.TreeMap.getElem?_insert, Std.LawfulEqCmp.compare_eq_iff_eq,
    Std.TreeMap.getElem?_emptyc] at h
  split_ifs at h with hid
  exact ⟨hid.symm, (Option.some.inj h).symm⟩

theorem wellKeyed_epelRepos : WellKeyed epelRepos := by
  intro id repo h
  obtain ⟨rfl, rfl⟩ := epelRepos_get h
  exact ⟨rfl, rfl, by decide⟩

theorem target_staleFile : Target staleFile ["repos", "epel.repo"] := Or.inl (by decide)

theorem roundTripsMerged_stale :
    RoundTripsMerged GKeyFile.text epelRepos ["repos", "epel.repo"] staleFile := by
  refine (roundTripsMerged_iff wellKeyed_epelRepos target_staleFile).1.mpr ⟨⟨⟨[("epel",
    ⟨[("name", "E"), ("enabled", "1"), ("gpgcheck", "1"), ("metalink", "m")], by decide⟩)],
      by decide⟩⟩, by decide +kernel, ?_⟩
  intro group hm hnot
  have hgroup : group = "epel" := by simpa [KeyFile.getGroups, OrdMap.keys] using hm
  subst hgroup
  exact absurd (by simp [epelRepos]) hnot

/-- A metalink of the old group comes back for a repository without one, and a
group that is no repository stops the parser. -/
theorem not_roundTrips_stale :
    WellKeyed epelRepos ∧ Target staleFile ["repos", "epel.repo"] ∧
      ¬ RoundTrips GKeyFile.text epelRepos ["repos", "epel.repo"] staleFile ∧
      ¬ RoundTrips GKeyFile.text epelRepos ["repos", "epel.repo"] foreignFile := by
  refine ⟨wellKeyed_epelRepos, target_staleFile, ?_, ?_⟩
  · rintro ⟨fs', output, hwrite, hparse, hall⟩
    obtain ⟨old, hold, rfl⟩ := (unparse_ok_iff target_staleFile).mp hwrite
    rw [parse_written, liftExcept_ok_iff] at hparse
    have hrepo : epelRepos["epel"]? =
        some { id := "epel", group := "epel", name := "EPEL", baseurl := some "u" } := by
      simp [epelRepos]
    obtain ⟨repo, hget, hsame⟩ := hall "epel" _ hrepo
    obtain ⟨repo', hget', hfilled⟩ := parsed_filledFrom wellKeyed_epelRepos hparse.1 hrepo
    rw [hget] at hget'
    obtain rfl := Option.some.inj hget'
    have hstale : old.value? "epel" "metalink" = some "m" := by
      have hvalue : (startingFile GKeyFile.text staleFile ["repos", "epel.repo"]).bind
          (·.value? "epel" "metalink") = some "m" := by decide +kernel
      rwa [hold] at hvalue
    have hmetalink := hfilled.metalink
    rw [hsame.metalink, filledFrom] at hmetalink
    simp [hstale] at hmetalink
  · rintro ⟨fs', output, hwrite, hparse, -⟩
    obtain ⟨old, hold, hothers⟩ := mergeable_of_parsed wellKeyed_epelRepos
      (Or.inl (by decide)) hwrite hparse
    have hmain : (startingFile GKeyFile.text foreignFile ["repos", "epel.repo"]) =
        some ⟨⟨[("main", ∅)], by decide⟩⟩ := by decide +kernel
    rw [hmain] at hold
    obtain rfl := Option.some.inj hold
    obtain ⟨repo, hrepo⟩ := hothers "main" (by decide) (by simp [epelRepos])
    have hname := (parseRepo_ok_iff.mp hrepo).1.name
    rw [(parseRepo_ok_iff.mp hrepo).2] at hname
    have hnone : KeyFile.value? ⟨⟨[("main", ∅)], by decide⟩⟩ "main" "name" = none := by decide
    rw [hnone] at hname
    exact absurd hname (by simp)

end RPMRepositoryParser

end Cloyster
