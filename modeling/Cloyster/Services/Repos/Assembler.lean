import Cloyster.Services.Repos.Mirror

/-! Where an assembled repository comes from. The location and the key are taken from one
place, but for an upstream with a key the network is asked about the key twice: once for
the key and once for whether to check it. The two can be at odds when the answer changes
in between. -/

namespace Cloyster.RepoAssembler

open Lib

variable {opts : Options} {answers : Answers} {mirror upstream : RepoPaths}
  {forceUpstream : Bool}

/-- Location and key are those of the mirror. -/
structure FromMirror (opts : Options) (mirror : RepoPaths) (repo : RPMRepository) : Prop where
  baseurl : repo.baseurl = some (MirrorRepo.baseurl opts mirror)
  gpgkey : repo.gpgkey = MirrorRepo.gpgkey opts mirror

/-- The location is upstream's, and so is the key unless it was not found. -/
structure FromUpstream (upstream : RepoPaths) (repo : RPMRepository) : Prop where
  baseurl : repo.baseurl = some (UpstreamRepo.baseurl upstream)
  gpgkey : repo.gpgkey = upstream.gpgkey ∨ repo.gpgkey = none

/-- There is no mirror to be used. -/
def NoMirror (opts : Options) (mirror : RepoPaths) (forceUpstream : Bool) : Prop :=
  opts.disableMirrors ∨ forceUpstream ∨ mirror.repo = ""

/-- What is promised of an assembled repository. -/
structure Assembled (opts : Options) (mirror upstream : RepoPaths) (forceUpstream : Bool)
    (repo : RPMRepository) : Prop where
  origin : FromMirror opts mirror repo ∨ FromUpstream upstream repo
  upstream : NoMirror opts mirror forceUpstream → FromUpstream upstream repo
  gpgcheck : repo.gpgcheck ↔ repo.gpgkey.isSome

/-! ### Which questions are asked -/

/-- The question that decides about the mirror. -/
def mirrorQuery (opts : Options) (mirror : RepoPaths) : Query :=
  if MirrorRepo.isLocalUrl opts.mirrorBaseUrl then
    .mirrorPath (String.ofList ((MirrorRepo.baseurl opts mirror).toList.drop 7))
  else .mirrorUrl (repomd (MirrorRepo.baseurl opts mirror))

/-- How many questions come before those about upstream's key, if upstream is chosen. -/
def questionsBefore (opts : Options) (answers : Answers) (mirror : RepoPaths)
    (forceUpstream : Bool) (n : ℕ) : Option ℕ :=
  if forceUpstream ∨ opts.disableMirrors then some 0
  else if mirror.repo = "" then some 1
  else if answers n (mirrorQuery opts mirror) then none
  else some 2

/-- Upstream is chosen, and its key is there for one of two questions in a row only. -/
def KeyAnswersDiffer (opts : Options) (answers : Answers) (mirror upstream : RepoPaths)
    (forceUpstream : Bool) (n : ℕ) : Prop :=
  ∃ k url, questionsBefore opts answers mirror forceUpstream n = some k ∧
    upstream.gpgkey = some url ∧
    answers (n + k) (.upstreamUrl url) ≠ answers (n + k + 1) (.upstreamUrl url)

theorem mirror_exists_ok {n m : ℕ} {found : Bool}
    (h : MirrorRepo.exists opts answers mirror n = .ok found m) :
    if mirror.repo = "" then found = false ∧ m = n
    else found = answers n (mirrorQuery opts mirror) ∧ m = n + 1 := by
  unfold MirrorRepo.exists at h
  unfold mirrorQuery
  split_ifs at h ⊢ with hempty hlocal
  · obtain ⟨rfl, rfl⟩ := EStateM.Result.ok.inj h
    exact ⟨rfl, rfl⟩
  · obtain ⟨path, t, hpath, hask⟩ := bind_ok_iff.mp h
    obtain ⟨hcut, rfl⟩ := liftExcept_ok_iff.mp hpath
    obtain ⟨-, rfl⟩ := localPath_ok_iff.mp hcut
    obtain ⟨rfl, rfl⟩ := EStateM.Result.ok.inj hask
    exact ⟨rfl, rfl⟩
  · obtain ⟨rfl, rfl⟩ := EStateM.Result.ok.inj h
    exact ⟨rfl, rfl⟩

/-- Choosing follows the answer about the mirror, and asks no more than it has to count. -/
theorem choose_ok {n m : ℕ} {choice : Choice}
    (h : choose opts answers mirror upstream forceUpstream n = .ok choice m) :
    match choice with
    | .UPSTREAM => questionsBefore opts answers mirror forceUpstream n = some (m - n) ∧ n ≤ m
    | .MIRROR => questionsBefore opts answers mirror forceUpstream n = none := by
  unfold choose at h
  unfold questionsBefore
  split_ifs at h with hforce hdisabled
  · obtain ⟨rfl, rfl⟩ := EStateM.Result.ok.inj h
    simp [hforce]
  · obtain ⟨rfl, rfl⟩ := EStateM.Result.ok.inj h
    simp [hdisabled]
  · rw [if_neg (by simp [hforce, hdisabled])]
    obtain ⟨found, t, hexists, hrest⟩ := bind_ok_iff.mp h
    have hasked := mirror_exists_ok hexists
    by_cases hempty : mirror.repo = ""
    · rw [if_pos hempty] at hasked ⊢
      obtain ⟨rfl, rfl⟩ := hasked
      obtain ⟨rfl, rfl⟩ := EStateM.Result.ok.inj hrest
      simp
    · rw [if_neg hempty] at hasked ⊢
      obtain ⟨rfl, rfl⟩ := hasked
      split_ifs at hrest ⊢ with hfound
      · obtain ⟨rfl, rfl⟩ := EStateM.Result.ok.inj hrest
        rfl
      · obtain ⟨rfl, rfl⟩ := EStateM.Result.ok.inj hrest
        refine ⟨?_, by omega⟩
        congr 1
        omega

/-! ### What is assembled -/

theorem upstream_gpgkey_apply (answers : Answers) (upstream : RepoPaths) (n : ℕ) :
    ∃ m, UpstreamRepo.gpgkey answers upstream n =
    .ok (upstream.gpgkey.filter fun url => answers n (.upstreamUrl url)) m ∧
      (upstream.gpgkey.isSome → m = n + 1) := by
  unfold UpstreamRepo.gpgkey
  cases upstream.gpgkey with
  | none => exact ⟨n, rfl, by simp⟩
  | some url =>
    refine ⟨n + 1, ?_, fun _ => rfl⟩
    rw [Option.filter_some]
    rfl

/-- The two answers about upstream's key go into the key and into its check. -/
theorem assemble_ok {repoid : RepoId} {enabled : Bool} {n m : ℕ} {repo : RPMRepository}
    (h : assemble opts answers repoid mirror upstream enabled forceUpstream n = .ok repo m) :
    match questionsBefore opts answers mirror forceUpstream n with
    | none => FromMirror opts mirror repo ∧ repo.gpgcheck = repo.gpgkey.isSome
    | some k =>
      repo.baseurl = some (UpstreamRepo.baseurl upstream) ∧
        repo.gpgkey = (upstream.gpgkey.filter fun url => answers (n + k) (.upstreamUrl url)) ∧
        repo.gpgcheck =
          (upstream.gpgkey.filter fun url => answers (n + k + 1) (.upstreamUrl url)).isSome := by
  obtain ⟨choice, t, hchoose, hrest⟩ := bind_ok_iff.mp h
  have hbefore := choose_ok hchoose
  cases choice with
  | MIRROR =>
    obtain ⟨rfl, -⟩ := EStateM.Result.ok.inj hrest
    rw [hbefore]
    exact ⟨⟨rfl, rfl⟩, rfl⟩
  | UPSTREAM =>
    obtain ⟨hbefore, hle⟩ := hbefore
    obtain ⟨m₁, hkey, hnext⟩ := upstream_gpgkey_apply answers upstream t
    obtain ⟨m₂, hkey', -⟩ := upstream_gpgkey_apply answers upstream m₁
    dsimp only at hrest
    rw [bind_of_ok hkey, bind_of_ok hkey'] at hrest
    obtain ⟨rfl, -⟩ := EStateM.Result.ok.inj hrest
    have hposition : n + (t - n) = t := by omega
    rw [hbefore]
    dsimp only
    rw [hposition]
    refine ⟨rfl, rfl, ?_⟩
    cases hgpgkey : upstream.gpgkey with
    | none => rfl
    | some url => rw [hnext (by rw [hgpgkey]; rfl)]

theorem questionsBefore_of_noMirror {n : ℕ} (h : NoMirror opts mirror forceUpstream) :
    questionsBefore opts answers mirror forceUpstream n ≠ none := by
  unfold questionsBefore
  rcases h with h | h | h
  · simp [h]
  · simp [h]
  · split_ifs <;> simp

/-- An assembled repository is as promised exactly when the answers about upstream's key do
not differ. -/
theorem assembled_iff {repoid : RepoId} {enabled : Bool} {n m : ℕ} {repo : RPMRepository}
    (h : assemble opts answers repoid mirror upstream enabled forceUpstream n = .ok repo m) :
    Assembled opts mirror upstream forceUpstream repo ↔
      ¬ KeyAnswersDiffer opts answers mirror upstream forceUpstream n := by
  have hrepo := assemble_ok h
  cases hbefore : questionsBefore opts answers mirror forceUpstream n with
  | none =>
    rw [hbefore] at hrepo
    apply iff_of_true
    · refine ⟨.inl hrepo.1, fun hnone => ?_, by rw [hrepo.2]⟩
      exact absurd hbefore (questionsBefore_of_noMirror hnone)
    · rintro ⟨k, url, hsome, -⟩
      rw [hbefore] at hsome
      exact absurd hsome (by simp)
  | some k =>
    rw [hbefore] at hrepo
    obtain ⟨hbaseurl, hgpgkey, hgpgcheck⟩ := hrepo
    have hupstream : FromUpstream upstream repo := by
      refine ⟨hbaseurl, ?_⟩
      rw [hgpgkey]
      cases upstream.gpgkey with
      | none => exact .inl rfl
      | some url =>
        rw [Option.filter_some]
        split_ifs
        · exact .inl rfl
        · exact .inr rfl
    have hcheck : (repo.gpgcheck ↔ repo.gpgkey.isSome) ↔
        ¬ KeyAnswersDiffer opts answers mirror upstream forceUpstream n := by
      rw [hgpgkey, hgpgcheck]
      cases hkey : upstream.gpgkey with
      | none => simp [KeyAnswersDiffer, hkey]
      | some url =>
        rw [Option.filter_some, Option.filter_some]
        have hdiffer : KeyAnswersDiffer opts answers mirror upstream forceUpstream n ↔
            answers (n + k) (.upstreamUrl url) ≠ answers (n + k + 1) (.upstreamUrl url) := by
          simp [KeyAnswersDiffer, hbefore, hkey]
        rw [hdiffer, not_ne_iff]
        cases answers (n + k) (.upstreamUrl url) <;>
          cases answers (n + k + 1) (.upstreamUrl url) <;> simp
    rw [← hcheck]
    exact ⟨fun h => h.gpgcheck, fun h => ⟨.inr hupstream, fun _ => hupstream, h⟩⟩

/-- A repository of the distribution, upstream only. -/
def sampleUpstream : RepoPaths where
  repo := "https://upstream.example.com/upstream/repo"
  gpgkey := some "https://upstream.example.com/upstream/key.gpg"

theorem assembled_iff_steady :
    ∃ repo m, assemble {} (fun _ _ => true) ⟨"epel", "EPEL", "epel.repo"⟩ { repo := "" }
        sampleUpstream true false 0 = .ok repo m ∧
      Assembled {} { repo := "" } sampleUpstream false repo := by
  obtain ⟨repo, m, hrun⟩ : ∃ repo m, assemble {} (fun _ _ => true)
      ⟨"epel", "EPEL", "epel.repo"⟩ { repo := "" } sampleUpstream true false 0 = .ok repo m :=
    ⟨_, _, rfl⟩
  refine ⟨repo, m, hrun, (assembled_iff hrun).mpr ?_⟩
  rintro ⟨k, url, -, -, hne⟩
  exact hne rfl

/-- The key is found once and not found again: the repository has it and does not check it. -/
theorem not_assembled_flaky :
    ∃ repo m, assemble { disableMirrors := true } (fun n _ => n == 0) ⟨"epel", "EPEL", "epel.repo"⟩
        { repo := "" } sampleUpstream true false 0 = .ok repo m ∧
      ¬ Assembled { disableMirrors := true } { repo := "" } sampleUpstream false repo := by
  refine ⟨_, _, rfl, fun h => ?_⟩
  have hcheck := h.gpgcheck.mpr rfl
  exact absurd hcheck (by decide)

end Cloyster.RepoAssembler
