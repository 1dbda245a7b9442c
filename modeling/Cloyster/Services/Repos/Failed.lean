import Cloyster.Services.Repos.Copies
import Cloyster.Lib.Simulation

/-! A batch that fails at an unknown identifier. The flags of the identifiers before it are
set in memory by then, and nothing is saved. -/

namespace Cloyster

open Lib RPMRepositoryParser

namespace RPMRepoManager

variable {opts : Options} {codec : GKeyFile} {manager manager' : RPMRepoManager} {fs : FS}
  {s t u : RPMRepoManager × FS} {repos : List String} {value : Bool}

/-- The identifiers before the first unknown one. -/
def knownPrefix (manager : RPMRepoManager) (repos : List String) : List String :=
  repos.takeWhile (manager.filesIdx.contains ·)

/-- What is thrown for an identifier that is not there. -/
def unknownRepository (repo : String) : Exn :=
  .runtimeError (s!"Trying to enable unknown repository {repo}, " ++
    "failed because the repository was not found.")

theorem fileAt_unknown {repo : String} (hunknown : s.1.filesIdx[repo]? = none) :
    fileAt repo s = .error ⟨.outOfRange, "map::at"⟩ s := by
  rw [fileAt, bind_of_ok (get_apply s)]
  simp only [hunknown]
  rfl

theorem enable_unknown {repo : String} (hunknown : s.1.filesIdx[repo]? = none) (value : Bool) :
    enable codec repo value s = .error ⟨.outOfRange, "map::at"⟩ s := by
  rw [enable, bind_of_error (fileAt_unknown hunknown)]

theorem enableOne_unknown {repo : String} (hunknown : s.1.filesIdx[repo]? = none)
    (value : Bool) : (orUnknown repo do
      let ref ← fileAt repo
      setEnabled ref repo value
      return ref) s = .error (unknownRepository repo) s := by
  rw [orUnknown, bind_of_error (fileAt_unknown hunknown)]
  rfl

/-- The loop stops at the first unknown identifier and keeps the flags that are set. -/
theorem enableLoop_unknown (hs : Sound s.1) (hunknown : ∃ id ∈ repos, id ∉ s.1.filesIdx)
    (value : Bool) (toSave : List ℕ) : ∃ repo ∈ repos, repo ∉ s.1.filesIdx ∧ ∃ t,
      enableLoop value toSave repos s = .error (unknownRepository repo) t ∧ t.2 = s.2 ∧
        Enabled s.1 t.1 (knownPrefix s.1 repos) value := by
  induction repos generalizing toSave s with
  | nil =>
    obtain ⟨id, hid, -⟩ := hunknown
    exact absurd hid List.not_mem_nil
  | cons repo repos ih =>
    unfold knownPrefix
    cases hidx : s.1.filesIdx[repo]? with
    | none =>
      have hnot : repo ∉ s.1.filesIdx := not_mem_of_getElem? hidx
      refine ⟨repo, List.mem_cons_self, hnot, s, ?_, rfl, ?_⟩
      · rw [enableLoop, bind_of_error (enableOne_unknown hidx value)]
      · rw [List.takeWhile_cons_of_neg (by simpa using hnot)]
        exact enabled_nil s.1 value
    | some ref =>
      have hmem : repo ∈ s.1.filesIdx := mem_of_getElem? hidx
      obtain ⟨s₁, hone, hfs, henabled⟩ := enableOne_returns hs hidx value
      have hrest : ∃ id ∈ repos, id ∉ s₁.1.filesIdx := by
        rw [henabled.filesIdx]
        rw [List.exists_mem_cons_iff] at hunknown
        exact hunknown.resolve_left (not_not.mpr hmem)
      obtain ⟨id, hid, hnot, t, hrun, hfs', henabled'⟩ :=
        ih (hs.of_enabled henabled) hrest (if ref ∈ toSave then toSave else toSave ++ [ref])
      rw [henabled.filesIdx] at hnot
      refine ⟨id, List.mem_cons_of_mem _ hid, hnot, t, ?_, hfs'.trans hfs, ?_⟩
      · rw [enableLoop, bind_of_ok hone, hrun]
      · rw [knownPrefix, henabled.filesIdx] at henabled'
        rw [List.takeWhile_cons_of_pos (by simpa using hmem)]
        exact henabled.append henabled'

theorem enableAll_unknown (hs : Sound s.1) (hunknown : ∃ id ∈ repos, id ∉ s.1.filesIdx)
    (order : WalkOrder) (value : Bool) : ∃ repo ∈ repos, repo ∉ s.1.filesIdx ∧ ∃ t,
      enableAll codec order repos value s = .error (unknownRepository repo) t ∧ t.2 = s.2 ∧
        Enabled s.1 t.1 (knownPrefix s.1 repos) value := by
  obtain ⟨repo, hrepo, hnot, t, hrun, hspec⟩ := enableLoop_unknown hs hunknown value []
  exact ⟨repo, hrepo, hnot, t, by rw [enableAll, bind_of_error hrun], hspec⟩

/-! ### States that say the same -/

/-- The same disk, and managers that say the same. -/
def SameState (s t : RPMRepoManager × FS) : Prop := t.2 = s.2 ∧ SameManager s.1 t.1

theorem simulates_onFs {α : Type} (x : FsM α) : Simulates SameState (onFs x) (onFs x) := by
  rintro s t ⟨hfs, hsame⟩
  unfold onFs
  rw [hfs]
  cases x s.2 with
  | ok a fs' => exact .ok a ⟨rfl, hsame⟩
  | error e fs' => exact .error e ⟨rfl, hsame⟩

theorem SameManager.files_none (h : SameManager manager manager') {ref : ℕ}
    (hnone : manager.files[ref]? = none) : manager'.files[ref]? = none := by
  rw [List.getElem?_eq_none_iff] at hnone ⊢
  rw [h.length]
  exact hnone

theorem SameManager.emplace (h : SameManager manager manager') (repofile : RPMRepositoryFile) :
    SameManager (manager.emplace repofile) (manager'.emplace repofile) := by
  refine ⟨?_, ?_, fun ref file hfile => ?_⟩
  · simp only [RPMRepoManager.emplace, h.filesIdx, h.length]
  · simp only [RPMRepoManager.emplace, List.length_append, h.length]
  · simp only [RPMRepoManager.emplace] at hfile ⊢
    by_cases hlt : ref < manager.files.length
    · rw [List.getElem?_append_left hlt] at hfile
      rw [List.getElem?_append_left (by rw [h.length]; exact hlt)]
      exact h.files ref file hfile
    · rw [List.getElem?_append_right (by omega)] at hfile
      rw [List.getElem?_append_right (by rw [h.length]; omega), h.length]
      exact ⟨file, hfile, rfl, fun _ => rfl⟩

theorem simulates_install (opts : Options) (codec : GKeyFile) (source : Path) :
    Simulates SameState (install opts codec source) (install opts codec source) := by
  unfold install
  refine simulates_bind (simulates_onFs _) fun _ => ?_
  split_ifs
  · exact simulates_pure ()
  · refine simulates_bind (simulates_onFs _) fun repos => ?_
    rintro s t ⟨hfs, hsame⟩
    exact .ok _ ⟨hfs, hsame.emplace _⟩

theorem simulates_loadDir (opts : Options) (codec : GKeyFile) (path : Path) :
    Simulates SameState (loadDir opts codec path) (loadDir opts codec path) := by
  unfold loadDir
  split_ifs
  · exact simulates_pure ()
  · refine simulates_bind (simulates_onFs _) fun names => simulates_forM fun name _ => ?_
    unfold installEntry
    split_ifs
    · exact simulates_install opts codec _
    · exact simulates_pure ()

theorem simulates_fileAt (repo : String) : Simulates SameState (fileAt repo) (fileAt repo) := by
  rintro s t h
  rw [fileAt, bind_apply, bind_apply, get_apply, get_apply]
  dsimp only
  rw [h.2.filesIdx]
  cases s.1.filesIdx[repo]? with
  | none => exact .error _ h
  | some ref => exact .ok ref h

theorem simulates_setEnabled (ref : ℕ) (repo : String) (value : Bool) :
    Simulates SameState (setEnabled ref repo value) (setEnabled ref repo value) := by
  rintro s t h
  rw [setEnabled, bind_apply, bind_apply, get_apply, get_apply]
  dsimp only
  cases hfile : s.1.files[ref]? with
  | none =>
    rw [h.2.files_none hfile]
    exact .error _ h
  | some file =>
    obtain ⟨file', hfile', hpath, hrepos⟩ := h.2.files ref file hfile
    rw [hfile']
    dsimp only
    rw [hrepos repo]
    cases hrepo : file.repos[repo]? with
    | none => exact .error _ h
    | some r =>
      refine .ok _ ⟨h.1, h.2.filesIdx, by simp [h.2.length], fun other old hold => ?_⟩
      dsimp only at hold ⊢
      by_cases hother : ref = other
      · subst hother
        rw [List.getElem?_set_self (List.getElem?_eq_some_iff.mp hfile).1] at hold
        obtain rfl := Option.some.inj hold
        refine ⟨_, List.getElem?_set_self (List.getElem?_eq_some_iff.mp hfile').1, hpath, ?_⟩
        intro id
        rw [Std.TreeMap.getElem?_insert, Std.TreeMap.getElem?_insert, hrepos id]
      · rw [List.getElem?_set_ne hother] at hold ⊢
        exact h.2.files other old hold

theorem simulates_saveFile (codec : GKeyFile) (ref : ℕ) :
    Simulates SameState (saveFile codec ref) (saveFile codec ref) := by
  rintro s t h
  rw [saveFile, bind_apply, bind_apply, get_apply, get_apply]
  dsimp only
  cases hfile : s.1.files[ref]? with
  | none =>
    rw [h.2.files_none hfile]
    exact .error _ h
  | some file =>
    obtain ⟨file', hfile', hpath, hrepos⟩ := h.2.files ref file hfile
    have hsave : file'.save codec = file.save codec := by
      funext fs
      rw [RPMRepositoryFile.save, RPMRepositoryFile.save, unparse, unparse, hpath]
      simp only [hrepos.unparseRepos]
    rw [hfile']
    dsimp only
    rw [hsave]
    exact simulates_onFs _ s t h

theorem simulates_orUnknown {α : Type} (repo : String) {x : ManagerM α}
    (hx : Simulates SameState x x) :
    Simulates SameState (orUnknown repo x) (orUnknown repo x) := by
  intro s t h
  have hrun := hx s t h
  unfold orUnknown
  generalize x s = r, x t = r' at hrun
  cases hrun with
  | ok a h => exact .ok a h
  | error e h =>
    dsimp only
    split_ifs
    · exact .error _ h
    · exact .error e h

theorem simulates_enableLoop (value : Bool) (repos : List String) (toSave : List ℕ) :
    Simulates SameState (enableLoop value toSave repos) (enableLoop value toSave repos) := by
  induction repos generalizing toSave with
  | nil => exact simulates_pure toSave
  | cons repo repos ih =>
    refine simulates_bind (simulates_orUnknown repo ?_) fun ref => ih _
    refine simulates_bind (simulates_fileAt repo) fun ref => ?_
    exact simulates_bind (simulates_setEnabled ref repo value) fun _ => simulates_pure ref

theorem simulates_call (opts : Options) (codec : GKeyFile) (call : Call) :
    Simulates SameState (call.run opts codec) (call.run opts codec) := by
  cases call with
  | install source => exact simulates_install opts codec source
  | loadDir path => exact simulates_loadDir opts codec path
  | enable repo value =>
    refine simulates_bind (simulates_fileAt repo) fun ref => ?_
    exact simulates_bind (simulates_setEnabled ref repo value) fun _ =>
      simulates_saveFile codec ref
  | enableAll order repos value =>
    refine simulates_bind (simulates_enableLoop value repos []) fun toSave => ?_
    exact simulates_forM fun ref _ => simulates_saveFile codec ref

/-- From states that say the same, every sequence of events leads to such states. -/
theorem sameState_afterEvents (opts : Options) (codec : GKeyFile) (events : List Event)
    (h : SameState s t) : SameState (afterEvents opts codec events s)
      (afterEvents opts codec events t) := by
  induction events generalizing s t with
  | nil => exact h
  | cons event events ih =>
    apply ih
    cases event with
    | request call => exact (simulates_call opts codec call s t h).finalState
    | outside write => exact ⟨congrArg write h.1, h.2⟩

/-! ### What a failed batch leaves -/

/-- The disk and all flags are as they were, now and whatever is done later. -/
structure LeavesNoTrace (opts : Options) (codec : GKeyFile) (s t : RPMRepoManager × FS) :
    Prop where
  disk : t.2 = s.2
  flags : ∀ (id : String) (ref : ℕ),
    (definition t.1 id ref).map RPMRepository.enabled =
      (definition s.1 id ref).map RPMRepository.enabled
  later : ∀ events, (afterEvents opts codec events t).2 = (afterEvents opts codec events s).2

theorem SameManager.flags (h : SameManager manager manager') (id : String) (ref : ℕ) :
    (definition manager' id ref).map RPMRepository.enabled =
      (definition manager id ref).map RPMRepository.enabled := by
  unfold definition
  cases hfile : manager.files[ref]? with
  | none => rw [h.files_none hfile]
  | some file =>
    obtain ⟨file', hfile', -, hrepos⟩ := h.files ref file hfile
    rw [hfile', Option.bind_some, Option.bind_some, hrepos id]

/-- The flags of a failed batch are noticed unless they were set already. -/
theorem leavesNoTrace_iff (henabled : Enabled s.1 t.1 repos value) (hfs : t.2 = s.2) :
    LeavesNoTrace opts codec s t ↔ ∀ id ∈ repos, HasFlag s.1 value id := by
  constructor
  · intro h id hid ref repo hidx hdef
    obtain ⟨file, hfile, hrepo⟩ := definition_eq_some.mp hdef
    obtain ⟨file', hfile', -, hupd⟩ := henabled.files ref file hfile
    have hflag := h.flags id ref
    simp only [definition, hfile, hfile', Option.bind_some, hupd id, hrepo, Option.map_some,
      if_pos (And.intro hid hidx), Option.some.injEq] at hflag
    exact hflag.symm
  · intro hflags
    have hsame : SameManager s.1 t.1 := henabled.same_of_hasFlag hflags
    exact ⟨hfs, hsame.flags, fun events => (sameState_afterEvents opts codec events ⟨hfs, hsame⟩).1⟩

/-- A batch with an unknown identifier throws, and leaves no trace exactly when the
identifiers before the first unknown one have the flag already. -/
theorem enableAll_unknown_iff {events : List Event} {fs : FS}
    (h : afterEvents opts codec events ({}, fs) = s)
    (hunknown : ∃ id ∈ repos, id ∉ s.1.filesIdx) (order : WalkOrder) (value : Bool) :
    ∃ repo ∈ repos, repo ∉ s.1.filesIdx ∧ ∃ t,
      enableAll codec order repos value s = .error (unknownRepository repo) t ∧
      (LeavesNoTrace opts codec s t ↔
        ∀ id ∈ knownPrefix s.1 repos, HasFlag s.1 value id) := by
  have hs : Sound s.1 := h ▸ sound_afterEvents events sound_empty
  obtain ⟨repo, hrepo, hnot, t, hrun, hfs, henabled⟩ := enableAll_unknown hs hunknown order value
  exact ⟨repo, hrepo, hnot, t, hrun, leavesNoTrace_iff henabled hfs⟩

/-- Two repositories in one file, and one in another. -/
def threeRepos : FS :=
  { nodes := ⟨[(["etc"], .dir), (basedir, .dir),
    (basedir.child "a.repo",
      .file "[a]\nname=A\nenabled=1\ngpgcheck=0\n[b]\nname=B\nenabled=1\ngpgcheck=0\n"),
    (basedir.child "c.repo", .file "[c]\nname=C\nenabled=1\ngpgcheck=0\n")], by decide⟩ }

@[irreducible] def threeLoaded : RPMRepoManager × FS :=
  afterEvents {} GKeyFile.text ([Call.loadDir basedir].map .request) ({}, threeRepos)

/-- The walk over the set as the files came in. -/
def WalkOrder.insertion : WalkOrder := ⟨id, fun _ => .refl _⟩

theorem x_unknown : "x" ∉ threeLoaded.1.filesIdx := by
  have hcontains : threeLoaded.1.filesIdx.contains "x" = false := by decide +kernel
  rw [Std.TreeMap.mem_iff_contains, hcontains]
  exact Bool.false_ne_true

theorem enableAll_unknown_iff_three : ∃ repo ∈ ["a", "x"], repo ∉ threeLoaded.1.filesIdx ∧ ∃ t,
    enableAll GKeyFile.text .insertion ["a", "x"] true threeLoaded =
      .error (unknownRepository repo) t ∧
    (LeavesNoTrace {} GKeyFile.text threeLoaded t ↔
      ∀ id ∈ knownPrefix threeLoaded.1 ["a", "x"], HasFlag threeLoaded.1 true id) := by
  have hrun : afterEvents {} GKeyFile.text ([Call.loadDir basedir].map .request)
      ({}, threeRepos) = threeLoaded := by
    rw [threeLoaded]
  exact enableAll_unknown_iff hrun ⟨"x", by simp, x_unknown⟩ .insertion true

/-- The flag of `a` in its file, once `x` has run on the loaded repositories and `b` is
enabled after it. -/
def flagOfA (x : ManagerM Unit) : Option String :=
  valueAt GKeyFile.text (afterEvents {} GKeyFile.text [.request (.enable "b" true)]
    (finalState (x threeLoaded))).2 (basedir.child "a.repo") "a" "enabled"

/-- The failed batch has disabled `a` in memory, and enabling `b` writes that. -/
theorem not_leavesNoTrace : ∃ repo t,
    enableAll GKeyFile.text .insertion ["a", "x"] false threeLoaded =
      .error (unknownRepository repo) t ∧ ¬ LeavesNoTrace {} GKeyFile.text threeLoaded t := by
  have hsound : Sound threeLoaded.1 := by
    rw [threeLoaded]
    exact sound_afterEvents _ sound_empty
  have hunknown : ∃ id ∈ ["a", "x"], id ∉ threeLoaded.1.filesIdx := ⟨"x", by simp, x_unknown⟩
  obtain ⟨repo, -, -, t, hrun, -⟩ : ∃ repo ∈ ["a", "x"], repo ∉ threeLoaded.1.filesIdx ∧ ∃ t,
      enableAll GKeyFile.text .insertion ["a", "x"] false threeLoaded =
        .error (unknownRepository repo) t ∧ _ := enableAll_unknown hsound hunknown .insertion false
  refine ⟨repo, t, hrun, fun h => ?_⟩
  have hbefore : flagOfA (pure ()) = some "true" := by decide +kernel
  have hafter : flagOfA (enableAll GKeyFile.text .insertion ["a", "x"] false) = some "false" := by
    decide +kernel
  rw [flagOfA, hrun, finalState, h.later] at hafter
  rw [flagOfA, pure_apply, finalState, hafter] at hbefore
  exact absurd hbefore (by decide)

end RPMRepoManager

end Cloyster
