import Cloyster.Engine

/-! The steps that the engine's own functions take. A command is one step, as is a call on the
bus; a file helper is one step of the program's own, within the files it may change. -/

namespace Cloyster.Engine

open Lib Models Services

variable {site : Site} {scope : Scope} {α : Type}

/-! ### Words -/

theorem takeWhile_append_of_mem {l : List Char} (h : ' ' ∈ l) (r : List Char) :
    (l ++ r).takeWhile (· ≠ ' ') = l.takeWhile (· ≠ ' ') := by
  rw [List.takeWhile_append, if_neg]
  intro hall
  have hblank := List.takeWhile_eq_self_iff.mp (List.takeWhile_prefix _ |>.eq_of_length hall) ' ' h
  exact absurd hblank (by decide)

/-- What follows the first blank of a command is not looked at. -/
theorem programOf_append {l : String} (h : ' ' ∈ l.toList) (r : String) :
    programOf (l ++ r) = programOf l := by
  have hne : l.toList ≠ [] := List.ne_nil_of_mem h
  rw [programOf, programOf, String.toList_append, takeWhile_append_of_mem h,
    List.head?_append_of_ne_nil _ hne]

theorem programOf_path {l : String} (h : l.toList.head? = some '/') (r : String) :
    programOf (l ++ r) = "/" := by
  have hne : l.toList ≠ [] := by
    intro hnil
    rw [hnil] at h
    exact absurd h (by simp)
  rw [programOf, String.toList_append, List.head?_append_of_ne_nil _ hne, if_pos h]

theorem programOf_eq {l word : String} (hl : ' ' ∈ l.toList) (h : programOf l = word) (r : String) :
    programOf (l ++ r) = word := (programOf_append hl r).trans h

/-- A command with text put in after its first words. -/
theorem word_mem {l : String} (hl : ' ' ∈ l.toList) (h : programOf l ∈ scope.words) (r : String) :
    programOf (l ++ r) ∈ scope.words := by
  rw [programOf_eq hl rfl]
  exact h

/-! ### Steps outside of the program -/

theorem confined_plain (x : Except Exn α) : Confined site scope (plain x) := by
  cases x with
  | ok a => exact moves_pure a
  | error e => exact moves_throw _

theorem confined_perform {cmd : String} (hlive : site.opts.dryRun = false)
    (hword : programOf cmd ∈ scope.words) : Confined site scope (perform site cmd) := by
  intro s
  rw [perform, bind_apply, get_apply]
  dsimp only
  rw [bind_apply]
  cases hanswer : site.env.command s.log s.fs cmd with
  | ok reply => exact .single (.command hlive hword hanswer)
  | error e => exact .refl

theorem confined_executeCommand {cmd : String} (hword : programOf cmd ∈ scope.words) :
    Confined site scope (executeCommand site cmd) := by
  refine moves_ite (fun _ => moves_pure _) fun hdry => ?_
  exact moves_bind (confined_perform (Bool.eq_false_iff.mpr hdry) hword) fun _ => moves_pure _

theorem confined_command {cmd : String} (hword : programOf cmd ∈ scope.words) :
    Confined site scope (command site cmd) :=
  moves_bind (confined_executeCommand hword) fun _ => moves_pure _

theorem confined_checkCommand {cmd : String} (hword : programOf cmd ∈ scope.words) :
    Confined site scope (checkCommand site cmd) := by
  refine moves_ite (fun _ => moves_pure _) fun hdry => ?_
  exact moves_bind (confined_perform (Bool.eq_false_iff.mpr hdry) hword) fun _ => moves_refuseIf _

/-- In a dry run it throws. -/
theorem confined_checkOutput {cmd : String} (hword : programOf cmd ∈ scope.words) :
    Confined site scope (checkOutput site cmd) := by
  by_cases hdry : site.opts.dryRun = true
  · intro s
    rw [checkOutput, refuseIf, if_pos hdry]
    exact .refl
  · refine moves_bind (moves_refuseIf _) fun _ => ?_
    refine moves_bind (confined_perform (Bool.eq_false_iff.mpr hdry) hword) fun _ => ?_
    exact moves_bind (moves_refuseIf _) fun _ => moves_pure _

theorem confined_callObjectFunction (name : String) {function : String}
    (hword : function ∈ scope.words) :
    Confined site scope (callObjectFunction site name function) := by
  refine moves_ite (fun _ => moves_pure _) fun hdry => ?_
  intro s
  rw [bind_apply, get_apply]
  dsimp only
  rw [bind_apply]
  cases hanswer : site.env.bus s.log s.fs function name with
  | ok fs => exact .single (.bus (Bool.eq_false_iff.mpr hdry) hword hanswer)
  | error e => exact .refl

/-! ### Steps of the program's own -/

/-- Files that change as they may, and in a dry run are at most made. -/
theorem confined_onFs {x : FsM α} (hkept : Moves (SameOutside scope.Covers) x)
    (hdry : site.opts.dryRun = true → ∀ fs, ∀ q ∉ scope.loose,
      (finalState (x fs)).get? q = fs.get? q ∨
        q ∈ scope.files ∧ Created fs (finalState (x fs)) q) : Confined site scope (onFs x) := by
  intro s
  have hfinal : finalState (onFs x s) = { s with fs := finalState (x s.fs) } := by
    unfold onFs within
    cases x s.fs <;> rfl
  rw [hfinal]
  exact .single (.own rfl id (fun _ => hkept s.fs) (fun h => ⟨rfl, hdry h s.fs⟩) fun _ => rfl)

/-- Work on one file that a dry run does as well. -/
theorem confined_onFs_of_only {x : FsM α} {p : Path} (hp : scope.Covers p) (hloose : p ∈ scope.loose)
    (honly : ∀ fs q, q ≠ p → (finalState (x fs)).get? q = fs.get? q) :
    Confined site scope (onFs x) := by
  have hne : ∀ {q}, q ∉ scope.loose → q ≠ p := by
    rintro q hq rfl
    exact hq hloose
  refine confined_onFs (fun fs q hq => ?_) fun _ fs q hq => .inl (honly fs q (hne hq))
  have hqp : q ≠ p := by
    rintro rfl
    exact hq hp
  simp only [FS.content?, honly fs q hqp]

/-- A helper that looks at the flag first. -/
theorem confined_onFs_of_unchanged {x : FsM α} (hkept : Moves (SameOutside scope.Covers) x)
    (hdry : site.opts.dryRun = true → ∀ fs, Unchanged x fs) : Confined site scope (onFs x) :=
  confined_onFs hkept fun h fs q _ => .inl (congrArg (·.get? q) (hdry h fs))

theorem confined_onRepos {x : RPMRepoManager.ManagerM α} (hx : Moves RPMRepoManager.Tidy x)
    (hcovers : ∀ q, RPMRepoManager.Repositories q → scope.Covers q)
    (hdry : site.opts.dryRun = true → ∀ s, Unchanged x s) : Confined site scope (onRepos x) := by
  intro s
  have hfinal : finalState (onRepos x s) = { s with
      repos := (finalState (x (s.repos, s.fs))).1
      fs := (finalState (x (s.repos, s.fs))).2 } := by
    unfold onRepos within
    cases x (s.repos, s.fs) <;> rfl
  rw [hfinal]
  refine .single (.own rfl (fun hs => (hx _ hs).1) (fun hs => ?_) (fun h => ?_) fun _ => rfl)
  · exact (hx _ hs).2.mono hcovers
  · have hsame := hdry h (s.repos, s.fs)
    unfold Unchanged at hsame
    rw [hsame]
    exact ⟨rfl, fun q _ => .inl rfl⟩

theorem confined_onRepos_of_unchanged {x : RPMRepoManager.ManagerM α} (h : ∀ s, Unchanged x s) :
    Confined site scope (onRepos x) := by
  refine moves_of_unchanged fun s => ?_
  have hsame := h (s.repos, s.fs)
  unfold Unchanged at hsame ⊢
  unfold onRepos within
  cases hrun : x (s.repos, s.fs) with
  | ok a t =>
    rw [hrun] at hsame
    obtain rfl : t = (s.repos, s.fs) := hsame
    rfl
  | error e t =>
    rw [hrun] at hsame
    obtain rfl : t = (s.repos, s.fs) := hsame
    rfl

/-- The image is not looked at from outside, but for its name. -/
theorem confined_of_image {x : EngineM α} (h : ∀ s, ∃ image, finalState (x s) = { s with image } ∧
    (scope.names = false → image.toImage = s.image.toImage)) : Confined site scope x := by
  intro s
  obtain ⟨image, hfinal, hname⟩ := h s
  rw [hfinal]
  exact .single (.own rfl id (fun _ => refl s.fs) (fun _ => ⟨rfl, fun q _ => .inl rfl⟩) hname)

theorem confined_onImage {x : EStateM Exn XCAT.Stateless α}
    (h : ∀ image, (finalState (x image)).toImage = image.toImage) :
    Confined site scope (onImage x) := by
  refine confined_of_image fun s => ⟨finalState (x s.image), ?_, fun _ => h s.image⟩
  unfold onImage within
  cases x s.image <;> rfl

theorem confined_setImage (image : XCAT.Stateless) (h : scope.names = true) :
    Confined site scope (onImage (set image)) :=
  confined_of_image fun _ => ⟨image, rfl, fun hnot => absurd (hnot.symm.trans h) (by simp)⟩

theorem confined_onName (x : XCAT.XCATM α) (h : scope.names = true) :
    Confined site scope (onName x) := by
  refine confined_of_image fun s => ⟨{ s.image with toImage := finalState (x s.image.toImage) }, ?_,
    fun hnot => absurd (hnot.symm.trans h) (by simp)⟩
  unfold onName within
  cases x s.image.toImage <;> rfl

/-! ### The helpers -/

theorem confined_addString {p : Path} (string : String) (hp : p ∈ scope.files) :
    Confined site scope (addString site p string) := by
  refine confined_onFs (addStringToFile_outside _ string (covers_of_mem hp)) fun hdry fs q _ => ?_
  refine (addStringToFile_created _ hdry string q).imp_right ?_
  rintro ⟨rfl, hcreated⟩
  exact ⟨hp, hcreated⟩

theorem confined_remove {p : Path} (hp : scope.Covers p) :
    Confined site scope (remove site p) :=
  confined_onFs_of_unchanged (removeFile_outside _ hp) fun hdry fs => by
    rw [Unchanged, removeFile_dryRun hdry]
    rfl

theorem confined_makeDirectory (p : Path) : Confined site scope (makeDirectory site p) :=
  confined_onFs_of_unchanged (createDirectory_outside _ p) fun hdry fs => by
    rw [Unchanged, createDirectory_dryRun hdry]
    rfl

theorem confined_setPermissions (path : Path) : Confined site scope (setPermissions path) :=
  moves_bind moves_get fun _ => moves_refuseIf _

theorem confined_installFile {p : Path} (data : String) (hp : scope.Covers p) :
    Confined site scope (onFs (installFile site.opts.toOptions p data)) :=
  confined_onFs_of_unchanged (installFile_outside _ data hp) fun hdry fs => by
    rw [Unchanged, installFile_dryRun hdry]
    rfl

/-- Backups go to the directory of the program. -/
theorem confined_backup (filename : Path)
    (h : .below (installPath ++ ["backup"]) ∈ scope.regions) :
    Confined site scope (backup site filename) := by
  refine moves_bind moves_get fun s => confined_onFs_of_unchanged ?_ fun hdry fs => ?_
  · refine backupFile_outside _ _ fun q hq => covers_below h (List.IsPrefix.trans ?_ hq)
    rw [backupName, Path.child, List.append_assoc, List.append_assoc]
    exact List.prefix_append _ _
  · rw [Unchanged, backupFile_dryRun hdry]
    rfl

theorem confined_run {script : ScriptBuilder} (hwords : "chmod" ∈ scope.words ∧ "/" ∈ scope.words)
    (htmp : .below ["tmp"] ∈ scope.regions) : Confined site scope (run site script) := by
  refine moves_ite (fun _ => moves_pure _) fun _ => ?_
  refine moves_bind (confined_installFile _ (covers_below htmp ⟨_, rfl⟩)) fun _ => ?_
  have hchmod : programOf s!"chmod +x /tmp/{scriptName site script}" ∈ scope.words :=
    word_mem (by decide) hwords.1 _
  have hstart : programOf s!"/tmp/{scriptName site script}" ∈ scope.words := by
    rw [programOf_path (by decide)]
    exact hwords.2
  refine moves_bind (confined_command hchmod) fun _ => ?_
  exact moves_bind (confined_command hstart) fun _ => moves_pure _

/-! ### The repositories -/

/-- The directory of the repositories and its backup. -/
def repoRegions : List Region :=
  [.below RPMRepoManager.basedir, .below RPMRepositoryGenerator.backupPath]

theorem covers_repositories (h : repoRegions ⊆ scope.regions) {q : Path}
    (hq : RPMRepoManager.Repositories q) : scope.Covers q := by
  rcases hq with hq | hq
  · exact covers_below (h (by simp [repoRegions])) hq
  · exact covers_below (h (by simp [repoRegions])) hq

theorem confined_enableRepo (repoid : String) (h : repoRegions ⊆ scope.regions) :
    Confined site scope (enableRepo site repoid) := by
  refine moves_ite (fun _ => moves_pure _) fun hdry => ?_
  refine moves_bind (confined_plain _) fun type => ?_
  cases type with
  | RPM =>
    exact confined_onRepos (RPMRepoManager.enable_tidy repoid true)
      (fun q => covers_repositories h) fun hdry' => absurd hdry' hdry
  | DEB => exact moves_throw _

theorem unchanged_repo (repoid : String) (s : RPMRepoManager × FS) :
    Unchanged (RPMRepoManager.repo repoid) s := by
  rw [Unchanged, RPMRepoManager.repo, bind_apply, get_apply]
  dsimp only
  cases s.1.filesIdx[repoid]? with
  | none => rfl
  | some ref =>
    dsimp only
    cases s.1.files[ref]? with
    | none => rfl
    | some file =>
      dsimp only
      cases file.repos[repoid]? <;> rfl

theorem confined_findRepo (repoid : String) : Confined site scope (findRepo site repoid) := by
  refine moves_bind (confined_plain _) fun type => ?_
  cases type with
  | RPM => exact confined_onRepos_of_unchanged (unchanged_repo repoid)
  | DEB => exact moves_throw _

theorem confined_initializeDefaultRepositories (h : repoRegions ⊆ scope.regions) :
    Confined site scope (initializeDefaultRepositories site) := by
  refine confined_onRepos (RPMRepoManager.initializeDefaultRepositories_tidy _ _ _ _ _)
    (fun q => covers_repositories h) fun hdry s => ?_
  unfold RepoManager.initializeDefaultRepositories
  rw [Unchanged, if_pos hdry]
  rfl

end Cloyster.Engine
