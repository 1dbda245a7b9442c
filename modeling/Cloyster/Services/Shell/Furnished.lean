import Cloyster.Engine.Returns
import Cloyster.Services.Repos.Batch
import Cloyster.Services.Shell.Tasks

/-! What the installation needs of a machine for its own work to succeed: the files that it edits
are there, the directories that it puts files into are too, and nothing stands where it makes
others. Each step keeps that, and its files are not those of the repositories. -/

namespace Cloyster.Engine.Shell

open Lib Models Services

variable {opts : Options} {dirs : List Path} {fs fs' : FS} {p : Path}

/-- The files that are saved and appended to. -/
def editedFiles : List Path := [hostsFile, chronyFile, limitsFile]

/-- The files that are removed and made anew. -/
def remadeFiles : List Path :=
  [dnsFile, SLURM.configurationFile, XCAT.netboot.child "compute.otherpkglist",
    XCAT.netboot.child "compute.postinstall", XCAT.netboot.child "compute.synclists"]

/-- The directories that files are put into as they are. -/
def standingDirectories : List Path := [dnsFile.parent, ["tmp"]]

/-- The directories that are made unless they are there. -/
def madeDirectories : List Path :=
  SLURM.configurationFile.parent :: XCAT.netboot ::
    editedFiles.map fun p => installPath ++ ["backup"] ++ p.parent

theorem editedFiles_apart : ∀ p ∈ editedFiles, p ≠ [] ∧ p ∉ remadeFiles ∧
    ¬ RPMRepoManager.basedir <+: p ∧ ¬ RPMRepositoryGenerator.backupPath <+: p ∧
      ∀ d ∈ madeDirectories, ¬ p <+: d := by decide

theorem remadeFiles_apart : ∀ p ∈ remadeFiles, p ≠ [] ∧ ¬ RPMRepoManager.basedir <+: p ∧
    ¬ p <+: RPMRepositoryGenerator.backupPath ∧ ∀ d ∈ madeDirectories, ¬ p <+: d := by decide

/-- The machine has what the installation works on, and these directories. -/
structure Furnished (dirs : List Path) (fs : FS) : Prop where
  edited : ∀ p ∈ editedFiles, fs.isRegular p
  remade : ∀ p ∈ remadeFiles, fs.isDir p = false
  places : ∀ d ∈ dirs, fs.isDir d
  made : ∀ d ∈ madeDirectories, ∀ q, q <+: d → fs.isRegular q = false
  backups : ∀ p ∈ editedFiles, ∀ timestamp, fs.isDir (backupName p timestamp) = false

/-! ### What the operations keep -/

theorem Furnished.mono {dirs' : List Path} (h : Furnished dirs fs) (hdirs : dirs' ⊆ dirs) :
    Furnished dirs' fs :=
  ⟨h.edited, h.remade, fun d hd => h.places d (hdirs hd), h.made, h.backups⟩

theorem Furnished.set (h : Furnished dirs fs) (hp : fs.isDir p = false)
    (hapart : ∀ d ∈ madeDirectories, ¬ p <+: d) (text : String) :
    Furnished dirs (fs.set p (.file text)) where
  edited q hq := (FS.isRegular_set_file _ q).mpr (.inr (h.edited q hq))
  remade q hq := by rw [FS.isDir_set_file _ hp, h.remade q hq]
  places d hd := by rw [FS.isDir_set_file _ hp, h.places d hd]
  made d hd q hq := by
    rw [Bool.eq_false_iff, Ne, FS.isRegular_set_file, not_or]
    refine ⟨?_, by simp [h.made d hd q hq]⟩
    rintro rfl
    exact hapart d hd hq
  backups q hq timestamp := by rw [FS.isDir_set_file _ hp, h.backups q hq]

theorem Furnished.erase (h : Furnished dirs fs) (hp : p ∈ remadeFiles) :
    Furnished dirs (fs.erase p) := by
  have hdir : ∀ q, (fs.erase p).isDir q = fs.isDir q := by
    intro q
    by_cases hq : q = p
    · subst hq
      have hnot := h.remade q hp
      simp only [FS.isDir, decide_eq_false_iff_not, not_or] at hnot
      simp [FS.isDir, FS.get?_erase, hnot]
    · simp [FS.isDir, FS.get?_erase, hq]
  have hplain : ∀ q, (fs.erase p).isRegular q → fs.isRegular q := by
    intro q hq
    by_cases hqp : q = p
    · simp [FS.isRegular, FS.get?_erase, hqp] at hq
    · simpa [FS.isRegular, FS.get?_erase, hqp] using hq
  refine ⟨fun q hq => ?_, fun q hq => ?_, fun d hd => ?_, fun d hd q hq => ?_, fun q hq ts => ?_⟩
  · have hne : q ≠ p := by
      rintro rfl
      exact (editedFiles_apart q hq).2.1 hp
    have hregular := h.edited q hq
    simpa [FS.isRegular, FS.get?_erase, hne] using hregular
  · rw [hdir, h.remade q hq]
  · rw [hdir, h.places d hd]
  · exact Bool.eq_false_iff.mpr fun hr => absurd (hplain q hr) (by simp [h.made d hd q hq])
  · rw [hdir, h.backups q hq]

/-- The name of a copy is longer than that of the file, and no directory has it. -/
theorem not_prefix_backupName (hp : p ∈ editedFiles) (timestamp : String) {d : Path}
    (hd : d ∈ madeDirectories ∨ d = RPMRepositoryGenerator.backupPath) :
    ¬ backupName p timestamp <+: d := by
  have hne {name other : String} (hname : name ≠ "")
      (hhead : name.toList.head? ≠ other.toList.head?) : name ++ "_" ++ timestamp ≠ other := by
    intro heq
    rw [← heq, String.toList_append, String.toList_append, List.append_assoc,
      List.head?_append_of_ne_nil _ (by simpa using hname)] at hhead
    exact hhead rfl
  have hhosts := @hne "hosts" "security" (by decide) (by decide)
  have hhosts' := @hne "hosts" "yum.repos.d" (by decide) (by decide)
  have hchrony := @hne "chrony.conf" "security" (by decide) (by decide)
  have hchrony' := @hne "chrony.conf" "yum.repos.d" (by decide) (by decide)
  simp only [madeDirectories, editedFiles, List.map_cons, List.map_nil, List.mem_cons,
    List.not_mem_nil, or_false] at hp hd
  rcases hp with rfl | rfl | rfl <;> rcases hd with (rfl | rfl | rfl | rfl | rfl) | rfl <;>
    simp [backupName, Path.child, Path.parent, Path.filename, installPath, hostsFile, chronyFile,
      limitsFile, SLURM.configurationFile, XCAT.netboot, RPMRepositoryGenerator.backupPath]
  · exact hhosts
  · exact hhosts'
  · exact hchrony
  · exact hchrony'

theorem not_basedir_backupName (p : Path) (timestamp : String) :
    ¬ RPMRepoManager.basedir <+: backupName p timestamp := by
  rw [backupName, Path.child, installPath]
  simp [RPMRepoManager.basedir]

theorem createDirectories_furnished (h : Furnished dirs fs) {d : Path} (hd : d ∈ madeDirectories) :
    ∃ fs', fs.createDirectories d = .ok fs' ∧ Furnished (d :: dirs) fs' := by
  obtain ⟨fs', hmake⟩ : ∃ fs', fs.createDirectories d = .ok fs' := by
    have hnone : ¬ d.inits.any fs.isRegular := by
      rw [Bool.not_eq_true, List.any_eq_false]
      intro q hq
      rw [h.made d hd q ((List.mem_inits _ _).mp hq)]
      simp
    rw [FS.createDirectories, if_neg hnone]
    exact ⟨_, rfl⟩
  have hregular : ∀ q, fs'.isRegular q = fs.isRegular q := by
    intro q
    rw [FS.isRegular_eq, FS.isRegular_eq,
      sameOutside_createDirectories (P := fun _ => False) hmake q id]
  have hdir : ∀ q, fs.isDir q = false → ¬ q <+: d → fs'.isDir q = false := by
    intro q hq hpre
    rw [Bool.eq_false_iff, Ne, FS.isDir_createDirectories hmake, not_or]
    exact ⟨by simp [hq], hpre⟩
  refine ⟨fs', hmake, ⟨fun q hq => ?_, fun q hq => hdir q (h.remade q hq) ?_, fun q hq => ?_,
    fun e he q hq => ?_, fun q hq timestamp => ?_⟩⟩
  · rw [hregular, h.edited q hq]
  · exact (remadeFiles_apart q hq).2.2.2 d hd
  · rw [FS.isDir_createDirectories hmake q]
    obtain rfl | hq := List.mem_cons.mp hq
    · exact .inr List.prefix_rfl
    · exact .inl (h.places q hq)
  · rw [hregular, h.made e he q hq]
  · exact hdir _ (h.backups q hq timestamp) (not_prefix_backupName hq timestamp (.inl hd))

/-- What happens to the repositories does not matter. -/
theorem Furnished.congr (h : Furnished dirs fs) (hdirs : ∀ d ∈ dirs, ¬ RPMRepoManager.basedir <+: d)
    (hsame : ∀ q, ¬ RPMRepoManager.basedir <+: q → fs'.get? q = fs.get? q) :
    Furnished dirs fs' := by
  have hdir : ∀ q, ¬ RPMRepoManager.basedir <+: q → fs'.isDir q = fs.isDir q := by
    intro q hq
    rw [FS.isDir, FS.isDir, hsame q hq]
  have hregular : ∀ q, ¬ RPMRepoManager.basedir <+: q → fs'.isRegular q = fs.isRegular q := by
    intro q hq
    rw [FS.isRegular, FS.isRegular, hsame q hq]
  have hmade : ∀ d ∈ madeDirectories, ¬ RPMRepoManager.basedir <+: d := by decide
  refine ⟨fun p hp => ?_, fun p hp => ?_, fun d hd => ?_, fun d hd q hq => ?_,
    fun p hp timestamp => ?_⟩
  · rw [hregular p (editedFiles_apart p hp).2.2.1, h.edited p hp]
  · rw [hdir p (remadeFiles_apart p hp).2.1, h.remade p hp]
  · rw [hdir d (hdirs d hd), h.places d hd]
  · rw [hregular q fun hin => hmade d hd (hin.trans hq), h.made d hd q hq]
  · rw [hdir _ (not_basedir_backupName p timestamp), h.backups p hp]

/-! ### The helpers -/

theorem createDirectory_furnished (hlive : opts.dryRun = false) {d : Path}
    (hd : d ∈ madeDirectories) :
    Total (Furnished dirs) (createDirectory opts d) fun _ => Furnished (d :: dirs) := by
  intro fs h
  obtain ⟨fs', hmake, hfs'⟩ := createDirectories_furnished h hd
  refine ⟨(), fs', ?_, hfs'⟩
  rw [createDirectory, hlive, if_neg (by simp), bind_apply, get_apply]
  dsimp only
  rw [hmake]
  rfl

theorem removeFile_furnished (hp : p ∈ remadeFiles) :
    Runs (Furnished dirs) (removeFile opts p) := by
  intro fs h
  cases hdry : opts.dryRun with
  | true => exact ⟨(), fs, removeFile_dryRun hdry fs p, h⟩
  | false =>
    rw [removeFile, hdry, if_neg (by simp), bind_apply, get_apply]
    dsimp only
    split_ifs with hexists
    · have hremove : fs.remove p = .ok (fs.erase p) := by simp [FS.remove, h.remade p hp]
      rw [hremove]
      exact ⟨(), fs.erase p, rfl, h.erase hp⟩
    · exact ⟨(), fs, rfl, h⟩

/-- A file that is there or can be made is appended to. -/
theorem addStringToFile_furnished (h : Furnished dirs fs) (hroot : p ≠ []) (hp : fs.Writable p)
    (hapart : ∀ d ∈ madeDirectories, ¬ p <+: d) (string : String) :
    ∃ fs', addStringToFile opts p string fs = .ok () fs' ∧ Furnished dirs fs' := by
  have hplain : fs.isDir p = false := by
    simp [FS.isDir, hroot, FS.not_dir_of_writable hp]
  obtain ⟨opened, hopen, hfs⟩ : ∃ opened, fs.openAppend p = .ok opened ∧
      (opened = fs ∨ opened = fs.set p (.file "")) := by
    unfold FS.openAppend
    obtain hregular | ⟨hfree, hroot, hparent⟩ := hp
    · obtain ⟨text, htext⟩ := FS.isRegular_iff.mp hregular
      rw [htext]
      exact ⟨fs, rfl, .inl rfl⟩
    · rw [hfree]
      dsimp only
      rw [if_pos ⟨hroot, hparent⟩]
      exact ⟨_, rfl, .inr rfl⟩
  have hopened : Furnished dirs opened ∧ opened.isDir p = false := by
    obtain rfl | rfl := hfs
    · exact ⟨h, hplain⟩
    · exact ⟨h.set hplain hapart "", by rw [FS.isDir_set_file _ hplain, hplain]⟩
  rw [addStringToFile, bind_apply, get_apply]
  dsimp only
  rw [hopen]
  split_ifs
  · exact ⟨fs, rfl, h⟩
  · exact ⟨opened, rfl, hopened.1⟩
  · exact ⟨_, rfl, hopened.1.set hopened.2 hapart _⟩

theorem installFile_furnished (name data : String) :
    Runs (Furnished dirs) (installFile opts ["tmp", name] data) := by
  intro fs h
  have hapart : ∀ d ∈ madeDirectories, ¬ ["tmp", name] <+: d := by
    simp [madeDirectories, editedFiles, hostsFile, chronyFile, limitsFile,
      SLURM.configurationFile, installPath, XCAT.netboot, Path.parent]
  cases hdry : opts.dryRun with
  | true => exact ⟨(), fs, installFile_dryRun hdry fs _ data, h⟩
  | false =>
    rw [installFile, hdry, if_neg (by simp), bind_apply, get_apply]
    dsimp only
    split_ifs with hexists
    · exact ⟨(), fs, rfl, h⟩
    · have hplain : fs.isDir ["tmp", name] = false := by
        simp only [FS.exists, decide_eq_true_eq, not_or, Option.not_isSome_iff_eq_none] at hexists
        simp [FS.isDir, hexists.2]
      cases hwrite : fs.write ["tmp", name] data with
      | error code => exact ⟨(), fs, rfl, h⟩
      | ok fs' =>
        rw [FS.write_ok hwrite]
        exact ⟨(), _, rfl, h.set hplain hapart data⟩

theorem backupFile_furnished (hp : p ∈ editedFiles) (timestamp : String) :
    Runs (Furnished dirs) (backupFile opts p timestamp) := by
  have hparent : (backupName p timestamp).parent ∈ madeDirectories := by
    rw [backupName, Path.parent_child]
    exact List.mem_cons_of_mem _ (List.mem_cons_of_mem _ (List.mem_map_of_mem hp))
  intro fs h
  cases hdry : opts.dryRun with
  | true => exact ⟨(), fs, backupFile_dryRun hdry fs p timestamp, h⟩
  | false =>
    obtain ⟨_, fs₁, hmake, h₁⟩ := createDirectory_furnished hdry hparent fs h
    have hdir := h₁.places _ List.mem_cons_self
    rw [backupFile, hdry, if_neg (by simp), bind_of_ok hmake, bind_apply, get_apply]
    dsimp only
    split_ifs with hregular
    · exact ⟨(), fs₁, rfl, h₁.mono (List.subset_cons_self _ _)⟩
    · have hplain := h₁.backups p hp timestamp
      obtain ⟨text, htext⟩ := FS.isRegular_iff.mp (h₁.edited p hp)
      have hfree : fs₁.get? (backupName p timestamp) = none := by
        cases hnode : fs₁.get? (backupName p timestamp) with
        | none => rfl
        | some node =>
          cases node with
          | dir => simp [FS.isDir, hnode] at hplain
          | file text => exact absurd (FS.isRegular_iff.mpr ⟨text, hnode⟩) hregular
      have hroot : backupName p timestamp ≠ [] := by simp [backupName, Path.child]
      have hnone : fs₁.exists (backupName p timestamp) = false := by simp [FS.exists, hroot, hfree]
      have hcopy : fs₁.copy p (backupName p timestamp) =
          .ok (fs₁.set (backupName p timestamp) (.file text)) := by
        rw [FS.copy, htext]
        dsimp only
        simp only [hplain, hnone, Bool.false_eq_true, if_false]
        rw [FS.write, hfree]
        dsimp only
        rw [if_pos ⟨hroot, hdir⟩]
      rw [hcopy]
      refine ⟨(), _, rfl, (h₁.mono (List.subset_cons_self _ _)).set hplain (fun d hd => ?_) text⟩
      exact not_prefix_backupName hp timestamp (.inl hd)

end Cloyster.Engine.Shell
