import Cloyster.Services.Repos.Restart

/-! Where the process may die. A crash before the backup, or after all of it and not between two
writes to one file, is made good by the next run; a crash among the copies never is, and one among
the removals when what was not removed yet is what would have been generated. -/

namespace Cloyster

open Lib RPMRepositoryParser

namespace RPMRepositoryGenerator

variable {opts : Options} {world : Query → Bool} {conffiles : RepoConfFiles} {codec : GKeyFile}
  {fs fs' : FS}

/-! ### A crash among the copies -/

/-- Copying regular files onto free names of the backup directory. -/
theorem copies_spec (codec : GKeyFile) {names : List String} (hnodup : names.Nodup)
    (hdry : opts.dryRun = false) (hdir : fs.isDir backupPath)
    (hfree : ∀ name ∈ names, fs.get? (backupPath.child name) = none)
    (hreg : ∀ name ∈ names, fs.isRegular (basedir.child name)) :
    ∃ fs', runSteps opts codec (names.map fun name =>
        .copyFile (basedir.child name) (backupPath.child name)) fs = .ok () fs' ∧
      ∀ name, fs'.get? (backupPath.child name) =
        if name ∈ names then fs.get? (basedir.child name) else fs.get? (backupPath.child name) := by
  induction names generalizing fs with
  | nil => exact ⟨fs, rfl, fun name => by simp⟩
  | cons name names ih =>
    rw [List.nodup_cons] at hnodup
    rw [List.forall_mem_cons] at hfree hreg
    obtain ⟨text, htext⟩ := FS.isRegular_iff.mp hreg.1
    have hne : backupPath.child name ≠ [] := by simp [Path.child]
    have hcopy : fs.copy (basedir.child name) (backupPath.child name) =
        .ok (fs.set (backupPath.child name) (.file text)) := by
      have hnotdir : fs.isDir (backupPath.child name) = false := by
        simp [FS.isDir, hne, hfree.1]
      have hnew : fs.exists (backupPath.child name) = false := by
        simp [FS.exists, hne, hfree.1]
      rw [FS.copy, htext]
      simp only [hnotdir, Bool.false_eq_true, if_false, hnew]
      exact write_child hdir (by simp [hfree.1])
    have hrun : copyFile opts (basedir.child name) (backupPath.child name) fs =
        .ok () (fs.set (backupPath.child name) (.file text)) := by
      rw [copyFile, if_neg (by simp [hdry])]
      simp only [bind_apply, get_apply, hcopy]
      rfl
    have hother : ∀ other ∈ names, backupPath.child other ≠ backupPath.child name := by
      intro other hm he
      exact hnodup.1 ((Path.child_inj.mp he).2 ▸ hm)
    have hsource : ∀ other, basedir.child other ≠ backupPath.child name := fun other he =>
      not_backup_child (backupPath_prefix_child name) other he.symm
    obtain ⟨fs', hrest, hget⟩ := ih hnodup.2 (isDir_set_child (.file text) hdir)
      (fun other hm => by rw [FS.get?_set_of_ne _ _ (hother other hm), hfree.2 other hm])
      (fun other hm => by
        rw [FS.isRegular, FS.get?_set_of_ne _ _ (hsource other)]
        exact hreg.2 other hm)
    refine ⟨fs', ?_, fun other => ?_⟩
    · rw [List.map_cons, runSteps, forM_cons_apply, Step.run, hrun]
      exact hrest
    · rw [hget, FS.get?_set_of_ne _ _ (hsource other), FS.get?_set]
      by_cases hm : other ∈ names
      · simp [hm]
      · by_cases he : other = name
        · subst he
          simp [hm, htext]
        · simp [hm, he, Path.child_inj]

/-- Removing and writing leave the backup alone. -/
theorem removeSteps_backup {names : List String} {start : FS} {u : Unit}
    (h : runSteps opts codec (removeSteps start names) fs = .ok u fs') {q : Path}
    (hq : backupPath <+: q) : fs'.get? q = fs.get? q := by
  unfold removeSteps at h
  generalize names.filter _ = matching at h
  induction matching generalizing fs with
  | nil =>
    obtain ⟨-, rfl⟩ := EStateM.Result.ok.inj h
    rfl
  | cons name matching ih =>
    rw [List.map_cons, runSteps, forM_cons_apply, Step.run] at h
    rw [ih h, FS.get?_erase, if_neg (not_backup_child hq name)]

theorem generateRepos_backup (hdir : fs.isDir basedir) {n : ℕ}
    (h : generateRepos opts world conffiles codec fs = .ok n fs') {q : Path}
    (hq : backupPath <+: q) : fs'.get? q = fs.get? q := by
  obtain ⟨files, hassembled, hsaves, -⟩ := (generateRepos_iff hdir).mp h
  obtain ⟨-, rfl⟩ := assembled_ok_iff.mp hassembled
  obtain ⟨-, hget, -, -⟩ := saves_spec hdir inBasedir_pendingFiles hsaves
  rw [hget]
  refine writtenAt_of_forall (fun file hm => ?_) _
  obtain ⟨name, hname⟩ := inBasedir_pendingFiles file hm
  rw [hname]
  exact Ne.symm (not_backup_child hq name)

/-- A new backup directory is empty. -/
theorem createDirectory_empty (hdry : opts.dryRun = false)
    (hnone : ∀ q, backupPath <+: q → fs.get? q = none) {u : Unit}
    (h : createDirectory opts backupPath fs = .ok u fs') :
    fs'.isDir backupPath ∧ ∀ name, fs'.get? (backupPath.child name) = none := by
  have hget := FS.get?_createDirectories (createDirectories_ok hdry h)
  have hfresh : fs.exists backupPath = false := by
    simp only [FS.exists, hnone _ List.prefix_rfl]
    rfl
  constructor
  · rw [FS.isDir, hget, if_pos ⟨by decide, hfresh⟩]
    simp
  · intro name
    have hlong : backupPath.child name ∉ backupPath.inits.tail := by
      intro hm
      have hlen := ((List.mem_inits _ _).mp (List.mem_of_mem_tail hm)).length_le
      simp [Path.child, backupPath] at hlen
    rw [hget, if_neg fun h => hlong h.1, hnone _ (backupPath_prefix_child name)]

/-- The names to be copied. -/
def copyNames (fs : FS) : List String :=
  (fs.children basedir).filter fun name =>
    fs.isRegular (basedir.child name) && Text.extension name == ".repo"

/-- After some of the copies the backup has these names and no others. -/
theorem copies_prefix (codec : GKeyFile) (hdry : opts.dryRun = false)
    (hnone : ∀ q, backupPath <+: q → fs.get? q = none) {t : FS} {u : Unit}
    (hmake : createDirectory opts backupPath fs = .ok u t) (j : ℕ) :
    ∃ fs', runSteps opts codec ((copySteps fs (fs.children basedir)).take j) t = .ok () fs' ∧
      ∀ name, fs'.get? (backupPath.child name) =
        if name ∈ (copyNames fs).take j then fs.get? (basedir.child name) else none := by
  obtain ⟨hsame, -⟩ := createDirectory_ok hdry hmake
  obtain ⟨hdir, hempty⟩ := createDirectory_empty hdry hnone hmake
  have hnodup : ((copyNames fs).take j).Nodup :=
    ((FS.nodup_children fs basedir).filter _).sublist (List.take_sublist j _)
  have hreg : ∀ name ∈ (copyNames fs).take j, t.isRegular (basedir.child name) := by
    intro name hm
    have hmatch := (List.mem_filter.mp (List.mem_of_mem_take hm)).2
    rw [Bool.and_eq_true] at hmatch
    rw [hsame.isRegular]
    exact hmatch.1
  obtain ⟨fs', hrun, hget⟩ := copies_spec codec hnodup hdry hdir (fun name _ => hempty name)
    hreg
  refine ⟨fs', ?_, fun name => ?_⟩
  · rw [copySteps, ← List.map_take]
    exact hrun
  · rw [hget, hsame.get?, hempty]

/-- A process that dies among the copies leaves files that are never backed up. -/
theorem not_recovers_of_pending_copy (hdry : opts.dryRun = false)
    (hforce : opts.shouldForce "backups" = false) (hdir : fs.isDir basedir)
    (hnone : ∀ q, backupPath <+: q → fs.get? q = none) {full : FS}
    (hfull : generate opts world conffiles codec fs = .ok () full) {k : ℕ}
    (hk : k < (copySteps fs (fs.children basedir)).length) :
    ¬ Recovers opts world conffiles codec fs full (k + 1) := by
  have hfresh : fs.exists backupPath = false := by
    simp only [FS.exists, hnone _ List.prefix_rfl]
    rfl
  obtain ⟨mid, hbackup, n, hgen⟩ := (generate_iff_backup hdry hforce hdir).mp hfull
  obtain ⟨hexistsm, hdirm⟩ := backup_ok hdry hfresh hdir hbackup
  have hsteps : backupSteps fs = .createDirectory backupPath ::
      (copySteps fs (fs.children basedir) ++ removeSteps fs (fs.children basedir)) := by
    rw [backupSteps, hfresh]
    rfl
  rw [hsteps, runSteps, forM_cons_apply, Step.run] at hbackup
  cases hmake : createDirectory opts backupPath fs with
  | error e t => rw [hmake] at hbackup; exact absurd hbackup (by simp)
  | ok u t =>
    rw [hmake] at hbackup
    -- the first name that is still to be copied
    have hlen : k < (copyNames fs).length := by simpa [copySteps, copyNames] using hk
    have hpending : (copyNames fs)[k] ∉ (copyNames fs).take k := by
      have hnodup : (copyNames fs).Nodup := (FS.nodup_children fs basedir).filter _
      rw [← List.take_append_drop k (copyNames fs), List.drop_eq_getElem_cons hlen] at hnodup
      intro hm
      exact (List.nodup_append.mp hnodup).2.2 _ hm _ List.mem_cons_self rfl
    generalize hname : (copyNames fs)[k] = name at hpending
    have hmem : name ∈ copyNames fs := hname ▸ List.getElem_mem hlen
    have hprefix := backupPath_prefix_child name
    have hcopied : full.get? (backupPath.child name) = fs.get? (basedir.child name) := by
      obtain ⟨t', hcopies, hget⟩ := copies_prefix codec hdry hnone hmake
        (copySteps fs (fs.children basedir)).length
      rw [List.take_length] at hcopies
      have hremove :
          runSteps opts codec (removeSteps fs (fs.children basedir)) t' = .ok () mid := by
        rw [← bind_of_ok hcopies fun _ => runSteps opts codec _, ← runSteps_append]
        exact hbackup
      have hall :
          (copyNames fs).take (copySteps fs (fs.children basedir)).length = copyNames fs := by
        rw [copySteps, List.length_map]
        exact List.take_length
      rw [generateRepos_backup hdirm hgen hprefix, removeSteps_backup hremove hprefix, hget, hall,
        if_pos hmem]
    rintro ⟨crashed, final, hcrash, hagain, hsame⟩
    obtain ⟨t', hcopies, hget⟩ := copies_prefix codec hdry hnone hmake k
    rw [steps, hsteps, List.cons_append, List.take_succ_cons, List.append_assoc,
      List.take_append_of_le_length hk.le, runSteps, forM_cons_apply, Step.run, hmake] at hcrash
    obtain ⟨-, rfl⟩ := EStateM.Result.ok.inj (hcopies.symm.trans hcrash)
    obtain ⟨hsamet, hexistst⟩ := createDirectory_ok hdry hmake
    rw [copySteps, ← List.map_take] at hcopies
    obtain ⟨hsamec, hexistsc⟩ := sameListing_copies hcopies
    have hdirc : t'.isDir basedir := by rw [(hsamet.trans hsamec).isDir, hdir]
    obtain ⟨m, hrepos⟩ :=
      (generate_iff_of_exists hdry hforce hdirc (hexistsc hexistst)).mp hagain
    have hlost := hsame.backup _ hprefix
    rw [generateRepos_backup hdirc hrepos hprefix, hcopied, hget, if_neg hpending] at hlost
    have hreg := (List.mem_filter.mp hmem).2
    rw [Bool.and_eq_true, FS.isRegular, ← hlost] at hreg
    exact absurd hreg.1 (by simp)

/-! ### A crash among the removals -/

/-- The names to be removed. -/
def removeNames (fs : FS) : List String :=
  (fs.children basedir).filter (hasExtensionLower fs basedir ".repo")

theorem removals_spec (opts : Options) (codec : GKeyFile) (names : List String) (fs : FS) :
    ∃ fs', runSteps opts codec (names.map fun name => .remove (basedir.child name)) fs =
        .ok () fs' ∧
      (∀ name ∈ names, fs'.get? (basedir.child name) = none) ∧
      ∀ q, (∀ name ∈ names, q ≠ basedir.child name) → fs'.get? q = fs.get? q := by
  induction names generalizing fs with
  | nil => exact ⟨fs, rfl, fun _ h => absurd h List.not_mem_nil, fun _ _ => rfl⟩
  | cons name names ih =>
    obtain ⟨fs', hrun, hgone, hleft⟩ := ih (fs.erase (basedir.child name))
    have hother : ∀ q, (∀ other ∈ name :: names, q ≠ basedir.child other) →
        fs'.get? q = fs.get? q := by
      intro q hq
      rw [List.forall_mem_cons] at hq
      rw [hleft q hq.2, FS.get?_erase, if_neg hq.1]
    refine ⟨fs', hrun, fun other hm => ?_, hother⟩
    by_cases hin : other ∈ names
    · exact hgone other hin
    · obtain rfl := (List.mem_cons.mp hm).resolve_right hin
      rw [hleft, FS.get?_erase, if_pos rfl]
      rintro third hthird he
      exact hin ((Path.child_inj.mp he).2 ▸ hthird)

/-- Two states that agree but for names that only one of them still has. -/
structure LeftOver (names : List String) (fs mid crashed : FS) : Prop where
  regular : ∀ name ∈ names, fs.isRegular (basedir.child name)
  kept : ∀ name ∈ names, crashed.get? (basedir.child name) = fs.get? (basedir.child name)
  gone : ∀ name ∈ names, mid.get? (basedir.child name) = none
  same : ∀ q, (∀ name ∈ names, q ≠ basedir.child name) → crashed.get? q = mid.get? q

/-- What was not removed yet does not show: a `.repo` file has the very bytes that are generated,
and another name that a conf file lists holds a key file. -/
structure Harmless (conffiles : RepoConfFiles) (codec : GKeyFile) (names : List String)
    (fs full : FS) : Prop where
  generated : ∀ name ∈ names, Text.extension name = ".repo" →
    full.get? (basedir.child name) = fs.get? (basedir.child name)
  startable : ∀ name ∈ names, Text.extension name ≠ ".repo" →
    ∀ configs, RepoGenerator.Listed conffiles (name, configs) →
      Startable codec fs (basedir.child name)

theorem mem_allEntries {entry : String × List RepoConfig} :
    entry ∈ allEntries conffiles ↔ RepoGenerator.Listed conffiles entry := by
  obtain ⟨filename, configs⟩ := entry
  simp [allEntries, RepoGenerator.Listed, Std.TreeMap.mem_toList_iff_getElem?_eq_some]

namespace LeftOver

variable {names : List String} {mid crashed full : FS}

theorem isRegular (h : LeftOver names fs mid crashed) {name : String} (hm : name ∈ names) :
    crashed.isRegular (basedir.child name) := by
  rw [FS.isRegular, h.kept name hm]
  exact h.regular name hm

theorem get?_child (h : LeftOver names fs mid crashed) {name : String} (hm : name ∉ names) :
    crashed.get? (basedir.child name) = mid.get? (basedir.child name) := by
  refine h.same _ fun other hother he => hm ?_
  rw [(Path.child_inj.mp he).2]
  exact hother

/-- What is pending now was pending without the crash. -/
theorem pending_subset (h : LeftOver names fs mid crashed) :
    ∀ entry ∈ pending conffiles crashed, entry ∈ pending conffiles mid := by
  intro entry hm
  obtain ⟨hall, hnot⟩ := List.mem_filter.mp hm
  refine List.mem_filter.mpr ⟨hall, ?_⟩
  simp only [decide_eq_true_eq, mem_existing] at hnot ⊢
  rintro ⟨hreg, hext⟩
  have hin : entry.1 ∉ names := by
    intro hin
    rw [FS.isRegular, h.gone _ hin] at hreg
    exact absurd hreg (by simp)
  refine hnot ⟨?_, hext⟩
  rw [FS.isRegular, h.get?_child hin]
  exact hreg

/-- A `.repo` file that is still there is skipped. -/
theorem writtenAt_eq (h : LeftOver names fs mid crashed) {name : String} (hm : name ∈ names)
    (hext : Text.extension name = ".repo") :
    writtenAt codec (basedir.child name) (crashed.get? (basedir.child name))
      (pendingFiles opts world conffiles crashed) = fs.get? (basedir.child name) := by
  rw [writtenAt, filter_pendingFiles opts world conffiles crashed hext, if_pos (h.isRegular hm),
    ← h.kept name hm]
  rfl

/-- The other `.repo` files are written as without the crash. -/
theorem writtenAt_congr (h : LeftOver names fs mid crashed) {name : String} (hm : name ∉ names)
    (hext : Text.extension name = ".repo") :
    writtenAt codec (basedir.child name) (crashed.get? (basedir.child name))
        (pendingFiles opts world conffiles crashed) =
      writtenAt codec (basedir.child name) (mid.get? (basedir.child name))
        (pendingFiles opts world conffiles mid) := by
  have hreg : crashed.isRegular (basedir.child name) = mid.isRegular (basedir.child name) := by
    rw [FS.isRegular, FS.isRegular, h.get?_child hm]
  rw [writtenAt, writtenAt, filter_pendingFiles opts world conffiles crashed hext,
    filter_pendingFiles opts world conffiles mid hext, hreg, h.get?_child hm]

/-- Every write starts from something. -/
theorem startable (h : LeftOver names fs mid crashed)
    (hharmless : Harmless conffiles codec names fs full)
    (hmid : ∀ file ∈ pendingFiles opts world conffiles mid, Startable codec mid file.path) :
    ∀ file ∈ pendingFiles opts world conffiles crashed, Startable codec crashed file.path := by
  intro file hfile
  obtain ⟨entry, hentry, rfl⟩ := List.mem_map.mp hfile
  rw [assembledFile_path]
  by_cases hin : entry.1 ∈ names
  · obtain ⟨hall, hnot⟩ := List.mem_filter.mp hentry
    have hext : Text.extension entry.1 ≠ ".repo" := by
      intro hext
      simp only [decide_eq_true_eq, mem_existing] at hnot
      exact hnot ⟨h.isRegular hin, hext⟩
    exact (startable_congr (h.kept _ hin)).mpr
      (hharmless.startable _ hin hext entry.2 (mem_allEntries.mp hall))
  · have hold := hmid _ (List.mem_map_of_mem (h.pending_subset entry hentry))
    rw [assembledFile_path] at hold
    exact (startable_congr (h.get?_child hin)).mpr hold

/-- The second generation ends as the first would have exactly when nothing shows. -/
theorem generateRepos_iff (h : LeftOver names fs mid crashed) (hdir : crashed.isDir basedir)
    (hdirm : mid.isDir basedir) {n : ℕ}
    (hgen : generateRepos opts world conffiles codec mid = .ok n full) :
    (∃ m final, generateRepos opts world conffiles codec crashed = .ok m final ∧
      SameRepos full final) ↔ Harmless conffiles codec names fs full := by
  obtain ⟨files, hassembled, hsaves, -⟩ := (RPMRepositoryGenerator.generateRepos_iff hdirm).mp hgen
  obtain ⟨hmirrors, rfl⟩ := assembled_ok_iff.mp hassembled
  obtain ⟨-, hgetf, -, hstart⟩ := saves_spec hdirm inBasedir_pendingFiles hsaves
  constructor
  · rintro ⟨m, final, hagain, hsame⟩
    obtain ⟨files, hassembled', hsaves', -⟩ :=
      (RPMRepositoryGenerator.generateRepos_iff hdir).mp hagain
    obtain ⟨-, rfl⟩ := assembled_ok_iff.mp hassembled'
    obtain ⟨-, hgetr, -, hstart'⟩ := saves_spec hdir inBasedir_pendingFiles hsaves'
    constructor
    · intro name hm hext
      rw [← hsame.repos name hext, hgetr, h.writtenAt_eq hm hext]
    · intro name hm hext configs hlisted
      have hpending : (name, configs) ∈ pending conffiles crashed := by
        refine List.mem_filter.mpr ⟨mem_allEntries.mpr hlisted, ?_⟩
        simp only [decide_eq_true_eq, mem_existing]
        exact fun hboth => hext hboth.2
      have hnow := hstart' _ (List.mem_map_of_mem hpending)
      rw [assembledFile_path] at hnow
      exact (startable_congr (h.kept name hm)).mp hnow
  · intro hharmless
    obtain ⟨final, hfinal⟩ := saves_exists hdir inBasedir_pendingFiles
      (h.startable hharmless hstart)
    obtain ⟨-, hgetr, -, -⟩ := saves_spec hdir inBasedir_pendingFiles hfinal
    have hagain : generateRepos opts world conffiles codec crashed = .ok _ final :=
      (RPMRepositoryGenerator.generateRepos_iff hdir).mpr ⟨_, assembled_ok_iff.mpr
        ⟨fun entry hm => hmirrors entry (h.pending_subset entry hm), rfl⟩, hfinal, rfl⟩
    refine ⟨_, final, hagain, fun name hext => ?_, fun q hq => ?_⟩
    · rw [hgetr]
      by_cases hm : name ∈ names
      · rw [h.writtenAt_eq hm hext, hharmless.generated name hm hext]
      · rw [h.writtenAt_congr hm hext, hgetf]
    · rw [generateRepos_backup hdir hagain hq, generateRepos_backup hdirm hgen hq]
      exact h.same q fun name _ => not_backup_child hq name

end LeftOver

/-- A process that dies among the removals leaves the names that are still to be removed. -/
theorem recovers_iff_of_removals (hdry : opts.dryRun = false)
    (hforce : opts.shouldForce "backups" = false) (hdir : fs.isDir basedir)
    (hnone : ∀ q, backupPath <+: q → fs.get? q = none) {full : FS}
    (hfull : generate opts world conffiles codec fs = .ok () full) {j : ℕ}
    (hj : j ≤ (removeNames fs).length) :
    Recovers opts world conffiles codec fs full
        ((copySteps fs (fs.children basedir)).length + j + 1) ↔
      Harmless conffiles codec ((removeNames fs).drop j) fs full := by
  have hfresh : fs.exists backupPath = false := by
    simp only [FS.exists, hnone _ List.prefix_rfl]
    rfl
  obtain ⟨mid, hbackup, n, hgen⟩ := (generate_iff_backup hdry hforce hdir).mp hfull
  obtain ⟨-, hdirm⟩ := backup_ok hdry hfresh hdir hbackup
  have hsteps : backupSteps fs = .createDirectory backupPath ::
      (copySteps fs (fs.children basedir) ++ removeSteps fs (fs.children basedir)) := by
    rw [backupSteps, hfresh]
    rfl
  have hremoves : removeSteps fs (fs.children basedir) =
      (removeNames fs).map fun name => .remove (basedir.child name) := rfl
  rw [hsteps, runSteps, forM_cons_apply, Step.run] at hbackup
  cases hmake : createDirectory opts backupPath fs with
  | error e t => rw [hmake] at hbackup; exact absurd hbackup (by simp)
  | ok u t =>
    rw [hmake] at hbackup
    dsimp only at hbackup
    rw [← runSteps, runSteps_append] at hbackup
    obtain ⟨v, t', hcopies, hremove⟩ := bind_ok_iff.mp hbackup
    obtain ⟨hsamet, hexistst⟩ := createDirectory_ok hdry hmake
    obtain ⟨hsamec, hexistsc⟩ := sameListing_copies hcopies
    have hsame := hsamet.trans hsamec
    -- the run that dies, and the one that does not
    obtain ⟨crashed, hcrash, hgonec, hleftc⟩ :=
      removals_spec opts codec ((removeNames fs).take j) t'
    obtain ⟨mid', hmid, hgonem, hleftm⟩ := removals_spec opts codec (removeNames fs) t'
    rw [hremoves] at hremove
    obtain ⟨-, rfl⟩ := EStateM.Result.ok.inj (hmid.symm.trans hremove)
    have hnodup : (removeNames fs).Nodup := (FS.nodup_children fs basedir).filter _
    have hleft : LeftOver ((removeNames fs).drop j) fs mid' crashed := by
      have hapart : ∀ name ∈ (removeNames fs).drop j, name ∉ (removeNames fs).take j := by
        rw [← List.take_append_drop j (removeNames fs)] at hnodup
        exact fun name hd ht => (List.nodup_append.mp hnodup).2.2 _ ht _ hd rfl
      refine ⟨fun name hm => ?_, fun name hm => ?_, fun name hm => ?_, fun q hq => ?_⟩
      · have hmatch := (List.mem_filter.mp (List.mem_of_mem_drop hm)).2
        rw [hasExtensionLower, Bool.and_eq_true] at hmatch
        exact hmatch.1
      · rw [hleftc, hsame.get?]
        rintro other hother he
        obtain ⟨-, rfl⟩ := Path.child_inj.mp he
        exact hapart name hm hother
      · exact hgonem name (List.mem_of_mem_drop hm)
      · by_cases htaken : ∃ name ∈ (removeNames fs).take j, q = basedir.child name
        · obtain ⟨name, hm, rfl⟩ := htaken
          rw [hgonec name hm, hgonem name (List.mem_of_mem_take hm)]
        · simp only [not_exists, not_and] at htaken
          rw [hleftc q htaken, hleftm q fun name hm => ?_]
          rw [← List.take_append_drop j (removeNames fs), List.mem_append] at hm
          exact hm.elim (htaken name) (hq name)
    have houtside : ∀ q : Path, (∀ name, q ≠ basedir.child name) → crashed.get? q = t'.get? q :=
      fun q hq => hleftc q fun name _ => hq name
    have hdirc : crashed.isDir basedir := by
      rw [FS.isDir, houtside basedir fun name => by simp [basedir, Path.child], ← FS.isDir,
        hsame.isDir, hdir]
    have hexists : crashed.exists backupPath := by
      rw [exists_congr (houtside backupPath fun name => by simp [backupPath, basedir, Path.child])]
      exact hexistsc hexistst
    have hcut : runSteps opts codec ((steps opts world conffiles codec fs).take
        ((copySteps fs (fs.children basedir)).length + j + 1)) fs = .ok () crashed := by
      have hlen : j ≤ (removeSteps fs (fs.children basedir)).length := by
        rw [hremoves, List.length_map]
        exact hj
      rw [steps, hsteps, List.cons_append, List.take_succ_cons, List.append_assoc,
        List.take_length_add_append, List.take_append_of_le_length hlen, runSteps,
        forM_cons_apply, Step.run, hmake]
      dsimp only
      rw [← runSteps, runSteps_append, bind_of_ok hcopies, hremoves, ← List.map_take, hcrash]
    rw [← hleft.generateRepos_iff hdirc hdirm hgen]
    constructor
    · rintro ⟨crashed', final, hcrash', hagain, hsame'⟩
      obtain ⟨-, rfl⟩ := EStateM.Result.ok.inj (hcut.symm.trans hcrash')
      obtain ⟨m, hrepos⟩ := (generate_iff_of_exists hdry hforce hdirc hexists).mp hagain
      exact ⟨m, final, hrepos, hsame'⟩
    · rintro ⟨m, final, hrepos, hsame'⟩
      exact ⟨crashed, final, hcut,
        (generate_iff_of_exists hdry hforce hdirc hexists).mpr ⟨m, hrepos⟩, hsame'⟩

/-- A crash before the backup, or after all of it and not between two writes to
one file, is made good by the next run; a crash among the copies never is, and one among
the removals exactly when the names that are left do not show. -/
theorem recovers_cuts (hdry : opts.dryRun = false) (hforce : opts.shouldForce "backups" = false)
    (hdir : fs.isDir basedir) (hnone : ∀ q, backupPath <+: q → fs.get? q = none) {full : FS}
    (hfull : generate opts world conffiles codec fs = .ok () full) :
    (∀ k, CleanCut opts world conffiles codec fs k →
        Recovers opts world conffiles codec fs full k) ∧
      (∀ k < (copySteps fs (fs.children basedir)).length,
        ¬ Recovers opts world conffiles codec fs full (k + 1)) ∧
      ∀ j ≤ (removeNames fs).length, Recovers opts world conffiles codec fs full
          ((copySteps fs (fs.children basedir)).length + j + 1) ↔
        Harmless conffiles codec ((removeNames fs).drop j) fs full := by
  have hfresh : fs.exists backupPath = false := by
    simp only [FS.exists, hnone _ List.prefix_rfl]
    rfl
  exact ⟨fun k => recovers_of_cleanCut hdry hforce hdir hfresh hfull,
    fun k => not_recovers_of_pending_copy hdry hforce hdir hnone hfull,
    fun j => recovers_iff_of_removals hdry hforce hdir hnone hfull⟩

/-- A fresh installation with one repository file. -/
def freshInstall : FS :=
  { nodes := ⟨[(["etc"], .dir), (basedir, .dir),
    (basedir.child "rocky.repo", .file "[baseos]\n")], by decide⟩ }

def withBackupDirectory : FS :=
  { nodes := ⟨freshInstall.nodes.entries ++ [(["opt"], .dir), (["opt", "cloysterhpc"], .dir),
    (["opt", "cloysterhpc", "backup"], .dir), (["opt", "cloysterhpc", "backup", "etc"], .dir),
    (backupPath, .dir)], by decide⟩ }

def backedUp : FS :=
  (withBackupDirectory.set (backupPath.child "rocky.repo") (.file "[baseos]\n")).erase
    (basedir.child "rocky.repo")

theorem runSteps_freshInstall :
    runSteps {} GKeyFile.text (backupSteps freshInstall) freshInstall = .ok () backedUp := by
  rfl

theorem generate_freshInstall :
    ∃ full, generate {} (fun _ => true) (RepoGenerator.epelConffiles "epel/9/x86_64")
      GKeyFile.text freshInstall = .ok () full := by
  have hgenerable : RepoGenerator.Generable {} (RepoGenerator.epelConffiles "epel/9/x86_64")
      basedir backedUp := by
    constructor
    · intro entry hlisted
      rw [((RepoGenerator.listed_epel_iff _ entry).mp hlisted).1]
      decide
    · intro entry _ _ config _ hroot
      exact absurd hroot.isLocal (by decide)
  obtain ⟨full, hcompletes⟩ : ∃ full, RepoGenerator.Completes {} (fun _ _ => true) GKeyFile.text
      (RepoGenerator.epelConffiles "epel/9/x86_64") basedir backedUp full :=
    RepoGenerator.completes_of_generable (RepoGenerator.wellNamed_epel _) (by decide) hgenerable
  obtain ⟨n, hn⟩ := hcompletes.returns
  exact ⟨full, (generate_iff_backup rfl (by decide) (by decide)).mpr
    ⟨backedUp, runSteps_freshInstall, n, hn⟩⟩

theorem freshInstall_no_backup : ∀ q, backupPath <+: q → freshInstall.get? q = none := by
  intro q hq
  rw [FS.get?_eq_none_iff]
  intro hm
  have hnot : ∀ p ∈ freshInstall.keys, ¬ backupPath <+: p := by decide
  exact hnot q hm hq

/-- One repository is generated after one file was backed up. -/
theorem recovers_cuts_freshInstall :
    ∃ full, generate {} (fun _ => true) (RepoGenerator.epelConffiles "epel/9/x86_64")
        GKeyFile.text freshInstall = .ok () full ∧
      Recovers {} (fun _ => true) (RepoGenerator.epelConffiles "epel/9/x86_64") GKeyFile.text
        freshInstall full (backupSteps freshInstall).length := by
  obtain ⟨full, hfull⟩ := generate_freshInstall
  exact ⟨full, hfull, (recovers_cuts rfl (by decide) (by decide) freshInstall_no_backup hfull).1 _
    cleanCut_backup⟩

/-- A crash right after the directory was made: nothing will ever be backed up. -/
theorem not_recovers_after_createDirectory :
    generate {} (fun _ => true) {} GKeyFile.text freshInstall = .ok () backedUp ∧
      ¬ Recovers {} (fun _ => true) {} GKeyFile.text freshInstall backedUp 1 := by
  constructor
  · rfl
  · rintro ⟨crashed, final, hcrash, hgen, hsame⟩
    have hmade : runSteps {} GKeyFile.text
        ((steps {} (fun _ => true) {} GKeyFile.text freshInstall).take 1) freshInstall =
          .ok () withBackupDirectory := by
      rfl
    have hagain : generate {} (fun _ => true) {} GKeyFile.text withBackupDirectory =
        .ok () withBackupDirectory := by
      rfl
    rw [hmade] at hcrash
    obtain ⟨-, rfl⟩ := EStateM.Result.ok.inj hcrash
    rw [hagain] at hgen
    obtain ⟨-, rfl⟩ := EStateM.Result.ok.inj hgen
    have hlost := hsame.backup (backupPath.child "rocky.repo") (by decide)
    exact absurd hlost (by decide)

end RPMRepositoryGenerator

end Cloyster
