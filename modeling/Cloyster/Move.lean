import Cloyster.Functions

/-! What moving files loses. Copying selects the files whose extension is the
given one and skips a name that the destination has already; removing selects
them up to letter case and does not ask whether they were copied. So a file is
lost when its extension differs in case, or when another file stands in its
place in the destination; nothing is lost when copying stops with an exception,
because removing comes second. -/

namespace Cloyster

open Lib

variable (source destination : Path) (extension : String)

/-- Every regular file of the source is in one of the two directories with its
name and content, and every file of the destination is as it was. -/
structure LosesNothing (fs fs' : FS) : Prop where
  source : ∀ name text, fs.get? (source.child name) = some (.file text) →
    fs'.get? (source.child name) = some (.file text) ∨
      fs'.get? (destination.child name) = some (.file text)
  destination : ∀ name text, fs.get? (destination.child name) = some (.file text) →
    fs'.get? (destination.child name) = some (.file text)

/-- The copy phase takes the file, and nothing has its name in the destination. -/
def Missing (fs : FS) (name : String) : Prop :=
  fs.isRegular (source.child name) ∧ Text.extension name = extension ∧
    fs.get? (destination.child name) = none

/-- Copying throws: there is a file to copy, and no directory to copy it to. -/
def CopyStops (fs : FS) : Prop :=
  fs.isDir destination = false ∧ ∃ name, Missing source destination extension fs name

/-- The file may be removed: it was copied, or an equal one was there. -/
def Covered (fs : FS) (name : String) : Prop :=
  Text.extension name = extension ∧ fs.get? (destination.child name) = none ∨
    destination ≠ source ∧ fs.get? (destination.child name) = fs.get? (source.child name)

/-- The states in which moving loses nothing. -/
def MovesAll (fs : FS) : Prop :=
  fs.isDir source = false ∨ CopyStops source destination extension fs ∨
    ∀ name, hasExtensionLower fs source extension name →
      Covered source destination extension fs name

variable {source destination extension} {opts : Options} {fs fs' : FS}

theorem get?_of_hasExtensionLower {name : String}
    (h : hasExtensionLower fs source extension name) :
    ∃ text, fs.get? (source.child name) = some (.file text) := by
  rw [hasExtensionLower, Bool.and_eq_true] at h
  exact FS.isRegular_iff.mp h.1

/-! ### What copying leaves -/

/-- A state after the copies of some names. Nothing that was there has changed,
and each missing name is in the destination. -/
structure Copied (source destination : Path) (extension : String) (names : List String)
    (fs fs' : FS) : Prop where
  kept : ∀ q node, fs.get? q = some node → fs'.get? q = some node
  listed : ∀ name, fs'.get? (source.child name) = fs.get? (source.child name)
  isDir : ∀ p, fs'.isDir p = fs.isDir p
  copied : ∀ name ∈ names, Missing source destination extension fs name →
    fs'.get? (destination.child name) = fs.get? (source.child name)
  others : ∀ name, ¬ (name ∈ names ∧ Missing source destination extension fs name) →
    fs'.get? (destination.child name) = fs.get? (destination.child name)

theorem Copied.refl (fs : FS) : Copied source destination extension [] fs fs :=
  ⟨fun _ _ h => h, fun _ => rfl, fun _ => rfl, fun _ h => absurd h List.not_mem_nil, fun _ _ => rfl⟩

theorem copied_of_not_missing {name : String}
    (h : ¬ Missing source destination extension fs name) :
    Copied source destination extension [name] fs fs := by
  refine ⟨fun _ _ h => h, fun _ => rfl, fun _ => rfl, fun other hm hother => ?_, fun _ _ => rfl⟩
  rw [List.mem_singleton.mp hm] at hother
  exact absurd hother h

theorem Copied.missing_iff {names : List String}
    (h : Copied source destination extension names fs fs') {name : String} (hn : name ∉ names) :
    Missing source destination extension fs' name ↔ Missing source destination extension fs name := by
  have hdest := h.others name fun hm => hn hm.1
  simp only [Missing, FS.isRegular, h.listed, hdest]

theorem child_ne_nil (p : Path) (name : String) : p.child name ≠ [] := by simp [Path.child]

/-- A new file, in any directory, under the name of a file of the source: what
was there has not changed, and the source lists what it listed. -/
theorem set_file_frame {dir : Path} {name text : String}
    (htext : fs.get? (source.child name) = some (.file text))
    (hfree : fs.get? (dir.child name) = none) :
    (∀ q node, fs.get? q = some node →
        FS.get? (fs.set (dir.child name) (.file text)) q = some node) ∧
      (∀ other, FS.get? (fs.set (dir.child name) (.file text)) (source.child other) =
        fs.get? (source.child other)) ∧
      ∀ q, FS.isDir (fs.set (dir.child name) (.file text)) q = fs.isDir q := by
  refine ⟨fun q node h => ?_, fun other => ?_,
    FS.isDir_set_file text (by simp [FS.isDir, child_ne_nil, hfree])⟩
  · rw [FS.get?_set_of_ne _ _ (by rintro rfl; rw [hfree] at h; simp at h), h]
  · refine FS.get?_set_of_ne _ _ fun h => ?_
    obtain ⟨rfl, rfl⟩ := Path.child_inj.mp h
    rw [htext] at hfree
    simp at hfree

/-- One round of the copy loop. -/
theorem copyEntry_spec (hdry : opts.dryRun = false) (source destination : Path)
    (extension name : String) (fs : FS) :
    (∃ fs', copyEntry opts source destination extension name fs = .ok () fs' ∧
        Copied source destination extension [name] fs fs' ∧
        ¬ (fs.isDir destination = false ∧ Missing source destination extension fs name)) ∨
      (∃ e, copyEntry opts source destination extension name fs = .error e fs) ∧
        fs.isDir destination = false ∧ Missing source destination extension fs name := by
  rw [copyEntry, bind_apply, get_apply]
  dsimp only
  by_cases hsel : fs.isRegular (source.child name) ∧ Text.extension name = extension
  swap
  · have hmiss : ¬ Missing source destination extension fs name := fun h => hsel ⟨h.1, h.2.1⟩
    refine Or.inl ⟨fs, ?_, copied_of_not_missing hmiss, fun h => hmiss h.2⟩
    rw [if_neg (by simpa using hsel)]
    rfl
  obtain ⟨text, htext⟩ := FS.isRegular_iff.mp hsel.1
  rw [if_pos (by simpa using hsel), copyFile]
  simp only [hdry, Bool.false_eq_true, if_false, bind_apply, get_apply, FS.copy, htext,
    Path.filename_child]
  by_cases hdir : fs.isDir (destination.child name)
  · -- a directory of that name: the copy goes into it, or is there already
    have hdest : fs.get? (destination.child name) = some .dir := by
      simpa [FS.isDir, child_ne_nil] using hdir
    have hmiss : ¬ Missing source destination extension fs name := by
      intro h
      rw [h.2.2] at hdest
      exact absurd hdest (by simp)
    rw [if_pos hdir]
    by_cases hex : fs.exists ((destination.child name).child name)
    · rw [if_pos hex]
      exact Or.inl ⟨fs, rfl, copied_of_not_missing hmiss, fun h => hmiss h.2⟩
    · have hfree : fs.get? ((destination.child name).child name) = none := by
        simpa [FS.exists, child_ne_nil] using hex
      rw [if_neg hex]
      simp only [FS.write, hfree, child_ne_nil, ne_eq, not_false_eq_true, Path.parent_child, hdir,
        and_self, if_true, set_apply]
      obtain ⟨hkept, hlisted, hdirs⟩ := set_file_frame htext hfree
      refine Or.inl ⟨_, rfl, ⟨hkept, hlisted, hdirs, ?_, fun other _ => ?_⟩, fun h => hmiss h.2⟩
      · intro other hm hother
        rw [List.mem_singleton.mp hm] at hother
        exact absurd hother hmiss
      · refine FS.get?_set_of_ne _ _ fun h => ?_
        have hlen := congrArg List.length (Path.child_inj.mp h).1
        simp [Path.child] at hlen
  · rw [if_neg hdir]
    by_cases hex : fs.exists (destination.child name)
    · have hmiss : ¬ Missing source destination extension fs name := by
        intro h
        simp [FS.exists, child_ne_nil, h.2.2] at hex
      rw [if_pos hex]
      exact Or.inl ⟨fs, rfl, copied_of_not_missing hmiss, fun h => hmiss h.2⟩
    · have hfree : fs.get? (destination.child name) = none := by
        simpa [FS.exists, child_ne_nil] using hex
      have hmiss : Missing source destination extension fs name := ⟨hsel.1, hsel.2, hfree⟩
      rw [if_neg hex]
      by_cases hdest : fs.isDir destination
      · simp only [FS.write, hfree, child_ne_nil, ne_eq, not_false_eq_true, Path.parent_child,
          hdest, and_self, if_true, set_apply]
        obtain ⟨hkept, hlisted, hdirs⟩ := set_file_frame htext hfree
        refine Or.inl ⟨_, rfl, ⟨hkept, hlisted, hdirs, ?_, fun other hn => ?_⟩,
          fun h => by simp at h⟩
        · intro other hm _
          rw [List.mem_singleton.mp hm, FS.get?_set_self, htext]
        · refine FS.get?_set_of_ne _ _ fun h => ?_
          obtain ⟨-, rfl⟩ := Path.child_inj.mp h
          exact hn ⟨List.mem_singleton_self _, hmiss⟩
      · refine Or.inr ⟨⟨.filesystem .noSuchFile (source.child name).toText, ?_⟩, by simpa using hdest,
          hmiss⟩
        simp [FS.write, hfree, hdest]

/-- The rounds of the first names, then those of the others. -/
theorem Copied.trans {names others : List String} {fs'' : FS}
    (h : Copied source destination extension names fs fs')
    (h' : Copied source destination extension others fs' fs'') :
    Copied source destination extension (names ++ others) fs fs'' := by
  refine ⟨fun q node hq => h'.kept q node (h.kept q node hq),
    fun name => (h'.listed name).trans (h.listed name), fun p => (h'.isDir p).trans (h.isDir p),
    fun name hm hmiss => ?_, fun name hn => ?_⟩
  · by_cases hin : name ∈ names
    · have hcopied := h.copied name hin hmiss
      obtain ⟨text, htext⟩ := FS.isRegular_iff.mp hmiss.1
      rw [htext] at hcopied ⊢
      exact h'.kept _ _ hcopied
    · have hother := (List.mem_append.mp hm).resolve_left hin
      rw [h'.copied name hother ((h.missing_iff hin).mpr hmiss), h.listed]
  · have hfirst : ¬ (name ∈ names ∧ Missing source destination extension fs name) := fun hc =>
      hn ⟨List.mem_append_left _ hc.1, hc.2⟩
    rw [← h.others name hfirst]
    refine h'.others name fun hc => hn ⟨List.mem_append_right _ hc.1, ?_⟩
    have hnone := hc.2.2.2
    rw [h.others name hfirst] at hnone
    have hregular := hc.2.1
    rw [FS.isRegular, h.listed, ← FS.isRegular] at hregular
    exact ⟨hregular, hc.2.2.1, hnone⟩

/-- The copy loop returns with every missing name copied, or stops at the first
of them; then the destination is no directory. -/
theorem copyEntries_spec (hdry : opts.dryRun = false) (source destination : Path)
    (extension : String) (names : List String) (fs : FS) :
    (∃ fs', names.forM (copyEntry opts source destination extension) fs = .ok () fs' ∧
        Copied source destination extension names fs fs' ∧
        ¬ (fs.isDir destination = false ∧
          ∃ name ∈ names, Missing source destination extension fs name)) ∨
      ∃ e fs' before, names.forM (copyEntry opts source destination extension) fs = .error e fs' ∧
        Copied source destination extension before fs fs' ∧ fs.isDir destination = false ∧
          ∃ name ∈ names, Missing source destination extension fs name := by
  induction names generalizing fs with
  | nil => exact Or.inl ⟨fs, rfl, Copied.refl fs, by simp⟩
  | cons name names ih =>
    rw [forM_cons_apply]
    rcases copyEntry_spec hdry source destination extension name fs with
      ⟨fs₁, hrun, hfirst, hok⟩ | ⟨⟨e, hrun⟩, hdir, hmiss⟩
    · rw [hrun]
      rcases ih fs₁ with ⟨fs', hrest, hothers, hok'⟩ | ⟨e, fs', before, hrest, hothers, hdir, other,
        hm, hmiss⟩
      · refine Or.inl ⟨fs', hrest, hfirst.trans hothers, fun hstop => ?_⟩
        obtain ⟨hdir, other, hm, hmiss⟩ := hstop
        by_cases hother : other = name
        · subst hother
          exact hok ⟨hdir, hmiss⟩
        · refine hok' ⟨by rw [hfirst.isDir, hdir], other, ?_, ?_⟩
          · exact (List.mem_cons.mp hm).resolve_left hother
          · exact (hfirst.missing_iff (by simpa using hother)).mpr hmiss
      · refine Or.inr ⟨e, fs', name :: before, hrest, hfirst.trans hothers, ?_, other,
          List.mem_cons_of_mem _ hm, ?_⟩
        · rw [← hfirst.isDir, hdir]
        · by_cases hother : other = name
          · subst hother
            rw [hfirst.isDir] at hdir
            have hnot : ¬ Missing source destination extension fs other := fun h => hok ⟨hdir, h⟩
            have hsame := hfirst.others other fun h => hnot h.2
            have hregular := hmiss.1
            rw [FS.isRegular, hfirst.listed, ← FS.isRegular] at hregular
            exact ⟨hregular, hmiss.2.1, by rw [← hsame, hmiss.2.2]⟩
          · exact (hfirst.missing_iff (by simpa using hother)).mp hmiss
    · rw [hrun]
      exact Or.inr ⟨e, fs, [], rfl, Copied.refl fs, hdir, name, List.mem_cons_self, hmiss⟩

/-! ### Moving -/

theorem losesNothing_of_kept (h : ∀ q node, fs.get? q = some node → fs'.get? q = some node) :
    LosesNothing source destination fs fs' :=
  ⟨fun _ _ hname => Or.inl (h _ _ hname), fun _ _ hname => h _ _ hname⟩

theorem mem_children_of_isRegular {name : String} (h : fs.isRegular (source.child name)) :
    name ∈ fs.children source := by
  obtain ⟨text, htext⟩ := FS.isRegular_iff.mp h
  exact FS.mem_children.mpr ⟨_, htext⟩

/-- The files that matched in `fs` up to letter case are gone, and every other path is left. -/
structure Removed (source : Path) (extension : String) (fs fs' fs'' : FS) : Prop where
  gone : ∀ name, hasExtensionLower fs source extension name → fs''.get? (source.child name) = none
  left : ∀ q, (∀ name, hasExtensionLower fs source extension name → q ≠ source.child name) →
    fs''.get? q = fs'.get? q

/-- Removing after the copies. -/
theorem removeFilesWithExtension_copied {names : List String}
    (hsource : fs.isDir source) (h : Copied source destination extension names fs fs') :
    ∃ fs'', removeFilesWithExtension source extension fs' = .ok () fs'' ∧
      Removed source extension fs fs' fs'' := by
  have hlower : ∀ name, hasExtensionLower fs' source extension name =
      hasExtensionLower fs source extension name := by
    intro name
    simp only [hasExtensionLower, FS.isRegular, h.listed]
  have hdir : fs'.isDir source := by rw [h.isDir, hsource]
  obtain ⟨fs'', hrun, hget⟩ := removeEntries_apply source extension (fs'.children source) fs'
  refine ⟨fs'', by rw [removeFilesWithExtension, bind_of_ok (directoryIterator_of_isDir hdir), hrun],
    fun name hm => ?_, fun q hq => ?_⟩
  · obtain ⟨text, htext⟩ := get?_of_hasExtensionLower hm
    rw [← h.listed] at htext
    rw [hget, if_pos ⟨name, FS.mem_children.mpr ⟨_, htext⟩, rfl, by rw [hlower, hm]⟩]
  · rw [hget, if_neg]
    rintro ⟨name, -, heq, hm⟩
    rw [hlower] at hm
    exact hq name hm heq

/-- Both phases run to the end: nothing is lost exactly when each file that is
removed is covered. -/
theorem losesNothing_removed_iff {names : List String} {fs'' : FS}
    (h : Copied source destination extension names fs fs')
    (hall : ∀ name, fs.isRegular (source.child name) → name ∈ names)
    (hremoved : Removed source extension fs fs' fs'') :
    LosesNothing source destination fs fs'' ↔
      ∀ name, hasExtensionLower fs source extension name →
        Covered source destination extension fs name := by
  have hstays : ∀ name, ¬ hasExtensionLower fs source extension name →
      fs''.get? (source.child name) = fs.get? (source.child name) := by
    intro name hn
    rw [hremoved.left, h.listed]
    intro other hm heq
    exact hn ((Path.child_inj.mp heq).2 ▸ hm)
  have hother : destination ≠ source → ∀ name,
      fs''.get? (destination.child name) = fs'.get? (destination.child name) := by
    intro hne name
    exact hremoved.left _ fun other _ heq => hne (Path.child_inj.mp heq).1
  constructor
  · intro hloss name hm
    obtain ⟨text, htext⟩ := get?_of_hasExtensionLower hm
    have hgone := hremoved.gone name hm
    have hdest := (hloss.source name text htext).resolve_left (by simp [hgone])
    have hne : destination ≠ source := by
      rintro rfl
      rw [hgone] at hdest
      simp at hdest
    rw [hother hne] at hdest
    by_cases hmiss : Missing source destination extension fs name
    · exact Or.inl hmiss.2
    · rw [h.others name fun hc => hmiss hc.2] at hdest
      exact Or.inr ⟨hne, by rw [hdest, htext]⟩
  · intro hcovered
    constructor
    · intro name text htext
      by_cases hm : hasExtensionLower fs source extension name
      · right
        rcases hcovered name hm with ⟨hext, hnone⟩ | ⟨hne, heq⟩
        · have hne : destination ≠ source := by
            rintro rfl
            rw [hnone] at htext
            simp at htext
          have hregular : fs.isRegular (source.child name) := FS.isRegular_iff.mpr ⟨text, htext⟩
          rw [hother hne, h.copied name (hall name hregular) ⟨hregular, hext, hnone⟩, htext]
        · rw [hother hne]
          exact h.kept _ _ (heq.trans htext)
      · left
        rw [hstays name hm, htext]
    · intro name text htext
      by_cases hne : destination = source
      · subst hne
        rw [hstays, htext]
        intro hm
        rcases hcovered name hm with ⟨-, hnone⟩ | ⟨hne, -⟩
        · rw [hnone] at htext
          simp at htext
        · exact hne rfl
      · rw [hother hne]
        exact h.kept _ _ htext

theorem finalState_move_iff (hdry : opts.dryRun = false) (source destination : Path)
    (extension : String) (fs : FS) :
    LosesNothing source destination fs
        (finalState (moveFilesWithExtension opts source destination extension fs)) ↔
      MovesAll source destination extension fs := by
  unfold moveFilesWithExtension copyFilesWithExtension
  cases hsource : fs.isDir source with
  | false =>
    obtain ⟨e, he⟩ := directoryIterator_of_not_isDir hsource
    rw [bind_of_error (bind_of_error he _)]
    exact iff_of_true (losesNothing_of_kept fun _ _ h => h) (Or.inl hsource)
  | true =>
    have hlist := directoryIterator_of_isDir hsource
    rcases copyEntries_spec hdry source destination extension (fs.children source) fs with
      ⟨fs₁, hrun, hcopied, hok⟩ | ⟨e, fs₁, before, hrun, hcopied, hdir, name, -, hmiss⟩
    · obtain ⟨fs'', hremove, hremoved⟩ := removeFilesWithExtension_copied hsource hcopied
      rw [bind_of_ok (by rw [bind_of_ok hlist, hrun]), hremove]
      have hall : ∀ name, fs.isRegular (source.child name) → name ∈ fs.children source :=
        fun _ => mem_children_of_isRegular
      rw [finalState, losesNothing_removed_iff hcopied hall hremoved, MovesAll, hsource]
      have hstop : ¬ CopyStops source destination extension fs := by
        rintro ⟨hdir, name, hmiss⟩
        exact hok ⟨hdir, name, hall name hmiss.1, hmiss⟩
      simp [hstop]
    · rw [bind_of_error (by rw [bind_of_ok hlist, hrun])]
      exact iff_of_true (losesNothing_of_kept hcopied.kept) (Or.inr (Or.inl ⟨hdir, name, hmiss⟩))

/-! ### Backing up -/

/-- The backup copied every file it deleted. -/
def KeepsSource (source destination : Path) (fs fs' : FS) : Prop :=
  ∀ name text, fs.get? (source.child name) = some (.file text) →
    fs'.get? (source.child name) = some (.file text) ∨
      fs'.get? (destination.child name) = some (.file text)

/-- Once the backup directory is made, every file that is removed has the
extension in the letter case that is copied. -/
def BacksUpAll (backupPath source : Path) (extension : String) (fs : FS) : Prop :=
  ∀ fs₁, fs.createDirectories backupPath = .ok fs₁ → fs₁.isDir source →
    ∀ name, hasExtensionLower fs source extension name → Text.extension name = extension

/-- A new backup directory holds nothing, and the rest is as it was. -/
structure FreshBackup (backupPath : Path) (fs fs₁ : FS) : Prop where
  isDir : fs₁.isDir backupPath
  empty : ∀ name, fs₁.get? (backupPath.child name) = none
  files : ∀ q text, fs₁.get? q = some (.file text) ↔ fs.get? q = some (.file text)

theorem freshBackup_createDirectories {backupPath : Path} {fs₁ : FS} (hne : backupPath ≠ [])
    (hnone : ∀ q, backupPath <+: q → fs.get? q = none)
    (h : fs.createDirectories backupPath = .ok fs₁) : FreshBackup backupPath fs fs₁ := by
  have hget := FS.get?_createDirectories h
  have hself : fs.get? backupPath = none := hnone backupPath List.prefix_rfl
  constructor
  · have hmem : backupPath ∈ backupPath.inits.tail := by
      cases backupPath with
      | nil => exact absurd rfl hne
      | cons a p => simp
    have hdir := hget backupPath
    rw [if_pos ⟨hmem, by simp [FS.exists, hne, hself]⟩] at hdir
    simp [FS.isDir, hdir]
  · intro name
    have hchild : backupPath.child name ∉ backupPath.inits.tail := by
      intro hm
      have hprefix := (List.mem_inits _ _).mp (List.mem_of_mem_tail hm)
      have hlen := hprefix.length_le
      simp [Path.child] at hlen
    rw [hget, if_neg fun hc => hchild hc.1]
    exact hnone _ (List.prefix_append _ _)
  · intro q text
    rw [hget]
    split_ifs with hc
    · have hq := hc.2
      simp only [FS.exists, decide_eq_false_iff_not, not_or] at hq
      have hfree : fs.get? q = none := by simpa using hq.2
      simp [hfree]
    · rfl

/-- After the directory is made, the backup is a move into it. -/
theorem keepsSource_iff_of_fresh (hdry : opts.dryRun = false) {backupPath : Path} {fs₁ : FS}
    (hfresh : FreshBackup backupPath fs fs₁) (source : Path) (extension : String) :
    KeepsSource source backupPath fs
        (finalState (moveFilesWithExtension opts source backupPath extension fs₁)) ↔
      (fs₁.isDir source → ∀ name, hasExtensionLower fs source extension name →
        Text.extension name = extension) := by
  have hloses : ∀ fs', KeepsSource source backupPath fs fs' ↔
      LosesNothing source backupPath fs₁ fs' := by
    intro fs'
    constructor
    · intro h
      refine ⟨fun name text hname => h name text ((hfresh.files _ _).mp hname),
        fun name text hname => ?_⟩
      rw [hfresh.empty name] at hname
      exact absurd hname (by simp)
    · exact fun h name text hname => h.source name text ((hfresh.files _ _).mpr hname)
  have hregular : ∀ p, fs₁.isRegular p = fs.isRegular p := by
    intro p
    rw [Bool.eq_iff_iff, FS.isRegular_iff, FS.isRegular_iff]
    simp only [hfresh.files]
  have hlower : ∀ name, hasExtensionLower fs₁ source extension name =
      hasExtensionLower fs source extension name := by
    intro name
    simp only [hasExtensionLower, hregular]
  have hstop : ¬ CopyStops source backupPath extension fs₁ := fun h => by
    rw [CopyStops, hfresh.isDir] at h
    exact absurd h.1 (by simp)
  rw [hloses, finalState_move_iff hdry, MovesAll]
  simp only [hlower, hstop, false_or]
  constructor
  · intro h hdir name hm
    rcases h.resolve_left (by simp [hdir]) name hm with ⟨hext, -⟩ | ⟨-, heq⟩
    · exact hext
    · rw [← hlower] at hm
      obtain ⟨text, htext⟩ := get?_of_hasExtensionLower hm
      rw [hfresh.empty, htext] at heq
      exact absurd heq (by simp)
  · intro h
    rw [or_iff_not_imp_left]
    intro hdir name hm
    exact Or.inl ⟨h (by simpa using hdir) name hm, hfresh.empty name⟩

/-- Without a backup, whether one is forced or not, the directory is made and the files move. -/
theorem backup_of_none {backupPath : Path} (hne : backupPath ≠ [])
    (hnone : ∀ q, backupPath <+: q → fs.get? q = none) (source : Path) (extension : String) :
    backupFilesByExtension opts backupPath source extension fs =
      (createDirectory opts backupPath >>= fun _ =>
        moveFilesWithExtension opts source backupPath extension) fs := by
  have hremoveAll : fs.removeAll backupPath = fs :=
    FS.removeAll_of_forall fun q hq hprefix => by
      obtain ⟨node, hnode⟩ := FS.exists_get?_of_mem hq
      rw [hnone q hprefix] at hnode
      simp at hnode
  have hself : fs.exists backupPath = false := by
    simp [FS.exists, hne, hnone backupPath List.prefix_rfl]
  unfold backupFilesByExtension
  split_ifs
  · rw [bind_apply, modify_apply, hremoveAll]
    simp only [bind_apply, get_apply, hself]
    rfl
  · simp only [bind_apply, get_apply, hself]
    rfl

theorem keepsSource_backup_iff (hdry : opts.dryRun = false) {backupPath : Path}
    (hne : backupPath ≠ []) (hnone : ∀ q, backupPath <+: q → fs.get? q = none) (source : Path)
    (extension : String) :
    KeepsSource source backupPath fs
        (finalState (backupFilesByExtension opts backupPath source extension fs)) ↔
      BacksUpAll backupPath source extension fs := by
  rw [backup_of_none hne hnone, bind_apply, createDirectory, hdry]
  simp only [Bool.false_eq_true, if_false, bind_apply, get_apply]
  unfold BacksUpAll
  cases hmk : fs.createDirectories backupPath with
  | error code => exact iff_of_true (fun _ _ h => Or.inl h) (by simp)
  | ok fs₁ =>
    simp only [set_apply]
    rw [keepsSource_iff_of_fresh hdry (freshBackup_createDirectories hne hnone hmk)]
    constructor
    · rintro h t ht
      rw [Except.ok.inj ht] at h
      exact h
    · exact fun h => h fs₁ rfl

/-- Outside a dry run, exactly when moving loses nothing, and exactly when a
first backup keeps what it deletes. -/
theorem losesNothing_iff (hdry : opts.dryRun = false) (source : Path) (extension : String) (fs : FS) :
    (∀ destination, LosesNothing source destination fs
        (finalState (moveFilesWithExtension opts source destination extension fs)) ↔
      MovesAll source destination extension fs) ∧
    ∀ backupPath, backupPath ≠ [] → (∀ q, backupPath <+: q → fs.get? q = none) →
      (KeepsSource source backupPath fs
          (finalState (backupFilesByExtension opts backupPath source extension fs)) ↔
        BacksUpAll backupPath source extension fs) :=
  ⟨fun destination => finalState_move_iff hdry source destination extension fs,
    fun _ hne hnone => keepsSource_backup_iff hdry hne hnone source extension⟩

/-- A directory with one file. -/
def oneFile (name : String) : FS :=
  { nodes := ⟨[(["repos"], .dir), (["repos", name], .file "[epel]"), (["backup"], .dir)], by simp⟩ }

theorem losesNothing_iff_lower :
    LosesNothing ["repos"] ["backup"] (oneFile "epel.repo")
      (finalState (moveFilesWithExtension {} ["repos"] ["backup"] ".repo" (oneFile "epel.repo"))) := by
  refine ((losesNothing_iff rfl ["repos"] ".repo" (oneFile "epel.repo")).1 ["backup"]).mpr
    (Or.inr (Or.inr fun name hm => ?_))
  have hname : name ∈ (oneFile "epel.repo").children ["repos"] := by
    rw [hasExtensionLower, Bool.and_eq_true] at hm
    exact mem_children_of_isRegular hm.1
  have hlist : (oneFile "epel.repo").children ["repos"] = ["epel.repo"] := by decide
  rw [hlist, List.mem_singleton] at hname
  subst hname
  exact Or.inl (by decide)

/-- A file whose extension is in capitals is removed without a copy. -/
theorem not_losesNothing_upper :
    ¬ LosesNothing ["repos"] ["backup"] (oneFile "EPEL.REPO")
      (finalState (moveFilesWithExtension {} ["repos"] ["backup"] ".repo" (oneFile "EPEL.REPO"))) := by
  intro h
  have hkept := h.source "EPEL.REPO" "[epel]" (by decide)
  revert hkept
  decide +kernel

end Cloyster
