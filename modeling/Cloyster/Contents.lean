import Cloyster.DryRun
import Cloyster.Lib.AppendOnce
import Cloyster.Lib.Moves

/-! Which contents the file helpers leave alone. Making a directory changes the content of no
file, and every other helper changes that of the one file it is about. A dry run can at most make
that file, and empty. -/

namespace Cloyster

open Lib

/-- Outside of these paths the files hold what they held. -/
def SameOutside (P : Path → Prop) (fs fs' : FS) : Prop :=
  ∀ q, ¬ P q → fs'.content? q = fs.content? q

instance (P : Path → Prop) : IsPreorder FS (SameOutside P) where
  refl _ _ _ := rfl
  trans _ _ _ h h' q hq := (h' q hq).trans (h q hq)

variable {P : Path → Prop} {fs fs' : FS} {p : Path}

theorem SameOutside.mono {Q : Path → Prop} (h : SameOutside P fs fs') (hPQ : ∀ q, P q → Q q) :
    SameOutside Q fs fs' := fun q hq => h q fun hp => hq (hPQ q hp)

/-! ### The operations of the file system -/

theorem sameOutside_set (fs : FS) (node : Node) (hp : P p) : SameOutside P fs (fs.set p node) := by
  intro q hq
  have hne : q ≠ p := fun h => hq (h ▸ hp)
  simp only [FS.content?, FS.get?_set_of_ne _ _ hne]

theorem sameOutside_write {s : String} (h : fs.write p s = .ok fs') (hp : P p) :
    SameOutside P fs fs' := by
  rw [FS.write_ok h]
  exact sameOutside_set fs _ hp

theorem sameOutside_openAppend (h : fs.openAppend p = .ok fs') (hp : P p) :
    SameOutside P fs fs' := by
  unfold FS.openAppend at h
  split at h
  · obtain rfl := Except.ok.inj h
    exact refl fs
  · exact absurd h (by simp)
  · split_ifs at h
    obtain rfl := Except.ok.inj h
    exact sameOutside_set fs _ hp

/-- A directory has no content, and had none before it was made. -/
theorem sameOutside_createDirectories (h : fs.createDirectories p = .ok fs') :
    SameOutside P fs fs' := by
  intro q _
  have hget := FS.get?_createDirectories h q
  unfold FS.content?
  rw [hget]
  split_ifs with hnew
  · have hnone : fs.get? q = none := by
      have hexists := hnew.2
      simp only [FS.exists, decide_eq_false_iff_not, not_or] at hexists
      simpa using hexists.2
    rw [hnone]
  · rfl

theorem sameOutside_remove (h : fs.remove p = .ok fs') (hp : P p) : SameOutside P fs fs' := by
  unfold FS.remove at h
  split_ifs at h
  obtain rfl := Except.ok.inj h
  intro q hq
  have hne : q ≠ p := fun h => hq (h ▸ hp)
  simp only [FS.content?, FS.get?_erase, if_neg hne]

theorem sameOutside_removeAll (fs : FS) (h : ∀ q, p <+: q → P q) :
    SameOutside P fs (fs.removeAll p) := by
  intro q hq
  have hnot : ¬ p <+: q := fun hpq => hq (h q hpq)
  simp only [FS.content?, FS.get?_removeAll, if_neg hnot]

theorem sameOutside_copy {source : Path} (h : fs.copy source p = .ok fs')
    (hp : P (if fs.isDir p then p.child source.filename else p)) : SameOutside P fs fs' := by
  obtain ⟨s, -, rfl, -⟩ := FS.copy_ok h
  exact sameOutside_set fs _ hp

/-- A path was free and is an empty file now. -/
def Created (fs fs' : FS) (q : Path) : Prop := fs.get? q = none ∧ fs'.get? q = some (.file "")

theorem created_openAppend (h : fs.openAppend p = .ok fs') (q : Path) :
    fs'.get? q = fs.get? q ∨ q = p ∧ Created fs fs' q := by
  unfold FS.openAppend at h
  split at h
  · exact .inl (by rw [← Except.ok.inj h])
  · exact absurd h (by simp)
  · next hnone =>
    split_ifs at h
    obtain rfl := Except.ok.inj h
    by_cases hq : q = p
    · subst hq
      exact .inr ⟨rfl, hnone, FS.get?_set_self _ _ _⟩
    · exact .inl (FS.get?_set_of_ne _ _ hq)

/-! ### The helpers -/

variable (opts : Options) (ini : IniFormat)

theorem touchFile_outside (hp : P p) : Moves (SameOutside P) (touchFile opts p) := by
  unfold touchFile
  refine moves_ite (fun _ => moves_pure _) fun _ => ?_
  intro fs
  rw [bind_apply, get_apply]
  dsimp only
  split_ifs
  · exact refl fs
  · cases hopen : fs.openAppend p with
    | ok fs' => exact sameOutside_openAppend hopen hp
    | error code => exact refl fs

theorem createDirectory_outside (p : Path) : Moves (SameOutside P) (createDirectory opts p) := by
  unfold createDirectory
  refine moves_ite (fun _ => moves_pure _) fun _ => ?_
  intro fs
  rw [bind_apply, get_apply]
  dsimp only
  cases hmk : fs.createDirectories p with
  | ok fs' => exact sameOutside_createDirectories hmk
  | error code => exact refl fs

theorem removeFile_outside (hp : P p) : Moves (SameOutside P) (removeFile opts p) := by
  unfold removeFile
  refine moves_ite (fun _ => moves_pure _) fun _ => ?_
  intro fs
  rw [bind_apply, get_apply]
  dsimp only
  split_ifs
  · cases hremove : fs.remove p with
    | ok fs' => exact sameOutside_remove hremove hp
    | error code => exact refl fs
  · exact refl fs

theorem addStringToFile_outside (string : String) (hp : P p) :
    Moves (SameOutside P) (addStringToFile opts p string) := by
  intro fs
  rw [addStringToFile, bind_apply, get_apply]
  dsimp only
  cases hopen : fs.openAppend p with
  | ok fs' =>
    have hopened : SameOutside P fs fs' := sameOutside_openAppend hopen hp
    split_ifs
    · exact refl fs
    · exact hopened
    · exact trans_of _ hopened (sameOutside_set fs' _ hp)
  | error code =>
    split_ifs
    · exact refl fs
    · exact refl fs
    · exact refl fs

/-- The stream is opened before the flag is looked at. -/
theorem addStringToFile_created (hdry : opts.dryRun = true) (string : String) (q : Path) :
    (finalState (addStringToFile opts p string fs)).get? q = fs.get? q ∨
      q = p ∧ Created fs (finalState (addStringToFile opts p string fs)) q := by
  rw [addStringToFile, bind_apply, get_apply]
  dsimp only
  simp only [hdry, if_true]
  cases hopen : fs.openAppend p with
  | ok fs' =>
    split_ifs
    · exact .inl rfl
    · exact created_openAppend hopen q
  | error code =>
    split_ifs
    · exact .inl rfl
    · exact .inl rfl

/-- What a file holds. A file that is not there holds nothing. -/
def textAt (fs : FS) (p : Path) : String := (fs.content? p).getD ""

theorem SameOutside.text (h : SameOutside P fs fs') (hp : ¬ P p) : textAt fs' p = textAt fs p :=
  congrArg (·.getD "") (h p hp)

/-- Either there was nothing at the path, or what was there is gone. -/
theorem removeFile_text (hlive : opts.dryRun = false) {u : Unit}
    (h : removeFile opts p fs = .ok u fs') : textAt fs' p = "" := by
  have hnone : fs'.get? p = none := by
    rw [removeFile, hlive, if_neg (by simp), bind_apply, get_apply] at h
    dsimp only at h
    split_ifs at h with hexists
    · cases hremove : fs.remove p with
      | error code =>
        rw [hremove] at h
        exact absurd h (by simp)
      | ok fs'' =>
        rw [hremove] at h
        obtain ⟨-, rfl⟩ := EStateM.Result.ok.inj h
        unfold FS.remove at hremove
        split_ifs at hremove
        obtain rfl := Except.ok.inj hremove
        simp [FS.get?_erase]
    · obtain ⟨-, rfl⟩ := EStateM.Result.ok.inj h
      simp only [FS.exists, decide_eq_true_eq, not_or] at hexists
      simpa using hexists.2
  simp [textAt, FS.content?, hnone]

/-- A run that throws may have made the file, and no more. -/
theorem addStringToFile_text (hlive : opts.dryRun = false) (string : String) (fs : FS) :
    ∃ k, textAt (finalState (addStringToFile opts p string fs)) p =
        appendAll (textAt fs p) ([string].take k) ∧
      ∀ u t, addStringToFile opts p string fs = .ok u t → 1 ≤ k := by
  rw [addStringToFile, bind_apply, get_apply]
  dsimp only
  by_cases hthere : Text.contains ((fs.content? p).getD "") string
  · rw [if_pos hthere]
    refine ⟨1, ?_, fun _ _ _ => le_rfl⟩
    exact (appendAll_of_contains fun s hs => by rwa [List.mem_singleton.mp hs]).symm
  · rw [if_neg hthere]
    simp only [hlive, Bool.false_eq_true, if_false]
    cases hopen : fs.openAppend p with
    | error code => exact ⟨0, rfl, fun _ _ h => absurd h (by simp)⟩
    | ok opened =>
      refine ⟨1, ?_, fun _ _ _ => le_rfl⟩
      have hset : FS.content? (opened.set p (.file ((fs.content? p).getD "" ++ string))) p =
          some ((fs.content? p).getD "" ++ string) :=
        FS.content?_eq_some.mpr (FS.get?_set_self _ _ _)
      change (FS.content? (opened.set p _) p).getD "" = appendOnce ((fs.content? p).getD "") string
      rw [hset, appendOnce, if_neg hthere]
      rfl

/-- A file that is there stays there. -/
theorem addStringToFile_isSome {string content : String} (h : fs.content? p = some content) :
    ((finalState (addStringToFile opts p string fs)).content? p).isSome := by
  have hthere : (fs.content? p).isSome := Option.isSome_of_eq_some h
  rw [addStringToFile, bind_apply, get_apply]
  dsimp only
  cases hopen : fs.openAppend p with
  | error code =>
    split_ifs
    · exact hthere
    · exact hthere
    · exact hthere
  | ok opened =>
    have hopened : (opened.content? p).isSome := by
      obtain hsame | ⟨-, hfree, -⟩ := created_openAppend hopen p
      · rwa [FS.content?, hsame]
      · rw [FS.content?, hfree] at hthere
        exact absurd hthere (by simp)
    split_ifs
    · exact hthere
    · exact hopened
    · exact Option.isSome_of_eq_some (FS.content?_eq_some.mpr (FS.get?_set_self _ _ _))

theorem addStringToFile_content (hlive : opts.dryRun = false) (string : String) (fs : FS) :
    ∃ k, (∀ content, fs.content? p = some content →
        (finalState (addStringToFile opts p string fs)).content? p =
          some (appendAll content ([string].take k))) ∧
      ∀ u t, addStringToFile opts p string fs = .ok u t → 1 ≤ k := by
  obtain ⟨k, htext, hall⟩ := addStringToFile_text opts hlive string fs
  refine ⟨k, fun content hcontent => ?_, hall⟩
  obtain ⟨content', hcontent'⟩ := Option.isSome_iff_exists.mp
    (addStringToFile_isSome opts hcontent)
  unfold textAt at htext
  rw [hcontent', hcontent, Option.getD_some, Option.getD_some] at htext
  rw [hcontent', htext]

theorem addStringToFile_returns {opened : FS} (string : String)
    (hopen : fs.openAppend p = .ok opened) :
    ∃ fs', addStringToFile opts p string fs = .ok () fs' := by
  rw [addStringToFile, bind_apply, get_apply]
  dsimp only
  rw [hopen]
  split_ifs
  · exact ⟨_, rfl⟩
  · exact ⟨_, rfl⟩
  · exact ⟨_, rfl⟩

/-- A write, and what is done once it has been made. -/
theorem write_outside (hp : P p) (text : String) (e : Exn) {rest : FsM Unit}
    (hrest : Moves (SameOutside P) rest) (fs : FS) :
    SameOutside P fs (finalState ((match fs.write p text with
      | .error _ => throw e
      | .ok fs' => set fs' >>= fun _ => rest : FsM Unit) fs)) := by
  cases hwrite : fs.write p text with
  | ok fs' => exact trans_of _ (sameOutside_write hwrite hp) (hrest fs')
  | error code => exact refl fs

theorem changeValueInConfigurationFile_outside (key value : String) (hp : P p) :
    Moves (SameOutside P) (changeValueInConfigurationFile opts ini p key value) := by
  unfold changeValueInConfigurationFile
  refine moves_ite (fun _ => moves_pure _) fun _ => ?_
  exact fun fs => write_outside hp _ _ (moves_ite (fun _ => moves_throw _) fun _ => moves_pure _) fs

theorem installFile_outside (data : String) (hp : P p) :
    Moves (SameOutside P) (installFile opts p data) := by
  unfold installFile
  refine moves_ite (fun _ => moves_pure _) fun _ => ?_
  intro fs
  rw [bind_apply, get_apply]
  dsimp only
  split_ifs
  · exact refl fs
  · cases hwrite : fs.write p data with
    | ok fs' => exact sameOutside_write hwrite hp
    | error code => exact refl fs

/-- A copy goes to the path, or into the directory at the path. -/
theorem copyFile_outside (source : Path) (h : ∀ q, p <+: q → P q) :
    Moves (SameOutside P) (copyFile opts source p) := by
  unfold copyFile
  refine moves_ite (fun _ => moves_pure _) fun _ => ?_
  intro fs
  rw [bind_apply, get_apply]
  dsimp only
  cases hcopy : fs.copy source p with
  | ok fs' =>
    refine sameOutside_copy hcopy ?_
    split_ifs
    · exact h _ (List.prefix_append _ _)
    · exact h _ List.prefix_rfl
  | error code => cases code <;> exact refl fs

theorem backupFile_outside (timestamp : String)
    (h : ∀ q, backupName p timestamp <+: q → P q) :
    Moves (SameOutside P) (backupFile opts p timestamp) := by
  unfold backupFile
  refine moves_ite (fun _ => moves_pure _) fun _ => ?_
  refine moves_bind (createDirectory_outside opts _) fun _ => ?_
  intro fs
  rw [bind_apply, get_apply]
  dsimp only
  split_ifs
  · exact refl fs
  · cases hcopy : fs.copy p (backupName p timestamp) with
    | ok fs' =>
      refine sameOutside_copy hcopy ?_
      split_ifs
      · exact h _ (List.prefix_append _ _)
      · exact h _ List.prefix_rfl
    | error code => exact refl fs

end Cloyster
