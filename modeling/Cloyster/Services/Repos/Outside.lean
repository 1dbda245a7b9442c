import Cloyster.Services.Repos.Generator
import Cloyster.Services.Repos.Listing

/-! Other programs change the repository files too. The manager keeps the copy it
read when a file was loaded, and saving writes every known key of every copied
repository into whatever the file holds by then. So enabling a repository also
puts back what was copied; keys the copies do not have, groups they do not know
and all other files keep what is on disk. Where the copies still say what the
disk says, only the flags change. -/

namespace Cloyster

open Lib RPMRepositoryParser

namespace RPMRepoManager

/-- A call to the manager, or a change that another program makes. -/
inductive Event where
  | request (call : Call)
  | outside (write : FS → FS)

variable (opts : Options) (codec : GKeyFile)

/-- A call that throws leaves what it had done. -/
def Event.run : Event → RPMRepoManager × FS → RPMRepoManager × FS
  | .request call, s => finalState (call.run opts codec s)
  | .outside write, s => (s.1, write s.2)

def afterEvents (events : List Event) (s : RPMRepoManager × FS) : RPMRepoManager × FS :=
  events.foldl (fun s event => event.run opts codec s) s

/-! ### What is promised -/

def valueAt (fs : FS) (path : Path) (group name : String) : Option String :=
  (keyFileAt codec fs path).bind (·.value? group name)

/-- Some of the identifiers map to the object, and its file is at the path. -/
def TouchedAt (manager : RPMRepoManager) (repos : List String) (path : Path) (ref : ℕ) : Prop :=
  (∃ id ∈ repos, manager.filesIdx[id]? = some ref) ∧
    ∃ file, manager.files[ref]? = some file ∧ file.path = path

/-- The value the copy behind a reference has for a key, its flag set if asked for. -/
def cachedValue (manager : RPMRepoManager) (repos : List String) (value : Bool) (ref : ℕ)
    (group name : String) : Option String :=
  (definition manager group ref).bind fun repo => knownValue { repo with
    enabled := if group ∈ repos ∧ manager.filesIdx[group]? = some ref then value
      else repo.enabled } name

/-- The disk still says what the copies of the touched file say. -/
def UpToDate (manager : RPMRepoManager) (repos : List String) (path : Path) (key : KeyFile) : Prop :=
  ∀ ref, TouchedAt manager repos path ref → ∀ (id : String) (repo : RPMRepository),
    definition manager id ref = some repo → parseRepo codec path.toText key id = .ok repo

/-- What enabling does to the disk: every key of a touched file has the value of a
copy, or no copy has one and it keeps its own; no other path changes. -/
structure EnablesFromCache (manager : RPMRepoManager) (repos : List String) (value : Bool)
    (fs fs' : FS) : Prop where
  untouched : ∀ path, (∀ ref, ¬ TouchedAt manager repos path ref) → fs'.get? path = fs.get? path
  merged : ∀ path ref, TouchedAt manager repos path ref → ∃ key',
    keyFileAt codec fs' path = some key' ∧ ∀ group name,
      (∃ ref, TouchedAt manager repos path ref ∧
        ∃ v, cachedValue manager repos value ref group name = some v ∧
          key'.value? group name = some v) ∨
      (∀ ref, TouchedAt manager repos path ref →
        cachedValue manager repos value ref group name = none) ∧
        key'.value? group name = valueAt codec fs path group name
  enabled : ∀ id ∈ repos, ∃ path ref, manager.filesIdx[id]? = some ref ∧
    TouchedAt manager repos path ref ∧
      ((∀ ref', TouchedAt manager repos path ref' → ref' = ref) → ∃ key',
        keyFileAt codec fs' path = some key' ∧ key'.getBoolean codec id "enabled" = .ok value)
  upToDate : ∀ path key, keyFileAt codec fs path = some key →
    UpToDate codec manager repos path key →
      ∃ key', keyFileAt codec fs' path = some key' ∧ ∀ group name,
        ¬ (name = "enabled" ∧ group ∈ repos ∧ IndexedAt manager group path) →
          SameValue codec name (key.value? group name) (key'.value? group name)

/-! ### The invariant of the manager -/

variable {opts codec} {manager manager' : RPMRepoManager} {fs fs' : FS}

/-- Identifiers map to objects that have them, and every copy is well keyed. Nothing
is said about the disk. -/
structure Sound (manager : RPMRepoManager) : Prop where
  present : ∀ (id : String) (ref : ℕ), manager.filesIdx[id]? = some ref →
    ∃ file, manager.files[ref]? = some file ∧ id ∈ file.repos
  keyed : AllKeyed manager.files

abbrev SoundState (s : RPMRepoManager × FS) : Prop := Sound s.1

theorem sound_empty : Sound {} :=
  ⟨fun _ _ h => by simp at h, fun _ h => absurd h List.not_mem_nil⟩

theorem Sound.emplace (h : Sound manager) {repofile : RPMRepositoryFile}
    (hkeyed : WellKeyed repofile.repos) : Sound (manager.emplace repofile) := by
  constructor
  · exact present_emplace h.present
  · intro file hm
    rcases List.mem_append.mp hm with hm | hm
    · exact h.keyed file hm
    · rw [List.mem_singleton.mp hm]
      exact hkeyed

theorem Sound.of_enabled (h : Sound manager) {repos : List String} {value : Bool}
    (henabled : Enabled manager manager' repos value) : Sound manager' := by
  constructor
  · intro id ref hidx
    rw [henabled.filesIdx] at hidx
    obtain ⟨file, hfile, hm⟩ := h.present id ref hidx
    obtain ⟨file', hfile', -, hupd⟩ := henabled.files ref file hfile
    exact ⟨file', hfile', (hupd.mem_iff id).mpr hm⟩
  · intro file' hm
    obtain ⟨ref, hfile'⟩ := List.getElem?_of_mem hm
    obtain ⟨file, hfile, -, hupd⟩ := henabled.back hfile'
    exact hupd.wellKeyed (h.keyed file (List.mem_of_getElem? hfile))

theorem sound_onFs {α : Type} (x : FsM α) : Preserves SoundState (onFs x) := by
  intro s hs
  rw [finalState_onFs]
  exact hs

theorem sound_install (opts : Options) (source : Path) :
    Preserves SoundState (install opts codec source) :=
  preserves_install opts source (fun _ _ hs _ => hs)
    fun _ _ _ hs _ hparse => Sound.emplace hs (wellKeyed_of_parse hparse)

theorem sound_loadDir (opts : Options) (path : Path) :
    Preserves SoundState (loadDir opts codec path) :=
  preserves_loadDir opts path (sound_install opts)

theorem sound_saveFile (ref : ℕ) : Preserves SoundState (saveFile codec ref) := by
  intro s hs
  rw [saveFile, bind_apply, get_apply]
  dsimp only
  cases s.1.files[ref]? with
  | none => exact hs
  | some file => exact sound_onFs _ s hs

/-- Looking the file up and setting the flag in it, as both forms of enabling do. -/
theorem sound_setEnabled {repo : String} {ref : ℕ} (value : Bool) {s : RPMRepoManager × FS}
    (hidx : s.1.filesIdx[repo]? = some ref) (hs : Sound s.1) :
    Sound (finalState (setEnabled ref repo value s)).1 := by
  cases hset : setEnabled ref repo value s with
  | ok u t => exact hs.of_enabled (setEnabled_ok hidx hset).2
  | error e t =>
    rw [setEnabled, bind_apply, get_apply] at hset
    dsimp only at hset
    cases hfile : s.1.files[ref]? with
    | none =>
      simp only [hfile, throw_apply, EStateM.Result.error.injEq] at hset
      rw [finalState, ← hset.2]
      exact hs
    | some file =>
      cases hrepo : file.repos[repo]? with
      | none =>
        simp only [hfile, hrepo, throw_apply, EStateM.Result.error.injEq] at hset
        rw [finalState, ← hset.2]
        exact hs
      | some r => simp only [hfile, hrepo] at hset; simp at hset

theorem finalState_fileAt (repo : String) (s : RPMRepoManager × FS) :
    finalState (fileAt repo s) = s := by
  rw [fileAt, bind_apply, get_apply]
  dsimp only
  cases s.1.filesIdx[repo]? <;> rfl

/-- A lookup, then a program that may use what was found. -/
theorem sound_fileAt_bind {α : Type} {repo : String} {f : ℕ → ManagerM α} {s : RPMRepoManager × FS}
    (hs : Sound s.1) (hf : ∀ ref, s.1.filesIdx[repo]? = some ref → Sound (finalState (f ref s)).1) :
    Sound (finalState ((fileAt repo >>= f) s)).1 := by
  rw [bind_apply]
  cases hat : fileAt repo s with
  | error e t =>
    have ht := finalState_fileAt repo s
    rw [hat] at ht
    obtain rfl : t = s := ht
    exact hs
  | ok ref t =>
    obtain ⟨hidx, rfl⟩ := fileAt_ok.mp hat
    exact hf ref hidx

theorem sound_enable (repo : String) (value : Bool) :
    Preserves SoundState (enable codec repo value) := by
  intro s hs
  refine sound_fileAt_bind hs fun ref hidx => ?_
  have hset := sound_setEnabled value hidx hs
  rw [bind_apply]
  cases hrun : setEnabled ref repo value s with
  | error e t => rw [hrun] at hset; exact hset
  | ok u t => rw [hrun] at hset; exact sound_saveFile ref t hset

theorem finalState_orUnknown {α : Type} (repo : String) (x : ManagerM α) (s : RPMRepoManager × FS) :
    finalState (orUnknown repo x s) = finalState (x s) := by
  unfold orUnknown
  cases x s with
  | ok a t => rfl
  | error e t =>
    dsimp only
    split_ifs <;> rfl

theorem sound_enableLoop (value : Bool) (repos : List String) (toSave : List ℕ) :
    Preserves SoundState (enableLoop value toSave repos) := by
  induction repos generalizing toSave with
  | nil => exact fun s hs => hs
  | cons repo repos ih =>
    refine preserves_bind (fun s hs => ?_) fun ref => ih _
    rw [SoundState, finalState_orUnknown]
    refine sound_fileAt_bind hs fun ref hidx => ?_
    have hset := sound_setEnabled value hidx hs
    rw [bind_apply]
    cases hrun : setEnabled ref repo value s with
    | error e t => rw [hrun] at hset; exact hset
    | ok u t => rw [hrun] at hset; exact hset

theorem sound_call (opts : Options) (call : Call) : Preserves SoundState (call.run opts codec) := by
  cases call with
  | install source => exact sound_install opts source
  | loadDir path => exact sound_loadDir opts path
  | enable repo value => exact sound_enable repo value
  | enableAll order repos value =>
    exact preserves_bind (sound_enableLoop value repos []) fun toSave =>
      preserves_forM fun ref _ => sound_saveFile ref

theorem sound_afterEvents (events : List Event) {s : RPMRepoManager × FS} (hs : Sound s.1) :
    Sound (afterEvents opts codec events s).1 := by
  induction events generalizing s with
  | nil => exact hs
  | cons event events ih =>
    refine ih ?_
    cases event with
    | request call => exact sound_call opts call s hs
    | outside write => exact hs

/-! ### Saving over anything -/

/-- What the repositories of a file say about a key. -/
def known (repos : RepoMap) (group name : String) : Option String :=
  repos[group]?.bind (knownValue · name)

theorem valueAt_startingFile {path : Path} {old : KeyFile}
    (h : startingFile codec fs path = some old) (group name : String) :
    old.value? group name = valueAt codec fs path group name := by
  unfold startingFile at h
  unfold valueAt
  split_ifs at h with he
  · rw [h, Option.bind_some]
  · obtain rfl := Option.some.inj h
    cases hkey : keyFileAt codec fs path with
    | none => rfl
    | some key => exact absurd (exists_of_keyFileAt hkey) he

/-- A save that returns: the file holds the copies over what it held. -/
theorem saveFile_merges {ref : ℕ} {s t : RPMRepoManager × FS} {u : Unit} (hs : Sound s.1)
    (h : saveFile codec ref s = .ok u t) : t.1 = s.1 ∧ ∃ file, s.1.files[ref]? = some file ∧
      (∀ q, q ≠ file.path → t.2.get? q = s.2.get? q) ∧
      (∃ key', keyFileAt codec t.2 file.path = some key') ∧
      ∀ group name, valueAt codec t.2 file.path group name =
        (known file.repos group name).or (valueAt codec s.2 file.path group name) := by
  obtain ⟨hm, file, hfile, hsave⟩ := saveFile_ok h
  have hkeyed := hs.keyed file (List.mem_of_getElem? hfile)
  rw [RPMRepositoryFile.save, unparse] at hsave
  rcases open_eq codec s.2 file.path with ⟨old, hold, hopen⟩ | ⟨-, e, he⟩
  · rw [bind_of_ok hopen] at hsave
    have hfs := KeyFile.save_ok hsave
    have hkey : keyFileAt codec t.2 file.path = some (unparseRepos old file.repos) := by
      rw [hfs, keyFileAt_set, if_pos rfl]
    refine ⟨hm, file, hfile, fun q hq => ?_, ⟨_, hkey⟩, fun group name => ?_⟩
    · rw [hfs, FS.get?_set_of_ne _ _ hq]
    · rw [valueAt, hkey, Option.bind_some, value?_unparseRepos hkeyed,
        valueAt_startingFile hold]
      rfl
  · rw [bind_of_error he] at hsave
    exact absurd hsave (by simp)

/-- Saves in any order: a key of a saved path has the value of one of the objects
saved there, or none of them has one and it is as it was. -/
theorem saveFiles_merge {refs : List ℕ} {s t : RPMRepoManager × FS} {u : Unit} (hs : Sound s.1)
    (h : refs.forM (saveFile codec) s = .ok u t) :
    t.1 = s.1 ∧
      (∀ path, (∀ ref ∈ refs, ∀ file, s.1.files[ref]? = some file → file.path ≠ path) →
        t.2.get? path = s.2.get? path) ∧
      (∀ ref ∈ refs, ∀ file, s.1.files[ref]? = some file →
        ∃ key', keyFileAt codec t.2 file.path = some key') ∧
      ∀ path group name,
        (∃ ref ∈ refs, ∃ file, s.1.files[ref]? = some file ∧ file.path = path ∧
          ∃ v, known file.repos group name = some v ∧
            valueAt codec t.2 path group name = some v) ∨
        (∀ ref ∈ refs, ∀ file, s.1.files[ref]? = some file → file.path = path →
          known file.repos group name = none) ∧
          valueAt codec t.2 path group name = valueAt codec s.2 path group name := by
  induction refs generalizing s with
  | nil =>
    obtain ⟨-, rfl⟩ := EStateM.Result.ok.inj h
    exact ⟨rfl, fun _ _ => rfl, fun _ hm => absurd hm List.not_mem_nil,
      fun _ _ _ => Or.inr ⟨fun _ hm => absurd hm List.not_mem_nil, rfl⟩⟩
  | cons ref refs ih =>
    obtain ⟨v, s₁, hfirst, hrest⟩ := bind_ok_iff.mp h
    obtain ⟨hm, file, hfile, hother, hkey, hvalue⟩ := saveFile_merges hs hfirst
    have hs₁ : Sound s₁.1 := by rwa [hm]
    obtain ⟨hm', hkept, hkeys, hvalues⟩ := ih hs₁ hrest
    rw [hm] at hm' hkept hkeys hvalues
    refine ⟨hm', fun path hpath => ?_, ?_, fun path group name => ?_⟩
    · rw [List.forall_mem_cons] at hpath
      rw [hkept path hpath.2, hother path (Ne.symm (hpath.1 file hfile))]
    · rw [List.forall_mem_cons]
      refine ⟨fun f hf => ?_, hkeys⟩
      rw [hfile] at hf
      obtain rfl := Option.some.inj hf
      by_cases hagain : ∃ other ∈ refs, ∃ g, s.1.files[other]? = some g ∧ g.path = file.path
      · obtain ⟨other, ho, g, hg, hpath⟩ := hagain
        rw [← hpath]
        exact hkeys other ho g hg
      · rw [keyFileAt_congr (hkept file.path fun other ho g hg hpath =>
          hagain ⟨other, ho, g, hg, hpath⟩)]
        exact hkey
    · rcases hvalues path group name with ⟨other, ho, g, hg, hpath, v, hknown, hv⟩ | ⟨hnone, hsame⟩
      · exact Or.inl ⟨other, List.mem_cons_of_mem _ ho, g, hg, hpath, v, hknown, hv⟩
      · by_cases hpath : file.path = path
        · subst hpath
          rw [hvalue] at hsame
          cases hknown : known file.repos group name with
          | some v =>
            rw [hknown, Option.some_or] at hsame
            exact Or.inl ⟨ref, List.mem_cons_self, file, hfile, rfl, v, hknown, hsame⟩
          | none =>
            rw [hknown, Option.none_or] at hsame
            refine Or.inr ⟨?_, hsame⟩
            rw [List.forall_mem_cons]
            refine ⟨fun f hf _ => ?_, hnone⟩
            rw [hfile] at hf
            obtain rfl := Option.some.inj hf
            exact hknown
        · refine Or.inr ⟨?_, ?_⟩
          · rw [List.forall_mem_cons]
            refine ⟨fun f hf hp => ?_, hnone⟩
            rw [hfile] at hf
            obtain rfl := Option.some.inj hf
            exact absurd hp hpath
          · rw [hsame, valueAt, valueAt, keyFileAt_congr (hother path (Ne.symm hpath))]

/-! ### Enabling what is there -/

theorem setEnabled_returns {ref : ℕ} {repo : String} {s : RPMRepoManager × FS}
    {file : RPMRepositoryFile} (hfile : s.1.files[ref]? = some file) (hmem : repo ∈ file.repos)
    (value : Bool) : ∃ t, setEnabled ref repo value s = .ok () t := by
  obtain ⟨r, hr⟩ := exists_getElem? hmem
  rw [setEnabled, bind_apply, get_apply]
  simp only [hfile, hr]
  exact ⟨_, rfl⟩

/-- One round of the batch. -/
theorem enableOne_returns {repo : String} {ref : ℕ} {s : RPMRepoManager × FS} (hs : Sound s.1)
    (hidx : s.1.filesIdx[repo]? = some ref) (value : Bool) : ∃ t, (orUnknown repo do
        let ref ← fileAt repo
        setEnabled ref repo value
        return ref) s = .ok ref t ∧ t.2 = s.2 ∧ Enabled s.1 t.1 [repo] value := by
  obtain ⟨file, hfile, hmem⟩ := hs.present repo ref hidx
  obtain ⟨t, hset⟩ := setEnabled_returns hfile hmem value
  refine ⟨t, orUnknown_ok.mpr ?_, setEnabled_ok hidx hset⟩
  rw [bind_of_ok (fileAt_ok.mpr ⟨hidx, rfl⟩), bind_of_ok hset]
  rfl

/-- A batch of one is a single call: both set the flag and save the file. -/
theorem enable_apply (codec : GKeyFile) {repo : String} {ref : ℕ} {s : RPMRepoManager × FS}
    (hs : Sound s.1) (hidx : s.1.filesIdx[repo]? = some ref) (value : Bool) : ∃ t, t.2 = s.2 ∧
      Enabled s.1 t.1 [repo] value ∧ enable codec repo value s = saveFile codec ref t ∧
      ∀ order, enableAll codec order [repo] value s = saveFile codec ref t := by
  obtain ⟨t, hone, hfs, henabled⟩ := enableOne_returns hs hidx value
  refine ⟨t, hfs, henabled, ?_, fun order => ?_⟩
  · obtain ⟨ref', s₁, hat, hrest⟩ := bind_ok_iff.mp (orUnknown_ok.mp hone)
    obtain ⟨u, s₂, hset, hpure⟩ := bind_ok_iff.mp hrest
    obtain ⟨rfl, rfl⟩ := EStateM.Result.ok.inj hpure
    rw [enable, bind_of_ok hat, bind_of_ok hset]
  · have hloop : enableLoop value [] [repo] s = .ok [ref] t := by
      rw [enableLoop, bind_of_ok hone]
      rfl
    rw [enableAll, bind_of_ok hloop, List.perm_singleton.mp (order.perm [ref]), forM_cons_apply]
    cases saveFile codec ref t <;> rfl

theorem enableLoop_returns {repos : List String} {s : RPMRepoManager × FS} (hs : Sound s.1)
    (hall : ∀ id ∈ repos, id ∈ s.1.filesIdx) (value : Bool) (toSave : List ℕ) :
    ∃ out t, enableLoop value toSave repos s = .ok out t := by
  induction repos generalizing toSave s with
  | nil => exact ⟨toSave, s, rfl⟩
  | cons repo repos ih =>
    rw [List.forall_mem_cons] at hall
    obtain ⟨ref, hidx⟩ := exists_getElem? hall.1
    obtain ⟨t, hone, -, henabled⟩ := enableOne_returns hs hidx value
    obtain ⟨out, t', hrest⟩ := ih (hs.of_enabled henabled)
      (by rw [henabled.filesIdx]; exact hall.2)
      (if ref ∈ toSave then toSave else toSave ++ [ref])
    exact ⟨out, t', bind_ok_iff.mpr ⟨ref, t, hone, hrest⟩⟩

/-! ### What can be saved -/

/-- The path can be opened as a key file, and written. -/
def Savable (codec : GKeyFile) (fs : FS) (p : Path) : Prop :=
  (∃ old, startingFile codec fs p = some old) ∧ fs.Writable p

theorem save_returns_iff {fs : FS} {file : RPMRepositoryFile} :
    (∃ fs', file.save codec fs = .ok () fs') ↔ Savable codec fs file.path := by
  rw [RPMRepositoryFile.save, unparse, Savable]
  rcases open_eq codec fs file.path with ⟨old, hold, hopen⟩ | ⟨hnone, e, he⟩
  · rw [bind_of_ok hopen, ← FS.write_returns_iff (codec.toData (unparseRepos old file.repos)),
      KeyFile.save, bind_of_ok (get_apply fs)]
    cases fs.write file.path (codec.toData (unparseRepos old file.repos)) with
    | ok fs' => simp [hold]
    | error code => simp
  · rw [bind_of_error he]
    simp [hnone]

theorem savable_of_keyFileAt {fs : FS} {p : Path} {key : KeyFile}
    (h : keyFileAt codec fs p = some key) : Savable codec fs p := by
  obtain ⟨text, htext, -⟩ := Option.bind_eq_some_iff.mp h
  refine ⟨⟨key, by rw [startingFile, if_pos (exists_of_keyFileAt h), h]⟩, .inl ?_⟩
  exact FS.isRegular_iff.mpr ⟨text, FS.content?_eq_some.mp htext⟩

/-- Saving one file leaves the others savable. -/
theorem savable_save {fs fs' : FS} {file : RPMRepositoryFile} {u : Unit} {p : Path}
    (hsave : file.save codec fs = .ok u fs') (h : Savable codec fs p) : Savable codec fs' p := by
  obtain ⟨-, hwritable⟩ := save_returns_iff.mp ⟨fs', hsave⟩
  rw [RPMRepositoryFile.save, unparse] at hsave
  obtain ⟨old, fs₁, hopen, hwrite⟩ := bind_ok_iff.mp hsave
  have hfs₁ : fs₁ = fs := by
    have hunchanged : finalState (KeyFile.open codec file.path fs) = fs :=
      unchanged_open file.path fs
    rw [hopen] at hunchanged
    exact hunchanged
  obtain rfl := KeyFile.save_ok hwrite
  subst hfs₁
  refine ⟨?_, h.2.set hwritable _⟩
  by_cases hp : p = file.path
  · subst hp
    have hkey : keyFileAt codec (fs₁.set file.path
        (.file (codec.toData (unparseRepos old file.repos)))) file.path =
          some (unparseRepos old file.repos) := by
      rw [keyFileAt_set, if_pos rfl]
    exact (savable_of_keyFileAt hkey).1
  · obtain ⟨start, hstart⟩ := h.1
    refine ⟨start, ?_⟩
    rw [← hstart]
    exact startingFile_congr (FS.get?_set_of_ne _ _ hp)

theorem saveFiles_return {refs : List ℕ} {s : RPMRepoManager × FS}
    (h : ∀ ref ∈ refs, ∃ file, s.1.files[ref]? = some file ∧ Savable codec s.2 file.path) :
    ∃ t, refs.forM (saveFile codec) s = .ok () t := by
  induction refs generalizing s with
  | nil => exact ⟨s, rfl⟩
  | cons ref refs ih =>
    rw [List.forall_mem_cons] at h
    obtain ⟨⟨file, hfile, hsavable⟩, hrest⟩ := h
    obtain ⟨fs', hsave⟩ := save_returns_iff.mpr hsavable
    have hrun : saveFile codec ref s = .ok () (s.1, fs') := by
      rw [saveFile, bind_of_ok (get_apply s)]
      simp only [hfile, onFs, hsave]
    rw [forM_cons_apply, hrun]
    refine ih fun other hother => ?_
    obtain ⟨file', hfile', hsavable'⟩ := hrest other hother
    exact ⟨file', hfile', savable_save hsave hsavable'⟩

/-- A batch returns when each file it touches can be saved. -/
theorem enableAll_returns {repos : List String} {s : RPMRepoManager × FS} (hs : Sound s.1)
    (hsavable : ∀ id ∈ repos, ∃ (ref : ℕ) (file : RPMRepositoryFile),
      s.1.filesIdx[id]? = some ref ∧ s.1.files[ref]? = some file ∧ Savable codec s.2 file.path)
    (order : WalkOrder) (value : Bool) : ∃ t, enableAll codec order repos value s = .ok () t := by
  have hall : ∀ id ∈ repos, id ∈ s.1.filesIdx := by
    intro id hid
    obtain ⟨ref, -, hidx, -⟩ := hsavable id hid
    exact mem_of_getElem? hidx
  obtain ⟨out, s₁, hloop⟩ := enableLoop_returns hs hall value []
  obtain ⟨hfs, henabled, -, hmem, -⟩ := enableLoop_ok hloop
  obtain ⟨t, hsaves⟩ : ∃ t, (order.walk out).forM (saveFile codec) s₁ = .ok () t := by
    refine saveFiles_return fun ref href => ?_
    rw [(order.perm out).mem_iff, hmem] at href
    obtain ⟨id, hid, hidx⟩ := href.resolve_left List.not_mem_nil
    obtain ⟨ref', file, hidx', hfile, hcan⟩ := hsavable id hid
    obtain rfl : ref = ref' := Option.some.inj (hidx.symm.trans hidx')
    obtain ⟨file', hfile', hpath, -⟩ := henabled.files ref file hfile
    exact ⟨file', hfile', by rw [hpath, hfs]; exact hcan⟩
  exact ⟨t, bind_ok_iff.mpr ⟨out, s₁, hloop, hsaves⟩⟩

/-! ### Enabling over anything -/

section
variable {repos : List String} {value : Bool}

theorem known_enabled {ref : ℕ} {file file' : RPMRepositoryFile}
    (hfile : manager.files[ref]? = some file)
    (hupd : Updated (fun id => id ∈ repos ∧ manager.filesIdx[id]? = some ref) value file.repos
      file'.repos) (group name : String) :
    known file'.repos group name = cachedValue manager repos value ref group name := by
  rw [known, hupd group, cachedValue, definition, hfile, Option.bind_some]
  cases file.repos[group]? <;> rfl

/-- The value of a copy that is up to date decodes as the one on disk, flags that are set apart. -/
theorem sameValue_cached {path : Path} {ref : ℕ} {key : KeyFile} {group name v : String}
    (htouched : TouchedAt manager repos path ref) (hkey : UpToDate codec manager repos path key)
    (hcached : cachedValue manager repos value ref group name = some v)
    (hnot : ¬ (name = "enabled" ∧ group ∈ repos ∧ IndexedAt manager group path)) :
    SameValue codec name (key.value? group name) (some v) := by
  obtain ⟨repo, hdef, hknown⟩ := Option.bind_eq_some_iff.mp hcached
  obtain ⟨hreads, rfl⟩ := parseRepo_ok_iff.mp (hkey ref htouched group repo hdef)
  have hflag : name = "enabled" → ¬ (repo.id ∈ repos ∧ manager.filesIdx[repo.id]? = some ref) := by
    rintro rfl ⟨hgroup, hidx⟩
    obtain ⟨-, file, hfile, hpath⟩ := htouched
    exact hnot ⟨rfl, hgroup, ref, file, hidx, hfile, hpath⟩
  unfold knownValue at hknown
  dsimp only at hknown
  unfold SameValue
  by_cases h1 : name = "name"
  · subst h1
    rw [if_pos rfl] at hknown
    rw [if_neg (by decide), hreads.name, hknown]
  by_cases h2 : name = "enabled"
  · subst h2
    rw [if_neg h1, if_pos rfl, if_neg (hflag rfl)] at hknown
    rw [if_pos (by decide), hreads.enabled, ← hknown, Option.bind_some, codec.parseBoolean_text]
  by_cases h3 : name = "gpgcheck"
  · subst h3
    rw [if_neg h1, if_neg h2, if_pos rfl] at hknown
    rw [if_pos (by decide), hreads.gpgcheck, ← hknown, Option.bind_some, codec.parseBoolean_text]
  rw [if_neg h1, if_neg h2, if_neg h3] at hknown
  rw [if_neg (by simp [h2, h3])]
  split_ifs at hknown with h4 h5 h6
  · rw [h4, hreads.gpgkey, hknown]
  · rw [h5, hreads.metalink, hknown]
  · rw [h6, hreads.baseurl, hknown]

theorem sameValue_refl (name : String) (v : Option String) : SameValue codec name v v := by
  unfold SameValue
  split_ifs <;> rfl

/-- Flags set in memory, then the touched objects saved over any disk. -/
theorem enablesFromCache_saved {s t : RPMRepoManager × FS} (hs : Sound s.1)
    (h : SavesEnabled codec repos value s t) :
    EnablesFromCache codec s.1 repos value s.2 t.2 := by
  obtain ⟨manager, fs⟩ := s
  obtain ⟨refs, manager', henabled, -, hrefs, hall, h⟩ := h
  dsimp only at hs henabled hrefs hall h ⊢
  have hs' : Sound manager' := hs.of_enabled henabled
  obtain ⟨-, hkept, hkeys, hvalues⟩ := saveFiles_merge hs' h
  dsimp only at hkept hkeys hvalues
  -- the objects that are saved, seen from the state before
  have hback : ∀ path ref file', ref ∈ refs → manager'.files[ref]? = some file' →
      file'.path = path → TouchedAt manager repos path ref ∧
        ∀ group name, known file'.repos group name =
          cachedValue manager repos value ref group name := by
    intro path ref file' hm hfile' hpath
    obtain ⟨file, hfile, hfp, hupd⟩ := henabled.back hfile'
    exact ⟨⟨(hrefs ref).mp hm, file, hfile, by rw [← hfp, hpath]⟩, known_enabled hfile hupd⟩
  have hforth : ∀ path ref, TouchedAt manager repos path ref → ref ∈ refs ∧ ∃ file',
      manager'.files[ref]? = some file' ∧ file'.path = path := by
    rintro path ref ⟨hex, file, hfile, hpath⟩
    obtain ⟨file', hfile', hfp, -⟩ := henabled.files ref file hfile
    exact ⟨(hrefs ref).mpr hex, file', hfile', by rw [hfp, hpath]⟩
  have huntouched : ∀ path, (∀ ref, ¬ TouchedAt manager repos path ref) →
      t.2.get? path = fs.get? path := by
    intro path hno
    exact hkept path fun ref hm file' hfile' hpath => hno ref (hback path ref file' hm hfile' hpath).1
  have hmerged : ∀ path ref, TouchedAt manager repos path ref → ∃ key',
      keyFileAt codec t.2 path = some key' ∧ ∀ group name,
        (∃ ref, TouchedAt manager repos path ref ∧
          ∃ v, cachedValue manager repos value ref group name = some v ∧
            key'.value? group name = some v) ∨
        (∀ ref, TouchedAt manager repos path ref →
          cachedValue manager repos value ref group name = none) ∧
          key'.value? group name = valueAt codec fs path group name := by
    intro path ref htouched
    obtain ⟨hm, file', hfile', hpath⟩ := hforth path ref htouched
    obtain ⟨key', hkey'⟩ := hkeys ref hm file' hfile'
    rw [hpath] at hkey'
    have hvalue : ∀ group name, key'.value? group name = valueAt codec t.2 path group name := by
      intro group name
      rw [valueAt, hkey', Option.bind_some]
    refine ⟨key', hkey', fun group name => ?_⟩
    rw [hvalue]
    rcases hvalues path group name with ⟨other, ho, g, hg, hgp, v, hknown, hv⟩ | ⟨hnone, hsame⟩
    · obtain ⟨hother, hcached⟩ := hback path other g ho hg hgp
      exact Or.inl ⟨other, hother, v, by rw [← hcached, hknown], hv⟩
    · refine Or.inr ⟨fun other hother => ?_, hsame⟩
      obtain ⟨ho, g, hg, hgp⟩ := hforth path other hother
      rw [← (hback path other g ho hg hgp).2, hnone other ho g hg hgp]
  refine ⟨huntouched, hmerged, fun id hid => ?_, fun path key hkey hfresh => ?_⟩
  · obtain ⟨ref, hidx⟩ := hall id hid
    obtain ⟨file, hfile, hmem⟩ := hs.present id ref hidx
    have htouched : TouchedAt manager repos file.path ref := ⟨⟨id, hid, hidx⟩, file, hfile, rfl⟩
    refine ⟨file.path, ref, hidx, htouched, fun hunique => ?_⟩
    obtain ⟨key', hkey', hvalue⟩ := hmerged file.path ref htouched
    refine ⟨key', hkey', ?_⟩
    obtain ⟨repo, hrepo⟩ := exists_getElem? hmem
    have hcached : cachedValue manager repos value ref id "enabled" =
        some (if value then "true" else "false") := by
      simp [cachedValue, definition, hfile, hrepo, knownValue, hid, hidx]
    rw [getBoolean_ok_iff]
    rcases hvalue id "enabled" with ⟨other, hother, v, hv, hkv⟩ | ⟨hnone, -⟩
    · rw [hunique other hother, hcached] at hv
      rw [hkv, ← Option.some.inj hv, Option.bind_some, codec.parseBoolean_text]
    · rw [hnone ref htouched] at hcached
      exact absurd hcached (by simp)
  · by_cases hex : ∃ ref, TouchedAt manager repos path ref
    · obtain ⟨ref, htouched⟩ := hex
      obtain ⟨key', hkey', hvalue⟩ := hmerged path ref htouched
      refine ⟨key', hkey', fun group name hnot => ?_⟩
      rcases hvalue group name with ⟨other, hother, v, hv, hkv⟩ | ⟨-, hsame⟩
      · rw [hkv]
        exact sameValue_cached hother hfresh hv hnot
      · rw [hsame, valueAt, hkey, Option.bind_some]
        exact sameValue_refl name _
    · rw [not_exists] at hex
      refine ⟨key, by rw [keyFileAt_congr (huntouched path hex), hkey], fun group name _ => ?_⟩
      exact sameValue_refl name _

theorem enablesFromCache_enable {repo : String} {s t : RPMRepoManager × FS} {u : Unit}
    (hs : Sound s.1) (h : enable codec repo value s = .ok u t) :
    EnablesFromCache codec s.1 [repo] value s.2 t.2 :=
  enablesFromCache_saved hs (savesEnabled_enable h)

theorem enablesFromCache_enableAll {order : WalkOrder} {s t : RPMRepoManager × FS} {u : Unit}
    (hs : Sound s.1) (h : enableAll codec order repos value s = .ok u t) :
    EnablesFromCache codec s.1 repos value s.2 t.2 :=
  enablesFromCache_saved hs (savesEnabled_enableAll h)

end

/-- After any interleaving of calls and outside changes, enabling writes what the
copies say, keeps what they do not say, and leaves every other file alone. -/
theorem enablesFromCache_of_events {events : List Event} {fs : FS} {s : RPMRepoManager × FS}
    (h : afterEvents opts codec events ({}, fs) = s) :
    (∀ repo value t, enable codec repo value s = .ok () t →
      EnablesFromCache codec s.1 [repo] value s.2 t.2) ∧
    ∀ order repos value t, enableAll codec order repos value s = .ok () t →
      EnablesFromCache codec s.1 repos value s.2 t.2 := by
  have hs : Sound s.1 := h ▸ sound_afterEvents events sound_empty
  exact ⟨fun _ _ _ henable => enablesFromCache_enable hs henable,
    fun _ _ _ _ henable => enablesFromCache_enableAll hs henable⟩

/-- A repository is loaded, and another program changes its address. -/
def movedUpstream : List Event :=
  [.request (.install (basedir.child "epel.repo")),
    .outside fun fs => fs.set (basedir.child "epel.repo")
      (.file "[epel]\nname=E\nenabled=1\ngpgcheck=0\nbaseurl=v\n")]

def beforeMove : FS :=
  { nodes := ⟨[(["etc"], .dir), (basedir, .dir),
    (basedir.child "epel.repo", .file "[epel]\nname=E\nenabled=1\ngpgcheck=0\nbaseurl=u\n")],
    by decide⟩ }

def afterMove : RPMRepoManager × FS := afterEvents {} GKeyFile.text movedUpstream ({}, beforeMove)

theorem enable_afterMove : ∃ t, enable GKeyFile.text "epel" false afterMove = .ok () t :=
  outcome_ok_iff.mp (by decide +kernel)

theorem enablesFromCache_afterMove :
    ∃ t : RPMRepoManager × FS,
      EnablesFromCache GKeyFile.text afterMove.1 ["epel"] false afterMove.2 t.2 := by
  obtain ⟨t, h⟩ := enable_afterMove
  have hrun : afterEvents {} GKeyFile.text movedUpstream ({}, beforeMove) = afterMove := rfl
  exact ⟨t, (enablesFromCache_of_events hrun).1 "epel" false t h⟩

/-- Enabling puts the old address back. -/
theorem not_setsOnDisk_afterMove :
    ∃ t, enable GKeyFile.text "epel" false afterMove = .ok () t ∧
      ¬ SetsOnDisk GKeyFile.text afterMove.1 ["epel"] false afterMove.2 t.2 := by
  obtain ⟨t, h⟩ := enable_afterMove
  refine ⟨t, h, fun hsets => ?_⟩
  have hbefore : valueAt GKeyFile.text afterMove.2 (basedir.child "epel.repo") "epel" "baseurl" =
      some "v" := by decide +kernel
  have hafter : valueAt GKeyFile.text (finalState (enable GKeyFile.text "epel" false afterMove)).2
      (basedir.child "epel.repo") "epel" "baseurl" = some "u" := by decide +kernel
  rw [h, finalState] at hafter
  obtain ⟨key, hkey, hv⟩ := Option.bind_eq_some_iff.mp hbefore
  obtain ⟨key', hkey', -, hsame⟩ := hsets.kept _ key hkey
  have hbaseurl := hsame "epel" "baseurl" (by simp)
  rw [valueAt, hkey', Option.bind_some] at hafter
  rw [hv, hafter] at hbaseurl
  simp [SameValue] at hbaseurl

end RPMRepoManager

end Cloyster
