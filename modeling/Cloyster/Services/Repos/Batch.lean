import Cloyster.Services.Repos.Failed

/-! One batch against single calls. The batch sets all flags and saves each file once, a
single call sets one flag and saves at once. Both write each touched file from its copy over
what stood there, so when all identifiers are there the flags and the files end up the same,
in whatever order and however often the identifiers are given. -/

namespace Cloyster

open Lib RPMRepositoryParser

namespace RPMRepoManager

variable {opts : Options} {codec : GKeyFile} {manager manager' : RPMRepoManager} {fs : FS}
  {s t u : RPMRepoManager × FS} {repos repos' : List String} {value : Bool}

/-! ### What calls keep, thrown or not -/

/-- What is left of coherence when a batch may throw: its flags are set and not saved. -/
structure Backed (codec : GKeyFile) (s : RPMRepoManager × FS) : Prop where
  sound : Sound s.1
  onDisk : ∀ ref file, InUse s.1 ref file → GroupsOnDisk codec s.2 file
  apart : ∀ ref file ref' file', InUse s.1 ref file → InUse s.1 ref' file' →
    file.path = file'.path → ref = ref'
  indexed : ∀ ref file, InUse s.1 ref file → ∀ id ∈ file.repos, id ∈ s.1.filesIdx

theorem backed_empty (fs : FS) : Backed codec ({}, fs) := by
  have h : Coherent codec {} fs := coherent_empty fs
  have hunused : ∀ ref file, ¬ InUse {} ref file := by
    rintro ref file ⟨⟨id, hid⟩, -⟩
    simp at hid
  exact ⟨sound_empty, fun ref file hin => absurd hin (hunused ref file), h.apart, h.indexed⟩

theorem GroupsOnDisk.mono {fs' : FS} {file : RPMRepositoryFile} (h : GroupsOnDisk codec fs file)
    (hfs : ∀ p node, fs.get? p = some node → fs'.get? p = some node) :
    GroupsOnDisk codec fs' file := by
  obtain ⟨key, hkey, hgroups⟩ := h
  obtain ⟨text, htext, -⟩ := Option.bind_eq_some_iff.mp hkey
  have hget := FS.content?_eq_some.mp htext
  exact ⟨key, by rw [keyFileAt_congr ((hfs _ _ hget).trans hget.symm), hkey], hgroups⟩

theorem Backed.mono (h : Backed codec s) {fs' : FS}
    (hfs : ∀ p node, s.2.get? p = some node → fs'.get? p = some node) : Backed codec (s.1, fs') :=
  ⟨h.sound, fun ref file hin => (h.onDisk ref file hin).mono hfs, h.apart, h.indexed⟩

theorem groupsOnDisk_of_parse {path : Path} {repos : RepoMap}
    (h : parse codec path ∅ fs = .ok repos fs) :
    GroupsOnDisk codec fs ⟨path, repos⟩ ∨ ∀ id, id ∉ repos := by
  rcases (parse_ok h).2 with ⟨key, hkey, hholds⟩ | hnone
  · exact .inl ⟨key, hkey, hholds.mem_iff⟩
  · exact .inr hnone

theorem Backed.emplace (h : Backed codec s) {path : Path} {repos : RepoMap}
    (hparse : parse codec path ∅ s.2 = .ok repos s.2) :
    Backed codec (s.1.emplace ⟨path, repos⟩, s.2) := by
  have hfile := groupsOnDisk_of_parse hparse
  have hpresent := h.sound.present
  refine ⟨h.sound.emplace (wellKeyed_of_parse hparse), ?_, ?_, ?_⟩
  · intro ref file hin
    rcases inUse_emplace hpresent hin with hin | ⟨-, rfl, id, -, hm⟩
    · exact h.onDisk ref file hin
    · exact hfile.resolve_right fun hno => hno id hm
  · exact apart_emplace hpresent h.onDisk h.apart h.indexed hfile
  · exact indexed_emplace hpresent h.indexed

theorem backed_install (opts : Options) (source : Path) :
    Preserves (Backed codec) (install opts codec source) :=
  preserves_install opts source (fun _ _ hs => hs.mono) fun _ _ _ hs _ => hs.emplace

/-- An object in use after enabling was in use before, with the same path and identifiers. -/
theorem Enabled.inUse (h : Enabled manager manager' repos value) {ref : ℕ}
    {file' : RPMRepositoryFile} (hin : InUse manager' ref file') : ∃ file,
      InUse manager ref file ∧ file'.path = file.path ∧
        ∀ id, id ∈ file'.repos ↔ id ∈ file.repos := by
  obtain ⟨⟨id, hidx⟩, hfile'⟩ := hin
  obtain ⟨file, hfile, hpath, hupd⟩ := h.back hfile'
  rw [h.filesIdx] at hidx
  exact ⟨file, ⟨⟨id, hidx⟩, hfile⟩, hpath, hupd.mem_iff⟩

theorem Backed.of_enabled (h : Backed codec s) (henabled : Enabled s.1 manager' repos value) :
    Backed codec (manager', s.2) := by
  refine ⟨h.sound.of_enabled henabled, ?_, ?_, ?_⟩
  · intro ref file' hin
    obtain ⟨file, hin, hpath, hids⟩ := henabled.inUse hin
    obtain ⟨key, hkey, hgroups⟩ := h.onDisk ref file hin
    exact ⟨key, by rw [hpath, hkey], fun id => (hids id).trans (hgroups id)⟩
  · intro ref f' ref' g' hf' hg' hpath
    obtain ⟨f, hf, hfp, -⟩ := henabled.inUse hf'
    obtain ⟨g, hg, hgp, -⟩ := henabled.inUse hg'
    exact h.apart ref f ref' g hf hg (by rw [← hfp, ← hgp, hpath])
  · intro ref file' hin id hm
    obtain ⟨file, hin, -, hids⟩ := henabled.inUse hin
    show id ∈ manager'.filesIdx
    rw [henabled.filesIdx]
    exact h.indexed ref file hin id ((hids id).mp hm)

/-! ### Saving -/

/-- The node that saving leaves over a key file. -/
def savedNode (codec : GKeyFile) (key : KeyFile) (file : RPMRepositoryFile) : Node :=
  .file (codec.toData (unparseRepos key file.repos))

theorem backed_set (h : Backed codec s) {ref : ℕ} {file : RPMRepositoryFile} {key : KeyFile}
    (hin : InUse s.1 ref file) (hkey : keyFileAt codec s.2 file.path = some key) :
    Backed codec (s.1, s.2.set file.path (savedNode codec key file)) := by
  refine ⟨h.sound, fun ref' file' hin' => ?_, h.apart, h.indexed⟩
  have hafter : keyFileAt codec (s.2.set file.path (savedNode codec key file)) file'.path =
      if file'.path = file.path then some (unparseRepos key file.repos)
      else keyFileAt codec s.2 file'.path := keyFileAt_set _ _ _ _
  by_cases hpath : file'.path = file.path
  · obtain rfl := h.apart ref' file' ref file hin' hin hpath
    obtain rfl : file' = file := Option.some.inj (hin'.2.symm.trans hin.2)
    obtain ⟨key', hkey', hgroups⟩ := h.onDisk ref' file' hin'
    rw [hkey] at hkey'
    obtain rfl := Option.some.inj hkey'
    rw [if_pos rfl] at hafter
    refine ⟨_, hafter, fun id => ?_⟩
    rw [mem_getGroups_unparseRepos (h.sound.keyed file' (List.mem_of_getElem? hin.2)), hgroups,
      or_self]
  · rw [if_neg hpath] at hafter
    obtain ⟨key', hkey', hgroups⟩ := h.onDisk ref' file' hin'
    exact ⟨key', by rw [hafter, hkey'], hgroups⟩

/-- Saving an object in use never fails. -/
theorem saveFile_backed (h : Backed codec s) {ref : ℕ} {file : RPMRepositoryFile}
    (hin : InUse s.1 ref file) : ∃ key, keyFileAt codec s.2 file.path = some key ∧
      saveFile codec ref s =
        .ok () (s.1, s.2.set file.path (savedNode codec key file)) := by
  obtain ⟨key, hkey, -⟩ := h.onDisk ref file hin
  obtain ⟨fs', hsave⟩ := KeyFile.save_of_keyFileAt hkey (unparseRepos key file.repos)
  have hfs' := KeyFile.save_ok hsave
  refine ⟨key, hkey, ?_⟩
  rw [saveFile, bind_apply, get_apply]
  simp only [hin.2, RPMRepositoryFile.save, unparse, onFs, bind_of_ok
    (KeyFile.open_of_keyFileAt hkey), hsave, hfs', savedNode]

/-- Saving different objects in use: each is written over what was there before. -/
theorem saves_backed {refs : List ℕ} (h : Backed codec s) (hnodup : refs.Nodup)
    (huse : ∀ ref ∈ refs, ∃ file, InUse s.1 ref file) :
    ∃ t, refs.forM (saveFile codec) s = .ok () t ∧ t.1 = s.1 ∧ Backed codec t ∧
      (∀ ref ∈ refs, ∀ file, s.1.files[ref]? = some file → ∃ key,
        keyFileAt codec s.2 file.path = some key ∧
          t.2.get? file.path = some (savedNode codec key file)) ∧
      ∀ p, (∀ ref ∈ refs, ∀ file, s.1.files[ref]? = some file → file.path ≠ p) →
        t.2.get? p = s.2.get? p := by
  induction refs generalizing s with
  | nil => exact ⟨s, rfl, rfl, h, by simp, fun _ _ => rfl⟩
  | cons ref refs ih =>
    rw [List.nodup_cons] at hnodup
    rw [List.forall_mem_cons] at huse
    obtain ⟨⟨file, hin⟩, huse⟩ := huse
    obtain ⟨key, hkey, hsave⟩ := saveFile_backed h hin
    obtain ⟨t, hrun, hm, ht, hwritten, hkept⟩ := ih (backed_set h hin hkey) hnodup.2 huse
    have hne : ∀ other ∈ refs, ∀ file', s.1.files[other]? = some file' →
        file'.path ≠ file.path := by
      intro other ho file' hfile' hpath
      obtain ⟨f, hf⟩ := huse other ho
      obtain rfl : f = file' := Option.some.inj (hf.2.symm.trans hfile')
      exact hnodup.1 (h.apart other f ref file hf hin hpath ▸ ho)
    refine ⟨t, ?_, hm, ht, ?_, ?_⟩
    · rw [forM_cons_apply, hsave]
      exact hrun
    · rw [List.forall_mem_cons]
      constructor
      · intro f hf
        obtain rfl : file = f := Option.some.inj (hin.2.symm.trans hf)
        refine ⟨key, hkey, (hkept file.path hne).trans ?_⟩
        exact FS.get?_set_self _ _ _
      · intro other ho f hf
        obtain ⟨key', hkey', hget⟩ := hwritten other ho f hf
        refine ⟨key', ?_, hget⟩
        rwa [savedNode, keyFileAt_set, if_neg (hne other ho f hf)] at hkey'
    · intro p hp
      rw [List.forall_mem_cons] at hp
      rw [hkept p hp.2]
      exact FS.get?_set_of_ne _ _ (hp.1 file hin.2).symm

/-! ### Enabling and saving -/

/-- The flags are set in memory, and each touched file is written from its copy over what
stood there before. -/
structure EnabledSaved (codec : GKeyFile) (s t : RPMRepoManager × FS) (repos : List String)
    (value : Bool) : Prop where
  memory : Enabled s.1 t.1 repos value
  written : ∀ id ∈ repos, ∀ (ref : ℕ) (file' : RPMRepositoryFile),
    s.1.filesIdx[id]? = some ref → t.1.files[ref]? = some file' → ∃ key,
      keyFileAt codec s.2 file'.path = some key ∧
        t.2.get? file'.path = some (savedNode codec key file')
  untouched : ∀ p, (∀ id ∈ repos, ¬ IndexedAt s.1 id p) → t.2.get? p = s.2.get? p

theorem enabledSaved_of_saves (h : Backed codec s) (henabled : Enabled s.1 manager' repos value)
    {refs : List ℕ} (hnodup : refs.Nodup)
    (hrefs : ∀ ref, ref ∈ refs ↔ ∃ id ∈ repos, s.1.filesIdx[id]? = some ref) :
    ∃ t, refs.forM (saveFile codec) (manager', s.2) = .ok () t ∧ Backed codec t ∧
      EnabledSaved codec s t repos value := by
  have h' : Backed codec (manager', s.2) := h.of_enabled henabled
  obtain ⟨t, hrun, hm, ht, hwritten, hkept⟩ := saves_backed h' hnodup fun ref hm => by
    obtain ⟨id, -, hidx⟩ := (hrefs ref).mp hm
    rw [← henabled.filesIdx] at hidx
    obtain ⟨file', hfile', -⟩ := h'.sound.present id ref hidx
    exact ⟨file', ⟨id, hidx⟩, hfile'⟩
  refine ⟨t, hrun, ht, by rw [hm]; exact henabled, ?_, ?_⟩
  · intro id hid ref file' hidx hfile'
    rw [hm] at hfile'
    exact hwritten ref ((hrefs ref).mpr ⟨id, hid, hidx⟩) file' hfile'
  · intro p hp
    refine hkept p fun ref hm' file' hfile' hpath => ?_
    obtain ⟨id, hid, hidx⟩ := (hrefs ref).mp hm'
    obtain ⟨file, hfile, hpath', -⟩ := henabled.back hfile'
    exact hp id hid ⟨ref, file, hidx, hfile, hpath'.symm.trans hpath⟩

theorem enableAll_backed (h : Backed codec s) (hall : ∀ id ∈ repos, id ∈ s.1.filesIdx)
    (order : WalkOrder) (value : Bool) : ∃ t, enableAll codec order repos value s = .ok () t ∧
      Backed codec t ∧ EnabledSaved codec s t repos value := by
  obtain ⟨out, s₁, hloop⟩ := enableLoop_returns h.sound hall value []
  obtain ⟨hfs, henabled, hnodup, hmem, -⟩ := enableLoop_ok hloop
  have hperm := order.perm out
  obtain ⟨t, hrun, ht, hsaved⟩ := enabledSaved_of_saves h henabled
    (hperm.nodup_iff.mpr (hnodup List.nodup_nil)) fun ref => by
      rw [hperm.mem_iff, hmem]
      simp
  refine ⟨t, ?_, ht, hsaved⟩
  rw [← hfs] at hrun
  rw [enableAll, bind_of_ok hloop, hrun]

theorem enable_backed (h : Backed codec s) {repo : String} {ref : ℕ}
    (hidx : s.1.filesIdx[repo]? = some ref) (value : Bool) :
    ∃ t, enable codec repo value s = .ok () t ∧ Backed codec t ∧
      EnabledSaved codec s t [repo] value := by
  have hall : ∀ id ∈ [repo], id ∈ s.1.filesIdx := by
    intro id hid
    rw [List.mem_singleton.mp hid]
    exact mem_of_getElem? hidx
  obtain ⟨s₁, -, -, hsingle, hbatch⟩ := enable_apply codec h.sound hidx value
  obtain ⟨t, hrun, hspec⟩ := enableAll_backed h hall .insertion value
  exact ⟨t, by rw [hsingle, ← hbatch, hrun], hspec⟩

/-! ### Any calls -/

theorem backed_enable (repo : String) (value : Bool) :
    Preserves (Backed codec) (enable codec repo value) := by
  intro s hs
  cases hidx : s.1.filesIdx[repo]? with
  | none =>
    rw [enable_unknown hidx]
    exact hs
  | some ref =>
    obtain ⟨t, hrun, ht, -⟩ := enable_backed hs hidx value
    rw [hrun]
    exact ht

theorem backed_enableAll (order : WalkOrder) (repos : List String) (value : Bool) :
    Preserves (Backed codec) (enableAll codec order repos value) := by
  intro s hs
  by_cases hall : ∀ id ∈ repos, id ∈ s.1.filesIdx
  · obtain ⟨t, hrun, ht, -⟩ := enableAll_backed hs hall order value
    rw [hrun]
    exact ht
  · simp only [not_forall, exists_prop] at hall
    obtain ⟨repo, -, -, t, hrun, hfs, henabled⟩ := enableAll_unknown hs.sound hall order value
    rw [hrun]
    show Backed codec (t.1, t.2)
    rw [hfs]
    exact hs.of_enabled henabled

theorem backed_call (opts : Options) (call : Call) :
    Preserves (Backed codec) (call.run opts codec) := by
  cases call with
  | install source => exact backed_install opts source
  | loadDir path => exact preserves_loadDir opts path (backed_install opts)
  | enable repo value => exact backed_enable repo value
  | enableAll order repos value => exact backed_enableAll order repos value

theorem backed_afterCalls (calls : List Call) (hs : Backed codec s) :
    Backed codec (afterEvents opts codec (calls.map .request) s) := by
  induction calls generalizing s with
  | nil => exact hs
  | cons call calls ih => exact ih (backed_call opts call s hs)

/-! ### One batch against single calls -/

/-- No other identifier of the list maps to the path of an object that none of them maps to. -/
theorem Backed.not_indexedAt (h : Backed codec s) {ref : ℕ} {file : RPMRepositoryFile}
    (hin : InUse s.1 ref file) (hnone : ∀ id ∈ repos, s.1.filesIdx[id]? ≠ some ref) :
    ∀ id ∈ repos, ¬ IndexedAt s.1 id file.path := by
  rintro id hid ⟨other, file', hidx, hfile', hpath⟩
  obtain rfl := h.apart other file' ref file ⟨⟨id, hidx⟩, hfile'⟩ hin hpath
  exact hnone id hid hidx

theorem Enabled.indexedAt_iff (h : Enabled manager manager' repos value) (id : String)
    (path : Path) : IndexedAt manager' id path ↔ IndexedAt manager id path := by
  constructor
  · rintro ⟨ref, file', hidx, hfile', rfl⟩
    obtain ⟨file, hfile, hpath, -⟩ := h.back hfile'
    rw [h.filesIdx] at hidx
    exact ⟨ref, file, hidx, hfile, hpath.symm⟩
  · rintro ⟨ref, file, hidx, hfile, rfl⟩
    obtain ⟨file', hfile', hpath, -⟩ := h.files ref file hfile
    rw [← h.filesIdx] at hidx
    exact ⟨ref, file', hidx, hfile', hpath⟩

/-- Writing a copy over what an earlier copy has left, or over what was there before. -/
theorem EnabledSaved.append (hs : Backed codec s) (h : EnabledSaved codec s t repos value)
    (h' : EnabledSaved codec t u repos' value) :
    EnabledSaved codec s u (repos ++ repos') value := by
  have hsound : Sound t.1 := hs.sound.of_enabled h.memory
  refine ⟨h.memory.append h'.memory, ?_, ?_⟩
  · intro id hid ref file'' hidx hfile''
    obtain ⟨file', hfile', hpath', hupd'⟩ := h'.memory.back hfile''
    obtain ⟨file, hfile, hpath, hupd⟩ := h.memory.back hfile'
    have hin : InUse s.1 ref file := ⟨⟨id, hidx⟩, hfile⟩
    have hidx' := h.memory.filesIdx
    rw [hpath', hpath]
    by_cases hlater : ∃ other ∈ repos', s.1.filesIdx[other]? = some ref
    · obtain ⟨other, hother, hoidx⟩ := hlater
      rw [← hidx'] at hoidx
      obtain ⟨key', hkey', hget⟩ := h'.written other hother ref file'' hoidx hfile''
      rw [hpath', hpath] at hkey' hget
      by_cases hearlier : ∃ other ∈ repos, s.1.filesIdx[other]? = some ref
      · obtain ⟨first, hfirst, hfidx⟩ := hearlier
        obtain ⟨key, hkey, hmid⟩ := h.written first hfirst ref file' hfidx hfile'
        rw [hpath] at hkey hmid
        have hkeyMid : keyFileAt codec t.2 file.path = some (unparseRepos key file'.repos) := by
          simp only [keyFileAt, FS.content?, hmid, savedNode, Option.bind_some, codec.load_toData]
        rw [hkey'] at hkeyMid
        obtain rfl := Option.some.inj hkeyMid
        refine ⟨key, hkey, ?_⟩
        rw [hget, savedNode, savedNode, unparseRepos_unparseRepos
          (hsound.keyed file' (List.mem_of_getElem? hfile')) hupd']
      · simp only [not_exists, not_and] at hearlier
        refine ⟨key', ?_, hget⟩
        rw [← hkey']
        exact (keyFileAt_congr (h.untouched file.path (hs.not_indexedAt hin hearlier))).symm
    · simp only [not_exists, not_and] at hlater
      have hmem : id ∈ repos := (List.mem_append.mp hid).resolve_right fun hm => hlater id hm hidx
      obtain ⟨key, hkey, hmid⟩ := h.written id hmem ref file' hidx hfile'
      rw [hpath] at hkey hmid
      have hsame : SameRepos file'.repos file''.repos := by
        apply (updated_refl (p := fun _ => False) (by simp)).same hupd'
        intro other
        rw [hidx', false_iff]
        exact fun ho => hlater other ho.1 ho.2
      refine ⟨key, hkey, ?_⟩
      rw [h'.untouched, hmid, savedNode, savedNode, hsame.unparseRepos]
      intro other ho hat
      exact hs.not_indexedAt hin hlater other ho ((h.memory.indexedAt_iff other _).mp hat)
  · intro p hp
    rw [List.forall_mem_append] at hp
    rw [h'.untouched p fun id hid hat => hp.2 id hid ((h.memory.indexedAt_iff id p).mp hat),
      h.untouched p hp.1]

/-- What is left does not depend on the order of the identifiers or on how often they occur. -/
theorem EnabledSaved.same (h : EnabledSaved codec s t repos value)
    (h' : EnabledSaved codec s u repos' value) (hmem : ∀ id, id ∈ repos ↔ id ∈ repos') :
    SameManager t.1 u.1 ∧ ∀ p, u.2.get? p = t.2.get? p := by
  refine ⟨h.memory.same h'.memory hmem, fun p => ?_⟩
  by_cases htouched : ∃ id ∈ repos, IndexedAt s.1 id p
  · obtain ⟨id, hid, ref, file, hidx, hfile, rfl⟩ := htouched
    obtain ⟨file', hfile', hpath', hupd'⟩ := h.memory.files ref file hfile
    obtain ⟨file'', hfile'', hpath'', hupd''⟩ := h'.memory.files ref file hfile
    obtain ⟨key, hkey, hget⟩ := h.written id hid ref file' hidx hfile'
    obtain ⟨key', hkey', hget'⟩ := h'.written id ((hmem id).mp hid) ref file'' hidx hfile''
    rw [hpath'] at hkey hget
    rw [hpath''] at hkey' hget'
    rw [hkey] at hkey'
    obtain rfl := Option.some.inj hkey'
    have hsame : SameRepos file'.repos file''.repos :=
      hupd'.same hupd'' fun other => by rw [hmem]
    rw [hget, hget', savedNode, savedNode, hsame.unparseRepos]
  · simp only [not_exists, not_and] at htouched
    rw [h.untouched p htouched, h'.untouched p fun id hid => htouched id ((hmem id).mpr hid)]

theorem enabledSaved_nil (s : RPMRepoManager × FS) (value : Bool) :
    EnabledSaved codec s s [] value :=
  ⟨enabled_nil s.1 value, fun _ hid => absurd hid List.not_mem_nil, fun _ _ => rfl⟩

/-- Single calls one after another. -/
theorem enables_backed (hs : Backed codec s) (hall : ∀ id ∈ repos, id ∈ s.1.filesIdx)
    (value : Bool) : ∃ t, repos.forM (enable codec · value) s = .ok () t ∧
      EnabledSaved codec s t repos value := by
  induction repos generalizing s with
  | nil => exact ⟨s, rfl, enabledSaved_nil s value⟩
  | cons repo repos ih =>
    rw [List.forall_mem_cons] at hall
    obtain ⟨ref, hidx⟩ := exists_getElem? hall.1
    obtain ⟨t, hrun, ht, hsaved⟩ := enable_backed hs hidx value
    obtain ⟨u, hrest, hsaved'⟩ := ih ht (by rw [hsaved.memory.filesIdx]; exact hall.2)
    refine ⟨u, ?_, hsaved.append hs hsaved'⟩
    rw [forM_cons_apply, hrun]
    exact hrest

/-- Whatever calls came before, a batch of identifiers that are there and single calls for
the same identifiers both return, with the same flags and the same files. -/
theorem enableAll_eq_enables {calls : List Call} {fs : FS}
    (h : afterEvents opts codec (calls.map .request) ({}, fs) = s)
    (hall : ∀ id ∈ repos, id ∈ s.1.filesIdx) (hmem : ∀ id, id ∈ repos ↔ id ∈ repos')
    (order : WalkOrder) (value : Bool) : ∃ t u,
      enableAll codec order repos value s = .ok () t ∧
      repos'.forM (enable codec · value) s = .ok () u ∧
      SameManager t.1 u.1 ∧ ∀ p, u.2.get? p = t.2.get? p := by
  have hs : Backed codec s := h ▸ backed_afterCalls calls (backed_empty fs)
  have hall' : ∀ id ∈ repos', id ∈ s.1.filesIdx := fun id hid => hall id ((hmem id).mpr hid)
  obtain ⟨t, hbatch, -, hsaved⟩ := enableAll_backed hs hall order value
  obtain ⟨u, hsingle, hsaved'⟩ := enables_backed hs hall' value
  exact ⟨t, u, hbatch, hsingle, hsaved.same hsaved' hmem⟩

theorem enableAll_eq_enables_three : ∃ t u,
    enableAll GKeyFile.text .insertion ["a", "c", "b", "a"] false threeLoaded = .ok () t ∧
    ["b", "a", "c"].forM (enable GKeyFile.text · false) threeLoaded = .ok () u ∧
    SameManager t.1 u.1 ∧ ∀ p, u.2.get? p = t.2.get? p := by
  have hmem : ∀ id, id ∈ ["a", "c", "b", "a"] ↔ id ∈ ["b", "a", "c"] := by
    intro id
    simp only [List.mem_cons, List.not_mem_nil, or_false]
    tauto
  have hindexed : ["a", "c", "b", "a"].all (threeLoaded.1.filesIdx.contains ·) := by
    decide +kernel
  have hall : ∀ id ∈ ["a", "c", "b", "a"], id ∈ threeLoaded.1.filesIdx := by
    intro id hid
    exact Std.TreeMap.mem_iff_contains.mpr (List.all_eq_true.mp hindexed id hid)
  have hrun : afterEvents {} GKeyFile.text ([Call.loadDir basedir].map .request)
      ({}, threeRepos) = threeLoaded := by
    rw [threeLoaded]
  exact enableAll_eq_enables hrun hall hmem .insertion false

def pluginFile : Path := basedir.child "plugin.repo"

/-- A file is loaded, another program adds a group to it, and it is loaded again. -/
def loadedTwice : RPMRepoManager × FS :=
  afterEvents {} GKeyFile.text
    [.request (.install pluginFile),
      .outside fun fs => fs.set pluginFile
        (.file "[a]\nname=A\nenabled=1\ngpgcheck=0\n[b]\nname=B\nenabled=1\ngpgcheck=0\n"),
      .request (.install pluginFile)]
    ({}, { nodes := ⟨[(["etc"], .dir), (basedir, .dir),
      (pluginFile, .file "[a]\nname=A\nenabled=1\ngpgcheck=0\n")], by decide⟩ })

/-- With two objects of one path the one that is saved last decides: the batch leaves `a` enabled
on disk, and single calls in the other order disable it. -/
theorem not_enableAll_eq_enables :
    (∀ id ∈ ["a", "b"], id ∈ loadedTwice.1.filesIdx) ∧
      ¬ ∃ t u, enableAll GKeyFile.text .insertion ["a", "b"] false loadedTwice = .ok () t ∧
        ["b", "a"].forM (enable GKeyFile.text · false) loadedTwice = .ok () u ∧
        SameManager t.1 u.1 ∧ ∀ p, u.2.get? p = t.2.get? p := by
  constructor
  · have hindexed : ["a", "b"].all (loadedTwice.1.filesIdx.contains ·) := by decide +kernel
    intro id hid
    exact Std.TreeMap.mem_iff_contains.mpr (List.all_eq_true.mp hindexed id hid)
  · rintro ⟨t, u, hbatch, hsingle, -, hfiles⟩
    have hafter : valueAt GKeyFile.text (finalState (enableAll GKeyFile.text .insertion ["a", "b"]
        false loadedTwice)).2 pluginFile "a" "enabled" = some "true" := by decide +kernel
    have hafter' : valueAt GKeyFile.text (finalState (["b", "a"].forM
        (enable GKeyFile.text · false) loadedTwice)).2 pluginFile "a" "enabled" = some "false" := by
      decide +kernel
    rw [hbatch, finalState] at hafter
    rw [hsingle, finalState, valueAt, keyFileAt_congr (hfiles pluginFile), ← valueAt, hafter]
      at hafter'
    exact absurd hafter' (by decide)

end RPMRepoManager

end Cloyster
