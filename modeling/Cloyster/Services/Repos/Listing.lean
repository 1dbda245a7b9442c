import Cloyster.Services.Repos.Manager

/-! What is listed and what is acted upon. A lookup takes the repository from the
file that its identifier maps to, which is the first file loaded that has it. The
listing walks the index by identifier and keeps, of the repositories with one
identifier, the one it meets first. The two agree exactly when the first file of
the walk that defines an identifier is the one it maps to, because a repository
remembers the path of its file. -/

namespace Cloyster

open Lib RPMRepositoryParser

namespace RPMRepoManager

/-- The order in which the listed set is walked. -/
structure ListOrder where
  walk : List RPMRepository → List RPMRepository
  perm : ∀ repos, (walk repos).Perm repos

/-- Every repository of a file, by identifier; one that is in the set stays. -/
def emplaceFile (output : List RPMRepository) (repoFile : RPMRepositoryFile) : List RPMRepository :=
  (repoFile.repos.toList.map Prod.snd).foldl (emplaceBy RPMRepository.id) output

def reposLoop (files : List RPMRepositoryFile) (output : List RPMRepository) :
    List (String × ℕ) → Except Exn (List RPMRepository)
  | [] => .ok output
  | (_, ref) :: rest =>
    match files[ref]? with
    | none => .error ⟨.undefinedBehaviour, "dangling pointer"⟩
    | some repoFile => reposLoop files (emplaceFile output repoFile) rest

def repos (order : ListOrder) : ManagerM (List RPMRepository) := do
  let s ← get
  let output ← liftExcept (reposLoop s.1.files [] s.1.filesIdx.toList)
  return order.walk output

/-- `m_filesIdx.at(repoName)->repo(repoName)`, with the message for a missing identifier. -/
def repo (repoName : String) : ManagerM RPMRepository := do
  let s ← get
  let notFound : Exn := .runtimeError (s!"Cannot find repository {repoName}, no such repository " ++
    s!"loaded, repositories: available: " ++ ",".intercalate s.1.filesIdx.keys)
  match s.1.filesIdx[repoName]? with
  | none => throw notFound
  | some ref =>
    match s.1.files[ref]? with
    | none => throw ⟨.undefinedBehaviour, "dangling pointer"⟩
    | some repoFile =>
      match repoFile.repos[repoName]? with
      | none => throw notFound
      | some r => return r

/-! ### Loading -/

/-- A call that loads files. -/
inductive LoadCall where
  | install (source : Path)
  | loadDir (path : Path)

variable (opts : Options) (codec : GKeyFile)

def LoadCall.run : LoadCall → ManagerM Unit
  | .install source => RPMRepoManager.install opts codec source
  | .loadDir path => RPMRepoManager.loadDir opts codec path

/-- The state after a sequence of calls. A call that throws leaves what it had
loaded, and the caller goes on. -/
def afterLoads (calls : List LoadCall) (s : RPMRepoManager × FS) : RPMRepoManager × FS :=
  calls.foldl (fun s call => finalState (call.run opts codec s)) s

/-! ### What is promised -/

/-- One entry for each identifier of the index, and each the one a lookup gives. -/
def ListsIndexed (s : RPMRepoManager × FS) : Prop :=
  ∀ order, ∃ output, repos order s = .ok output s ∧ (output.map RPMRepository.id).Nodup ∧
    (∀ id, id ∈ output.map RPMRepository.id ↔ id ∈ s.1.filesIdx) ∧
    ∀ r ∈ output, repo r.id s = .ok r s

/-- What the file behind a reference says about an identifier. -/
def definition (manager : RPMRepoManager) (id : String) (ref : ℕ) : Option RPMRepository :=
  manager.files[ref]?.bind (·.repos[id]?)

/-- The first file of the walk that defines an identifier. -/
def firstDefining (manager : RPMRepoManager) (id : String) : Option ℕ :=
  (manager.filesIdx.toList.find? fun entry => (definition manager id entry.2).isSome).map Prod.snd

/-- The file an identifier maps to is the first one of the walk that defines it. -/
def WalksIndexed (manager : RPMRepoManager) : Prop :=
  ∀ (id : String) (ref : ℕ), manager.filesIdx[id]? = some ref →
    firstDefining manager id = some ref

/-! ### The listing -/

variable {opts codec} {manager : RPMRepoManager} {fs : FS}

/-- Every repository the walk meets, in order. -/
def walked (files : List RPMRepositoryFile) (entries : List (String × ℕ)) : List RPMRepository :=
  entries.flatMap fun entry =>
    match files[entry.2]? with
    | none => []
    | some repoFile => repoFile.repos.toList.map Prod.snd

theorem reposLoop_eq {files : List RPMRepositoryFile} {entries : List (String × ℕ)}
    (h : ∀ entry ∈ entries, ∃ repoFile, files[entry.2]? = some repoFile)
    (output : List RPMRepository) : reposLoop files output entries =
      .ok ((walked files entries).foldl (emplaceBy RPMRepository.id) output) := by
  induction entries generalizing output with
  | nil => rfl
  | cons entry entries ih =>
    rw [List.forall_mem_cons] at h
    obtain ⟨⟨repoFile, hfile⟩, hrest⟩ := h
    have hcons : walked files (entry :: entries) =
        repoFile.repos.toList.map Prod.snd ++ walked files entries := by
      rw [walked, List.flatMap_cons, hfile]
      rfl
    simp only [reposLoop, hfile]
    rw [ih hrest, emplaceFile, hcons, List.foldl_append]

/-- The repositories of a well keyed file are told apart by its keys. -/
theorem find?_toList {repos : RepoMap} (h : WellKeyed repos) (id : String) :
    (repos.toList.map Prod.snd).find? (·.id = id) = repos[id]? := by
  have hid : ∀ e ∈ repos.toList, e.2.id = e.1 := fun e he =>
    (h e.1 e.2 (Std.TreeMap.mem_toList_iff_getElem?_eq_some.mp he)).1
  rw [← lookup_toList]
  generalize repos.toList = l at hid
  induction l with
  | nil => rfl
  | cons e l ih =>
    rw [List.forall_mem_cons] at hid
    rw [List.map_cons, List.find?_cons, lookup_cons_eq, ih hid.2, hid.1]
    by_cases he : e.1 = id
    · simp [he]
    · simp [he]

/-- Every file object has well keyed repositories. -/
def AllKeyed (files : List RPMRepositoryFile) : Prop := ∀ file ∈ files, WellKeyed file.repos

theorem find?_walked (hkeyed : AllKeyed manager.files) (id : String)
    (entries : List (String × ℕ)) : (walked manager.files entries).find? (·.id = id) =
      entries.findSome? fun entry => definition manager id entry.2 := by
  rw [walked, List.find?_flatMap]
  congr 1
  funext entry
  unfold definition
  cases hfile : manager.files[entry.2]? with
  | none => rfl
  | some file => exact find?_toList (hkeyed file (List.mem_of_getElem? hfile)) id

theorem findSome?_definition (id : String) : (manager.filesIdx.toList.findSome? fun entry =>
    definition manager id entry.2) = (firstDefining manager id).bind (definition manager id) := by
  unfold firstDefining
  induction manager.filesIdx.toList with
  | nil => rfl
  | cons entry entries ih =>
    rw [List.findSome?_cons, List.find?_cons]
    cases hdef : definition manager id entry.2 with
    | none => simpa using ih
    | some r => simp [hdef]

theorem repo_ok_iff {id : String} {r : RPMRepository} {s : RPMRepoManager × FS} :
    repo id s = .ok r s ↔ ∃ ref, s.1.filesIdx[id]? = some ref ∧ definition s.1 id ref = some r := by
  rw [repo, bind_apply, get_apply]
  dsimp only
  cases hidx : s.1.filesIdx[id]? with
  | none => simp
  | some ref =>
    simp only [definition, Option.some.injEq, exists_eq_left']
    cases hfile : s.1.files[ref]? with
    | none => simp
    | some file => cases hr : file.repos[id]? <;> simp [hr]

/-! ### The invariant of loading -/

/-- Index, objects and disk agree, and every object lies in the base directory. -/
structure Loaded (codec : GKeyFile) (s : RPMRepoManager × FS) : Prop where
  coherent : Coherent codec s.1 s.2
  keyed : AllKeyed s.1.files
  inBasedir : ∀ file ∈ s.1.files, ∃ name, file.path = basedir.child name

theorem loaded_empty (fs : FS) : Loaded codec ({}, fs) :=
  ⟨coherent_empty fs, fun _ h => absurd h List.not_mem_nil, fun _ h => absurd h List.not_mem_nil⟩

theorem Loaded.mono {s : RPMRepoManager × FS} {fs : FS} (h : Loaded codec s)
    (hfs : ∀ p node, s.2.get? p = some node → fs.get? p = some node) : Loaded codec (s.1, fs) :=
  ⟨⟨h.coherent.present, fun ref file hin => (h.coherent.onDisk ref file hin).mono hfs,
    h.coherent.apart, h.coherent.indexed⟩, h.keyed, h.inBasedir⟩

theorem finalState_onFs {α : Type} (x : FsM α) (s : RPMRepoManager × FS) :
    finalState (onFs x s) = (s.1, finalState (x s.2)) := by
  unfold onFs
  cases x s.2 <;> rfl

/-- Copying into the base directory changes no path that was there, thrown or not. -/
theorem copyToBasedir_kept (opts : Options) (source dest : Path) {p : Path} {node : Node}
    (hp : fs.get? p = some node) :
    (finalState (copyToBasedir opts source dest fs)).get? p = some node := by
  cases hrun : copyToBasedir opts source dest fs with
  | ok u t => exact copyToBasedir_ok hrun hp
  | error e t =>
    suffices ht : t = fs by rw [finalState, ht, hp]
    unfold copyToBasedir copyFile at hrun
    split_ifs at hrun
    · simp at hrun
    · simp at hrun
    · rw [bind_apply, get_apply] at hrun
      dsimp only at hrun
      cases hc : fs.copy source dest with
      | ok t' => rw [hc] at hrun; simp at hrun
      | error code =>
        rw [hc] at hrun
        cases code <;> simp at hrun <;> exact hrun.2.symm

theorem unchanged_parse (path : Path) (output : RepoMap) (fs : FS) :
    Unchanged (parse codec path output) fs :=
  unchanged_bind (unchanged_open path fs) fun _ _ => unchanged_liftExcept _ fs

theorem wellKeyed_of_parse {path : Path} {repos : RepoMap} {fs' : FS}
    (h : parse codec path ∅ fs = .ok repos fs') : WellKeyed repos := by
  rcases (parse_ok h).2 with ⟨key, -, hholds⟩ | hnone
  · exact hholds.wellKeyed
  · exact fun id repo hrepo => absurd (mem_of_getElem? hrepo) (hnone id)

theorem Loaded.emplace {path : Path} {repos : RepoMap} {s : RPMRepoManager × FS} {fs' : FS}
    (h : Loaded codec s) (hin : ∃ name, path = basedir.child name)
    (hparse : parse codec path ∅ s.2 = .ok repos fs') :
    Loaded codec (s.1.emplace ⟨path, repos⟩, fs') := by
  obtain ⟨rfl, hfile⟩ := parse_ok hparse
  refine ⟨coherent_emplace h.coherent hfile, ?_, ?_⟩
  · intro file hm
    rcases List.mem_append.mp hm with hm | hm
    · exact h.keyed file hm
    · rw [List.mem_singleton.mp hm]
      exact wellKeyed_of_parse hparse
  · intro file hm
    rcases List.mem_append.mp hm with hm | hm
    · exact h.inBasedir file hm
    · rw [List.mem_singleton.mp hm]
      exact hin

/-- A predicate survives loading when files may be added to the disk under it, and when it
survives what is read from the base directory. -/
theorem preserves_install {P : RPMRepoManager × FS → Prop} (opts : Options) (source : Path)
    (hmono : ∀ s fs', P s → (∀ p node, s.2.get? p = some node → fs'.get? p = some node) →
      P (s.1, fs'))
    (hemplace : ∀ s path repos, P s → (∃ name, path = basedir.child name) →
      parse codec path ∅ s.2 = .ok repos s.2 → P (s.1.emplace ⟨path, repos⟩, s.2)) :
    Preserves P (install opts codec source) := by
  intro s hs
  unfold install
  have hcopied : P (finalState (onFs (copyToBasedir opts source
      (basedir.child source.filename)) s)) := by
    rw [finalState_onFs]
    exact hmono s _ hs fun p node => copyToBasedir_kept opts source _
  rw [bind_apply]
  cases hcopy : onFs (copyToBasedir opts source (basedir.child source.filename)) s with
  | error e t =>
    rw [hcopy] at hcopied
    exact hcopied
  | ok u t =>
    rw [hcopy] at hcopied
    dsimp only
    split_ifs
    · exact hcopied
    · have hparsed : finalState (onFs (parse codec (basedir.child source.filename) ∅) t) = t := by
        rw [finalState_onFs, unchanged_parse]
      rw [bind_apply]
      cases hparse : onFs (parse codec (basedir.child source.filename) ∅) t with
      | error e t' =>
        rw [hparse] at hparsed
        obtain rfl : t' = t := hparsed
        exact hcopied
      | ok repos t' =>
        obtain ⟨hm, hrun⟩ := onFs_ok hparse
        have hfs : t'.2 = t.2 := (parse_ok hrun).1
        rw [hfs] at hrun
        have hemplaced := hemplace t _ repos hcopied ⟨_, rfl⟩ hrun
        dsimp only [modify_apply, finalState]
        rw [hm, hfs]
        exact hemplaced

theorem preserves_loadDir {P : RPMRepoManager × FS → Prop} (opts : Options) (path : Path)
    (hinstall : ∀ source, Preserves P (install opts codec source)) :
    Preserves P (loadDir opts codec path) := by
  unfold loadDir
  split_ifs
  · exact fun s hs => hs
  · refine preserves_bind (fun s hs => ?_) fun names => preserves_forM fun name _ => ?_
    · have hsame : finalState (directoryIterator path s.2) = s.2 := by
        cases hdir : s.2.isDir path with
        | true => rw [directoryIterator_of_isDir hdir]; rfl
        | false =>
          obtain ⟨e, he⟩ := directoryIterator_of_not_isDir hdir
          rw [he]
          rfl
      rw [finalState_onFs, hsame]
      exact hs
    · unfold installEntry
      split_ifs
      · exact hinstall _
      · exact fun s hs => hs

theorem loaded_install (opts : Options) (source : Path) :
    Preserves (Loaded codec) (install opts codec source) :=
  preserves_install opts source (fun _ _ hs => hs.mono) fun _ _ _ hs => hs.emplace

theorem loaded_loadDir (opts : Options) (path : Path) :
    Preserves (Loaded codec) (loadDir opts codec path) :=
  preserves_loadDir opts path (loaded_install opts)

theorem loaded_call (call : LoadCall) : Preserves (Loaded codec) (call.run opts codec) := by
  cases call with
  | install source => exact loaded_install opts source
  | loadDir path => exact loaded_loadDir opts path

theorem loaded_afterLoads (calls : List LoadCall) {s : RPMRepoManager × FS} (h : Loaded codec s) :
    Loaded codec (afterLoads opts codec calls s) := by
  induction calls generalizing s with
  | nil => exact h
  | cons call calls ih => exact ih (loaded_call call s h)

/-! ### The listing of a loaded state -/

theorem toText_basedir_inj {a b : String}
    (h : (basedir.child a).toText = (basedir.child b).toText) : a = b := by
  have hpath : ∀ name, (basedir.child name).toText = "/etc/yum.repos.d/" ++ name := fun _ => by
    change "/" ++ ("etc" ++ "/" ++ "yum.repos.d" ++ "/" ++ _) = _
    simp only [← String.append_assoc]
    rfl
  rw [hpath, hpath] at h
  exact (String.append_right_inj _).mp h

variable {s : RPMRepoManager × FS}

theorem Loaded.wellKeyed (h : Loaded codec s) {ref : ℕ} {file : RPMRepositoryFile}
    (hfile : s.1.files[ref]? = some file) : WellKeyed file.repos :=
  h.keyed file (List.mem_of_getElem? hfile)

theorem definition_eq_some {id : String} {ref : ℕ} {r : RPMRepository} :
    definition manager id ref = some r ↔
      ∃ file, manager.files[ref]? = some file ∧ file.repos[id]? = some r := by
  rw [definition, Option.bind_eq_some_iff]

/-- The walk meets a file that the index uses. -/
theorem firstDefining_eq_some {id : String} {ref : ℕ} (h : firstDefining manager id = some ref) :
    (∃ other : String, manager.filesIdx[other]? = some ref) ∧
      ∃ r, definition manager id ref = some r := by
  obtain ⟨entry, hfind, rfl⟩ := Option.map_eq_some_iff.mp h
  have hsome : (definition manager id entry.2).isSome := by simpa using List.find?_some hfind
  refine ⟨⟨entry.1, ?_⟩, Option.isSome_iff_exists.mp hsome⟩
  exact Std.TreeMap.mem_toList_iff_getElem?_eq_some.mp (List.mem_of_find?_eq_some hfind)

theorem exists_firstDefining (h : Loaded codec s) {id : String} (hid : id ∈ s.1.filesIdx) :
    ∃ ref, firstDefining s.1 id = some ref := by
  obtain ⟨ref, hidx⟩ := exists_getElem? hid
  obtain ⟨file, hfile, hmem⟩ := h.coherent.present id ref hidx
  obtain ⟨r, hr⟩ := exists_getElem? hmem
  have hdef : definition s.1 id ref = some r := definition_eq_some.mpr ⟨file, hfile, hr⟩
  have hfound : (s.1.filesIdx.toList.find? fun entry => (definition s.1 id entry.2).isSome).isSome := by
    rw [List.find?_isSome]
    exact ⟨(id, ref), Std.TreeMap.mem_toList_iff_getElem?_eq_some.mpr hidx, by rw [hdef]; rfl⟩
  obtain ⟨entry, hentry⟩ := Option.isSome_iff_exists.mp hfound
  exact ⟨entry.2, by rw [firstDefining, hentry]; rfl⟩

/-- The set that is listed. -/
def listed (manager : RPMRepoManager) : List RPMRepository :=
  (walked manager.files manager.filesIdx.toList).foldl (emplaceBy RPMRepository.id) []

theorem repos_ok (h : Loaded codec s) (order : ListOrder) :
    repos order s = .ok (order.walk (listed s.1)) s := by
  have hall : ∀ entry ∈ s.1.filesIdx.toList, ∃ file, s.1.files[entry.2]? = some file := by
    intro entry hm
    obtain ⟨file, hfile, -⟩ := h.coherent.present entry.1 entry.2
      (Std.TreeMap.mem_toList_iff_getElem?_eq_some.mp hm)
    exact ⟨file, hfile⟩
  rw [repos, bind_apply, get_apply]
  dsimp only
  rw [reposLoop_eq hall]
  rfl

theorem mem_listed_iff (h : Loaded codec s) (r : RPMRepository) :
    r ∈ listed s.1 ↔ ∃ ref, firstDefining s.1 r.id = some ref ∧ definition s.1 r.id ref = some r := by
  rw [listed, mem_foldl_emplaceBy_iff, find?_walked h.keyed, findSome?_definition,
    Option.bind_eq_some_iff]

theorem mem_ids_listed_iff (h : Loaded codec s) (id : String) :
    id ∈ (listed s.1).map RPMRepository.id ↔ id ∈ s.1.filesIdx := by
  rw [List.mem_map]
  constructor
  · rintro ⟨r, hm, rfl⟩
    obtain ⟨ref, hfirst, hdef⟩ := (mem_listed_iff h r).mp hm
    obtain ⟨file, hfile, hr⟩ := definition_eq_some.mp hdef
    exact h.coherent.indexed ref file ⟨(firstDefining_eq_some hfirst).1, hfile⟩ r.id
      (mem_of_getElem? hr)
  · intro hid
    obtain ⟨ref, hfirst⟩ := exists_firstDefining h hid
    obtain ⟨-, r, hdef⟩ := firstDefining_eq_some hfirst
    obtain ⟨file, hfile, hr⟩ := definition_eq_some.mp hdef
    obtain rfl : r.id = id := (h.wellKeyed hfile id r hr).1
    exact ⟨r, (mem_listed_iff h r).mpr ⟨ref, hfirst, hdef⟩, rfl⟩

/-- Two files in use that say the same about an identifier are one file. -/
theorem ref_eq_of_definition (h : Loaded codec s) {id : String} {ref ref' : ℕ} {r : RPMRepository}
    (hused : ∃ other : String, s.1.filesIdx[other]? = some ref)
    (hused' : ∃ other : String, s.1.filesIdx[other]? = some ref')
    (hdef : definition s.1 id ref = some r) (hdef' : definition s.1 id ref' = some r) :
    ref = ref' := by
  have hsource : ∀ ref, (∃ other : String, s.1.filesIdx[other]? = some ref) →
      definition s.1 id ref = some r →
        ∃ file, InUse s.1 ref file ∧ r.source = file.path.toText := by
    intro ref hused hdef
    obtain ⟨file, hfile, hr⟩ := definition_eq_some.mp hdef
    obtain ⟨key, -, hholds⟩ := h.coherent.onDisk ref file ⟨hused, hfile⟩
    exact ⟨file, ⟨hused, hfile⟩, (parseRepo_ok_iff.mp (hholds.reads id r hr)).1.source⟩
  obtain ⟨file, hin, hpath⟩ := hsource ref hused hdef
  obtain ⟨file', hin', hpath'⟩ := hsource ref' hused' hdef'
  refine h.coherent.apart ref file ref' file' hin hin' ?_
  obtain ⟨name, hname⟩ := h.inBasedir file (List.mem_of_getElem? hin.2)
  obtain ⟨name', hname'⟩ := h.inBasedir file' (List.mem_of_getElem? hin'.2)
  rw [hpath, hname, hname'] at hpath'
  rw [hname, hname', toText_basedir_inj hpath']

theorem listsIndexed_iff_of_loaded (h : Loaded codec s) : ListsIndexed s ↔ WalksIndexed s.1 := by
  constructor
  · intro hlists id ref hidx
    obtain ⟨output, hrun, -, hids, hsame⟩ := hlists ⟨fun repos => repos, fun _ => List.Perm.refl _⟩
    rw [repos_ok h] at hrun
    obtain ⟨rfl, -⟩ := EStateM.Result.ok.inj hrun
    have hid : id ∈ s.1.filesIdx := mem_of_getElem? hidx
    obtain ⟨r, hm, rfl⟩ := List.mem_map.mp ((hids id).mpr hid)
    obtain ⟨ref', hfirst, hdef'⟩ := (mem_listed_iff h r).mp hm
    obtain ⟨ref'', hidx', hdef⟩ := repo_ok_iff.mp (hsame r hm)
    rw [hidx] at hidx'
    obtain rfl := Option.some.inj hidx'
    rw [hfirst, ref_eq_of_definition h (firstDefining_eq_some hfirst).1 ⟨_, hidx⟩ hdef' hdef]
  · intro hwalks order
    have hperm := order.perm (listed s.1)
    refine ⟨_, repos_ok h order, ?_, fun id => ?_, fun r hm => ?_⟩
    · rw [(hperm.map RPMRepository.id).nodup_iff]
      exact nodup_foldl_emplaceBy (by simp)
    · rw [(hperm.map RPMRepository.id).mem_iff, mem_ids_listed_iff h]
    · rw [hperm.mem_iff, mem_listed_iff h] at hm
      obtain ⟨ref, hfirst, hdef⟩ := hm
      obtain ⟨other, hother⟩ := (firstDefining_eq_some hfirst).1
      obtain ⟨file, hfile, hr⟩ := definition_eq_some.mp hdef
      have hid := h.coherent.indexed ref file ⟨⟨other, hother⟩, hfile⟩ r.id (mem_of_getElem? hr)
      obtain ⟨ref', hidx⟩ := exists_getElem? hid
      have hsame := hwalks r.id ref' hidx
      rw [hfirst] at hsame
      obtain rfl := Option.some.inj hsame
      exact repo_ok_iff.mpr ⟨ref, hidx, hdef⟩

/-- In every state that loading reaches, the listing has one entry for each
identifier, the one that is acted upon, exactly when every identifier maps to the
first file of the walk that defines it. -/
theorem listsIndexed_afterLoads_iff (calls : List LoadCall) (fs : FS) :
    ListsIndexed (afterLoads opts codec calls ({}, fs)) ↔
      WalksIndexed (afterLoads opts codec calls ({}, fs)).1 :=
  listsIndexed_iff_of_loaded (loaded_afterLoads calls (loaded_empty fs))

/-- Two files that define one repository with different names. -/
def twoFiles : FS :=
  { nodes := ⟨[(["etc"], .dir), (basedir, .dir),
    (basedir.child "z.repo", .file "[x]\nname=Z\nenabled=1\ngpgcheck=0\n"),
    (basedir.child "a.repo", .file ("[a]\nname=A\nenabled=1\ngpgcheck=0\n" ++
      "[x]\nname=X\nenabled=1\ngpgcheck=0\n"))], by decide⟩ }

/-- The file loaded second has the smaller identifier, so the walk meets it first. -/
theorem not_listsIndexed_twoFiles :
    ¬ ListsIndexed (afterLoads {} GKeyFile.text
      [.install (basedir.child "z.repo"), .install (basedir.child "a.repo")] ({}, twoFiles)) := by
  have hloaded : Loaded GKeyFile.text (afterLoads {} GKeyFile.text
      [.install (basedir.child "z.repo"), .install (basedir.child "a.repo")] ({}, twoFiles)) :=
    loaded_afterLoads _ (loaded_empty twoFiles)
  intro h
  have hwalks := (listsIndexed_iff_of_loaded hloaded).mp h "x" 0 (by decide +kernel)
  revert hwalks
  decide +kernel

end RPMRepoManager

end Cloyster
