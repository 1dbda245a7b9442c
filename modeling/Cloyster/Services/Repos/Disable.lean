import Cloyster.Services.Repos.Failed

/-! Disabling through the package manager of the distribution. An unknown identifier is
logged and forgiven, but only one of the two overloads gets to see it: the batch below the
other one has turned the exception into one that is not caught. -/

namespace Cloyster

open Lib RPMRepositoryParser

namespace RepoManager

open RPMRepoManager

/-- The manager with the disk, and the errors that were logged. -/
abbrev LogState := (RPMRepoManager × FS) × List String

abbrev LogM := EStateM Exn LogState

def onRPM {α : Type} (x : ManagerM α) : LogM α := zoom Prod.fst (fun rpm s => (rpm, s.2)) x

def logError (msg : String) : LogM Unit := modify fun s => (s.1, s.2 ++ [msg])

/-- `catch (const std::out_of_range&)`. What was done stays done. -/
def catchOutOfRange (x handler : LogM Unit) : LogM Unit := fun s =>
  match x s with
  | .ok a t => .ok a t
  | .error e t => if e.type = .outOfRange then handler t else .error e t

variable (opts : Options) (codec : GKeyFile) (osinfo : OS)

def unknownText (repos : String) : String :=
  s!"Trying to disable unknown repository {repos}, failed because the repository was not found."

def disable (repoid : String) : LogM Unit := do
  if opts.dryRun then return
  catchOutOfRange
    (do
      match ← liftExcept osinfo.getPackageType with
      | .RPM => onRPM (enable codec repoid false)
      | .DEB => throw ⟨.logicError, "Not implemented"⟩)
    (logError (unknownText repoid))

/-- The overload for a list. -/
def disableAll (order : WalkOrder) (repos : List String) : LogM Unit := do
  if opts.dryRun then return
  catchOutOfRange
    (do
      match ← liftExcept osinfo.getPackageType with
      | .RPM => onRPM (enableAll codec order repos false)
      | .DEB => throw ⟨.logicError, "Not implemented"⟩)
    (logError (unknownText (",".intercalate repos)))

/-! ### What is promised -/

/-- Both return or both throw, in the same state. -/
def SameOutcome {σ α : Type} (r r' : EStateM.Result Exn σ α) : Prop :=
  (outcome r).isOk = (outcome r').isOk ∧ finalState r = finalState r'

/-- The list is disabled as its identifiers are: it returns when they do, with something
logged when one is unknown, and a list of one is no different from its identifier. -/
structure DisablesAlike (order : WalkOrder) (repos : List String) (s : LogState) : Prop where
  returns : (∀ id ∈ repos, ∃ t, disable opts codec osinfo id s = .ok () t) →
    ∃ t, disableAll opts codec osinfo order repos s = .ok () t ∧
      ((∃ id ∈ repos, id ∉ s.1.1.filesIdx) → s.2.length < t.2.length)
  alike : ∀ id ∈ repos, SameOutcome (disable opts codec osinfo id s)
    (disableAll opts codec osinfo order [id] s)

variable {opts codec osinfo} {order : WalkOrder} {repos : List String} {s t : LogState}

/-! ### Through the handlers -/

theorem disable_apply (hdry : opts.dryRun = false) (hrpm : osinfo.getPackageType = .ok .RPM)
    (repoid : String) (s : LogState) : disable opts codec osinfo repoid s =
      catchOutOfRange (onRPM (enable codec repoid false)) (logError (unknownText repoid)) s := by
  rw [disable, if_neg (by simp [hdry]), hrpm]
  rfl

theorem disableAll_apply (hdry : opts.dryRun = false) (hrpm : osinfo.getPackageType = .ok .RPM)
    (order : WalkOrder) (repos : List String) (s : LogState) :
    disableAll opts codec osinfo order repos s =
      catchOutOfRange (onRPM (enableAll codec order repos false))
        (logError (unknownText (",".intercalate repos))) s := by
  rw [disableAll, if_neg (by simp [hdry]), hrpm]
  rfl

/-! ### What is thrown -/

/-- What a save throws is not what the handlers catch. -/
theorem save_error_type {fs t : FS} {file : RPMRepositoryFile} {e : Exn}
    (h : file.save codec fs = .error e t) : e.type ≠ .outOfRange := by
  rw [RPMRepositoryFile.save, unparse, bind_apply] at h
  cases hopen : KeyFile.open codec file.path fs with
  | error e' t' =>
    rw [hopen] at h
    obtain ⟨rfl, rfl⟩ := EStateM.Result.error.inj h
    rw [KeyFile.open, bind_of_ok (get_apply fs)] at hopen
    split_ifs at hopen
    · rw [KeyFile.load, bind_of_ok (get_apply fs)] at hopen
      cases hcontent : fs.content? file.path with
      | none =>
        simp only [hcontent] at hopen
        obtain ⟨rfl, -⟩ := EStateM.Result.error.inj hopen
        simp
      | some text =>
        cases hload : codec.load text with
        | none =>
          simp only [hcontent, hload] at hopen
          obtain ⟨rfl, -⟩ := EStateM.Result.error.inj hopen
          simp
        | some key =>
          simp only [hcontent, hload] at hopen
          exact absurd hopen (by simp)
    · exact absurd hopen (by simp)
  | ok key s =>
    rw [hopen] at h
    dsimp only at h
    rw [KeyFile.save, bind_of_ok (get_apply s)] at h
    cases hwrite : s.write file.path (codec.toData (unparseRepos key file.repos)) with
    | ok fs' =>
      simp only [hwrite] at h
      exact absurd h (by simp)
    | error code =>
      simp only [hwrite] at h
      obtain ⟨rfl, -⟩ := EStateM.Result.error.inj h
      simp [Exn.filesystem]

/-! ### One by one and as a list -/

theorem onRPM_ok {x : ManagerM Unit} {rpm : RPMRepoManager × FS} (h : x s.1 = .ok () rpm) :
    onRPM x s = .ok () (rpm, s.2) := by
  rw [onRPM, zoom, h]

theorem onRPM_error {x : ManagerM Unit} {e : Exn} {rpm : RPMRepoManager × FS}
    (h : x s.1 = .error e rpm) : onRPM x s = .error e (rpm, s.2) := by
  rw [onRPM, zoom, h]

theorem disable_unknown (hdry : opts.dryRun = false) (hrpm : osinfo.getPackageType = .ok .RPM)
    {repoid : String} (hunknown : s.1.1.filesIdx[repoid]? = none) :
    disable opts codec osinfo repoid s = .ok () (s.1, s.2 ++ [unknownText repoid]) := by
  rw [disable_apply hdry hrpm, catchOutOfRange, onRPM_error (enable_unknown hunknown false)]
  rfl

/-- The batch has turned the exception into one that is not caught. -/
theorem disableAll_unknown (hdry : opts.dryRun = false)
    (hrpm : osinfo.getPackageType = .ok .RPM) (hs : Sound s.1.1)
    (hunknown : ∃ id ∈ repos, id ∉ s.1.1.filesIdx) (order : WalkOrder) :
    ∃ e t, disableAll opts codec osinfo order repos s = .error e t := by
  obtain ⟨repo, -, -, rpm, hrun, -⟩ := enableAll_unknown hs hunknown order false
  refine ⟨unknownRepository repo, (rpm, s.2), ?_⟩
  rw [disableAll_apply hdry hrpm, catchOutOfRange, onRPM_error hrun]
  exact if_neg (by simp [unknownRepository, Exn.runtimeError])

/-- For an identifier that is there, a list of one is no different. -/
theorem disableAll_singleton (hdry : opts.dryRun = false)
    (hrpm : osinfo.getPackageType = .ok .RPM) (hs : Sound s.1.1) {repoid : String} {ref : ℕ}
    (hidx : s.1.1.filesIdx[repoid]? = some ref) (order : WalkOrder) :
    disableAll opts codec osinfo order [repoid] s = disable opts codec osinfo repoid s := by
  obtain ⟨rpm, -, -, hsingle, hbatch⟩ := enable_apply codec hs hidx false
  have hsame : onRPM (enableAll codec order [repoid] false) s =
      onRPM (enable codec repoid false) s := by
    rw [onRPM, onRPM, zoom, zoom, hbatch, hsingle]
  rw [disableAll_apply hdry hrpm, disable_apply hdry hrpm, catchOutOfRange, catchOutOfRange,
    hsame, String.intercalate_singleton]

/-- Disabling a repository that is there returns only if its file can be saved. -/
theorem savable_of_disable (hdry : opts.dryRun = false)
    (hrpm : osinfo.getPackageType = .ok .RPM) (hs : Sound s.1.1) {repoid : String} {ref : ℕ}
    (hidx : s.1.1.filesIdx[repoid]? = some ref)
    (hrun : disable opts codec osinfo repoid s = .ok () t) :
    ∃ file, s.1.1.files[ref]? = some file ∧ Savable codec s.1.2 file.path := by
  obtain ⟨rpm, hfs, henabled, hsingle, -⟩ := enable_apply codec hs hidx false
  obtain ⟨file, hfile, -⟩ := hs.present repoid ref hidx
  obtain ⟨file', hfile', hpath, -⟩ := henabled.files ref file hfile
  have hsave : saveFile codec ref rpm = onFs (file'.save codec) rpm := by
    rw [saveFile, bind_of_ok (get_apply rpm)]
    simp only [hfile']
  refine ⟨file, hfile, ?_⟩
  rw [← hpath, ← save_returns_iff, ← hfs]
  rw [disable_apply hdry hrpm, catchOutOfRange] at hrun
  cases hfile'' : file'.save codec rpm.2 with
  | ok u fs' => exact ⟨fs', rfl⟩
  | error e fs' =>
    have herror : enable codec repoid false s.1 = .error e (rpm.1, fs') := by
      rw [hsingle, hsave, onFs, hfile'']
    rw [onRPM_error herror] at hrun
    dsimp only at hrun
    rw [if_neg (save_error_type hfile'')] at hrun
    exact absurd hrun (by simp)

theorem disableAll_returns (hdry : opts.dryRun = false)
    (hrpm : osinfo.getPackageType = .ok .RPM) (hs : Sound s.1.1)
    (hall : ∀ id ∈ repos, id ∈ s.1.1.filesIdx)
    (hreturns : ∀ id ∈ repos, ∃ t, disable opts codec osinfo id s = .ok () t)
    (order : WalkOrder) : ∃ t, disableAll opts codec osinfo order repos s = .ok () t := by
  obtain ⟨rpm, hrun⟩ : ∃ rpm, enableAll codec order repos false s.1 = .ok () rpm := by
    refine enableAll_returns hs (fun id hid => ?_) order false
    obtain ⟨ref, hidx⟩ := exists_getElem? (hall id hid)
    obtain ⟨t, hdisable⟩ := hreturns id hid
    obtain ⟨file, hfile, hsavable⟩ := savable_of_disable hdry hrpm hs hidx hdisable
    exact ⟨ref, file, hidx, hfile, hsavable⟩
  refine ⟨(rpm, s.2), ?_⟩
  rw [disableAll_apply hdry hrpm, catchOutOfRange, onRPM_ok hrun]

/-- In every state that calls and other programs lead to, a list is disabled as its
identifiers are exactly when all of them are loaded. -/
theorem disablesAlike_iff {events : List Event} {fs : FS} {rpm : RPMRepoManager × FS}
    (h : afterEvents opts codec events ({}, fs) = rpm) (hdry : opts.dryRun = false)
    (hrpm : osinfo.getPackageType = .ok .RPM) (order : WalkOrder) (repos log : List String) :
    DisablesAlike opts codec osinfo order repos (rpm, log) ↔
      ∀ id ∈ repos, id ∈ rpm.1.filesIdx := by
  have hs : Sound rpm.1 := h ▸ sound_afterEvents events sound_empty
  constructor
  · intro halike id hid
    by_contra hnot
    have hnone : rpm.1.filesIdx[id]? = none := Std.TreeMap.getElem?_eq_none hnot
    have hsame := (halike.alike id hid).1
    obtain ⟨e, t, hlist⟩ : ∃ e t, disableAll opts codec osinfo order [id] (rpm, log) =
        .error e t :=
      disableAll_unknown hdry hrpm hs ⟨id, List.mem_singleton_self id, hnot⟩ order
    rw [disable_unknown hdry hrpm hnone, hlist] at hsame
    exact absurd hsame (by simp [outcome, Except.isOk, Except.toBool])
  · intro hall
    constructor
    · intro hreturns
      obtain ⟨t, ht⟩ := disableAll_returns hdry hrpm hs hall hreturns order
      refine ⟨t, ht, ?_⟩
      rintro ⟨id, hid, hnot⟩
      exact absurd (hall id hid) hnot
    · intro id hid
      obtain ⟨ref, hidx⟩ := exists_getElem? (hall id hid)
      rw [disableAll_singleton hdry hrpm hs hidx order]
      exact ⟨rfl, rfl⟩

def rocky : OS := { distro := some .Rocky }

theorem disablesAlike_iff_three :
    DisablesAlike {} GKeyFile.text rocky .insertion ["a", "c"] (threeLoaded, []) ↔
      ∀ id ∈ ["a", "c"], id ∈ threeLoaded.1.filesIdx := by
  have hrun : afterEvents {} GKeyFile.text ([Call.loadDir basedir].map .request)
      ({}, threeRepos) = threeLoaded := by
    rw [threeLoaded]
  exact disablesAlike_iff hrun rfl rfl .insertion ["a", "c"] []

/-- An unknown identifier: logged on its own, thrown from a list. -/
theorem not_disablesAlike :
    (∃ t, disable {} GKeyFile.text rocky "x" (threeLoaded, []) = .ok () t) ∧
    (∃ e t, disableAll {} GKeyFile.text rocky .insertion ["x"] (threeLoaded, []) = .error e t) ∧
    ¬ DisablesAlike {} GKeyFile.text rocky .insertion ["x"] (threeLoaded, []) := by
  have hnone : threeLoaded.1.filesIdx["x"]? = none := Std.TreeMap.getElem?_eq_none x_unknown
  have hone : disable {} GKeyFile.text rocky "x" (threeLoaded, []) =
      .ok () (threeLoaded, [] ++ [unknownText "x"]) := disable_unknown rfl rfl hnone
  have hsound : Sound threeLoaded.1 := by
    rw [threeLoaded]
    exact sound_afterEvents _ sound_empty
  obtain ⟨e, t, hlist⟩ : ∃ e t, disableAll {} GKeyFile.text rocky .insertion ["x"]
      (threeLoaded, []) = .error e t :=
    disableAll_unknown rfl rfl hsound ⟨"x", List.mem_singleton_self _, x_unknown⟩ .insertion
  refine ⟨⟨_, hone⟩, ⟨e, t, hlist⟩, fun h => ?_⟩
  have hsame := (h.alike "x" (List.mem_singleton_self _)).1
  rw [hone, hlist] at hsame
  exact absurd hsame (by simp [outcome, Except.isOk, Except.toBool])

end RepoManager

end Cloyster
