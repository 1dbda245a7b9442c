import Cloyster.Models.DumpData
import Cloyster.Services.Init
import Cloyster.Services.Options
import Cloyster.Services.Timezone

/-! A run of the program and what is done with the model of the cluster before the singletons
that depend on it are initialised: it is made, filled from an answer file, printed and dumped.
The functions are those of the models, with the singletons they get on the way. -/

namespace Cloyster.Main

open Lib Lib.Registry Models MainM Services

/-- A debug build has a test command among its options. -/
structure MainOptions extends AllOptions where
  testCommand : String := ""

/-- What a run of the program is given: how it was built, its options, what the machine answers
and what the operator enters. -/
structure Session where
  debug : Bool := false
  opts : MainOptions := {}
  boost : Boost
  codec : GKeyFile
  host : Host := {}
  fs : FS
  /-- The file that a name stands for. -/
  path : String → Lib.Path
  /-- The connection to the system bus. -/
  bus : Except Exn Unit := .ok ()
  log : Except Exn Unit := .ok ()
  euid : ℕ := 0
  /-- What `timedatectl list-timezones --no-pager` prints. -/
  timedatectl : Except Exn (List String)
  stdin : List Char := []
  general : List (Newt.FieldPress 3) := []
  bootTarget : List Newt.ListPress := []
  areas : List Newt.ListPress := []
  locations : List Newt.ListPress := []
  servers : List Newt.Press := []
  /-- What the dialogs would get from the locales on. -/
  later : List Singleton := []
  /-- What the test command gets, and what it answers. -/
  testGets : List Singleton := []
  testResult : ℕ := 0

variable (s : Session)

/-! ### The model -/

def fetchAvailableTimezones : MainM Timezone := do
  Singleton.get .Options
  if s.opts.dryRun then return Timezone.construct s.opts.toOptions []
  Singleton.get .IRunner
  -- the runner looks at the options again
  Singleton.get .Options
  let output ← plain s.timedatectl
  return Timezone.construct s.opts.toOptions output

/-- The headnode is made before the time zone. -/
def construct : MainM (Cluster × Timezone) := do
  Singleton.get .Options
  let cluster ← plain (Cluster.construct s.host)
  let timezone ← fetchAvailableTimezones s
  return (cluster, timezone)

/-- The options are got once the disk image is there. -/
def loadOptions (file : KeyFile) : MainM AnswerFile := do
  let af ← plain (do
    let af ← AnswerFile.loadExternalNetwork s.boost file {}
    let af ← AnswerFile.loadManagementNetwork s.boost file af
    let af ← AnswerFile.loadApplicationNetwork s.boost file af
    let af ← AnswerFile.loadInformation file af
    let af ← AnswerFile.loadTimeSettings file af
    AnswerFile.loadHostnameSettings file af)
  let _ ← plain (file.getString "system" "disk_image")
  Singleton.get .Options
  plain (do
    let af ← AnswerFile.loadSystemSettings s.opts.toOptions file af
    let af ← AnswerFile.loadNodes s.boost file af
    let af ← AnswerFile.loadPostfix file af
    AnswerFile.loadOFED file af)

def openAnswerFile (name : String) : MainM (KeyFile × AnswerFile) := do
  let _ ← plain (runOn (KeyFile.open s.codec (s.path name)) s.fs)
  let (file, _) ← plain (runOn (KeyFile.load s.codec (s.path name)) s.fs)
  let af ← loadOptions s file
  return (file, af)

def hasVerifiedChecksum (path : String) : MainM Bool := do
  Singleton.get .Options
  plain (DiskImage.hasVerifiedChecksum s.opts.toOptions s.host path)

/-- A debug build takes a known image as it is. -/
def setPath (path : String) (image : DiskImage) : MainM DiskImage := do
  plain (throwIf (Text.extension (Text.filename path) ≠ ".iso")
    (.runtimeError "Disk Image must have ISO extension"))
  let (known, image) ← plain (runOn (DiskImage.isKnownImage path) image)
  let verified ← (if known ∧ !s.debug then hasVerifiedChecksum s path else pure true)
  plain (throwIf (!verified) (.runtimeError "Disk Image checksum isn't valid"))
  return { image with path }

def setDiskImage (diskImagePath : String) (cluster : Cluster) : MainM Cluster := do
  plain (throwIf (!s.host.pathExists diskImagePath)
    (.runtimeError s!"Disk image path {diskImagePath} doesn't exist"))
  let diskImage ← setPath s diskImagePath cluster.diskImage
  return { cluster with diskImage }

/-- The options are got by the constructor of the node's system. The message with its name is
logged by a debug build only. -/
def fillNode (os : OS) (cluster : Cluster) (node : AFNode) : MainM Cluster := do
  let _ ← plain (if s.debug then optionValue node.hostname else .ok "")
  let (management, _) ← plain (runOn (Cluster.getNetwork .Management) cluster)
  let _ ← plain (Connection.construct management.2 management.1.type)
  Singleton.get .Options
  plain (exec (Cluster.fillNode s.host os node) cluster)

def fill (af : AnswerFile) (cluster : Cluster) : MainM Cluster := do
  let management ← plain (Cluster.managementNetwork s.boost s.host af.management)
  let external ← plain (Cluster.externalNetwork s.boost s.host af.external)
  let cluster ← setDiskImage s af.system.disk_image cluster
  -- `OS nodeOS`
  Singleton.get .Options
  let os ← plain (Cluster.nodeOS s.host af.system)
  let cluster ← plain (exec (do
    Cluster.setInformation af
    Cluster.setIdentity af.hostname
    Cluster.fillOFED s.opts.toOptions af.ofed
    Cluster.setQueueSystem
    Cluster.connectManagement s.host af.management management
    Cluster.connectExternal s.host af.external external
    Cluster.connectService s.boost s.host af.service af.application
    Cluster.connectApplication s.boost s.host af.application
    Cluster.setOS os) cluster)
  let cluster ← af.nodes.nodes.foldlM (fillNode s os) cluster
  plain (exec (do
    Cluster.fillMailSystem af.postfixSettings
    Cluster.setGeneric af.nodes) cluster)

def fillData (cluster : Cluster) : MainM Cluster := do
  Singleton.get .Options
  let (_, af) ← openAnswerFile s s.opts.answerfile
  fill s af cluster

/-- Of all that is printed only the distribution may be missing. -/
def printData (cluster : Cluster) : MainM Unit := do
  let _ ← plain cluster.headnode.os.getDistro

def dumpData (cluster : Cluster) : MainM Unit := do
  let (file, af) ← openAnswerFile s s.opts.dumpAnswerfile
  let _ ← plain (runOn (Cluster.dumpFile s.boost s.codec (s.path s.opts.dumpAnswerfile) file
    (Cluster.describe cluster af)) s.fs)

/-- What the time zone of the cluster is made of. -/
def timezones : Except Exn Timezone :=
  if s.opts.dryRun then .ok (Timezone.construct s.opts.toOptions [])
  else Timezone.construct s.opts.toOptions <$> s.timedatectl

variable {s}

/-! ### What is got -/

/-- Nothing is got but what depends on the options alone. -/
abbrev GetsFirst {α : Type} (x : MainM α) : Prop := Orderly Singleton.first x Singleton.first

theorem getsFirst_bind {α β : Type} {x : MainM α} {f : α → MainM β} (hx : GetsFirst x)
    (hf : ∀ a, GetsFirst (f a)) : GetsFirst (x >>= f) :=
  orderly_bind hx fun a _ _ _ => hf a

theorem getsFirst_options : GetsFirst (Singleton.get .Options) :=
  orderly_get Singleton.options_mem_first

theorem getsFirst_ite {α : Type} {p : Prop} [Decidable p] {x y : MainM α} (hx : GetsFirst x)
    (hy : GetsFirst y) : GetsFirst (if p then x else y) :=
  orderly_ite (fun _ => hx) fun _ => hy

theorem getsFirst_fetchAvailableTimezones : GetsFirst (fetchAvailableTimezones s) := by
  refine getsFirst_bind getsFirst_options fun _ => ?_
  refine getsFirst_ite (orderly_pure _) ?_
  refine getsFirst_bind (orderly_get Singleton.runner_mem_first) fun _ => ?_
  refine getsFirst_bind getsFirst_options fun _ => ?_
  exact getsFirst_bind (orderly_plain _) fun _ => orderly_pure _

theorem getsFirst_construct : GetsFirst (construct s) := by
  refine getsFirst_bind getsFirst_options fun _ => ?_
  refine getsFirst_bind (orderly_plain _) fun _ => ?_
  exact getsFirst_bind getsFirst_fetchAvailableTimezones fun _ => orderly_pure _

theorem getsFirst_loadOptions (file : KeyFile) : GetsFirst (loadOptions s file) := by
  refine getsFirst_bind (orderly_plain _) fun _ => ?_
  refine getsFirst_bind (orderly_plain _) fun _ => ?_
  exact getsFirst_bind getsFirst_options fun _ => orderly_plain _

theorem getsFirst_openAnswerFile (name : String) : GetsFirst (openAnswerFile s name) := by
  refine getsFirst_bind (orderly_plain _) fun _ => ?_
  refine getsFirst_bind (orderly_plain _) fun _ => ?_
  exact getsFirst_bind (getsFirst_loadOptions _) fun _ => orderly_pure _

theorem getsFirst_setDiskImage (path : String) (cluster : Cluster) :
    GetsFirst (setDiskImage s path cluster) := by
  have hverified : GetsFirst (hasVerifiedChecksum s path) :=
    getsFirst_bind getsFirst_options fun _ => orderly_plain _
  have hpath : GetsFirst (setPath s path cluster.diskImage) := by
    refine getsFirst_bind (orderly_plain _) fun _ => ?_
    refine getsFirst_bind (orderly_plain _) fun _ => ?_
    refine getsFirst_bind (getsFirst_ite hverified (orderly_pure _)) fun _ => ?_
    exact getsFirst_bind (orderly_plain _) fun _ => orderly_pure _
  refine getsFirst_bind (orderly_plain _) fun _ => ?_
  exact getsFirst_bind hpath fun _ => orderly_pure _

theorem getsFirst_fillNode (os : OS) (cluster : Cluster) (node : AFNode) :
    GetsFirst (fillNode s os cluster node) := by
  refine getsFirst_bind (orderly_plain _) fun _ => ?_
  refine getsFirst_bind (orderly_plain _) fun _ => ?_
  refine getsFirst_bind (orderly_plain _) fun _ => ?_
  exact getsFirst_bind getsFirst_options fun _ => orderly_plain _

theorem getsFirst_fill (af : AnswerFile) (cluster : Cluster) : GetsFirst (fill s af cluster) := by
  refine getsFirst_bind (orderly_plain _) fun _ => ?_
  refine getsFirst_bind (orderly_plain _) fun _ => ?_
  refine getsFirst_bind (getsFirst_setDiskImage _ _) fun _ => ?_
  refine getsFirst_bind getsFirst_options fun _ => ?_
  refine getsFirst_bind (orderly_plain _) fun os => ?_
  refine getsFirst_bind (orderly_plain _) fun cluster => ?_
  refine getsFirst_bind ?_ fun _ => orderly_plain _
  exact orderly_foldlM (fun cluster node _ => getsFirst_fillNode os cluster node) cluster

theorem getsFirst_fillData (cluster : Cluster) : GetsFirst (fillData s cluster) := by
  refine getsFirst_bind getsFirst_options fun _ => ?_
  exact getsFirst_bind (getsFirst_openAnswerFile _) fun _ => getsFirst_fill _ _

theorem getsFirst_printData (cluster : Cluster) : GetsFirst (printData cluster) :=
  getsFirst_bind (orderly_plain _) fun _ => orderly_pure _

theorem getsFirst_dumpData (cluster : Cluster) : GetsFirst (dumpData s cluster) := by
  refine getsFirst_bind (getsFirst_openAnswerFile _) fun _ => ?_
  exact getsFirst_bind (orderly_plain _) fun _ => orderly_pure _

/-! ### The model as it is made -/

theorem fetchAvailableTimezones_ok {timezone : Timezone} {t t' : Trace Singleton}
    (h : fetchAvailableTimezones s t = .ok timezone t') : timezones s = .ok timezone := by
  obtain ⟨_, t₁, -, h⟩ := bind_ok_iff.mp h
  unfold timezones
  split_ifs at h ⊢ with hdry
  · rw [(EStateM.Result.ok.inj h).1]
  · obtain ⟨_, t₂, -, h⟩ := bind_ok_iff.mp h
    obtain ⟨_, t₃, -, h⟩ := bind_ok_iff.mp h
    obtain ⟨output, t₄, houtput, h⟩ := bind_ok_iff.mp h
    rw [plain_ok houtput, ← (EStateM.Result.ok.inj h).1]
    rfl

theorem completes_fetchAvailableTimezones {timezone : Timezone}
    (h : timezones s = .ok timezone) :
    Completes Singleton.first (fetchAvailableTimezones s) timezone Singleton.first := by
  refine completes_bind (completes_get Singleton.options_mem_first) ?_
  unfold timezones at h
  split_ifs at h ⊢ with hdry
  · rw [Except.ok.inj h]
    exact completes_pure _
  · obtain ⟨output, houtput, rfl⟩ := except_map_ok_iff.mp h
    refine completes_bind (completes_get Singleton.runner_mem_first) ?_
    refine completes_bind (completes_get Singleton.options_mem_first) ?_
    exact completes_bind (completes_plain houtput) (completes_pure _)

theorem construct_ok {made : Cluster × Timezone} {t t' : Trace Singleton}
    (h : construct s t = .ok made t') :
    Cluster.construct s.host = .ok made.1 ∧ timezones s = .ok made.2 := by
  obtain ⟨_, t₁, -, h⟩ := bind_ok_iff.mp h
  obtain ⟨cluster, t₂, hcluster, h⟩ := bind_ok_iff.mp h
  obtain ⟨timezone, t₃, htimezone, h⟩ := bind_ok_iff.mp h
  rw [← (EStateM.Result.ok.inj h).1]
  exact ⟨plain_ok hcluster, fetchAvailableTimezones_ok htimezone⟩

theorem completes_construct {cluster : Cluster} {timezone : Timezone}
    (hcluster : Cluster.construct s.host = .ok cluster) (htimezone : timezones s = .ok timezone) :
    Completes Singleton.first (construct s) (cluster, timezone) Singleton.first := by
  refine completes_bind (completes_get Singleton.options_mem_first) ?_
  refine completes_bind (completes_plain hcluster) ?_
  exact completes_bind (completes_fetchAvailableTimezones htimezone) (completes_pure _)

theorem printData_ok {cluster : Cluster} {u : Unit} {t t' : Trace Singleton}
    (h : printData cluster t = .ok u t') : cluster.headnode.os.distro.isSome := by
  obtain ⟨distro, _, hdistro, -⟩ := bind_ok_iff.mp h
  rw [OS.getDistro_ok_iff.mp (plain_ok hdistro)]
  rfl

theorem completes_printData {cluster : Cluster} (h : cluster.headnode.os.distro.isSome) :
    Completes Singleton.first (printData cluster) () Singleton.first := by
  obtain ⟨distro, hdistro⟩ := Option.isSome_iff_exists.mp h
  exact completes_bind (completes_plain (OS.getDistro_ok_iff.mpr hdistro)) (completes_pure _)

/-! ### What the model comes to -/

/-- With the first singletons initialised, the program comes to the same as this code, which gets
none. -/
def ComesTo {α : Type} (x : MainM α) (y : Except Exn α) : Prop :=
  Yields Singleton.first x (y.mapError .uncaught)

section

variable {α β : Type} {x : MainM α} {y : Except Exn α} {f : α → MainM β} {g : α → Except Exn β}

theorem comesTo_bind (hx : ComesTo x y) (hf : ∀ a, ComesTo (f a) (g a)) :
    ComesTo (x >>= f) (y >>= g) := by
  have hbind := yields_bind hx hf
  cases y with
  | ok a => exact hbind
  | error e => exact hbind

theorem comesTo_plain (y : Except Exn α) : ComesTo (plain y) y := yields_aside _

theorem comesTo_pure (a : α) : ComesTo (pure a : MainM α) (pure a) := yields_aside (.ok a)

theorem comesTo_options : ComesTo (Singleton.get .Options) (.ok ()) :=
  yields_read _ Singleton.options_mem_first

theorem comesTo_foldlM {l : List β} {f : α → β → MainM α} {g : α → β → Except Exn α}
    (h : ∀ a b, ComesTo (f a b) (g a b)) (a : α) : ComesTo (l.foldlM f a) (l.foldlM g a) := by
  induction l generalizing a with
  | nil => exact comesTo_pure a
  | cons b l ih =>
    rw [List.foldlM_cons, List.foldlM_cons]
    exact comesTo_bind (h a b) ih

end

theorem comesTo_loadOptions (file : KeyFile) :
    ComesTo (loadOptions s file) (AnswerFile.loadOptions s.boost s.opts.toOptions file {}) := by
  have h : AnswerFile.loadOptions s.boost s.opts.toOptions file {} = (do
      let af ← (do
        let af ← AnswerFile.loadExternalNetwork s.boost file {}
        let af ← AnswerFile.loadManagementNetwork s.boost file af
        let af ← AnswerFile.loadApplicationNetwork s.boost file af
        let af ← AnswerFile.loadInformation file af
        let af ← AnswerFile.loadTimeSettings file af
        AnswerFile.loadHostnameSettings file af)
      let _ ← file.getString "system" "disk_image"
      Except.ok ()
      let af ← AnswerFile.loadSystemSettings s.opts.toOptions file af
      let af ← AnswerFile.loadNodes s.boost file af
      let af ← AnswerFile.loadPostfix file af
      AnswerFile.loadOFED file af) := by
    simp only [AnswerFile.loadOptions, AnswerFile.loadSystemSettings, bind_assoc, except_ok_bind,
      except_bind_bind_self]
  rw [h]
  refine comesTo_bind (comesTo_plain _) fun af => ?_
  refine comesTo_bind (comesTo_plain _) fun _ => ?_
  exact comesTo_bind comesTo_options fun _ => comesTo_plain _

theorem comesTo_hasVerifiedChecksum (path : String) : ComesTo (hasVerifiedChecksum s path)
    (DiskImage.hasVerifiedChecksum s.opts.toOptions s.host path) :=
  comesTo_bind comesTo_options fun _ => comesTo_plain _

/-- A release build verifies the images it knows. -/
theorem comesTo_setPath (hrelease : s.debug = false) (path : String) (image : DiskImage) :
    ComesTo (setPath s path image)
      (exec (DiskImage.setPath s.opts.toOptions s.host path) image) := by
  have h : exec (DiskImage.setPath s.opts.toOptions s.host path) image = (do
      throwIf (Text.extension (Text.filename path) ≠ ".iso")
        (.runtimeError "Disk Image must have ISO extension")
      let (known, image) ← runOn (DiskImage.isKnownImage path) image
      let verified ← (if known then
        DiskImage.hasVerifiedChecksum s.opts.toOptions s.host path else .ok true)
      throwIf (!verified) (.runtimeError "Disk Image checksum isn't valid")
      return { image with path }) := by
    simp only [DiskImage.setPath, exec_bind, runOn_refuseIf, bind_map_left]
    refine bind_congr fun _ => bind_congr fun r => ?_
    obtain ⟨known, image⟩ := r
    cases known with
    | false => rfl
    | true =>
      simp only [if_true, exec_bind, runOn_liftExcept, runOn_refuseIf, bind_map_left]
      rfl
  rw [h]
  refine comesTo_bind (comesTo_plain _) fun _ => ?_
  refine comesTo_bind (comesTo_plain _) fun r => ?_
  refine comesTo_bind ?_ fun verified => ?_
  · rw [hrelease]
    cases r.1 with
    | false => exact comesTo_pure true
    | true => exact comesTo_hasVerifiedChecksum path
  · exact comesTo_bind (comesTo_plain _) fun _ => comesTo_pure _

theorem comesTo_setDiskImage (hrelease : s.debug = false) (path : String) (cluster : Cluster) :
    ComesTo (setDiskImage s path cluster)
      (exec (Cluster.setDiskImage s.opts.toOptions s.host path) cluster) := by
  have h : exec (Cluster.setDiskImage s.opts.toOptions s.host path) cluster = (do
      throwIf (!s.host.pathExists path) (.runtimeError s!"Disk image path {path} doesn't exist")
      let diskImage ← exec (DiskImage.setPath s.opts.toOptions s.host path) cluster.diskImage
      return { cluster with diskImage }) := by
    simp only [Cluster.setDiskImage, exec_bind, runOn_refuseIf, bind_map_left]
    refine bind_congr fun _ => ?_
    unfold exec zoom
    cases DiskImage.setPath s.opts.toOptions s.host path cluster.diskImage <;> rfl
  rw [h]
  refine comesTo_bind (comesTo_plain _) fun _ => ?_
  exact comesTo_bind (comesTo_setPath hrelease path _) fun _ => comesTo_pure _

theorem comesTo_fillNode (hrelease : s.debug = false) (os : OS) (cluster : Cluster)
    (node : AFNode) : ComesTo (fillNode s os cluster node)
      (exec (Cluster.fillNode s.host os node) cluster) := by
  have h : exec (Cluster.fillNode s.host os node) cluster = (do
      let _ ← (if s.debug then optionValue node.hostname else .ok "")
      let (management, _) ← runOn (Cluster.getNetwork .Management) cluster
      let _ ← Connection.construct management.2 management.1.type
      Except.ok ()
      exec (Cluster.fillNode s.host os node) cluster) := by
    rw [hrelease]
    simp only [Cluster.fillNode, exec_bind, runOn_liftExcept, bind_map_left, Bool.false_eq_true,
      if_false, except_ok_bind]
    cases runOn (Cluster.getNetwork .Management) cluster with
    | error e => rfl
    | ok r => simp only [except_ok_bind, Cluster.makeNode, bind_assoc, except_bind_bind_self]
  rw [h]
  refine comesTo_bind (comesTo_plain _) fun _ => ?_
  refine comesTo_bind (comesTo_plain _) fun _ => ?_
  refine comesTo_bind (comesTo_plain _) fun _ => ?_
  exact comesTo_bind comesTo_options fun _ => comesTo_plain _

theorem comesTo_fill (hrelease : s.debug = false) (af : AnswerFile) (cluster : Cluster) :
    ComesTo (fill s af cluster)
      (exec (Cluster.fill s.boost s.opts.toOptions s.host af) cluster) := by
  have h : exec (Cluster.fill s.boost s.opts.toOptions s.host af) cluster = (do
      let management ← Cluster.managementNetwork s.boost s.host af.management
      let external ← Cluster.externalNetwork s.boost s.host af.external
      let cluster ← exec (Cluster.setDiskImage s.opts.toOptions s.host af.system.disk_image) cluster
      Except.ok ()
      let os ← Cluster.nodeOS s.host af.system
      let cluster ← exec (do
        Cluster.setInformation af
        Cluster.setIdentity af.hostname
        Cluster.fillOFED s.opts.toOptions af.ofed
        Cluster.setQueueSystem
        Cluster.connectManagement s.host af.management management
        Cluster.connectExternal s.host af.external external
        Cluster.connectService s.boost s.host af.service af.application
        Cluster.connectApplication s.boost s.host af.application
        Cluster.setOS os) cluster
      let cluster ← af.nodes.nodes.foldlM
        (fun cluster node => exec (Cluster.fillNode s.host os node) cluster) cluster
      exec (do
        Cluster.fillMailSystem af.postfixSettings
        Cluster.setGeneric af.nodes) cluster) := by
    simp only [Cluster.fill, exec_bind, runOn_liftExcept, runOn_eq_exec, exec_forM, bind_map_left,
      bind_assoc, except_ok_bind]
  rw [h]
  refine comesTo_bind (comesTo_plain _) fun management => ?_
  refine comesTo_bind (comesTo_plain _) fun external => ?_
  refine comesTo_bind (comesTo_setDiskImage hrelease _ _) fun cluster => ?_
  refine comesTo_bind comesTo_options fun _ => ?_
  refine comesTo_bind (comesTo_plain _) fun os => ?_
  refine comesTo_bind (comesTo_plain _) fun cluster => ?_
  refine comesTo_bind ?_ fun cluster => comesTo_plain _
  exact comesTo_foldlM (fun cluster node => comesTo_fillNode hrelease os cluster node) cluster

/-- In a release build the answer file fills the cluster as it does without singletons. -/
theorem comesTo_fillData (hrelease : s.debug = false) {file opened : KeyFile} {fs fs' : FS}
    (hopen : KeyFile.open s.codec (s.path s.opts.answerfile) s.fs = .ok opened fs)
    (hload : KeyFile.load s.codec (s.path s.opts.answerfile) s.fs = .ok file fs')
    (cluster : Cluster) : ComesTo (fillData s cluster)
      (exec (Cluster.fillData s.boost s.opts.toOptions s.host file) cluster) := by
  have hopened : runOn (KeyFile.open s.codec (s.path s.opts.answerfile)) s.fs =
      .ok (opened, fs) := by rw [runOn, hopen]
  have hloaded : runOn (KeyFile.load s.codec (s.path s.opts.answerfile)) s.fs =
      .ok (file, fs') := by rw [runOn, hload]
  have h : exec (Cluster.fillData s.boost s.opts.toOptions s.host file) cluster = (do
      Except.ok ()
      let (_, af) ← (do
        let _ ← runOn (KeyFile.open s.codec (s.path s.opts.answerfile)) s.fs
        let (file, _) ← runOn (KeyFile.load s.codec (s.path s.opts.answerfile)) s.fs
        let af ← AnswerFile.loadOptions s.boost s.opts.toOptions file {}
        return (file, af))
      exec (Cluster.fill s.boost s.opts.toOptions s.host af) cluster) := by
    simp only [hopened, hloaded, Cluster.fillData, exec_bind, runOn_liftExcept, bind_map_left,
      except_ok_bind, bind_assoc, pure_bind]
  rw [h]
  refine comesTo_bind comesTo_options fun _ => comesTo_bind ?_ fun r => comesTo_fill hrelease _ _
  refine comesTo_bind (comesTo_plain _) fun _ => comesTo_bind (comesTo_plain _) fun r => ?_
  exact comesTo_bind (comesTo_loadOptions _) fun _ => comesTo_pure _

end Cloyster.Main
