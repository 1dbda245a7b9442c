import Cloyster.Presenter.Time
import Cloyster.Session

/-! `main` up to the start of the execution engine. The dialogs run between the two functions
that initialise the singletons, and the one for the locale gets a singleton of the second. -/

namespace Cloyster.Main

open Lib Lib.Registry Models MainM Services

variable (s : Session)

/-! ### The dialogs -/

inductive BootTarget where
  | Text | Graphical
  deriving DecidableEq, Repr

instance : NamedEnum BootTarget where
  values := [.Text, .Graphical]
  name
    | .Text => "Text"
    | .Graphical => "Graphical"

/-- `enums::toStrings`. -/
def bootTargets : List String := (NamedEnum.values : List BootTarget).map NamedEnum.name

/-- `enums::ofStringOpt`. -/
def bootTarget? (name : String) : Option BootTarget :=
  (NamedEnum.values : List BootTarget).find? fun target => NamedEnum.name target = name

/-- The boot target of the headnode is set, and no more is done with it. -/
def presenterGeneralSettings (cluster : Cluster) : MainM Cluster := do
  let settings ← dialog (Newt.fieldMenu s.general)
  let name ← dialog (Newt.listMenu bootTargets s.bootTarget)
  let _ ← plain (optionValue (bootTarget? name))
  return { cluster with
    name := settings[0]
    companyName := settings[1]
    adminMail := settings[2] }

def stopOf : Option Newt.Left → Stop
  | some how => .left how
  | none => .waiting

def presenterTime (timezone : Timezone) : MainM Timezone :=
  aside ((exec (PresenterTime.presenterTime s.areas s.locations s.servers) timezone).mapError stopOf)

def presenterLocale : MainM Unit := do
  Singleton.get .IOSService
  s.later.forM Singleton.get

/-- The two messages before the general settings are left by any button. -/
def presenterInstall (cluster : Cluster) (timezone : Timezone) : MainM Cluster := do
  let cluster ← presenterGeneralSettings s cluster
  let _ ← presenterTime s timezone
  presenterLocale s
  return cluster

/-! ### The program -/

/-- Whether the operator goes on. Characters are read until one of them is an answer, and at the
end of the input the answer is no. -/
def goesOn : List Char → Bool
  | [] => false
  | response :: stdin =>
    if response.toUpper = 'Y' then true
    else if response.toUpper = 'N' then false
    else goesOn stdin

def checkEffectiveUserId : MainM Unit :=
  plain (throwIf (s.euid ≠ 0) (.runtimeError "This program must be run with root privileges"))

def runTestCommand : MainM ℕ := do
  Singleton.get .Cluster
  Singleton.get .IRunner
  Singleton.get .RepoManager
  s.testGets.forM Singleton.get
  return s.testResult

/-- `main` from the model on. The text interface is enabled without an answer file and without a
test command. -/
def install : MainM ℕ := do
  let (cluster, timezone) ← construct s
  let cluster ← (if s.opts.answerfile ≠ "" then fillData s cluster else pure cluster)
  (if s.debug then printData cluster else pure ())
  let cluster ← (if s.opts.answerfile = "" ∧ s.opts.testCommand = "" then
    presenterInstall s cluster timezone else pure cluster)
  (if s.opts.dumpAnswerfile ≠ "" then dumpData s cluster else pure ())
  initializeSingletonsModel cluster
  (if s.debug ∧ s.opts.testCommand ≠ "" then runTestCommand s else pure 0)

/-- What the program answers, or 0 where the execution engine starts. -/
def main : MainM ℕ := do
  initializeSingletonsOptions s.bus
  Singleton.get .Options
  if s.opts.parsingError then return 1
  if s.opts.showVersion then return 0
  if s.opts.helpAndExit then return 0
  plain s.log
  (if s.opts.testCommand = "" then checkEffectiveUserId s else pure ())
  -- a test command makes the run unattended
  let unattended := s.opts.unattended ∨ s.opts.testCommand ≠ ""
  if ¬ s.opts.dryRun ∧ ¬ unattended ∧ ¬ goesOn s.stdin then return 0
  if s.opts.enableCLI then return 1
  install s

/-- No singleton is got before it is initialised. -/
def RespectsInit : Prop := InOrder (finalState (main s []))

/-! ### Which runs get to the locale -/

/-- The dialogs before the one for the locale end with an answer. -/
structure DialogsEnd (timezone : Timezone) : Prop where
  general : ∃ settings, Newt.fieldMenu s.general = some (.ok settings)
  bootTarget : ∃ name, Newt.listMenu bootTargets s.bootTarget = some (.ok name)
  time : ∃ timezone',
    exec (PresenterTime.presenterTime s.areas s.locations s.servers) timezone = .ok timezone'

/-- The model is made, and printed by a debug build, and the dialogs end. -/
def ModelReachesLocale : Prop :=
  ∃ cluster timezone, Cluster.construct s.host = .ok cluster ∧ timezones s = .ok timezone ∧
    (s.debug → cluster.headnode.os.distro.isSome) ∧ DialogsEnd s timezone

/-- The text interface is started and the operator gets to the dialog for the locale. -/
structure ReachesLocale : Prop where
  bus : s.bus = .ok ()
  parsingError : s.opts.parsingError = false
  showVersion : s.opts.showVersion = false
  helpAndExit : s.opts.helpAndExit = false
  log : s.log = .ok ()
  testCommand : s.opts.testCommand = ""
  euid : s.euid = 0
  goesOn : s.opts.dryRun ∨ s.opts.unattended ∨ goesOn s.stdin
  enableCLI : s.opts.enableCLI = false
  answerfile : s.opts.answerfile = ""
  model : ModelReachesLocale s

variable {s}

/-! ### The dialogs -/

/-- Every name of the menu is that of a boot target. -/
theorem bootTarget?_of_mem : ∀ name ∈ bootTargets, (bootTarget? name).isSome := by decide

theorem presenterTime_ok {timezone timezone' : Timezone} {t t' : Trace Singleton}
    (h : presenterTime s timezone t = .ok timezone' t') :
    exec (PresenterTime.presenterTime s.areas s.locations s.servers) timezone = .ok timezone' := by
  obtain ⟨htime, -⟩ := aside_ok_iff.mp h
  cases hrun : exec (PresenterTime.presenterTime s.areas s.locations s.servers) timezone with
  | ok u =>
    rw [hrun] at htime
    exact congrArg Except.ok (Except.ok.inj htime)
  | error e =>
    rw [hrun] at htime
    exact absurd htime (by simp [Except.mapError])

theorem orderly_presenterInstall {timezone : Timezone} (cluster : Cluster)
    (h : ¬ DialogsEnd s timezone) : GetsFirst (presenterInstall s cluster timezone) := by
  refine orderly_bind (T := Singleton.first) ?_ fun cluster _ _ hgeneral => ?_
  · refine getsFirst_bind (orderly_aside _) fun settings => ?_
    refine getsFirst_bind (orderly_aside _) fun name => ?_
    exact getsFirst_bind (orderly_plain _) fun _ => orderly_pure _
  refine orderly_bind (orderly_aside _) fun timezone' _ _ htime => ?_
  obtain ⟨settings, _, hsettings, hrest⟩ := bind_ok_iff.mp hgeneral
  obtain ⟨name, _, hname, -⟩ := bind_ok_iff.mp hrest
  exact absurd ⟨⟨settings, dialog_ok hsettings⟩, ⟨name, dialog_ok hname⟩,
    ⟨timezone', presenterTime_ok htime⟩⟩ h

theorem tooEarly_presenterInstall {timezone : Timezone} (cluster : Cluster)
    (h : DialogsEnd s timezone) :
    TooEarly Singleton.first (presenterInstall s cluster timezone) := by
  obtain ⟨⟨settings, hsettings⟩, ⟨name, hname⟩, ⟨timezone', htime⟩⟩ := h
  obtain ⟨target, htarget⟩ :=
    Option.isSome_iff_exists.mp (bootTarget?_of_mem name (Newt.mem_of_listMenu hname))
  have hgeneral : Completes Singleton.first (presenterGeneralSettings s cluster)
      { cluster with
        name := settings[0]
        companyName := settings[1]
        adminMail := settings[2] } Singleton.first := by
    refine completes_bind (completes_dialog hsettings) ?_
    refine completes_bind (completes_dialog hname) ?_
    exact completes_bind (completes_plain (optionValue_ok_iff.mpr htarget)) (completes_pure _)
  have hzone : Completes Singleton.first (presenterTime s timezone) timezone' Singleton.first := by
    apply completes_aside
    rw [htime]
    rfl
  refine tooEarly_bind hgeneral (tooEarly_bind hzone ?_)
  exact tooEarly_bind_left (tooEarly_bind_left (tooEarly_read _ (by simp [Singleton.first])))

/-! ### From the model on -/

theorem orderly_runTestCommand : Orderly Set.univ (runTestCommand s) Set.univ := by
  refine orderly_bind (orderly_get (Set.mem_univ _)) fun _ _ _ _ => ?_
  refine orderly_bind (orderly_get (Set.mem_univ _)) fun _ _ _ _ => ?_
  refine orderly_bind (orderly_get (Set.mem_univ _)) fun _ _ _ _ => ?_
  refine orderly_bind ?_ fun _ _ _ _ => orderly_pure _
  exact orderly_forM_read _ fun T _ => Set.mem_univ T

/-- After the dialogs only the test command gets singletons that depend on the model. -/
theorem orderly_install
    (h : s.opts.answerfile = "" → s.opts.testCommand = "" → ¬ ModelReachesLocale s) :
    GetsFirst (install s) := by
  refine orderly_bind getsFirst_construct fun ⟨cluster, timezone⟩ _ _ hmade => ?_
  obtain ⟨hcluster, htimezone⟩ := construct_ok hmade
  refine orderly_bind (getsFirst_ite (getsFirst_fillData _) (orderly_pure _))
    fun filledCluster _ _ hfill => ?_
  refine orderly_bind (getsFirst_ite (getsFirst_printData _) (orderly_pure _))
    fun _ _ _ hprint => ?_
  refine getsFirst_bind (orderly_ite ?_ fun _ => orderly_pure _) fun cluster => ?_
  · rintro ⟨hanswer, htest⟩
    refine orderly_presenterInstall _ fun hend => h hanswer htest ?_
    rw [if_neg (not_not.mpr hanswer)] at hfill
    obtain ⟨rfl, -⟩ := EStateM.Result.ok.inj hfill
    refine ⟨cluster, timezone, hcluster, htimezone, fun hdebug => ?_, hend⟩
    rw [if_pos hdebug] at hprint
    exact printData_ok hprint
  · refine getsFirst_bind (getsFirst_ite (getsFirst_dumpData _) (orderly_pure _)) fun _ => ?_
    refine orderly_bind (orderly_initializeSingletonsModel cluster) fun _ _ _ _ => ?_
    refine orderly_mono ?_ (Set.subset_univ _)
    exact orderly_ite (fun _ => orderly_runTestCommand) fun _ => orderly_pure _

theorem tooEarly_install (hanswer : s.opts.answerfile = "") (htest : s.opts.testCommand = "")
    (h : ModelReachesLocale s) : TooEarly Singleton.first (install s) := by
  obtain ⟨cluster, timezone, hcluster, htimezone, hdistro, hend⟩ := h
  refine tooEarly_bind (completes_construct hcluster htimezone) ?_
  dsimp only
  rw [if_neg (not_not.mpr hanswer)]
  refine tooEarly_bind (completes_pure _) ?_
  have hprint : Completes Singleton.first
      (if s.debug then printData cluster else pure ()) () Singleton.first := by
    split_ifs with hdebug
    · exact completes_printData (hdistro hdebug)
    · exact completes_pure _
  refine tooEarly_bind hprint ?_
  rw [if_pos ⟨hanswer, htest⟩]
  exact tooEarly_bind_left (tooEarly_presenterInstall cluster hend)

/-! ### Whole runs -/

/-- The connection to the bus is the only thing that can fail before the first singleton is
got. -/
theorem respectsInit_of_bus {e : Exn} (h : s.bus = .error e) : RespectsInit s := by
  have hrun : finalState (main s []) = [.fill .Options] := by
    rw [main, h]
    rfl
  rw [RespectsInit, hrun]
  exact inOrder_concat_fill.mpr inOrder_nil

theorem orderly_main (h : ¬ ReachesLocale s) (hbus : s.bus = .ok ()) :
    Orderly ∅ (main s) Singleton.first := by
  refine orderly_bind (orderly_initializeSingletonsOptions _) fun _ _ _ _ => ?_
  refine getsFirst_bind getsFirst_options fun _ => ?_
  refine orderly_ite (fun _ => orderly_pure _) fun hparsing => ?_
  refine orderly_ite (fun _ => orderly_pure _) fun hversion => ?_
  refine orderly_ite (fun _ => orderly_pure _) fun hhelp => ?_
  refine orderly_bind (orderly_plain _) fun _ _ _ hlog => ?_
  refine orderly_bind (T := Singleton.first) (getsFirst_ite (orderly_plain _) (orderly_pure _))
    fun _ _ _ huser => ?_
  refine orderly_ite (fun _ => orderly_pure _) fun hgo => ?_
  refine orderly_ite (fun _ => orderly_pure _) fun hcli => ?_
  refine orderly_install fun hanswer htest hmodel => h ?_
  rw [if_pos htest] at huser
  have hgoes : s.opts.dryRun ∨ s.opts.unattended ∨ goesOn s.stdin := by
    by_contra hnot
    rw [not_or, not_or] at hnot
    obtain ⟨hdry, hunattended, hstdin⟩ := hnot
    exact hgo ⟨hdry, not_or.mpr ⟨hunattended, not_not.mpr htest⟩, hstdin⟩
  exact {
    bus := hbus
    parsingError := Bool.eq_false_iff.mpr hparsing
    showVersion := Bool.eq_false_iff.mpr hversion
    helpAndExit := Bool.eq_false_iff.mpr hhelp
    log := plain_ok hlog
    testCommand := htest
    euid := not_not.mp (throwIf_ok_iff.mp (plain_ok huser))
    goesOn := hgoes
    enableCLI := Bool.eq_false_iff.mpr hcli
    answerfile := hanswer
    model := hmodel }

theorem tooEarly_main (h : ReachesLocale s) : TooEarly ∅ (main s) := by
  have hstart : Completes ∅ (initializeSingletonsOptions s.bus) () Singleton.first := by
    rw [h.bus]
    exact completes_initializeSingletonsOptions
  have huser : throwIf (s.euid ≠ 0)
      (.runtimeError "This program must be run with root privileges") = .ok () :=
    throwIf_ok_iff.mpr (not_not.mpr h.euid)
  have hgo : ¬ (¬ s.opts.dryRun ∧ ¬ (s.opts.unattended ∨ s.opts.testCommand ≠ "") ∧
      ¬ goesOn s.stdin) := by
    rintro ⟨hdry, hunattended, hstdin⟩
    rw [not_or] at hunattended
    obtain hgoes | hgoes | hgoes := h.goesOn
    · exact hdry hgoes
    · exact hunattended.1 hgoes
    · exact hstdin hgoes
  refine tooEarly_bind hstart ?_
  refine tooEarly_bind (completes_get Singleton.options_mem_first) ?_
  rw [if_neg (Bool.eq_false_iff.mp h.parsingError), if_neg (Bool.eq_false_iff.mp h.showVersion),
    if_neg (Bool.eq_false_iff.mp h.helpAndExit)]
  refine tooEarly_bind (completes_plain h.log) ?_
  rw [if_pos h.testCommand]
  refine tooEarly_bind (completes_plain huser) ?_
  dsimp only
  rw [if_neg hgo, if_neg (Bool.eq_false_iff.mp h.enableCLI)]
  exact tooEarly_install h.answerfile h.testCommand h.model

theorem not_respectsInit_of_reaches (h : ReachesLocale s) : ¬ RespectsInit s := by
  obtain ⟨e, t, hrun, horder⟩ := tooEarly_main h [] filled_nil
  rw [RespectsInit, hrun]
  exact horder

/-- A run gets every singleton after it is initialised exactly when it does not get to the dialog
for the locale. -/
theorem respectsInit_iff : RespectsInit s ↔ ¬ ReachesLocale s := by
  constructor
  · intro h hreaches
    exact not_respectsInit_of_reaches hreaches h
  · intro h
    cases hbus : s.bus with
    | error e => exact respectsInit_of_bus hbus
    | ok u => exact (orderly_main h hbus [] inOrder_nil (Set.empty_subset _)).1

/-- A run of the text interface that is answered throughout. -/
def tui : Session where
  boost := .digits
  codec := .text
  host := { os := .ok { platform := some .el9, distro := some .Rocky, majorVersion := 9 } }
  fs := ∅
  path name := [name]
  timedatectl := .ok ["America/Sao_Paulo"]
  stdin := ['Y']
  general := [⟨.ok, #v["cluster", "Company", "root@cluster.example.tld"]⟩]
  bootTarget := [⟨.ok, 0⟩]
  areas := [⟨.ok, 0⟩]
  locations := [⟨.ok, 0⟩]
  servers := [⟨.ok, 0⟩]

theorem reachesLocale_tui : ReachesLocale tui where
  bus := rfl
  parsingError := rfl
  showVersion := rfl
  helpAndExit := rfl
  log := rfl
  testCommand := rfl
  euid := rfl
  goesOn := by decide
  enableCLI := rfl
  answerfile := rfl
  model := ⟨_, _, rfl, rfl, nofun, ⟨_, rfl⟩, ⟨_, rfl⟩, ⟨_, rfl⟩⟩

/-- The service for the locales is got between the two initialisations. -/
theorem not_respectsInit_tui : ¬ RespectsInit tui := not_respectsInit_of_reaches reachesLocale_tui

/-- A dry run has no time zone to choose. -/
theorem not_reachesLocale_of_dryRun (h : s.opts.dryRun) : ¬ ReachesLocale s := by
  intro hreaches
  obtain ⟨cluster, timezone, -, htimezone, -, hend⟩ := hreaches.model
  rw [timezones, if_pos h] at htimezone
  obtain rfl := Except.ok.inj htimezone
  obtain ⟨timezone', hrun⟩ := hend.time
  obtain ⟨u, hrun⟩ := exec_ok_iff.mp hrun
  obtain ⟨start, _, hstart, hrun⟩ := bind_ok_iff.mp hrun
  obtain ⟨rfl, -⟩ := EStateM.Result.ok.inj hstart
  obtain ⟨area, _, harea, -⟩ := bind_ok_iff.mp hrun
  have hmem := Newt.mem_of_listMenu (PresenterTime.answer_ok harea)
  rw [Timezone.construct, Timezone.fetchAvailableTimezones, if_pos h] at hmem
  exact absurd hmem (by simp [PresenterTime.timezoneAreas])

end Cloyster.Main
