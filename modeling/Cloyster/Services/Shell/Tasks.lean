import Cloyster.Lib.Stages
import Cloyster.Services.Provisioner.Steps
import Cloyster.Services.Shell

/-! The installation as a list of tasks. A task carries the proof that it stays within its own
footprint: the words of the commands it gives and the files it changes itself. The tasks are in
stages, at the end of each of which the program may leave. -/

namespace Cloyster.Engine.Shell

open Lib Models Services

variable {site : Site} {scope : Scope}

/-! ### The steps of the methods -/

def backups : Region := .below (installPath ++ ["backup"])

theorem confined_maybeStopAfterStep (step : String) :
    Confined site scope (maybeStopAfterStep site step) := moves_refuseIf _

theorem confined_configureSELinuxMode (hword : "setenforce" ∈ scope.words)
    (hbackups : backups ∈ scope.regions) (hfile : .file selinuxFile ∈ scope.regions) :
    Confined site scope (configureSELinuxMode site) := by
  have hset (mode : String) : Confined site scope (command site ("setenforce " ++ mode)) :=
    confined_command (word_mem (by decide) hword mode)
  unfold configureSELinuxMode
  cases site.cluster.selinux with
  | Permissive => exact hset "0"
  | Enforcing => exact hset "1"
  | Disabled =>
    refine moves_bind (hset "0") fun _ => moves_bind (confined_backup _ hbackups) fun _ => ?_
    refine confined_onFs_of_unchanged ?_ fun hdry fs => ?_
    · exact changeValueInConfigurationFile_outside _ _ _ _ (covers_file hfile)
    · rw [Unchanged, changeValueInConfigurationFile_dryRun hdry]
      rfl

theorem confined_trustInterface (profile : Network.Profile) (h : "firewall-cmd" ∈ scope.words) :
    Confined site scope (trustInterface site profile) :=
  moves_bind (XCAT.confined_headnodeInterface profile) fun _ =>
    confined_command (word_mem (by decide) h _)

theorem confined_configureFirewall (h : "firewall-cmd" ∈ scope.words)
    (hctl : "systemctl" ∈ scope.words) : Confined site scope (configureFirewall site) := by
  refine moves_ite (fun _ => ?_) fun _ => ?_
  · refine moves_bind (ELOSService.confined_systemctl _ _ hctl) fun _ => ?_
    refine moves_bind (confined_trustInterface _ h) fun _ => ?_
    refine moves_bind (moves_optionForM fun _ => confined_trustInterface _ h) fun _ => ?_
    exact confined_command h
  · exact moves_bind (ELOSService.confined_systemctl _ _ hctl) fun _ => moves_pure _

theorem confined_configureHostsFile (hbackups : backups ∈ scope.regions)
    (hfile : hostsFile ∈ scope.files) : Confined site scope (configureHostsFile site) := by
  refine moves_bind (confined_plain _) fun entry => ?_
  exact moves_bind (confined_backup _ hbackups) fun _ => confined_addString _ hfile

theorem confined_configureNetwork (connection : Connection) (h : "nmcli" ∈ scope.words) :
    Confined site scope (configureNetwork site connection) := by
  have hword {l : String} (hl : ' ' ∈ l.toList) (hnmcli : programOf l = "nmcli") (r : String) :
      programOf (l ++ r) ∈ scope.words := word_mem hl (hnmcli ▸ h) r
  refine moves_bind (confined_plain _) fun network => moves_ite (fun _ => moves_pure _) fun _ => ?_
  refine moves_bind (confined_plain _) fun interface => moves_bind ?_ fun there => ?_
  · refine moves_ite (fun _ => moves_pure _) fun _ => ?_
    exact moves_bind (confined_executeCommand (hword (by decide) (by decide) _)) fun _ =>
      moves_pure _
  refine moves_ite (fun _ => moves_pure _) fun _ => ?_
  refine moves_bind (confined_command ?_) fun _ => moves_bind (confined_command ?_) fun _ => ?_
  · simp only [String.append_assoc]
    exact hword (by decide) (by decide) _
  · simp only [String.append_assoc]
    exact hword (by decide) (by decide) _
  refine moves_bind (confined_command ?_) fun _ => ?_
  · simp only [String.append_assoc]
    exact hword (by decide) (by decide) _
  cases hadd : addConnection site connection network interface with
  | error e => exact moves_throw _
  | ok add =>
    change Confined site scope (command site add >>= fun _ =>
      command site s!"nmcli device connect {interface}")
    refine moves_bind (confined_command ?_) fun _ => confined_command ?_
    · obtain ⟨length, -, hadd⟩ := except_bind_ok_iff.mp hadd
      obtain rfl := Except.ok.inj hadd
      simp only [String.append_assoc]
      exact hword (by decide) (by decide) _
    · exact hword (by decide) (by decide) _

theorem confined_disableNetworkManagerDNSOverride (hctl : "systemctl" ∈ scope.words)
    (hfile : dnsFile ∈ scope.files) :
    Confined site scope (disableNetworkManagerDNSOverride site) := by
  refine moves_bind (confined_remove (covers_of_mem hfile)) fun _ => ?_
  refine moves_bind (confined_addString _ hfile) fun _ => ?_
  exact moves_bind (ELOSService.confined_systemctl _ _ hctl) fun _ => moves_pure _

theorem confined_configureNetworks (connections : List Connection) (h : "nmcli" ∈ scope.words)
    (hctl : "systemctl" ∈ scope.words) (hfile : dnsFile ∈ scope.files) :
    Confined site scope (configureNetworks site connections) := by
  refine moves_bind (ELOSService.confined_systemctl _ _ hctl) fun _ => ?_
  refine moves_bind (moves_forM fun connection _ => confined_configureNetwork connection h)
    fun _ => ?_
  exact confined_disableNetworkManagerDNSOverride hctl hfile

theorem confined_serveTime (connection : Connection) (hfile : chronyFile ∈ scope.files) :
    Confined site scope (serveTime site connection) := by
  refine moves_bind (confined_plain _) fun network => moves_ite (fun _ => ?_) fun _ => moves_pure _
  refine moves_bind (confined_addString _ hfile) fun _ => ?_
  exact moves_bind (confined_plain _) fun allow => confined_addString _ hfile

theorem confined_configureTimeService (connections : List Connection) (hdnf : "dnf" ∈ scope.words)
    (hctl : "systemctl" ∈ scope.words) (hbackups : backups ∈ scope.regions)
    (hfile : chronyFile ∈ scope.files) :
    Confined site scope (configureTimeService site connections) := by
  refine moves_bind (ELOSService.confined_dnf _ hdnf) fun _ => ?_
  refine moves_bind (confined_backup _ hbackups) fun _ => ?_
  refine moves_bind (moves_forM fun connection _ => confined_serveTime connection hfile) fun _ => ?_
  exact moves_bind (ELOSService.confined_systemctl _ _ hctl) fun _ => moves_pure _

theorem confined_slurmServer (slurm : SLURM) (hdnf : "dnf" ∈ scope.words)
    (hctl : "systemctl" ∈ scope.words) (hfile : SLURM.configurationFile ∈ scope.files) :
    Confined site scope (configureSLURM site slurm) := by
  refine moves_bind ?_ fun _ => moves_bind ?_ fun _ => moves_bind ?_ fun _ => ?_
  · exact moves_bind (ELOSService.confined_dnf _ hdnf) fun _ => moves_pure _
  · refine moves_bind (confined_remove (covers_of_mem hfile)) fun _ => ?_
    exact moves_bind (confined_makeDirectory _) fun _ => confined_addString _ hfile
  · refine moves_bind (ELOSService.confined_systemctl _ _ hctl) fun _ => ?_
    exact moves_bind (ELOSService.confined_systemctl _ _ hctl) fun _ => moves_pure _
  · refine moves_bind (ELOSService.confined_systemctl _ _ hctl) fun _ => ?_
    exact moves_bind (ELOSService.confined_systemctl _ _ hctl) fun _ => moves_pure _

theorem confined_configureQueueSystem (hdnf : "dnf" ∈ scope.words)
    (hctl : "systemctl" ∈ scope.words) (hqmgr : "qmgr" ∈ scope.words)
    (hfile : SLURM.configurationFile ∈ scope.files) :
    Confined site scope (configureQueueSystem site) := by
  unfold configureQueueSystem
  cases site.cluster.queue with
  | none => exact moves_pure _
  | some queue =>
    cases queue with
    | SLURM slurm => exact confined_slurmServer slurm hdnf hctl hfile
    | PBS place =>
      refine moves_bind (ELOSService.confined_dnf _ hdnf) fun _ => ?_
      refine moves_bind (ELOSService.confined_systemctl _ _ hctl) fun _ => ?_
      refine moves_bind (confined_command hqmgr) fun _ => ?_
      refine moves_bind (confined_command ?_) fun _ => confined_command hqmgr
      simp only [String.append_assoc]
      exact word_mem (by decide) hqmgr _

theorem confined_removeMemlockLimits (hbackups : backups ∈ scope.regions)
    (hfile : limitsFile ∈ scope.files) : Confined site scope (removeMemlockLimits site) :=
  moves_bind (confined_backup _ hbackups) fun _ => confined_addString _ hfile

theorem confined_setupNFS (hwords : "chmod" ∈ scope.words ∧ "/" ∈ scope.words)
    (htmp : .below ["tmp"] ∈ scope.regions) : Confined site scope (setupNFS site) := by
  refine moves_bind (XCAT.confined_headnodeConnection _) fun _ => ?_
  exact moves_bind (confined_run hwords htmp) fun _ => moves_pure _

/-! ### The tasks -/

/-- A part of the installation that stays within its footprint. -/
structure Task (site : Site) where
  run : EngineM Unit
  footprint : Scope
  confined : Confined site footprint run

namespace Task

def repositories : Task site where
  run := initializeDefaultRepositories site
  footprint := { regions := repoRegions }
  confined := confined_initializeDefaultRepositories (by decide)

def pin : Task site where
  run := pinOSVersion site
  footprint := { words := ["subscription-manager"] }
  confined := moves_ite (fun _ => moves_pure _) fun _ =>
    ELOSService.confined_pinOSVersion (by decide)

def stopAfter (step : String) : Task site where
  run := maybeStopAfterStep site step
  footprint := {}
  confined := confined_maybeStopAfterStep step

def required : Task site where
  run := installRequiredPackages site
  footprint := { words := ["dnf"] }
  confined := moves_bind (ELOSService.confined_dnf _ (by decide)) fun _ => moves_pure _

def update : Task site where
  run := runSystemUpdate site
  footprint := { words := ["dnf", "systemctl"] }
  confined := moves_ite (fun _ => moves_bind (ELOSService.confined_dnf _ (by decide)) fun _ =>
    moves_bind (ELOSService.confined_systemctl _ _ (by decide)) fun _ => moves_pure _) fun _ =>
      moves_pure _

def selinux : Task site where
  run := configureSELinuxMode site
  footprint := { words := ["setenforce"], regions := [backups, .file selinuxFile] }
  confined := confined_configureSELinuxMode (by decide) (by decide) (by decide)

def firewall : Task site where
  run := configureFirewall site
  footprint := { words := ["systemctl", "firewall-cmd"] }
  confined := confined_configureFirewall (by decide) (by decide)

def fqdn : Task site where
  run := configureFQDN site
  footprint := { words := ["hostnamectl"] }
  confined := confined_command (word_mem (by decide) (by decide) _)

def ssh : Task site where
  run := disallowSSHRootPasswordLogin site
  footprint := { words := ["sed"] }
  confined := confined_command (word_mem (by decide) (by decide) _)

def hosts : Task site where
  run := configureHostsFile site
  footprint := { files := [hostsFile], regions := [backups] }
  confined := confined_configureHostsFile (by decide) (by decide)

def timezone : Task site where
  run := configureTimezone site
  footprint := { words := ["timedatectl"] }
  confined := confined_command (word_mem (by decide) (by decide) _)

def locale : Task site where
  run := configureLocale site
  footprint := { words := ["localectl"] }
  confined := confined_command (word_mem (by decide) (by decide) _)

def networks : Task site where
  run := configureNetworks site site.cluster.headnode.connections
  footprint := { words := ["systemctl", "nmcli"], files := [dnsFile] }
  confined := confined_configureNetworks _ (by decide) (by decide) (by decide)

def time : Task site where
  run := configureTimeService site site.cluster.headnode.connections
  footprint := { words := ["dnf", "systemctl"], files := [chronyFile], regions := [backups] }
  confined := confined_configureTimeService _ (by decide) (by decide) (by decide) (by decide)

def openHPC : Task site where
  run := installOpenHPCBase site
  footprint := { words := ["dnf"] }
  confined := moves_bind (ELOSService.confined_dnf _ (by decide)) fun _ => moves_pure _

def infiniband : Task site where
  run := configureInfiniband site
  footprint := OFED.footprint
  confined := moves_optionForM fun ofed => OFED.confined_install ofed.kind

def nfs : Task site where
  run := setupNFS site
  footprint := { words := ["chmod", "/"], regions := [.below ["tmp"]] }
  confined := confined_setupNFS (by decide) (by decide)

def queue : Task site where
  run := configureQueueSystem site
  footprint := { words := ["dnf", "systemctl", "qmgr"], files := [SLURM.configurationFile] }
  confined := confined_configureQueueSystem (by decide) (by decide) (by decide) (by decide)

def mail : Task site where
  run := configureMailSystem site
  footprint := Postfix.footprint
  confined := moves_optionForM fun mail => Postfix.confined_setup mail

def memlock : Task site where
  run := removeMemlockLimits site
  footprint := { files := [limitsFile], regions := [backups] }
  confined := confined_removeMemlockLimits (by decide) (by decide)

def development : Task site where
  run := installDevelopmentComponents site
  footprint := { words := ["dnf"] }
  confined := moves_bind (ELOSService.confined_dnf _ (by decide)) fun _ => moves_pure _

def provisioner : Task site where
  run := setupProvisioner site
  footprint := {
    words := ["dnf", "grep", "sed", "xcatconfig", "chdef"]
    regions := repoRegions
    names := true }
  confined := by
    refine moves_bind (confined_enableRepo _ (by decide)) fun _ => ?_
    refine moves_bind (confined_enableRepo _ (by decide)) fun _ => ?_
    refine moves_bind (XCAT.confined_construct rfl) fun _ => ?_
    refine moves_bind (XCAT.confined_installPackages (by decide)) fun _ => ?_
    refine moves_bind (XCAT.confined_patchInstall (by decide)) fun _ => ?_
    exact XCAT.confined_setup (by decide)

def image : Task site where
  run := createNodeImage site
  footprint := XCAT.imageFootprint
  confined := moves_bind (XCAT.confined_getImageInstallArgs _ _ rfl) fun _ =>
    XCAT.confined_createImage _ _ _

def addNodes : Task site where
  run := XCAT.addNodes site
  footprint := XCAT.nodesFootprint
  confined := XCAT.confined_addNodes

def nodesImage : Task site where
  run := XCAT.setNodesImage site
  footprint := XCAT.nodesFootprint
  confined := XCAT.confined_setNodesImage

def nodesBoot : Task site where
  run := XCAT.setNodesBoot site
  footprint := XCAT.nodesFootprint
  confined := confined_command (by decide)

def resetNodes : Task site where
  run := XCAT.resetNodes site
  footprint := XCAT.nodesFootprint
  confined := confined_command (by decide)

end Task

/-- One after another. -/
def runAll (tasks : List (Task site)) : EngineM Unit := tasks.forM (·.run)

theorem runAll_nil : runAll ([] : List (Task site)) = pure ⟨⟩ := rfl

theorem runAll_cons (task : Task site) (tasks : List (Task site)) :
    runAll (task :: tasks) = task.run >>= fun _ => runAll tasks := rfl

theorem runAll_append (l r : List (Task site)) :
    runAll (l ++ r) = runAll l >>= fun _ => runAll r := by
  funext s
  exact forM_append_apply l r _ s

/-! ### The stages -/

variable (site)

open Shell.Task

/-- The tasks of each stage, and the point after it. -/
def stageTasks : List (List (Task site) × String) :=
  [([repositories, pin], "configure-repositories"),
    ([required], "install-required-packages"),
    ([update], "run-system-update"),
    ([selinux, firewall, fqdn, ssh, hosts, timezone, locale, networks, time],
      "configure-time-service"),
    ([openHPC, infiniband], "install-infiniband"),
    ([nfs], "nfs-setup"),
    ([queue, mail, memlock, development], "install-development-components"),
    ([provisioner], "provisioner-setup"),
    ([image], "provisioner-create-image")]

def lastTasks : List (Task site) := [addNodes, nodesImage, nodesBoot, resetNodes]

def stages : List (Stages.Stage Halt System String) :=
  (stageTasks site).map fun (tasks, name) => ⟨runAll tasks, name⟩

theorem install_eq_stages : install site =
    Stages.run (.exit 0) site.opts.stopAfterStep (runAll (lastTasks site)) (stages site) := by
  simp only [stages, stageTasks, lastTasks, List.map_cons, List.map_nil, Stages.run, Stages.point,
    runAll_cons, runAll_nil, bind_assoc, bind_pure_unit]
  rfl

/-- The tasks of a stage, and leaving as one more. -/
def withStop (stage : List (Task site) × String) : List (Task site) :=
  stage.1 ++ [stopAfter stage.2]

def tasks : List (Task site) := (stageTasks site).flatMap (withStop site) ++ lastTasks site

theorem install_eq_tasks : install site = runAll (tasks site) := by
  simp only [tasks, withStop, stageTasks, lastTasks, List.flatMap_cons, List.flatMap_nil,
    List.cons_append, List.nil_append, runAll_cons, runAll_nil, bind_pure_unit]
  rfl

end Cloyster.Engine.Shell
