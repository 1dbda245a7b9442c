import Cloyster.Engine.Steps

/-! The packages and services of the system, each through one command, and the drivers for the
fabric. A package command answers true when it failed and a service command when it did not; no
caller looks at either. -/

namespace Cloyster.Engine

open Lib Models Services

variable (site : Site)

/-- Element 0 of a vector. -/
def firstLine (output : List String) : EngineM String :=
  match output with
  | line :: _ => return line
  | [] => throw (.uncaught ⟨.undefinedBehaviour, "index into an empty vector"⟩)

namespace ELOSService

/-! ### The service -/

def dnf (cmd : String) : EngineM Bool := do
  let code ← executeCommand site s!"dnf -y {cmd}"
  return code ≠ 0

def install (package : String) : EngineM Bool := dnf site s!"install {package}"

def groupInstall (package : String) : EngineM Bool := dnf site s!"groupinstall \"{package}\""

def update : EngineM Bool := dnf site "update"

def systemctl (verb service : String) : EngineM Bool := do
  let code ← executeCommand site s!"systemctl {verb} {service}"
  return code = 0

def enableService (service : String) : EngineM Bool := systemctl site "enable --now" service

def disableService (service : String) : EngineM Bool := systemctl site "disable --now" service

def startService (service : String) : EngineM Bool := systemctl site "start" service

def restartService (service : String) : EngineM Bool := systemctl site "restart" service

/-- Rocky Linux is pinned by its vault, and the next two are left as they are. -/
def pinOSVersion : EngineM Unit := do
  match ← plain site.cluster.headnode.os.getDistro with
  | .Rocky | .AlmaLinux | .OL => return
  | .RHEL =>
    command site s!"subscription-manager release --set={site.cluster.headnode.os.getVersion}"

/-- The kernel that was built last. -/
def getKernelInstalled : EngineM String := do
  firstLine (← checkOutput site ("bash -c \"rpm -q kernel --qf " ++
    "'%\x7bVERSION\x7d-%\x7bRELEASE\x7d.%\x7bARCH\x7d %\x7bBUILDTIME\x7d\n' " ++
    "| sort -nrk 2 | head -1 | awk '\x7bprint $1\x7d'\""))

def getKernelRunning : EngineM String := do
  firstLine (← checkOutput site "uname -r")

end ELOSService

namespace OFED

/-! ### The fabric -/

def installed (kind : OFED.Kind) : EngineM Bool := do
  if site.opts.shouldForce "infiniband-install" then return false
  -- the installation is to run in a dry run
  if site.opts.dryRun then return false
  match kind with
  | .Mellanox => return (← executeCommand site "rpm -q doca-ofed") = 0
  | .Inbox => return (← executeCommand site "dnf group info \"Infiniband Support\"") = 0
  | .Oracle => throw (.uncaught ⟨.logicError, "Not implemented"⟩)

def compileDriver : EngineM Unit := do
  if !site.opts.shouldSkip "compile-doca-driver" then
    checkCommand site ("bash -c \"/opt/mellanox/doca/tools/doca-kernel-support -k " ++
      "$(rpm -q --qf \"%\x7bVERSION\x7d-%\x7bRELEASE\x7d.%\x7bARCH\x7d\n\" kernel-devel)\"")

/-- The package that was written last is the one just compiled. -/
def installDriver : EngineM Unit := do
  let rpm ← checkOutput site ("bash -c \"find /tmp/DOCA*/ -name '*.rpm' -printf '%T@ %p\n' | " ++
    "sort -nk1 | tail -1 | awk '\x7bprint $2\x7d'\"")
  let last ← firstLine rpm
  command site s!"dnf install -y {last}"

/-- The kernels are compared for a warning only. -/
def installMellanox : EngineM Unit := do
  enableRepo site "doca"
  checkCommand site "dnf makecache --repo=doca"
  checkCommand site "dnf -y install kernel kernel-devel doca-extra"
  let _ ← ELOSService.getKernelRunning site
  let _ ← ELOSService.getKernelInstalled site
  compileDriver site
  installDriver site
  checkCommand site "dnf makecache --repo=doca*"
  checkCommand site "dnf install -y doca-ofed mlnx-fw-updater"
  command site "systemctl restart openibd"

def install (kind : OFED.Kind) : EngineM Unit := do
  if site.opts.dryRun then return
  if ← installed site kind then return
  match kind with
  | .Inbox => let _ ← ELOSService.groupInstall site "Infiniband Support"
  | .Mellanox => installMellanox site
  | .Oracle => throw (.uncaught ⟨.logicError, "Oracle RDMA release is not yet supported"⟩)

end OFED

/-! ### Their steps -/

variable {site} {scope : Scope}

theorem moves_firstLine {R : System → System → Prop} [IsPreorder System R] (output : List String) :
    Moves R (firstLine output) := by
  cases output with
  | nil => exact moves_throw _
  | cons line output => exact moves_pure line

namespace ELOSService

theorem confined_dnf (cmd : String) (h : "dnf" ∈ scope.words) :
    Confined site scope (dnf site cmd) :=
  moves_bind (confined_executeCommand (word_mem (by decide) h cmd)) fun _ => moves_pure _

theorem confined_systemctl (verb service : String) (h : "systemctl" ∈ scope.words) :
    Confined site scope (systemctl site verb service) := by
  have hword : programOf s!"systemctl {verb} {service}" ∈ scope.words := by
    simp only [String.append_assoc]
    exact word_mem (by decide) h _
  exact moves_bind (confined_executeCommand hword) fun _ => moves_pure _

theorem confined_pinOSVersion (h : "subscription-manager" ∈ scope.words) :
    Confined site scope (pinOSVersion site) := by
  refine moves_bind (confined_plain _) fun distro => ?_
  cases distro with
  | RHEL => exact confined_command (word_mem (by decide) h _)
  | OL => exact moves_pure _
  | Rocky => exact moves_pure _
  | AlmaLinux => exact moves_pure _

theorem confined_getKernelInstalled (h : "bash" ∈ scope.words) :
    Confined site scope (getKernelInstalled site) := by
  refine moves_bind (confined_checkOutput ?_) moves_firstLine
  simp only [String.append_assoc]
  exact word_mem (by decide) h _

theorem confined_getKernelRunning (h : "uname" ∈ scope.words) :
    Confined site scope (getKernelRunning site) :=
  moves_bind (confined_checkOutput (by simpa [programOf] using h)) moves_firstLine

end ELOSService

namespace OFED

/-- What the drivers are installed with. -/
def footprint : Scope where
  words := ["rpm", "dnf", "uname", "bash", "systemctl"]
  regions := repoRegions

theorem confined_installed (kind : OFED.Kind) : Confined site footprint (installed site kind) := by
  refine moves_ite (fun _ => moves_pure _) fun _ => moves_ite (fun _ => moves_pure _) fun _ => ?_
  cases kind with
  | Mellanox => exact moves_bind (confined_executeCommand (by decide)) fun _ => moves_pure _
  | Inbox => exact moves_bind (confined_executeCommand (by decide)) fun _ => moves_pure _
  | Oracle => exact moves_throw _

theorem confined_installMellanox : Confined site footprint (installMellanox site) := by
  refine moves_bind (confined_enableRepo _ (by decide)) fun _ => ?_
  refine moves_bind (confined_checkCommand (by decide)) fun _ => ?_
  refine moves_bind (confined_checkCommand (by decide)) fun _ => ?_
  refine moves_bind (ELOSService.confined_getKernelRunning (by decide)) fun _ => ?_
  refine moves_bind (ELOSService.confined_getKernelInstalled (by decide)) fun _ => ?_
  refine moves_bind (moves_ite (fun _ => confined_checkCommand ?_) fun _ => moves_pure _)
    fun _ => ?_
  · exact word_mem (by decide) (by decide) _
  refine moves_bind ?_ fun _ => moves_bind (confined_checkCommand (by decide)) fun _ =>
    moves_bind (confined_checkCommand (by decide)) fun _ => confined_command (by decide)
  refine moves_bind (confined_checkOutput (word_mem (by decide) (by decide) _)) fun rpm => ?_
  exact moves_bind (moves_firstLine rpm) fun last =>
    confined_command (word_mem (by decide) (by decide) last)

theorem confined_install (kind : OFED.Kind) : Confined site footprint (install site kind) := by
  refine moves_ite (fun _ => moves_pure _) fun _ => ?_
  refine moves_bind (confined_installed kind) fun done => moves_ite (fun _ => moves_pure _) fun _ => ?_
  cases kind with
  | Inbox => exact moves_bind (ELOSService.confined_dnf _ (by decide)) fun _ => moves_pure _
  | Mellanox => exact confined_installMellanox
  | Oracle => exact moves_throw _

end OFED

end Cloyster.Engine
