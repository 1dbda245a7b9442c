import Cloyster.MailSystem.Setup
import Cloyster.Models.SLURM
import Cloyster.NFS
import Cloyster.Services.Provisioner

/-! The installation itself. The headnode is configured first and the provisioner and the nodes
after it, and at nine points the program leaves when it was told to stop there. -/

namespace Cloyster.Engine

open Lib Models Services

namespace Shell

variable (site : Site)

/-! ### The headnode -/

/-- The directories that the constructor makes. -/
def construct : EngineM Unit := do
  makeDirectory site (installPath ++ ["backup"])
  makeDirectory site (installPath ++ ["conf", "node", "etc", "auto.master.d"])

def selinuxFile : Path := ["etc", "sysconfig", "selinux"]

def disableSELinux : EngineM Unit := do
  command site "setenforce 0"
  backup site selinuxFile
  onFs (changeValueInConfigurationFile site.opts.toOptions site.env.ini selinuxFile "SELINUX"
    "disabled")

def configureSELinuxMode : EngineM Unit :=
  match site.cluster.selinux with
  | .Permissive => command site "setenforce 0"
  | .Enforcing => command site "setenforce 1"
  | .Disabled => disableSELinux site

def trustInterface (profile : Network.Profile) : EngineM Unit := do
  let interface ← XCAT.headnodeInterface site profile
  command site s!"firewall-cmd --permanent --zone=trusted --change-interface={interface}"

def configureFirewall : EngineM Unit := do
  if site.cluster.firewall then
    let _ ← ELOSService.enableService site "firewalld"
    trustInterface site .Management
    site.cluster.ofed.forM fun _ => trustInterface site .Application
    command site "firewall-cmd --reload"
  else
    let _ ← ELOSService.disableService site "firewalld"

def configureFQDN : EngineM Unit :=
  command site s!"hostnamectl set-hostname {site.cluster.headnode.fqdn}"

def hostsFile : Path := ["etc", "hosts"]

/-- The line with the names of the headnode. -/
def hostsEntry : Except Exn String := do
  let connection ← site.cluster.getConnection site.cluster.headnode .Management
  return s!"{site.env.text.toString connection.address}\t{site.cluster.headnode.fqdn} " ++
    s!"{site.cluster.headnode.hostname}\n"

def configureHostsFile : EngineM Unit := do
  let entry ← plain (hostsEntry site)
  backup site hostsFile
  addString site hostsFile entry

def configureTimezone : EngineM Unit :=
  command site s!"timedatectl set-timezone {site.cluster.timezone}"

def configureLocale : EngineM Unit := command site s!"localectl set-locale {site.cluster.locale}"

def dnsFile : Path := ["etc", "NetworkManager", "conf.d", "90-dns-none.conf"]

def disableNetworkManagerDNSOverride : EngineM Unit := do
  remove site dnsFile
  addString site dnsFile ("[main]\n" ++ "dns=none\n")
  let _ ← ELOSService.restartService site "NetworkManager"

def deleteConnectionIfExists (connectionName : String) : EngineM Unit :=
  command site s!"nmcli connection delete \"{connectionName}\""

/-- `connection.getNetwork()`. -/
def networkOf (connection : Connection) : Except Exn Network :=
  match site.cluster.networks[connection.network]? with
  | some network => .ok network
  | none => .error ⟨.undefinedBehaviour, "dereference of a null pointer"⟩

/-- `cidr.at`. -/
def prefixLength (network : Network) : Except Exn ℕ :=
  match Network.cidr.lookup (site.env.text.toString network.subnetMask) with
  | some length => .ok length
  | none => .error ⟨.outOfRange, "unordered_map::at"⟩

def addConnection (connection : Connection) (network : Network) (interface : String) :
    Except Exn String := do
  let length ← prefixLength site network
  return s!"nmcli connection add con-name {NamedEnum.name network.profile} ifname {interface} " ++
    s!"type {NamedEnum.name network.type} mtu {connection.mtu.toNat} ipv4.method manual " ++
    s!"ipv4.address {site.env.text.toString connection.address}/{length} ipv4.dns " ++
    "\"" ++ " ".intercalate (network.nameservers.map site.env.text.toString) ++ "\" " ++
    s!"ipv4.dns-search {network.domainName} ipv6.method disabled"

/-- A connection that is there is left as it is. A dry run does not ask. -/
def connectionExists (connectionName : String) : EngineM Bool := do
  if site.opts.dryRun then return false
  let code ← executeCommand site s!"nmcli connection show {connectionName}"
  return code = 0

def makeConnection (connection : Connection) (network : Network) (interface : String) :
    EngineM Unit := do
  deleteConnectionIfExists site (NamedEnum.name network.profile)
  command site s!"nmcli device set {interface} managed yes"
  command site s!"nmcli device set {interface} autoconnect yes"
  let add ← plain (addConnection site connection network interface)
  command site add
  command site s!"nmcli device connect {interface}"

def configureNetwork (connection : Connection) : EngineM Unit := do
  let network ← plain (networkOf site connection)
  if network.profile = .External then return
  let interface ← plain (optionValue connection.interface)
  let exists' ← connectionExists site (NamedEnum.name network.profile)
  if exists' then return
  makeConnection site connection network interface

def configureNetworks (connections : List Connection) : EngineM Unit := do
  let _ ← ELOSService.enableService site "NetworkManager"
  connections.forM fun connection => configureNetwork site connection
  disableNetworkManagerDNSOverride site

def runSystemUpdate : EngineM Unit := do
  if site.cluster.updateSystem then
    let _ ← ELOSService.update site
    let _ ← ELOSService.restartService site "NetworkManager"

def installRequiredPackages : EngineM Unit := do
  let _ ← ELOSService.install site
    "wget curl dnf-plugins-core chkconfig jq tar python3-dnf-plugin-versionlock"

def disallowSSHRootPasswordLogin : EngineM Unit :=
  command site ("sed -i \"/^#\\?PermitRootLogin/c\\PermitRootLogin without-password\"" ++
    " /etc/ssh/sshd_config")

def installOpenHPCBase : EngineM Unit := do
  let _ ← ELOSService.install site "ohpc-base"

def chronyFile : Path := ["etc", "chrony.conf"]

/-- The clients of one connection's network. -/
def allowClients (connection : Connection) (network : Network) : Except Exn String := do
  let length ← prefixLength site network
  return s!"allow {site.env.text.toString connection.address}/{length}\n"

def serveTime (connection : Connection) : EngineM Unit := do
  let network ← plain (networkOf site connection)
  if network.profile = .Management ∨ network.profile = .Service then
    addString site chronyFile "local stratum 10\n"
    let allow ← plain (allowClients site connection network)
    addString site chronyFile allow

def configureTimeService (connections : List Connection) : EngineM Unit := do
  let _ ← ELOSService.install site "chrony"
  backup site chronyFile
  connections.forM fun connection => serveTime site connection
  let _ ← ELOSService.enableService site "chronyd"

def configureSLURM (slurm : SLURM) : EngineM Unit := do
  SLURM.installServer site
  SLURM.configureServer site slurm
  SLURM.enableServer site
  SLURM.startServer site

def configurePBS (place : ExecutionPlace) : EngineM Unit := do
  let _ ← ELOSService.install site "openpbs-server-ohpc"
  let _ ← ELOSService.enableService site "pbs"
  command site "qmgr -c \"set server default_qsub_arguments= -V\""
  command site s!"qmgr -c \"set server resources_default.place={NamedEnum.name place}\""
  command site "qmgr -c \"set server job_history_enable=True\""

def configureQueueSystem : EngineM Unit :=
  match site.cluster.queue with
  | none => pure ()
  | some (.SLURM slurm) => configureSLURM site slurm
  | some (.PBS place) => configurePBS site place

def configureMailSystem : EngineM Unit :=
  site.cluster.mailSystem.forM fun mail => Postfix.setup site mail

def configureInfiniband : EngineM Unit :=
  site.cluster.ofed.forM fun ofed => OFED.install site ofed.kind

def limitsFile : Path := ["etc", "security", "limits.conf"]

def removeMemlockLimits : EngineM Unit := do
  backup site limitsFile
  addString site limitsFile ("* soft memlock unlimited\n" ++ "* hard memlock unlimited\n")

def installDevelopmentComponents : EngineM Unit := do
  let _ ← ELOSService.install site (" ".intercalate site.opts.ohpcPackages)

def pinOSVersion : EngineM Unit := do
  if site.opts.shouldSkip "pin-os-version" then return
  ELOSService.pinOSVersion site

/-- The address that the service is made with is not used by its script. -/
def setupNFS : EngineM Unit := do
  let _ ← XCAT.headnodeConnection site .Management
  let _ ← run site NFS.installScript

/-! ### The provisioner and the nodes -/

def setupProvisioner : EngineM Unit := do
  enableRepo site "xcat-core"
  enableRepo site "xcat-dep"
  XCAT.construct site
  XCAT.installPackages site
  XCAT.patchInstall site
  XCAT.setup site

def createNodeImage : EngineM Unit := do
  let args ← XCAT.getImageInstallArgs site .Netboot .Compute
  XCAT.createImage site .Netboot .Compute [NFS.imageInstallScript args]

def maybeStopAfterStep (step : String) : EngineM Unit :=
  refuseIf (site.opts.stopAfterStep = step) (.exit 0)

def install : EngineM Unit := do
  initializeDefaultRepositories site
  pinOSVersion site
  maybeStopAfterStep site "configure-repositories"
  installRequiredPackages site
  maybeStopAfterStep site "install-required-packages"
  runSystemUpdate site
  maybeStopAfterStep site "run-system-update"
  configureSELinuxMode site
  configureFirewall site
  configureFQDN site
  disallowSSHRootPasswordLogin site
  configureHostsFile site
  configureTimezone site
  configureLocale site
  configureNetworks site site.cluster.headnode.connections
  configureTimeService site site.cluster.headnode.connections
  maybeStopAfterStep site "configure-time-service"
  installOpenHPCBase site
  configureInfiniband site
  maybeStopAfterStep site "install-infiniband"
  setupNFS site
  maybeStopAfterStep site "nfs-setup"
  configureQueueSystem site
  configureMailSystem site
  removeMemlockLimits site
  installDevelopmentComponents site
  maybeStopAfterStep site "install-development-components"
  setupProvisioner site
  maybeStopAfterStep site "provisioner-setup"
  createNodeImage site
  maybeStopAfterStep site "provisioner-create-image"
  XCAT.addNodes site
  XCAT.setNodesImage site
  XCAT.setNodesBoot site
  XCAT.resetNodes site

end Shell

end Cloyster.Engine
