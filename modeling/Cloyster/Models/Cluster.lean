import Cloyster.Models.AnswerFile

/-! The cluster: its networks, the headnode with its connections and names, the nodes,
the disk image and the mail system. A connection names its network by the position in
the cluster's list. -/

namespace Cloyster.Models

open Lib

/-! ### Disk images -/

structure DiskImage where
  path : String := ""
  distro : Option OS.Distro := none
  deriving DecidableEq

namespace DiskImage

def knownImageFilename : List String :=
  ["AlmaLinux-8.8-x86_64-dvd.iso", "OracleLinux-R8-U8-x86_64-dvd.iso", "rhel-8.8-x86_64-dvd.iso",
    "Rocky-8.8-x86_64-dvd1.iso", "Rocky-9.5-x86_64-dvd.iso"]

def hashMap : List (String × String) :=
  [("rhel-8.8-x86_64-dvd.iso",
      "517abcc67ee3b7212f57e180f5d30be3e8269e7a99e127a3399b7935c7e00a09"),
    ("OracleLinux-R8-U8-x86_64-dvd.iso",
      "cae39116245ff7c3c86d5305d9c11430ce5c4e512987563435ac59c37a082d7e"),
    ("Rocky-8.8-x86_64-dvd1.iso",
      "7b8bdfe189cf24ae5c2d6a88f7a0b5f3012d23f9332c47943d538b4bc03a3704"),
    ("AlmaLinux-8.8-x86_64-dvd.iso",
      "635b30b967b509a32a1a3d81401db9861922acb396d065922b39405a43a04a31"),
    ("Rocky-9.5-x86_64-dvd.iso",
      "ba60c3653640b5747610ddfb4d09520529bef2d1d83c1feb86b0c84dff31e04e")]

def imageDistro (image : String) : Except Exn OS.Distro :=
  if Text.startsWith image "Rocky" then .ok .Rocky
  else if Text.startsWith image "rhel" then .ok .RHEL
  else if Text.startsWith image "OracleLinux" then .ok .OL
  else if Text.startsWith image "AlmaLinux" then .ok .AlmaLinux
  else .error ⟨.logicError, s!"Can't determine the distro for the image {image}"⟩

/-- It also sets the distribution. -/
def isKnownImage (path : String) : EStateM Exn DiskImage Bool :=
  if Text.filename path ∈ knownImageFilename then do
    let distro ← liftExcept (imageDistro (Text.filename path))
    modify fun image => { image with distro := some distro }
    return true
  else return false

def hasVerifiedChecksum (opts : Options) (host : Host) (path : String) : Except Exn Bool :=
  if opts.dryRun ∨ opts.shouldSkip "disk-checksum" then .ok true
  else do
    let checksum ← host.checksum path
    match hashMap.lookup (Text.filename path) with
    | some hash => return checksum == hash
    | none => throw ⟨.undefinedBehaviour, "dereference of the end iterator"⟩

def setPath (opts : Options) (host : Host) (path : String) : EStateM Exn DiskImage Unit := do
  refuseIf (Text.extension (Text.filename path) ≠ ".iso")
    (.runtimeError "Disk Image must have ISO extension")
  let known ← isKnownImage path
  let verified ← if known then liftExcept (hasVerifiedChecksum opts host path) else pure true
  refuseIf (!verified) (.runtimeError "Disk Image checksum isn't valid")
  modify fun image => { image with path }

def getDistro (image : DiskImage) : Except Exn OS.Distro := optionValue image.distro

end DiskImage

/-! ### Servers -/

structure CPU where
  sockets : ℕ := 0
  cores : ℕ := 0
  threads : ℕ := 0
  coresPerSocket : ℕ := 0
  threadsPerCore : ℕ := 0
  deriving DecidableEq

structure BMC where
  address : String := ""
  username : String := ""
  password : String := ""
  serialPort : ℕ := 0
  serialSpeed : ℕ := 115200
  deriving DecidableEq

structure Server where
  hostname : String := ""
  os : OS := {}
  cpu : CPU := {}
  connections : List Connection := []
  bmc : Option BMC := none
  fqdn : String := ""
  deriving DecidableEq

structure Node extends Server where
  pre : Option String := none
  padding : Option ℕ := none
  nodeStartIp : Option Address := none
  macAddress : String := ""
  nodeRootPassword : Option String := none
  deriving DecidableEq

/-- `Headnode::discoverNames`. -/
def discoverNames (nodename : String) : String × String :=
  let hostparts := (nodename.toList.splitOn '.').map String.ofList
  let hostname := if nodename = "" then "localhost" else hostparts.headD ""
  let hasDomain := hostparts[1]?.any fun domain => domain ≠ "" && domain ≠ "(none)"
  (hostname, if hasDomain then nodename else hostname ++ ".localdomain")

/-! ### The cluster -/

namespace OFED

inductive Kind where
  | Inbox | Mellanox | Oracle
  deriving DecidableEq, Repr

instance : NamedEnum Kind where
  values := [.Inbox, .Mellanox, .Oracle]
  name
    | .Inbox => "Inbox"
    | .Mellanox => "Mellanox"
    | .Oracle => "Oracle"

end OFED

structure OFED where
  kind : OFED.Kind
  version : String
  deriving DecidableEq

structure SLURM where
  defaultQueue : String := ""
  deriving DecidableEq

/-- The members of the mail service that are set from an answer file. -/
structure MailSystem where
  profile : Postfix.Profile
  hostname : Option String := none
  domain : Option String := none
  destination : Option (List String) := none
  smtpServer : Option String := none
  port : Option UInt16 := none
  username : Option String := none
  password : Option String := none
  certFile : Option String := none
  keyFile : Option String := none
  deriving DecidableEq

structure Cluster where
  name : String := ""
  companyName : String := ""
  adminMail : String := ""
  headnode : Server
  ofed : Option OFED := none
  queueSystem : Option SLURM := none
  mailSystem : Option MailSystem := none
  nodes : List Node := []
  timezone : String := ""
  locale : String := ""
  networks : List Network := []
  updateSystem : Bool := false
  diskImage : DiskImage := {}
  nodeStartIP : Address := .unset
  nodeRootPassword : String := ""
  deriving DecidableEq

namespace Cluster

abbrev ClusterM := EStateM Exn Cluster

/-- The constructor, which reads the names and the system of the host. -/
def construct (host : Host) : Except Exn Cluster := do
  let os ← host.os
  let (hostname, fqdn) := discoverNames host.nodename
  return { headnode := { hostname, fqdn, os } }

def getDomainName (cluster : Cluster) : String := Text.afterFirst '.' cluster.headnode.fqdn

def setHostname (hostname : String) : ClusterM Unit :=
  modify fun cluster => { cluster with headnode.hostname := hostname }

def setFQDN (fqdn : String) : ClusterM Unit :=
  modify fun cluster => { cluster with headnode.fqdn := fqdn }

/-- `fmt::format("{}.{}", hostname, domainName)`. -/
def fullName (hostname domainName : String) : String := hostname ++ "." ++ domainName

/-- The domain is kept in the headnode's full name only. -/
def setDomainName (domainName : String) : ClusterM Unit := do
  let cluster ← get
  setFQDN (fullName cluster.headnode.hostname domainName)

def addNetwork (network : Network) : ClusterM Unit :=
  modify fun cluster => { cluster with networks := cluster.networks ++ [network] }

def addConnection (connection : Connection) : ClusterM Unit :=
  modify fun cluster =>
    { cluster with headnode.connections := cluster.headnode.connections ++ [connection] }

def addNode (node : Node) : ClusterM Unit :=
  modify fun cluster => { cluster with nodes := cluster.nodes ++ [node] }

/-- The first network with this profile, with its position. -/
def getNetwork (profile : Network.Profile) : ClusterM (Network × ℕ) := do
  let cluster ← get
  match cluster.networks.zipIdx.find? (·.1.profile = profile) with
  | some found => return found
  | none => throw (.runtimeError
      s!"Cannot get any network with the profile {NamedEnum.name profile}")

def setDiskImage (opts : Options) (host : Host) (diskImagePath : String) : ClusterM Unit := do
  refuseIf (!host.pathExists diskImagePath)
    (.runtimeError s!"Disk image path {diskImagePath} doesn't exist")
  zoom Cluster.diskImage (fun diskImage cluster => { cluster with diskImage })
    (DiskImage.setPath opts host diskImagePath)

end Cluster

end Cloyster.Models
