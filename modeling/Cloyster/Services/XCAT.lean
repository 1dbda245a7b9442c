import Cloyster.Models.Profiles

/-! The parts of `services/xcat` that read the cluster: the name and the path of the
node image, and the commands that register the nodes. Reading the first node of an
empty list has no meaning. Commands are the texts handed to the runner. -/

namespace Cloyster.Models

open Lib

namespace Cluster

/-- `Server::getConnection`. A connection's network is looked up in the cluster. -/
def getConnection (cluster : Cluster) (server : Server) (profile : Network.Profile) :
    Except Exn Connection :=
  match server.connections.find? fun connection =>
      (cluster.networks[connection.network]?).map (·.profile) = some profile with
  | some connection => .ok connection
  | none => .error (.runtimeError
      s!"Cannot get any connection with profile {NamedEnum.name profile}")

/-- `getNodes()[0]`. -/
def firstNode (cluster : Cluster) : Except Exn Node :=
  match cluster.nodes with
  | node :: _ => .ok node
  | [] => .error ⟨.undefinedBehaviour, "index into an empty vector"⟩

end Cluster

namespace XCAT

inductive ImageType where
  | Install | Netboot
  deriving DecidableEq, Repr

inductive NodeType where
  | Compute | Service
  deriving DecidableEq, Repr

/-- The members of `XCAT::Image` that the modelled functions set or read. -/
structure Image where
  osimage : String := ""
  chroot : String := ""
  deriving DecidableEq

abbrev XCATM := EStateM Exn Image

/-- What the scripts that customize the image are told. -/
structure ImageInstallArgs where
  imageName : String
  rootfs : String
  postinstall : String
  pkglist : String

variable (cluster : Cluster)

/-! ### The node image -/

/-- The distribution name with the version, e.g., rocky9.5. -/
def getOSImageDistroVersion : Except Exn String := do
  let distro ← cluster.diskImage.getDistro
  let node ← cluster.firstNode
  let version := node.os.getVersion
  match distro with
  | .RHEL => return "rhels" ++ version
  | .OL => return "ol" ++ version ++ ".0"
  | .Rocky => return "rocky" ++ version
  | .AlmaLinux => return "alma" ++ version

def imageTypeName : ImageType → String
  | .Install => "install"
  | .Netboot => "netboot"

def nodeTypeName : NodeType → String
  | .Compute => "compute"
  | .Service => "service"

def generateOSImageName (imageType : ImageType) (nodeType : NodeType) : XCATM Unit := do
  let osimage ← liftExcept (getOSImageDistroVersion cluster)
  let node ← liftExcept cluster.firstNode
  modify fun image => { image with
    osimage := osimage ++ "-" ++ NamedEnum.name node.os.arch ++ "-" ++ imageTypeName imageType ++
      "-" ++ nodeTypeName nodeType }

/-- Both kinds of nodes have the same path. -/
def generateOSImagePath (imageType : ImageType) (_nodeType : NodeType) : XCATM Unit := do
  refuseIf (imageType ≠ .Netboot)
    ⟨.logicError, "Image path is only available on Netboot (Stateless) images"⟩
  let distroVersion ← liftExcept (getOSImageDistroVersion cluster)
  let node ← liftExcept cluster.firstNode
  modify fun image => { image with
    chroot := "/install/netboot/" ++ distroVersion ++ "/" ++ NamedEnum.name node.os.arch ++
      "/compute/rootimg" }

/-- The constructor. -/
def construct : Except Exn Image := exec (generateOSImageName cluster .Netboot .Compute) {}

/-! ### Registering the nodes -/

variable (text : AddressText)

def bmcOptions (bmc : BMC) : String :=
  s!"bmc={bmc.address} bmcusername={bmc.username} bmcpassword={bmc.password} mgt=ipmi " ++
    s!"cons=ipmi serialport={bmc.serialPort} serialspeed={bmc.serialSpeed} "

/-- Without a connection to the application network there are no such options. -/
def nicOptions (node : Node) : String :=
  match cluster.getConnection node.toServer .Application with
  | .ok connection => s!"nicips.ib0={text.toString connection.address} " ++
      "nictypes.ib0=\"InfiniBand\" nicnetworks.ib0=ib0 "
  | .error _ => ""

/-- The command that defines a node. -/
def addNode (node : Node) : Except Exn String := do
  let connection ← cluster.getConnection node.toServer .Management
  let mac ← optionValue connection.mac
  return s!"mkdef -f -t node {node.hostname} arch={NamedEnum.name node.os.arch} " ++
    s!"ip={text.toString connection.address} mac={mac} groups=compute,all netboot=xnba " ++
    node.bmc.elim "" bmcOptions ++ nicOptions cluster text node

/-- The commands in order. The result of each but the last is ignored. -/
def addNodes (image : Image) : Except Exn (List String) := do
  let definitions ← cluster.nodes.mapM (addNode cluster text)
  return definitions ++ ["makehosts", "makedhcp -n", "makedns -n", "makegocons",
    s!"nodeset compute osimage={image.osimage}"]

/-! ### What has to be there -/

variable {cluster text} {distro : OS.Distro} {node : Node} {nodes : List Node}

theorem getOSImageDistroVersion_isOk_iff :
    (∃ s, getOSImageDistroVersion cluster = .ok s) ↔
      cluster.nodes ≠ [] ∧ cluster.diskImage.distro.isSome := by
  unfold getOSImageDistroVersion DiskImage.getDistro Cluster.firstNode
  simp only [except_bind_ok_iff, optionValue_ok_iff]
  cases hdistro : cluster.diskImage.distro with
  | none => simp
  | some distro =>
    cases cluster.nodes with
    | nil => simp
    | cons node nodes => cases distro <;> simp

theorem firstNode_isOk_iff : (∃ node, cluster.firstNode = .ok node) ↔ cluster.nodes ≠ [] := by
  unfold Cluster.firstNode
  cases cluster.nodes <;> simp

theorem generateOSImageName_isOk_iff {imageType : ImageType} {nodeType : NodeType} {image : Image} :
    (∃ image', generateOSImageName cluster imageType nodeType image = .ok () image') ↔
      cluster.nodes ≠ [] ∧ cluster.diskImage.distro.isSome := by
  rw [← getOSImageDistroVersion_isOk_iff]
  simp only [generateOSImageName, bind_ok_iff, liftExcept_ok_iff, modify_ok_iff]
  constructor
  · rintro ⟨image', osimage, image, ⟨hversion, rfl⟩, -⟩
    exact ⟨osimage, hversion⟩
  · rintro ⟨osimage, hversion⟩
    have hnodes := (getOSImageDistroVersion_isOk_iff.mp ⟨osimage, hversion⟩).1
    obtain ⟨node, hnode⟩ := firstNode_isOk_iff.mpr hnodes
    exact ⟨_, osimage, _, ⟨hversion, rfl⟩, node, _, ⟨hnode, rfl⟩, rfl⟩

theorem generateOSImagePath_isOk_iff {nodeType : NodeType} {image : Image} :
    (∃ image', generateOSImagePath cluster .Netboot nodeType image = .ok () image') ↔
      cluster.nodes ≠ [] ∧ cluster.diskImage.distro.isSome := by
  rw [← getOSImageDistroVersion_isOk_iff]
  simp only [generateOSImagePath, bind_ok_iff, refuseIf_ok_iff, liftExcept_ok_iff, modify_ok_iff]
  constructor
  · rintro ⟨image', _, image, ⟨-, rfl⟩, version, _, ⟨hversion, rfl⟩, -⟩
    exact ⟨version, hversion⟩
  · rintro ⟨version, hversion⟩
    have hnodes := (getOSImageDistroVersion_isOk_iff.mp ⟨version, hversion⟩).1
    obtain ⟨node, hnode⟩ := firstNode_isOk_iff.mpr hnodes
    exact ⟨_, ⟨⟩, image, ⟨by simp, rfl⟩, version, _, ⟨hversion, rfl⟩, node, _, ⟨hnode, rfl⟩, rfl⟩

theorem construct_isOk_iff :
    (∃ image, construct cluster = .ok image) ↔
      cluster.nodes ≠ [] ∧ cluster.diskImage.distro.isSome := by
  have hname : (∃ image, generateOSImageName cluster .Netboot .Compute {} = .ok () image) ↔ _ :=
    generateOSImageName_isOk_iff
  rw [← hname]
  simp only [construct, exec_ok_iff]
  exact ⟨fun ⟨image, _, h⟩ => ⟨image, h⟩, fun ⟨image, h⟩ => ⟨image, _, h⟩⟩

end XCAT

end Cloyster.Models
