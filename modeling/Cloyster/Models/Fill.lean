import Cloyster.Models.Cluster

/-! `Cluster::fillData`: the cluster that an answer file describes. The blocks of the
function are definitions of their own, in the order of the source. -/

namespace Cloyster.Models

open Lib

/-- `std::optional::value`. -/
def value {σ α : Type} (o : Option α) : EStateM Exn σ α := liftExcept (optionValue o)

namespace Cluster

variable (boost : Boost) (opts : Options) (host : Host)

/-! ### Networks -/

def setCalculatedAddress (connectionAddress : Address) : Network.NetworkM Unit := do
  let network ← get
  let address ← liftExcept (network.calculateAddress connectionAddress)
  Network.setAddress address

/-- The nameservers of the section, or those of the host. -/
def setNameserversOrFetch : Option (List String) → Network.NetworkM Unit
  | some nameservers => Network.setNameserversText boost.toAddressText nameservers
  | none => do
    let nameservers ← liftExcept (Network.fetchNameservers host)
    Network.setNameservers nameservers

/-- The subnet mask of the section, or that of the interface. -/
def setSubnetMaskOrFetch (field : AFNetwork) : Network.NetworkM Unit :=
  match field.subnet_mask with
  | some subnetMask => Network.setSubnetMask boost.toAddressText subnetMask
  | none => do
    let interface ← value field.con_interface
    let subnetMask ← liftExcept (Network.fetchSubnetMask host interface)
    Network.setSubnetMask boost.toAddressText subnetMask

def setDomainNameOrFetch (field : AFNetwork) : Network.NetworkM Unit := do
  let domainName ← liftExcept (AnswerFile.dereference field.domain_name)
  if domainName ≠ "" then Network.setDomainName domainName
  else do
    let fetched ← liftExcept (Network.fetchDomainName host)
    Network.setDomainName fetched

def managementNetwork (management : AFNetwork) : Except Exn Network :=
  exec (do
    let subnetMask ← value management.subnet_mask
    Network.setSubnetMask boost.toAddressText subnetMask
    management.gateway.forM Network.setGateway
    let domainName ← value management.domain_name
    Network.setDomainName domainName
    setNameserversOrFetch boost host management.nameservers
    let ip ← value management.con_ip_addr
    setCalculatedAddress ip) { profile := .Management }

def externalNetwork (external : AFNetwork) : Except Exn Network :=
  exec (do
    setSubnetMaskOrFetch boost host external
    external.gateway.forM Network.setGateway
    setDomainNameOrFetch host external
    setNameserversOrFetch boost host external.nameservers) { profile := .External }

def serviceNetwork (service : AFNetwork) : Except Exn Network :=
  exec (do
    setSubnetMaskOrFetch boost host service
    match service.gateway with
    | some gateway => Network.setGateway gateway
    | none => do
      let interface ← value service.con_interface
      let gateway ← liftExcept (Network.fetchGateway boost.toAddressText host interface)
      Network.setGateway gateway
    setDomainNameOrFetch host service
    setNameserversOrFetch boost host service.nameservers) { profile := .Service }

def throwIfEmpty {α : Type} (fieldname : String) : Option α → Network.NetworkM α
  | some a => pure a
  | none => throw ⟨.answerfileValidation, s!"Field {fieldname} of application network is empty"⟩

def applicationNetwork (application : AFNetwork) : Except Exn Network :=
  exec (do
    let subnetMask ← throwIfEmpty "subnet_mask" application.subnet_mask
    let gateway ← throwIfEmpty "gateway" application.gateway
    let domainName ← throwIfEmpty "domain_name" application.domain_name
    let nameservers ← throwIfEmpty "nameservers" application.nameservers
    Network.setSubnetMask boost.toAddressText subnetMask
    Network.setGateway gateway
    Network.setDomainName domainName
    Network.setNameserversText boost.toAddressText nameservers) { profile := .Application }

/-! ### Connections -/

/-- A MAC address that is not empty. -/
def setMACUnlessEmpty (mac : Option String) : Connection.ConnectionM Unit := do
  let mac ← liftExcept (AnswerFile.dereference mac)
  if mac ≠ "" then Connection.setMAC mac else pure ()

/-- A new connection to the network of this profile, with the calls made on it. -/
def newConnection (profile : Network.Profile) (calls : Connection.ConnectionM Unit) :
    ClusterM Connection := do
  let (network, i) ← getNetwork profile
  liftExcept (do
    let connection ← Connection.construct i network.type
    exec calls connection)

/-- The network of this profile gets the address that a connection lies in. -/
def setNetworkAddress (profile : Network.Profile) (ip : Address) : ClusterM Unit := do
  let (network, i) ← getNetwork profile
  let network' ← liftExcept (exec (setCalculatedAddress ip) network)
  modify fun cluster => { cluster with networks := cluster.networks.set i network' }

def connectManagement (management : AFNetwork) (network : Network) : ClusterM Unit := do
  addNetwork network
  let connection ← newConnection .Management (do
    let interface ← value management.con_interface
    Connection.setInterface host interface
    let ip ← value management.con_ip_addr
    Connection.setAddress ip
    setMACUnlessEmpty management.con_mac_addr)
  addConnection connection

/-- The address of the section, or that of the interface. -/
def addressOrFetch (field : AFNetwork) (interface : String) : Except Exn Address :=
  match field.con_ip_addr with
  | some ip => .ok ip
  | none => Connection.fetchAddress host interface

def connectExternal (external : AFNetwork) (network : Network) : ClusterM Unit := do
  addNetwork network
  let interface ← value external.con_interface
  let connection ← newConnection .External (Connection.setInterface host interface)
  let ip ← liftExcept (addressOrFetch host external interface)
  let connection ← liftExcept (exec (Connection.setAddress ip) connection)
  setNetworkAddress .External ip
  let connection ← liftExcept (exec (setMACUnlessEmpty external.con_mac_addr) connection)
  addConnection connection

/-- The last part of the service and of the application network. -/
def connect (profile : Network.Profile) (mac interface : Option String) (ip : Option Address) :
    ClusterM Unit := do
  let connection ← newConnection profile (do
    setMACUnlessEmpty mac
    let interface ← value interface
    Connection.setInterface host interface
    let ip ← value ip
    Connection.setAddress ip)
  let ip ← value ip
  setNetworkAddress profile ip
  addConnection connection

/-- The connection's interface comes from the application network. -/
def connectService (service application : AFNetwork) : ClusterM Unit :=
  if service.con_interface.isSome then do
    let network ← liftExcept (serviceNetwork boost host service)
    addNetwork network
    connect host .Service service.con_mac_addr application.con_interface service.con_ip_addr
  else pure ()

def connectApplication (application : AFNetwork) : ClusterM Unit :=
  if application.con_interface.isSome then do
    let network ← liftExcept (applicationNetwork boost application)
    addNetwork network
    connect host .Application application.con_mac_addr application.con_interface
      application.con_ip_addr
  else pure ()

/-! ### Names, system and services -/

def nodeOS (system : AFSystem) : Except Exn OS := do
  let os ← host.os
  let distro ← AnswerFile.dereference system.distro
  exec (OS.setVersion system.version)
    { os with arch := .x86_64, family := .Linux, distro := some distro, kernel := system.kernel }

def setInformation (af : AnswerFile) : ClusterM Unit :=
  modify fun cluster => { cluster with
    name := af.information.cluster_name
    companyName := af.information.company_name
    adminMail := af.information.administrator_email
    timezone := af.time.timezone
    locale := af.time.locale }

/-- The full name is written twice, the second time from the domain read back. -/
def setIdentity (hostname : AFHostname) : ClusterM Unit := do
  setHostname hostname.hostname
  setDomainName hostname.domain_name
  let cluster ← get
  setFQDN (fullName cluster.headnode.hostname cluster.getDomainName)

def setOFED (kind : OFED.Kind) (version : String) : ClusterM Unit :=
  modify fun cluster => { cluster with ofed := some { kind, version } }

/-- The text of the error has its arguments in the wrong places. -/
def fillOFED (ofed : AFOFED) : ClusterM Unit :=
  if ofed.enabled then
    match ofStringInsensitive OFED.Kind ofed.kind with
    | none =>
      let names := ", ".intercalate
        ((NamedEnum.values : List OFED.Kind).map fun kind => NamedEnum.name kind)
      throw (.runtimeError (s!"Invalid OFED kind, expected one of {opts.answerfile}, found " ++
        s!"{names}. Edit the anwerfile {ofed.kind} [ofed] section and try again."))
    | some kind => do
      let version ← value ofed.version
      setOFED kind version
  else setOFED .Inbox "latest"

def setQueueSystem : ClusterM Unit :=
  modify fun cluster => { cluster with queueSystem := some { defaultQueue := "execution" } }

def setOS (os : OS) : ClusterM Unit :=
  modify fun cluster => { cluster with updateSystem := true, headnode.os := os }

/-! ### Nodes -/

def convertOrError (nodename fieldName value : String) : Except Exn ℕ :=
  match Text.stoul value with
  | .ok n => .ok n
  | .error .invalidArgument => .error ⟨.answerfileValidation,
      s!"Conversion error on node {nodename}: field {fieldName} is not a number " ++
        s!"(value is {value})"⟩
  | .error .outOfRange => .error ⟨.outOfRange, "stoul"⟩

def nodeMAC (nodename : String) : Option String → Except Exn String
  | none => .error ⟨.answerfileValidation, s!"Missing MAC address on node {nodename}"⟩
  | some mac =>
    match Connection.validateMAC mac with
    | .ok _ => .ok mac
    | .error e => .error ⟨.answerfileValidation,
        s!"Error decoding MAC address (read {mac}) of node {nodename}: {e}"⟩

def makeNode (os : OS) (management : Network × ℕ) (node : AFNode) : Except Exn Node := do
  let connection ← Connection.construct management.2 management.1.type
  let _ ← host.os
  let hostname ← optionValue node.hostname
  let startIp ← optionValue node.start_ip
  let mac ← nodeMAC hostname node.mac_address
  let rootPassword ← optionValue node.root_password
  let sockets ← optionValue node.sockets >>= convertOrError hostname "sockets"
  let coresPerSocket ←
    optionValue node.cores_per_socket >>= convertOrError hostname "cores_per_socket"
  let threadsPerCore ←
    optionValue node.threads_per_core >>= convertOrError hostname "threads_per_core"
  let address ← optionValue node.bmc_address
  let username ← optionValue node.bmc_username
  let password ← optionValue node.bmc_password
  let serialPort ← optionValue node.bmc_serialport >>= convertOrError hostname "bmc_serialport"
  let serialSpeed ← optionValue node.bmc_serialspeed >>= convertOrError hostname "bmc_serialspeed"
  let connection ← exec (do
    Connection.setMAC mac
    Connection.setAddress startIp) connection
  return {
    hostname, os
    cpu := { sockets, coresPerSocket, threadsPerCore }
    connections := [connection]
    bmc := some { address, username, password, serialPort, serialSpeed }
    nodeStartIp := some startIp
    macAddress := mac
    nodeRootPassword := some rootPassword }

def fillNode (os : OS) (node : AFNode) : ClusterM Unit := do
  let management ← getNetwork .Management
  let newNode ← liftExcept (makeNode host os management node)
  addNode newNode

/-! ### The mail system -/

/-- The port is an `int` in the answer file and 16 bits wide here. -/
def mailServer (settings : AFPostfix) (mail : MailSystem) : Except Exn MailSystem :=
  match mail.profile with
  | .Local => .ok mail
  | .Relay => do
    let smtp ← optionValue settings.smtp
    return { mail with
      smtpServer := some smtp.server
      port := some (UInt16.ofNat (smtp.port % 2 ^ 16).toNat) }
  | .SASL => do
    let smtp ← optionValue settings.smtp
    let sasl ← optionValue smtp.sasl
    return { mail with
      smtpServer := some smtp.server
      port := some (UInt16.ofNat (smtp.port % 2 ^ 16).toNat)
      username := some sasl.username
      password := some sasl.password }

def fillMailSystem (settings : AFPostfix) : ClusterM Unit :=
  if settings.enabled then do
    let cluster ← get
    let profile ← liftExcept (AnswerFile.dereference settings.profile)
    let mail ← liftExcept (mailServer settings {
      profile
      hostname := some cluster.headnode.hostname
      domain := some cluster.getDomainName
      destination := some settings.destination
      certFile := some settings.cert_file
      keyFile := some settings.key_file })
    modify fun cluster => { cluster with mailSystem := some mail }
  else pure ()

/-- The members that predate the answer file. -/
def setGeneric (nodes : AFNodes) : ClusterM Unit := do
  let generic ← liftExcept (AnswerFile.dereference nodes.generic)
  let nodeStartIP ← value generic.start_ip
  let nodeRootPassword ← value generic.root_password
  modify fun cluster => { cluster with nodeStartIP, nodeRootPassword }

/-! ### The whole function -/

/-- `fillData` from the loaded answer file on. -/
def fill (af : AnswerFile) : ClusterM Unit := do
  let management ← liftExcept (managementNetwork boost host af.management)
  let external ← liftExcept (externalNetwork boost host af.external)
  setDiskImage opts host af.system.disk_image
  let os ← liftExcept (nodeOS host af.system)
  setInformation af
  setIdentity af.hostname
  fillOFED opts af.ofed
  setQueueSystem
  connectManagement host af.management management
  connectExternal host af.external external
  connectService boost host af.service af.application
  connectApplication boost host af.application
  setOS os
  af.nodes.nodes.forM (fillNode host os)
  fillMailSystem af.postfixSettings
  setGeneric af.nodes

/-- `fillData` on the content of an answer file. -/
def fillData (file : KeyFile) : ClusterM Unit := do
  let af ← liftExcept (AnswerFile.loadOptions boost opts file {})
  fill boost opts host af

/-- A new cluster, filled. -/
def fillNew (file : KeyFile) : Except Exn Cluster := do
  let cluster ← construct host
  exec (fillData boost opts host file) cluster

end Cluster

end Cloyster.Models
