import Cloyster.Models.Connection
import Cloyster.Services.KeyFile

/-! The answer file: what it holds, and how it is loaded from a key file. A member
that C++ leaves uninitialised is an option that is still empty. What Boost reads
from a text, addresses and numbers, is a parameter. -/

namespace Cloyster

open Lib

/-- The conversions of Boost. -/
structure Boost extends AddressText where
  /-- `boost::lexical_cast<std::size_t>`, when it does not throw. -/
  lexicalCast : String → Option ℕ

/-- Dotted quads, and numbers written in digits. -/
def Boost.digits : Boost where
  toAddressText := .dottedQuads
  lexicalCast s :=
    let ds := s.toList
    if ds ≠ [] ∧ ds.all Char.isDigit ∧ Text.digitsValue ds < 2 ^ 64 then
      some (Text.digitsValue ds)
    else none

namespace Postfix

inductive Profile where
  | Local | Relay | SASL
  deriving DecidableEq, Repr

instance : NamedEnum Profile where
  values := [.Local, .Relay, .SASL]
  name
    | .Local => "Local"
    | .Relay => "Relay"
    | .SASL => "SASL"

end Postfix

structure AFNode where
  pre : Option String := none
  padding : Option String := none
  start_ip : Option Address := some .unset
  hostname : Option String := none
  root_password : Option String := none
  mac_address : Option String := none
  sockets : Option String := none
  cores_per_socket : Option String := none
  threads_per_core : Option String := none
  bmc_address : Option String := none
  bmc_username : Option String := none
  bmc_password : Option String := none
  bmc_serialport : Option String := none
  bmc_serialspeed : Option String := none
  deriving DecidableEq

structure AFNetwork where
  subnet_mask : Option Address := none
  gateway : Option Address := none
  domain_name : Option String := none
  nameservers : Option (List String) := none
  con_interface : Option String := none
  con_ip_addr : Option Address := none
  con_mac_addr : Option String := none
  deriving DecidableEq

structure AFInformation where
  cluster_name : String := ""
  company_name : String := ""
  administrator_email : String := ""
  deriving DecidableEq

structure AFTime where
  timezone : String := ""
  timeserver : String := ""
  locale : String := ""
  deriving DecidableEq

structure AFHostname where
  hostname : String := ""
  domain_name : String := ""
  deriving DecidableEq

structure AFSystem where
  disk_image : String := ""
  distro : Option OS.Distro := none
  version : String := ""
  kernel : String := ""
  deriving DecidableEq

structure AFNodes where
  generic : Option AFNode := none
  nodes : List AFNode := []
  deriving DecidableEq

structure AFSASL where
  username : String := ""
  password : String := ""
  deriving DecidableEq

structure AFSMTP where
  server : String
  port : ℤ
  sasl : Option AFSASL := none
  deriving DecidableEq

structure AFPostfix where
  enabled : Bool := false
  destination : List String := []
  profile : Option Postfix.Profile := none
  smtp : Option AFSMTP := none
  cert_file : String := ""
  key_file : String := ""
  deriving DecidableEq

structure AFOFED where
  kind : String := "Inbox"
  version : Option String := some "latest"
  enabled : Bool := false
  deriving DecidableEq

structure AnswerFile where
  external : AFNetwork := {}
  management : AFNetwork := {}
  application : AFNetwork := {}
  service : AFNetwork := {}
  information : AFInformation := {}
  time : AFTime := {}
  hostname : AFHostname := {}
  system : AFSystem := {}
  nodes : AFNodes := {}
  postfixSettings : AFPostfix := {}
  ofed : AFOFED := {}
  deriving DecidableEq

namespace AnswerFile

variable (boost : Boost) (opts : Options) (file : KeyFile)

def convertStringToAddress (addr : String) : Except Exn Address :=
  match boost.makeAddress addr with
  | some a => .ok a
  | none => .error ⟨.invalidArgument, "Invalid address"⟩

/-- Catch `std::invalid_argument` and throw it again under a longer text. -/
def explainInvalid {α : Type} (message : String → String) : Except Exn α → Except Exn α
  | .error ⟨.invalidArgument, what⟩ => .error ⟨.invalidArgument, message what⟩
  | r => r

/-! ### Networks -/

/-- A key that is absent leaves the destination as it was. -/
def convertNetworkAddressAndValidate (sectionName fieldName : String)
    (destination : Option Address) : Except Exn (Option Address) := do
  match ← file.getStringOpt sectionName fieldName with
  | none => return destination
  | some value =>
    let a ← explainInvalid (fun what =>
      s!"Network section '{sectionName}' field '{fieldName}' validation failed - {what}")
      (convertStringToAddress boost value)
    return some a

def loadNetwork (networkSection : String) (network : AFNetwork) : Except Exn AFNetwork := do
  let con_interface ← file.getString networkSection "interface"
  let con_ip_addr ←
    convertNetworkAddressAndValidate boost file networkSection "ip_address" network.con_ip_addr
  let con_mac_addr ← file.getStringOr networkSection "mac_address" ""
  let subnet_mask ←
    convertNetworkAddressAndValidate boost file networkSection "subnet_mask" network.subnet_mask
  let domain_name ← file.getStringOr networkSection "domain_name" ""
  let gateway ←
    convertNetworkAddressAndValidate boost file networkSection "gateway" network.gateway
  let nameservers ← file.getStringOpt networkSection "nameservers"
  return {
    subnet_mask
    gateway
    domain_name := some domain_name
    nameservers := (nameservers.map (Text.split · ", ")).or network.nameservers
    con_interface := some con_interface
    con_ip_addr
    con_mac_addr := some con_mac_addr }

def loadExternalNetwork (af : AnswerFile) : Except Exn AnswerFile := do
  return { af with external := ← loadNetwork boost file "network_external" af.external }

def loadManagementNetwork (af : AnswerFile) : Except Exn AnswerFile := do
  return { af with management := ← loadNetwork boost file "network_management" af.management }

/-- Nothing calls it. -/
def loadServiceNetwork (af : AnswerFile) : Except Exn AnswerFile := do
  if !file.hasGroup "network_service" then return af
  return { af with service := ← loadNetwork boost file "network_service" af.service }

def loadApplicationNetwork (af : AnswerFile) : Except Exn AnswerFile := do
  if !file.hasGroup "network_application" then return af
  return { af with application := ← loadNetwork boost file "network_application" af.application }

/-! ### Sections of plain texts -/

def loadInformation (af : AnswerFile) : Except Exn AnswerFile := do
  let cluster_name ← file.getString "information" "cluster_name"
  let company_name ← file.getString "information" "company_name"
  let administrator_email ← file.getString "information" "administrator_email"
  return { af with information := { cluster_name, company_name, administrator_email } }

def loadTimeSettings (af : AnswerFile) : Except Exn AnswerFile := do
  let timezone ← file.getString "time" "timezone"
  let timeserver ← file.getString "time" "timeserver"
  let locale ← file.getString "time" "locale"
  return { af with time := { timezone, timeserver, locale } }

def loadHostnameSettings (af : AnswerFile) : Except Exn AnswerFile := do
  let hostname ← file.getString "hostname" "hostname"
  let domain_name ← file.getString "hostname" "domain_name"
  return { af with hostname := { hostname, domain_name } }

/-- A dry run accepts a distribution it does not know, and then reads no further. -/
def loadSystemSettings (af : AnswerFile) : Except Exn AnswerFile := do
  let disk_image ← file.getString "system" "disk_image"
  let afDistro ← file.getString "system" "distro"
  match ofStringInsensitive OS.Distro afDistro with
  | none =>
    if opts.dryRun then return { af with system := { af.system with disk_image } }
    else throw (.runtimeError s!"Unsupported distro: {afDistro}")
  | some distro =>
    let version ← file.getString "system" "version"
    let kernel ← file.getString "system" "kernel"
    return { af with system := { disk_image, distro := some distro, version, kernel } }

/-! ### Nodes -/

/-- `*` and `->` on an optional. -/
def dereference {α : Type} : Option α → Except Exn α
  | some a => .ok a
  | none => .error ⟨.undefinedBehaviour, "dereference of an empty optional"⟩

/-- The key `node_ip`; without it the node keeps the address it is made with. -/
def loadStartIp (sectionName : String) : Except Exn (Option Address) := do
  match ← file.getStringOpt sectionName "node_ip" with
  | none => return some .unset
  | some value =>
    let a ← explainInvalid (fun what =>
      s!"Section '{sectionName}' field 'node_ip' validation failed - {what}")
      (convertStringToAddress boost value)
    return some a

/-- A member that only some sections set. -/
def getStringIf (p : Prop) [Decidable p] (sectionName key : String) :
    Except Exn (Option String) :=
  if p then some <$> file.getString sectionName key else pure none

def loadNode (sectionName : String) : Except Exn AFNode := do
  let pre ← getStringIf file (sectionName = "node") sectionName "prefix"
  let padding ← getStringIf file (sectionName = "node") sectionName "padding"
  let mac_address ← getStringIf file (sectionName ≠ "node") sectionName "mac_address"
  let start_ip ← loadStartIp boost file sectionName
  let hostname ← file.getStringOr sectionName "hostname" ""
  let root_password ← file.getStringOr sectionName "node_root_password" ""
  let sockets ← file.getStringOr sectionName "sockets" ""
  let cores_per_socket ← file.getStringOr sectionName "cores_per_socket" ""
  let threads_per_core ← file.getStringOr sectionName "threads_per_core" ""
  let bmc_address ← file.getStringOr sectionName "bmc_address" ""
  let bmc_username ← file.getStringOr sectionName "bmc_username" ""
  let bmc_password ← file.getStringOr sectionName "bmc_password" ""
  let bmc_serialport ← file.getStringOr sectionName "bmc_serialport" ""
  let bmc_serialspeed ← file.getStringOr sectionName "bmc_serialspeed" ""
  return {
    pre, padding, mac_address, start_ip
    hostname := some hostname
    root_password := some root_password
    sockets := some sockets
    cores_per_socket := some cores_per_socket
    threads_per_core := some threads_per_core
    bmc_address := some bmc_address
    bmc_username := some bmc_username
    bmc_password := some bmc_password
    bmc_serialport := some bmc_serialport
    bmc_serialspeed := some bmc_serialspeed }

/-- `validateAttribute`, for texts that may be `empty` and addresses that may be
unspecified. -/
def validateAttribute {α : Type} (isEmpty : α → Bool) (sectionName attributeName : String)
    (objectAttr genericAttr : Option α) : Except Exn (Option α) := do
  if !isEmpty (← dereference objectAttr) then return objectAttr
  if isEmpty (← dereference genericAttr) then
    throw ⟨.invalidArgument, s!"{sectionName} must have a \"{attributeName}\" key or you must " ++
      s!"inform a generic \"{attributeName}\" value"⟩
  return genericAttr

def validateText (attributeName : String) (field : AFNode → Option String)
    (node generic : AFNode) : Except Exn (Option String) :=
  validateAttribute (· == "") "node" attributeName (field node) (field generic)

def validateNode (generic node : AFNode) : Except Exn AFNode := do
  let start_ip ←
    validateAttribute Address.isUnspecified "node" "node_ip" node.start_ip generic.start_ip
  let root_password ← validateText "node_root_password" AFNode.root_password node generic
  let sockets ← validateText "sockets" AFNode.sockets node generic
  let cores_per_socket ← validateText "cores_per_socket" AFNode.cores_per_socket node generic
  let threads_per_core ← validateText "threads_per_core" AFNode.threads_per_core node generic
  let bmc_address ← validateText "bmc_address" AFNode.bmc_address node generic
  let bmc_username ← validateText "bmc_username" AFNode.bmc_username node generic
  let bmc_password ← validateText "bmc_password" AFNode.bmc_password node generic
  let bmc_serialport ← validateText "bmc_serialport" AFNode.bmc_serialport node generic
  let bmc_serialspeed ← validateText "bmc_serialspeed" AFNode.bmc_serialspeed node generic
  return { node with
    start_ip, root_password, sockets, cores_per_socket, threads_per_core, bmc_address,
    bmc_username, bmc_password, bmc_serialport, bmc_serialspeed }

/-- The number of a node section, when it is accepted. -/
def nodeCounter? (sectionName : String) : Option ℕ :=
  (boost.lexicalCast (Text.afterFirst '.' sectionName)).filter (0 < ·)

/-- The sections a node is made of, in file order, each with its number. -/
def nodeSections : List (String × ℕ) :=
  (file.listAllPrefixedEntries "node.").filterMap fun sectionName =>
    (nodeCounter? boost sectionName).map (sectionName, ·)

/-- `fmt::format("{}{:0>{}}", prefix, counter, width)`. -/
def formatHostname (pre : String) (counter : ℕ) (width : ℤ) : Except Exn String :=
  if width < 0 then .error ⟨.formatError, "negative width"⟩
  else .ok (pre ++ Text.zeroPad counter width.toNat)

/-- A hostname made from the generic prefix and padding. -/
def generateHostname (generic : AFNode) (counter : ℕ) : Except Exn String := do
  let pre ← dereference generic.pre
  throwIf (pre = "") ⟨.invalidArgument, s!"Section node.{counter} must have a 'hostname' key or " ++
    "you must inform a generic 'prefix' value"⟩
  let padding ← dereference generic.padding
  throwIf (padding = "") ⟨.invalidArgument, s!"Section node.{counter} must have a 'hostname' key " ++
    "or you must inform a generic 'padding' value"⟩
  let width ← (Text.stoi padding).mapError (Exn.ofNumError "stoi")
  formatHostname pre counter width

def nodeHostname (generic newNode : AFNode) (counter : ℕ) : Except Exn String := do
  let own ← dereference newNode.hostname
  if own = "" then generateHostname generic counter else return own

def loadNodeSection (generic : AFNode) (nodeSection : String × ℕ) : Except Exn AFNode := do
  let newNode ← loadNode boost file nodeSection.1
  let hostname ← nodeHostname generic newNode nodeSection.2
  explainInvalid (fun what => s!"Section node.{nodeSection.2} validation failed - {what}")
    (validateNode generic { newNode with hostname := some hostname })

def loadNodes (af : AnswerFile) : Except Exn AnswerFile := do
  let generic ← loadNode boost file "node"
  let loaded ← (nodeSections boost file).mapM (loadNodeSection boost file generic)
  return { af with nodes := { generic := some generic, nodes := af.nodes.nodes ++ loaded } }

/-! ### The mail system and OFED -/

def loadPort (sectionName : String) : Except Exn ℤ := do
  (Text.stoi (← file.getString sectionName "port")).mapError (.ofNumError "stoi")

/-- The server that mail goes through, which a local profile leaves as it was. -/
def loadSMTP (smtp : Option AFSMTP) : Postfix.Profile → Except Exn (Option AFSMTP)
  | .Local => return smtp
  | .Relay => do
    let server ← file.getString "postfix.relay" "server"
    let port ← loadPort file "postfix.relay"
    return some { server, port }
  | .SASL => do
    let server ← file.getString "postfix.sasl" "server"
    let port ← loadPort file "postfix.sasl"
    let username ← file.getString "postfix.sasl" "username"
    let password ← file.getString "postfix.sasl" "password"
    return some { server, port, sasl := some { username, password } }

def loadPostfixSection (settings : AFPostfix) : Except Exn AFPostfix := do
  let destination ← file.getString "postfix" "destination"
  let profileName ← file.getString "postfix" "profile"
  match ofStringInsensitive Postfix.Profile profileName with
  | none => throw (.runtimeError "Invalid Postfix profile")
  | some profile =>
    let smtp ← loadSMTP file settings.smtp profile
    let cert_file ← file.getString "postfix" "smtpd_tls_cert_file"
    let key_file ← file.getString "postfix" "smtpd_tls_key_file"
    return {
      enabled := true
      destination := Text.split destination ", "
      profile := some profile
      smtp, cert_file, key_file }

def loadPostfix (af : AnswerFile) : Except Exn AnswerFile := do
  if !file.hasGroup "postfix" then return af
  return { af with postfixSettings := ← loadPostfixSection file af.postfixSettings }

/-- The one optional section that is read without asking whether it is there. -/
def loadOFED (af : AnswerFile) : Except Exn AnswerFile := do
  let kind ← file.getString "ofed" "kind"
  if kind = "" then return af
  let afVersion ← file.getString "ofed" "version"
  return { af with ofed := {
    kind
    version := some (if afVersion = "" then "latest" else afVersion)
    enabled := true } }

/-! ### Loading -/

def loadOptions (af : AnswerFile) : Except Exn AnswerFile := do
  let af ← loadExternalNetwork boost file af
  let af ← loadManagementNetwork boost file af
  let af ← loadApplicationNetwork boost file af
  let af ← loadInformation file af
  let af ← loadTimeSettings file af
  let af ← loadHostnameSettings file af
  let af ← loadSystemSettings opts file af
  let af ← loadNodes boost file af
  let af ← loadPostfix file af
  loadOFED file af

end AnswerFile

end Cloyster
