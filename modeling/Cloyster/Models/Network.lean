import Cloyster.Models.OS

/-! IP addresses, the host's table of interfaces, and networks. The text forms of
addresses are a parameter, except that an IPv4 address is printed as a dotted
quad. An address that was never set is `0.0.0.0`. Setters run on the network they
change, so that what a failed one leaves behind can be seen. -/

namespace Cloyster

open Lib

/-- `boost::asio::ip::address`. -/
inductive Address where
  | v4 (bits : BitVec 32)
  | v6 (bits : BitVec 128) (scopeId : ℕ)
  deriving DecidableEq, Repr

namespace Address

/-- The value of a default constructed address. -/
def unset : Address := .v4 0

def isUnspecified : Address → Bool
  | .v4 bits => bits = 0
  | .v6 bits _ => bits = 0

def dottedQuad (bits : BitVec 32) : String :=
  ".".intercalate ([24, 16, 8, 0].map fun shift => toString ((bits >>> shift).toNat % 256))

/-- `inet_aton` of the printed address: it reads a dotted quad back, refuses every
IPv6 text and then leaves the zero it was given. -/
def inetAton : Address → BitVec 32
  | .v4 bits => bits
  | .v6 _ _ => 0

end Address

/-- The text forms of addresses that Boost reads and prints. -/
structure AddressText where
  makeAddress : String → Option Address
  v6ToString : BitVec 128 → ℕ → String

namespace AddressText

def toString (text : AddressText) : Address → String
  | .v4 bits => Address.dottedQuad bits
  | .v6 bits scopeId => text.v6ToString bits scopeId

def octet? (s : String) : Option ℕ :=
  let ds := s.toList
  if ds ≠ [] ∧ ds.length ≤ 3 ∧ ds.all Char.isDigit ∧ (ds.head? = some '0' → ds.length = 1) ∧
      Text.digitsValue ds < 256 then some (Text.digitsValue ds)
  else none

/-- Dotted quads only. -/
def dottedQuads : AddressText where
  makeAddress s :=
    match (s.toList.splitOn '.').map (octet? ∘ String.ofList) with
    | [some a, some b, some c, some d] =>
      some (.v4 (BitVec.ofNat 32 (((a * 256 + b) * 256 + c) * 256 + d)))
    | _ => none
  v6ToString _ _ := "::"

example : dottedQuads.makeAddress "10.0.255.1" = some (.v4 0x0a00ff01) := by decide
example : dottedQuads.toString (.v4 0x0a00ff01) = "10.0.255.1" := by decide

end AddressText

/-! ### The host -/

/-- A socket address: IPv4, or of some other family. -/
inductive SockAddr where
  | inet (bits : BitVec 32)
  | other
  deriving DecidableEq

/-- An entry of `getifaddrs`. The destination is the text in the data of an IPv4
destination address, up to its first zero byte. -/
structure IfAddr where
  name : String
  addr : Option SockAddr := none
  netmask : Option SockAddr := none
  dstaddr : Option String := none
  deriving DecidableEq

/-- What the program asks the machine it runs on. -/
structure Host where
  nodename : String := ""
  /-- The entries, or the text of the error. -/
  ifaddrs : Except String (List IfAddr) := .ok []
  /-- `getdomainname`, if it succeeds. -/
  domainname : Option String := none
  /-- The IPv4 nameservers of the resolver, if it can be initialised. -/
  resolvers : Option (List (BitVec 32)) := none
  /-- What the constructor `OS::OS` finds out, or throws. -/
  os : Except Exn OS := .ok {}
  pathExists : String → Bool := fun _ => false
  /-- The SHA-256 checksum of a file, in hexadecimal digits. -/
  checksum : String → Except Exn String := fun _ => .ok ""

/-! ### Networks -/

namespace Network

inductive Profile where
  | External | Management | Service | Application
  deriving DecidableEq, Repr

inductive LinkType where
  | Ethernet | Infiniband
  deriving DecidableEq, Repr

def cidr : List (String × ℕ) :=
  [("0.0.0.0", 0), ("128.0.0.0", 1), ("192.0.0.0", 2), ("224.0.0.0", 3), ("240.0.0.0", 4),
    ("248.0.0.0", 5), ("252.0.0.0", 6), ("254.0.0.0", 7), ("255.0.0.0", 8), ("255.128.0.0", 9),
    ("255.192.0.0", 10), ("255.224.0.0", 11), ("255.240.0.0", 12), ("255.248.0.0", 13),
    ("255.252.0.0", 14), ("255.254.0.0", 15), ("255.255.0.0", 16), ("255.255.128.0", 17),
    ("255.255.192.0", 18), ("255.255.224.0", 19), ("255.255.240.0", 20), ("255.255.248.0", 21),
    ("255.255.252.0", 22), ("255.255.254.0", 23), ("255.255.255.0", 24), ("255.255.255.128", 25),
    ("255.255.255.192", 26), ("255.255.255.224", 27), ("255.255.255.240", 28),
    ("255.255.255.248", 29), ("255.255.255.252", 30), ("255.255.255.254", 31),
    ("255.255.255.255", 32)]

instance : NamedEnum Profile where
  values := [.External, .Management, .Service, .Application]
  name
    | .External => "External"
    | .Management => "Management"
    | .Service => "Service"
    | .Application => "Application"

end Network

structure Network where
  profile : Network.Profile := .External
  type : Network.LinkType := .Ethernet
  address : Address := .unset
  subnetMask : Address := .unset
  gateway : Address := .unset
  vlan : UInt16 := 0
  domainName : String := ""
  nameservers : List Address := []
  deriving DecidableEq

namespace Network

abbrev NetworkM := EStateM Exn Network

variable (text : AddressText)

def setAddress (ip : Address) : NetworkM Unit := do
  refuseIf (ip = .unset) (.runtimeError "IP address cannot be 0.0.0.0")
  modify fun network => { network with address := ip }

/-- Read an address and hand it over, as the overloads that take a text do. -/
def withAddress {σ : Type} (s message : String) (set : Address → EStateM Exn σ Unit) :
    EStateM Exn σ Unit :=
  match text.makeAddress s with
  | some a => set a
  | none => throw (.runtimeError message)

def setAddressText (ip : String) : NetworkM Unit := withAddress text ip "Invalid IP address" setAddress

def setSubnetMask (subnetMask : Address) : NetworkM Unit := do
  refuseIf (text.toString subnetMask ∉ cidr.map Prod.fst) (.runtimeError "Invalid subnet mask")
  modify fun network => { network with subnetMask }

def setSubnetMaskText (subnetMask : String) : NetworkM Unit :=
  withAddress text subnetMask "Invalid subnet mask" (setSubnetMask text)

def setGateway (gateway : Address) : NetworkM Unit :=
  modify fun network => { network with gateway }

def setGatewayText (gateway : String) : NetworkM Unit :=
  withAddress text gateway "Invalid gateway" setGateway

def setVLAN (vlan : UInt16) : NetworkM Unit := do
  refuseIf (vlan ≥ 4096) ⟨.outOfRange, "VLAN value must be less than 4096."⟩
  modify fun network => { network with vlan }

/-- `[A-Za-z0-9-.]`. -/
def isDomainChar (c : Char) : Bool := c.isAlphanum || c = '-' || c = '.'

def setDomainName (domainName : String) : NetworkM Unit := do
  refuseIf (domainName = "") ⟨.invalidArgument, "Domain name cannot be empty."⟩
  refuseIf (Text.size domainName > 255)
    ⟨.lengthError, "Domain name exceeds the maximum allowed length of 255 characters."⟩
  refuseIf (Text.startsWith domainName "-" ∨ Text.endsWith domainName "-")
    (.runtimeError "Hostname cannot start or end with a hyphen.")
  refuseIf (Text.matchesClass domainName Char.isDigit)
    ⟨.invalidArgument, "Domain name should not consist solely of numeric digits."⟩
  refuseIf (!Text.matchesClass domainName isDomainChar)
    ⟨.invalidArgument, s!"Domain name ({domainName}) contains invalid characters. " ++
      "Only alphanumeric characters and hyphens are allowed."⟩
  modify fun network => { network with domainName }

/-- The servers are added to those already there. -/
def setNameservers (nameservers : List Address) : NetworkM Unit :=
  modify fun network => { network with nameservers := network.nameservers ++ nameservers }

def makeAddresses : List String → Except Exn (List Address)
  | [] => .ok []
  | s :: rest =>
    match text.makeAddress s with
    | none => .error ⟨.systemError, s⟩
    | some a => (makeAddresses rest).map (a :: ·)

def setNameserversText (nameservers : List String) : NetworkM Unit := do
  let formattedNameservers ← liftExcept (makeAddresses text nameservers)
  setNameservers formattedNameservers

/-- The constructor with all parameters, up to the nameservers. -/
def construct (profile : Profile) (type : LinkType) (ip subnetMask gateway : String)
    (vlan : UInt16) (domainName : String) (nameservers : NetworkM Unit) : Except Exn Network :=
  exec (do
    setAddressText text ip
    setSubnetMaskText text subnetMask
    setGatewayText text gateway
    setVLAN vlan
    setDomainName domainName
    nameservers) { profile, type }

/-! ### What the host knows -/

/-- The first IPv4 address that `get` finds in an entry of the interface. -/
def firstInet (interface : String) (get : IfAddr → Option SockAddr) : List IfAddr → Address
  | [] => .unset
  | ifa :: rest =>
    match get ifa with
    | some (.inet bits) => if ifa.name = interface then .v4 bits else firstInet interface get rest
    | _ => firstInet interface get rest

def getifaddrs (host : Host) (message : String → String) : Except Exn (List IfAddr) :=
  host.ifaddrs.mapError fun e => .runtimeError (message e)

def fetchSubnetMask (host : Host) (interface : String) : Except Exn Address := do
  let ifaddrs ← getifaddrs host fun e => s!"Cannot get interfaces: {e}"
  return firstInet interface IfAddr.netmask ifaddrs

def firstGateway (interface : String) : List IfAddr → Address
  | [] => .unset
  | ifa :: rest =>
    match ifa.dstaddr.bind text.makeAddress with
    | some result =>
      if ifa.name = interface ∧ !result.isUnspecified then result else firstGateway interface rest
    | none => firstGateway interface rest

def fetchGateway (host : Host) (interface : String) : Except Exn Address := do
  let ifaddrs ← getifaddrs host fun e => s!"Cannot get interfaces: {e}"
  return firstGateway text interface ifaddrs

def fetchDomainName (host : Host) : Except Exn String :=
  match host.domainname with
  | none => .error (.runtimeError "Failed to fetch domain name")
  | some name => .ok (if name = "(none)" then "" else name)

def fetchNameservers (host : Host) : Except Exn (List Address) :=
  match host.resolvers with
  | none => .error (.runtimeError "Failed to initialize domain name resolution")
  | some servers => .ok ((servers.filter (· ≠ 0)).map .v4)

/-- The network a connection address lies in, under the network's mask. -/
def calculateAddress (connectionAddress : Address) (network : Network) : Except Exn Address :=
  if network.subnetMask.isUnspecified then
    .error (.runtimeError "Network must have a specified subnet mask to calculate the address")
  else .ok (.v4 (connectionAddress.inetAton &&& network.subnetMask.inetAton))

/-! ### What the setters leave -/

variable {text} {network network' : Network}

/-- What a domain name that is accepted looks like. -/
structure ValidDomainName (domainName : String) : Prop where
  length : 1 ≤ domainName.length ∧ domainName.length ≤ 255
  chars : ∀ c ∈ domainName.toList, c.isAlphanum ∨ c = '-' ∨ c = '.'
  notDigits : ¬ domainName.toList.all Char.isDigit
  hyphens : domainName.toList.head? ≠ some '-' ∧ domainName.toList.getLast? ≠ some '-'

theorem withAddress_apply {σ : Type} (text : AddressText) (s message : String)
    (set : Address → EStateM Exn σ Unit) (t : σ) :
    withAddress text s message set t = match text.makeAddress s with
      | some a => set a t
      | none => .error (.runtimeError message) t := by
  unfold withAddress
  cases text.makeAddress s <;> rfl

theorem withAddress_ok_iff {σ : Type} {s message : String} {set : Address → EStateM Exn σ Unit}
    {t t' : σ} {u : Unit} : withAddress text s message set t = .ok u t' ↔
      ∃ a, text.makeAddress s = some a ∧ set a t = .ok u t' := by
  rw [withAddress_apply]
  cases text.makeAddress s <;> simp

theorem setAddress_ok_iff {ip : Address} {u : Unit} :
    setAddress ip network = .ok u network' ↔
      ip ≠ .unset ∧ { network with address := ip } = network' :=
  refuseIf_modify_ok_iff

theorem setSubnetMask_ok_iff {subnetMask : Address} {u : Unit} :
    setSubnetMask text subnetMask network = .ok u network' ↔
      text.toString subnetMask ∈ cidr.map Prod.fst ∧
        { network with subnetMask := subnetMask } = network' :=
  refuseIf_modify_ok_iff.trans (and_congr_left fun _ => not_not)

theorem setVLAN_ok_iff {vlan : UInt16} {u : Unit} :
    setVLAN vlan network = .ok u network' ↔
      vlan < 4096 ∧ { network with vlan := vlan } = network' :=
  refuseIf_modify_ok_iff.trans (and_congr_left fun _ => UInt16.not_le)

theorem setDomainName_ok {domainName : String} {u : Unit}
    (h : setDomainName domainName network = .ok u network') :
    ValidDomainName domainName ∧ { network with domainName := domainName } = network' := by
  simp only [setDomainName, bind_ok_iff, refuseIf_ok_iff, modify_ok_iff] at h
  obtain ⟨_, _, ⟨hempty, rfl⟩, _, _, ⟨hlong, rfl⟩, _, _, ⟨hhyphen, rfl⟩, _, _, ⟨hdigits, rfl⟩,
    _, _, ⟨hchars, rfl⟩, hset⟩ := h
  rw [not_or] at hhyphen
  have hne : domainName.toList ≠ [] := by simpa using hempty
  have hsize := Text.length_toList_le_size domainName
  have hpos := List.length_pos_iff.mpr hne
  rw [String.length_toList] at hsize hpos
  refine ⟨⟨⟨hpos, by omega⟩, ?_, ?_, ?_, ?_⟩, hset⟩
  · intro c hc
    have hall : domainName.toList.all isDomainChar := by
      have hmatch : Text.matchesClass domainName isDomainChar := by simpa using hchars
      rw [Text.matchesClass, Bool.and_eq_true] at hmatch
      exact hmatch.2
    have hchar := List.all_eq_true.mp hall c hc
    simpa [isDomainChar, or_assoc] using hchar
  · intro hall
    exact hdigits (by simpa [Text.matchesClass, hempty] using hall)
  · intro hhead
    exact hhyphen.1 ((Text.startsWith_singleton domainName '-').mpr hhead)
  · intro hlast
    exact hhyphen.2 ((Text.endsWith_singleton domainName '-').mpr hlast)

end Network

end Cloyster
