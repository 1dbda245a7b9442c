import Cloyster.Models.Connection

/-! Networks and connections under any calls of their constructors and setters,
with any arguments, of which any may throw. An object is kept together with the
fact whether a call has set its address, since an address never set has the value
the setters refuse. -/

namespace Cloyster

open Lib

/-- An object, and whether a `setAddress` on it has returned. -/
structure Tracked (α : Type) where
  object : α
  addressSet : Bool := false

/-- The object after a call on it that sets the address or not. -/
def Tracked.apply {α : Type} (t : Tracked α) (x : EStateM Exn α Unit) (setsAddress : Bool) :
    Tracked α :=
  match x t.object with
  | .ok _ object => { object, addressSet := t.addressSet || setsAddress }
  | .error _ object => { t with object }

/-! ### The setters -/

namespace Network

inductive Setter where
  | address (ip : Address)
  | addressText (ip : String)
  | subnetMask (subnetMask : Address)
  | subnetMaskText (subnetMask : String)
  | gateway (gateway : Address)
  | gatewayText (gateway : String)
  | vlan (vlan : UInt16)
  | domainName (domainName : String)
  | nameservers (nameservers : List Address)
  | nameserversText (nameservers : List String)

def Setter.run (text : AddressText) : Setter → NetworkM Unit
  | .address ip => setAddress ip
  | .addressText ip => setAddressText text ip
  | .subnetMask mask => setSubnetMask text mask
  | .subnetMaskText mask => setSubnetMaskText text mask
  | .gateway ip => setGateway ip
  | .gatewayText ip => setGatewayText text ip
  | .vlan tag => setVLAN tag
  | .domainName name => setDomainName name
  | .nameservers servers => setNameservers servers
  | .nameserversText servers => setNameserversText text servers

def Setter.setsAddress : Setter → Bool
  | .address _ | .addressText _ => true
  | _ => false

end Network

namespace Connection

/-- An interface is looked for on the host as it is at that moment. -/
inductive Setter where
  | interface (host : Host) (interface : String)
  | mac (mac : String)
  | mtu (mtu : UInt16)
  | address (ip : Address)
  | addressText (ip : String)
  | increment (n : ℕ)
  | hostname (hostname : String)
  | fqdn (fqdn : String)

def Setter.run (text : AddressText) (type : Network.LinkType) : Setter → ConnectionM Unit
  | .interface host name => setInterface host name
  | .mac s => setMAC s
  | .mtu n => setMTU type n
  | .address ip => setAddress ip
  | .addressText ip => setAddressText text ip
  | .increment n => incrementAddress n
  | .hostname name => setHostname name
  | .fqdn name => setFQDN name

def Setter.setsAddress : Setter → Bool
  | .address _ | .addressText _ => true
  | _ => false

end Connection

/-! ### Calls -/

structure Heap where
  networks : List (Tracked Network) := []
  connections : List (Tracked Connection) := []

/-- The constructors without a type or a profile hand on `Ethernet` and `External`. -/
inductive ObjectCall where
  | network (profile : Network.Profile) (type : Network.LinkType)
  | networkWith (profile : Network.Profile) (type : Network.LinkType)
      (ip subnetMask gateway : String) (vlan : UInt16) (domainName : String)
      (nameservers : List Address)
  | networkWithText (profile : Network.Profile) (type : Network.LinkType)
      (ip subnetMask gateway : String) (vlan : UInt16) (domainName : String)
      (nameservers : List String)
  | copyNetwork (i : ℕ)
  | setNetwork (i : ℕ) (setter : Network.Setter)
  | connection (network : ℕ)
  | connectionWith (host : Host) (network : ℕ) (interface mac : Option String) (ip : String)
  | copyConnection (i : ℕ)
  | setConnection (i : ℕ) (setter : Connection.Setter)

namespace Heap

variable (text : AddressText)

/-- A constructor that throws leaves no object. -/
def addNetwork (heap : Heap) (addressSet : Bool) : Except Exn Network → Heap
  | .ok object => { heap with networks := heap.networks ++ [{ object, addressSet }] }
  | .error _ => heap

def addConnection (heap : Heap) (addressSet : Bool) : Except Exn Connection → Heap
  | .ok object => { heap with connections := heap.connections ++ [{ object, addressSet }] }
  | .error _ => heap

/-- The type of the network with this number. -/
def type? (heap : Heap) (network : ℕ) : Option Network.LinkType :=
  (heap.networks[network]?).map (·.object.type)

/-- A call that names an object which is not there is no call. -/
def step (heap : Heap) : ObjectCall → Heap
  | .network profile type => heap.addNetwork false (.ok { profile, type })
  | .networkWith profile type ip mask gateway vlan domainName servers =>
    heap.addNetwork true (Network.construct text profile type ip mask gateway vlan domainName
      (Network.setNameservers servers))
  | .networkWithText profile type ip mask gateway vlan domainName servers =>
    heap.addNetwork true (Network.construct text profile type ip mask gateway vlan domainName
      (Network.setNameserversText text servers))
  | .copyNetwork i =>
    match heap.networks[i]? with
    | some t => heap.addNetwork t.addressSet (.ok t.object)
    | none => heap
  | .setNetwork i setter =>
    { heap with networks := heap.networks.modify i (·.apply (setter.run text) setter.setsAddress) }
  | .connection network =>
    match heap.type? network with
    | some type => heap.addConnection false (Connection.construct network type)
    | none => heap
  | .connectionWith host network interface mac ip =>
    match heap.type? network with
    | some type =>
      heap.addConnection true (Connection.constructWith text host network type interface mac ip)
    | none => heap
  | .copyConnection i =>
    match heap.connections[i]? with
    | some t => heap.addConnection t.addressSet (.ok t.object)
    | none => heap
  | .setConnection i setter =>
    { heap with connections := heap.connections.modify i fun t =>
        match heap.type? t.object.network with
        | some type => t.apply (setter.run text type) setter.setsAddress
        | none => t }

end Heap

def afterCalls (text : AddressText) (calls : List ObjectCall) : Heap := calls.foldl (Heap.step text) {}

/-! ### Setters change nothing when they throw -/

section

variable {text : AddressText}

theorem atomic_withAddress {σ : Type} {s message : String} {set : Address → EStateM Exn σ Unit}
    (hset : ∀ a, Atomic (set a)) : Atomic (Network.withAddress text s message set) := by
  unfold Network.withAddress
  cases text.makeAddress s with
  | some a => exact hset a
  | none => exact atomic_throw _

theorem Network.Setter.atomic_run (setter : Network.Setter) : Atomic (setter.run text) := by
  have haddress (ip : Address) : Atomic (setAddress ip) := atomic_refuseIf_bind (atomic_modify _)
  have hmask (mask : Address) : Atomic (setSubnetMask text mask) :=
    atomic_refuseIf_bind (atomic_modify _)
  have hgateway (gateway : Address) : Atomic (setGateway gateway) := atomic_modify _
  have hservers (servers : List Address) : Atomic (setNameservers servers) := atomic_modify _
  cases setter with
  | address ip => exact haddress ip
  | addressText ip => exact atomic_withAddress haddress
  | subnetMask mask => exact hmask mask
  | subnetMaskText mask => exact atomic_withAddress hmask
  | gateway gateway => exact hgateway gateway
  | gatewayText gateway => exact atomic_withAddress hgateway
  | vlan vlan => exact atomic_refuseIf_bind (atomic_modify _)
  | domainName domainName =>
    iterate 5 apply atomic_refuseIf_bind
    exact atomic_modify _
  | nameservers servers => exact hservers servers
  | nameserversText servers => exact atomic_bind (unchanged_liftExcept _) hservers

theorem Connection.Setter.atomic_run (type : Network.LinkType) (setter : Connection.Setter) :
    Atomic (setter.run text type) := by
  have haddress (ip : Address) : Atomic (setAddress ip) := atomic_refuseIf_bind (atomic_modify _)
  cases setter with
  | interface host interface =>
    apply atomic_refuseIf_bind
    apply atomic_bind (unchanged_liftExcept _)
    intro ifaddr
    exact atomic_refuseIf_bind (atomic_modify _)
  | mac mac =>
    show Atomic (setMAC mac)
    unfold setMAC
    cases validateMAC mac with
    | ok b => exact atomic_modify _
    | error message => exact atomic_throw _
  | mtu mtu => exact atomic_refuseIf_bind (atomic_modify _)
  | address ip => exact haddress ip
  | addressText ip => exact atomic_withAddress haddress
  | increment n => exact fun s t e h => absurd h (by simp [run, incrementAddress])
  | hostname hostname =>
    iterate 4 apply atomic_refuseIf_bind
    exact atomic_modify _
  | fqdn fqdn => exact atomic_refuseIf_bind (atomic_modify _)

/-! ### What holds of every object -/

structure Network.Valid (text : AddressText) (t : Tracked Network) : Prop where
  vlan : t.object.vlan < 4096
  subnetMask : t.object.subnetMask = .unset ∨
    text.toString t.object.subnetMask ∈ cidr.map Prod.fst
  address : t.addressSet = false ∨ t.object.address ≠ .unset
  domainName : t.object.domainName = "" ∨ ValidDomainName t.object.domainName

structure Connection.Valid (t : Tracked Connection) : Prop where
  address : t.addressSet = false ∨ t.object.address ≠ .unset
  mac : ∀ mac, t.object.mac = some mac → ValidMAC mac
  hostname : t.object.hostname = "" ∨ ValidHostname t.object.hostname

/-- The MTU is not below the least one for the type of the connection's network. -/
def Connection.FitsNetwork (heap : Heap) (connection : Connection) : Prop :=
  ∃ type, heap.type? connection.network = some type ∧ minimumMTU type ≤ connection.mtu

structure Heap.Valid (text : AddressText) (heap : Heap) : Prop where
  networks : ∀ t ∈ heap.networks, Network.Valid text t
  connections : ∀ t ∈ heap.connections, Connection.Valid t
  mtu : ∀ t ∈ heap.connections, Connection.FitsNetwork heap t.object

variable {network network' : Network} {connection connection' : Connection} {addressSet : Bool}
  {u : Unit}

theorem Network.valid_new (profile : Profile) (type : LinkType) :
    Network.Valid text { object := { profile, type } } where
  vlan := UInt16.lt_iff_toNat_lt.mpr (by simp)
  subnetMask := .inl rfl
  address := .inl rfl
  domainName := .inl rfl

/-- A setter that returns keeps the type, and what holds of a network. -/
theorem Network.Setter.valid_run (setter : Network.Setter)
    (hvalid : Network.Valid text ⟨network, addressSet⟩)
    (h : setter.run text network = .ok u network') :
    network'.type = network.type ∧
      Network.Valid text ⟨network', addressSet || setter.setsAddress⟩ := by
  have hkeep : (addressSet || false) = addressSet := Bool.or_false addressSet
  have haddress (ip : Address) (h : setAddress ip network = .ok u network') :
      network'.type = network.type ∧ Network.Valid text ⟨network', addressSet || true⟩ := by
    obtain ⟨hip, rfl⟩ := setAddress_ok_iff.mp h
    exact ⟨rfl, { hvalid with address := .inr hip }⟩
  have hmask (mask : Address) (h : setSubnetMask text mask network = .ok u network') :
      network'.type = network.type ∧ Network.Valid text ⟨network', addressSet || false⟩ := by
    obtain ⟨hip, rfl⟩ := setSubnetMask_ok_iff.mp h
    rw [hkeep]
    exact ⟨rfl, { hvalid with subnetMask := .inr hip }⟩
  have hgateway (ip : Address) (h : setGateway ip network = .ok u network') :
      network'.type = network.type ∧ Network.Valid text ⟨network', addressSet || false⟩ := by
    obtain rfl := modify_ok_iff.mp h
    rw [hkeep]
    exact ⟨rfl, { hvalid with }⟩
  have hservers (servers : List Address) (h : setNameservers servers network = .ok u network') :
      network'.type = network.type ∧ Network.Valid text ⟨network', addressSet || false⟩ := by
    obtain rfl := modify_ok_iff.mp h
    rw [hkeep]
    exact ⟨rfl, { hvalid with }⟩
  cases setter with
  | address ip => exact haddress ip h
  | addressText s =>
    obtain ⟨ip, -, hip⟩ := Network.withAddress_ok_iff.mp h
    exact haddress ip hip
  | subnetMask mask => exact hmask mask h
  | subnetMaskText s =>
    obtain ⟨mask, -, hset⟩ := Network.withAddress_ok_iff.mp h
    exact hmask mask hset
  | gateway ip => exact hgateway ip h
  | gatewayText s =>
    obtain ⟨ip, -, hip⟩ := Network.withAddress_ok_iff.mp h
    exact hgateway ip hip
  | vlan tag =>
    obtain ⟨htag, rfl⟩ := setVLAN_ok_iff.mp h
    change _ ∧ Network.Valid text ⟨_, addressSet || false⟩
    rw [hkeep]
    exact ⟨rfl, { hvalid with vlan := htag }⟩
  | domainName name =>
    obtain ⟨hname, rfl⟩ := setDomainName_ok h
    change _ ∧ Network.Valid text ⟨_, addressSet || false⟩
    rw [hkeep]
    exact ⟨rfl, { hvalid with domainName := .inr hname }⟩
  | nameservers servers => exact hservers servers h
  | nameserversText servers =>
    obtain ⟨parsed, t, hparsed, hset⟩ := bind_ok_iff.mp h
    obtain ⟨-, rfl⟩ := liftExcept_ok_iff.mp hparsed
    exact hservers parsed hset

/-- A network made with all parameters is as if its setters had been called. -/
theorem Network.valid_construct {profile : Profile} {type : LinkType} {ip mask gateway name : String}
    {tag : UInt16} (setter : Network.Setter)
    (h : construct text profile type ip mask gateway tag name (setter.run text) = .ok network) :
    network.type = type ∧ Network.Valid text ⟨network, true⟩ := by
  obtain ⟨u, h⟩ := exec_ok_iff.mp h
  simp only [bind_ok_iff] at h
  obtain ⟨_, n₁, h₁, _, n₂, h₂, _, n₃, h₃, _, n₄, h₄, _, n₅, h₅, h₆⟩ := h
  obtain ⟨ht₁, hv₁⟩ := Setter.valid_run (.addressText ip) (valid_new profile type) h₁
  obtain ⟨ht₂, hv₂⟩ := Setter.valid_run (.subnetMaskText mask) hv₁ h₂
  obtain ⟨ht₃, hv₃⟩ := Setter.valid_run (.gatewayText gateway) hv₂ h₃
  obtain ⟨ht₄, hv₄⟩ := Setter.valid_run (.vlan tag) hv₃ h₄
  obtain ⟨ht₅, hv₅⟩ := Setter.valid_run (.domainName name) hv₄ h₅
  obtain ⟨ht₆, hv₆⟩ := setter.valid_run hv₅ h₆
  exact ⟨by rw [ht₆, ht₅, ht₄, ht₃, ht₂, ht₁], hv₆⟩

theorem Network.Setter.valid_apply (setter : Network.Setter) {t : Tracked Network}
    (ht : Network.Valid text t) :
    (t.apply (setter.run text) setter.setsAddress).object.type = t.object.type ∧
      Network.Valid text (t.apply (setter.run text) setter.setsAddress) := by
  unfold Tracked.apply
  cases h : setter.run text t.object with
  | ok u network => exact setter.valid_run ht h
  | error e network =>
    obtain rfl := setter.atomic_run _ _ _ h
    exact ⟨rfl, ht⟩

theorem Connection.valid_new (network : ℕ) : Connection.Valid { object := { network } } where
  address := .inl rfl
  mac _ h := absurd h (by simp)
  hostname := .inl rfl

theorem Connection.minimumMTU_le_new (network : ℕ) :
    minimumMTU .Ethernet ≤ ({ network } : Connection).mtu :=
  show (1280 : UInt16) ≤ 1500 by decide

/-- A setter that returns keeps the network, a fitting MTU, and what holds of a
connection. -/
theorem Connection.Setter.valid_run (type : Network.LinkType) (setter : Connection.Setter)
    (hvalid : Connection.Valid ⟨connection, addressSet⟩)
    (h : setter.run text type connection = .ok u connection') :
    connection'.network = connection.network ∧
      (minimumMTU type ≤ connection.mtu → minimumMTU type ≤ connection'.mtu) ∧
      Connection.Valid ⟨connection', addressSet || setter.setsAddress⟩ := by
  have hkeep : (addressSet || false) = addressSet := Bool.or_false addressSet
  have haddress (ip : Address) (h : setAddress ip connection = .ok u connection') :
      connection'.network = connection.network ∧
        (minimumMTU type ≤ connection.mtu → minimumMTU type ≤ connection'.mtu) ∧
        Connection.Valid ⟨connection', addressSet || true⟩ := by
    obtain ⟨hip, rfl⟩ := setAddress_ok_iff.mp h
    exact ⟨rfl, id, { hvalid with address := .inr hip }⟩
  cases setter with
  | interface host name =>
    obtain rfl := setInterface_ok h
    change _ ∧ _ ∧ Connection.Valid ⟨_, addressSet || false⟩
    rw [hkeep]
    exact ⟨rfl, id, { hvalid with }⟩
  | mac s =>
    obtain ⟨hmac, rfl⟩ := setMAC_ok h
    change _ ∧ _ ∧ Connection.Valid ⟨_, addressSet || false⟩
    rw [hkeep]
    refine ⟨rfl, id, { hvalid with mac := ?_ }⟩
    intro stored hstored
    obtain rfl : Text.lower s = stored := Option.some.inj hstored
    exact hmac
  | mtu n =>
    obtain ⟨hn, rfl⟩ := setMTU_ok_iff.mp h
    change _ ∧ _ ∧ Connection.Valid ⟨_, addressSet || false⟩
    rw [hkeep]
    exact ⟨rfl, fun _ => hn, { hvalid with }⟩
  | address ip => exact haddress ip h
  | addressText s =>
    obtain ⟨ip, -, hip⟩ := Network.withAddress_ok_iff.mp h
    exact haddress ip hip
  | increment n =>
    obtain rfl : connection = connection' := by simpa [run, incrementAddress] using h
    change _ ∧ _ ∧ Connection.Valid ⟨_, addressSet || false⟩
    rw [hkeep]
    exact ⟨rfl, id, hvalid⟩
  | hostname name =>
    obtain ⟨hname, rfl⟩ := setHostname_ok h
    change _ ∧ _ ∧ Connection.Valid ⟨_, addressSet || false⟩
    rw [hkeep]
    exact ⟨rfl, id, { hvalid with hostname := .inr hname }⟩
  | fqdn name =>
    obtain ⟨-, rfl⟩ := setFQDN_ok_iff.mp h
    change _ ∧ _ ∧ Connection.Valid ⟨_, addressSet || false⟩
    rw [hkeep]
    exact ⟨rfl, id, { hvalid with }⟩

theorem Connection.Setter.valid_apply (type : Network.LinkType) (setter : Connection.Setter)
    {t : Tracked Connection} (ht : Connection.Valid t) :
    (t.apply (setter.run text type) setter.setsAddress).object.network = t.object.network ∧
      (minimumMTU type ≤ t.object.mtu →
        minimumMTU type ≤ (t.apply (setter.run text type) setter.setsAddress).object.mtu) ∧
      Connection.Valid (t.apply (setter.run text type) setter.setsAddress) := by
  unfold Tracked.apply
  cases h : setter.run text type t.object with
  | ok u connection => exact setter.valid_run type ht h
  | error e connection =>
    obtain rfl := setter.atomic_run type _ _ _ h
    exact ⟨rfl, id, ht⟩

/-- The default MTU is too small for an Infiniband network; it is raised at the end. -/
theorem Connection.raiseMTU_ok {type : Network.LinkType}
    (hmtu : minimumMTU .Ethernet ≤ connection.mtu)
    (hvalid : Connection.Valid ⟨connection, addressSet⟩)
    (h : raiseMTU type connection = .ok u connection') :
    connection'.network = connection.network ∧ minimumMTU type ≤ connection'.mtu ∧
      Connection.Valid ⟨connection', addressSet⟩ := by
  unfold raiseMTU at h
  split_ifs at h with htype
  · obtain ⟨hle, rfl⟩ := setMTU_ok_iff.mp h
    exact ⟨rfl, hle, { hvalid with }⟩
  · obtain rfl : connection = connection' := by simpa using h
    cases type with
    | Ethernet => exact ⟨rfl, hmtu, hvalid⟩
    | Infiniband => exact absurd rfl htype

theorem Connection.valid_forM (text : AddressText) (setter : String → Connection.Setter)
    {argument : Option String}
    (hsets : ∀ s, (setter s).setsAddress = false)
    (hmtu : minimumMTU .Ethernet ≤ connection.mtu)
    (hvalid : Connection.Valid ⟨connection, false⟩)
    (h : (argument.forM fun s => (setter s).run text .Ethernet) connection = .ok u connection') :
    connection'.network = connection.network ∧ minimumMTU .Ethernet ≤ connection'.mtu ∧
      Connection.Valid ⟨connection', false⟩ := by
  cases argument with
  | none =>
    obtain rfl : connection = connection' := by simpa using h
    exact ⟨rfl, hmtu, hvalid⟩
  | some s =>
    obtain ⟨hnetwork, hkeep, hvalid'⟩ := (setter s).valid_run .Ethernet hvalid h
    rw [hsets] at hvalid'
    exact ⟨hnetwork, hkeep hmtu, hvalid'⟩

theorem Connection.valid_construct {n : ℕ} {type : Network.LinkType}
    (h : construct n type = .ok connection) :
    connection.network = n ∧ minimumMTU type ≤ connection.mtu ∧
      Connection.Valid ⟨connection, false⟩ := by
  obtain ⟨u, h⟩ := exec_ok_iff.mp h
  exact raiseMTU_ok (minimumMTU_le_new n) (valid_new n) h

theorem Connection.valid_constructWith {host : Host} {n : ℕ} {type : Network.LinkType}
    {interface mac : Option String} {ip : String}
    (h : constructWith text host n type interface mac ip = .ok connection) :
    connection.network = n ∧ minimumMTU type ≤ connection.mtu ∧
      Connection.Valid ⟨connection, true⟩ := by
  obtain ⟨u, h⟩ := exec_ok_iff.mp h
  simp only [bind_ok_iff] at h
  obtain ⟨_, c₁, h₁, _, c₂, h₂, _, c₃, h₃, h₄⟩ := h
  obtain ⟨hn₁, hm₁, hv₁⟩ :=
    valid_forM text (.interface host) (fun _ => rfl) (minimumMTU_le_new n)
      (valid_new n) h₁
  obtain ⟨hn₂, hm₂, hv₂⟩ :=
    valid_forM text .mac (fun _ => rfl) hm₁ hv₁ h₂
  obtain ⟨hn₃, hm₃, hv₃⟩ :=
    Setter.valid_run .Ethernet (.addressText ip) hv₂ h₃
  obtain ⟨hn₄, hm₄, hv₄⟩ := raiseMTU_ok (hm₃ hm₂) hv₃ h₄
  exact ⟨by rw [hn₄, hn₃, hn₂, hn₁], hm₄, hv₄⟩

/-! ### Runs -/

namespace Heap

variable {heap : Heap}

theorem type?_addNetwork {network : Network} {n : ℕ} {type : Network.LinkType}
    (h : heap.type? n = some type) : (heap.addNetwork addressSet (.ok network)).type? n = some type := by
  obtain ⟨t, ht, htype⟩ := Option.map_eq_some_iff.mp h
  have hlt : n < heap.networks.length := (List.getElem?_eq_some_iff.mp ht).1
  rw [type?, addNetwork, List.getElem?_append_left hlt, ht, Option.map_some, htype]

theorem valid_addNetwork (hheap : Valid text heap) (hnetwork : Network.Valid text ⟨network, addressSet⟩) :
    Valid text (heap.addNetwork addressSet (.ok network)) where
  networks t ht := by
    obtain ht | ht := List.mem_append.mp ht
    · exact hheap.networks t ht
    · rw [List.mem_singleton.mp ht]
      exact hnetwork
  connections := hheap.connections
  mtu t ht := by
    obtain ⟨type, htype, hle⟩ := hheap.mtu t ht
    exact ⟨type, type?_addNetwork htype, hle⟩

theorem valid_addConnection (hheap : Valid text heap)
    (hconnection : Connection.Valid ⟨connection, addressSet⟩)
    (hfits : connection.FitsNetwork heap) :
    Valid text (heap.addConnection addressSet (.ok connection)) where
  networks := hheap.networks
  connections t ht := by
    obtain ht | ht := List.mem_append.mp ht
    · exact hheap.connections t ht
    · rw [List.mem_singleton.mp ht]
      exact hconnection
  mtu t ht := by
    obtain ht | ht := List.mem_append.mp ht
    · exact hheap.mtu t ht
    · rw [List.mem_singleton.mp ht]
      exact hfits

theorem mem_modify {α : Type} {l : List α} {i : ℕ} {f : α → α} {b : α} (h : b ∈ l.modify i f) :
    ∃ a ∈ l, b = a ∨ b = f a := by
  obtain ⟨n, hn⟩ := List.mem_iff_getElem?.mp h
  rw [List.getElem?_modify] at hn
  obtain ⟨a, ha, hb⟩ := Option.map_eq_some_iff.mp hn
  refine ⟨a, List.mem_of_getElem? ha, ?_⟩
  by_cases hi : i = n
  · exact .inr (by simpa [hi] using hb.symm)
  · exact .inl (by simpa [hi] using hb.symm)

theorem type?_setNetwork (hheap : Valid text heap) (i n : ℕ) (setter : Network.Setter) :
    (heap.step text (.setNetwork i setter)).type? n = heap.type? n := by
  unfold type? step
  rw [List.getElem?_modify]
  cases hn : heap.networks[n]? with
  | none => rfl
  | some t =>
    obtain ⟨htype, -⟩ :=
      setter.valid_apply (hheap.networks t (List.mem_of_getElem? hn))
    by_cases hi : i = n
    · simp [hi, htype]
    · simp [hi]

theorem valid_setNetwork (hheap : Valid text heap) (i : ℕ) (setter : Network.Setter) :
    Valid text (heap.step text (.setNetwork i setter)) where
  networks t ht := by
    obtain ⟨old, hold, rfl | rfl⟩ := mem_modify ht
    · exact hheap.networks t hold
    · exact (setter.valid_apply (hheap.networks old hold)).2
  connections := hheap.connections
  mtu t ht := by
    obtain ⟨type, htype, hle⟩ := hheap.mtu t ht
    exact ⟨type, by rw [type?_setNetwork hheap, htype], hle⟩

theorem valid_setConnection (hheap : Valid text heap) (i : ℕ) (setter : Connection.Setter) :
    Valid text (heap.step text (.setConnection i setter)) := by
  have hchanged (old : Tracked Connection) (hold : old ∈ heap.connections) :
      ∃ type, heap.type? old.object.network = some type ∧
        Connection.Valid (old.apply (setter.run text type) setter.setsAddress) ∧
        (old.apply (setter.run text type) setter.setsAddress).object.FitsNetwork heap := by
    obtain ⟨type, htype, hle⟩ := hheap.mtu old hold
    obtain ⟨hnetwork, hmtu, hvalid⟩ :=
      setter.valid_apply type (hheap.connections old hold)
    exact ⟨type, htype, hvalid, type, by rw [hnetwork, htype], hmtu hle⟩
  constructor
  · exact hheap.networks
  · intro t ht
    obtain ⟨old, hold, rfl | rfl⟩ := mem_modify ht
    · exact hheap.connections t hold
    · obtain ⟨type, htype, hvalid, -⟩ := hchanged old hold
      simpa only [htype] using hvalid
  · intro t ht
    obtain ⟨old, hold, rfl | rfl⟩ := mem_modify ht
    · exact hheap.mtu t hold
    · obtain ⟨type, htype, -, hfits⟩ := hchanged old hold
      show Connection.FitsNetwork heap _
      simpa only [htype] using hfits

theorem valid_step (hheap : Valid text heap) (call : ObjectCall) : Valid text (heap.step text call) := by
  cases call with
  | network profile type => exact valid_addNetwork hheap (Network.valid_new profile type)
  | networkWith profile type ip mask gateway tag name servers =>
    cases h : Network.construct text profile type ip mask gateway tag name
        (Network.setNameservers servers) with
    | ok network =>
      simp only [step, h]
      exact valid_addNetwork hheap
        (Network.valid_construct (.nameservers servers) h).2
    | error e =>
      simp only [step, h]
      exact hheap
  | networkWithText profile type ip mask gateway tag name servers =>
    cases h : Network.construct text profile type ip mask gateway tag name
        (Network.setNameserversText text servers) with
    | ok network =>
      simp only [step, h]
      exact valid_addNetwork hheap
        (Network.valid_construct (.nameserversText servers) h).2
    | error e =>
      simp only [step, h]
      exact hheap
  | copyNetwork i =>
    cases hi : heap.networks[i]? with
    | some t =>
      simp only [step, hi]
      exact valid_addNetwork hheap (hheap.networks t (List.mem_of_getElem? hi))
    | none =>
      simp only [step, hi]
      exact hheap
  | setNetwork i setter => exact valid_setNetwork hheap i setter
  | connection n =>
    cases htype : heap.type? n with
    | some type =>
      cases h : Connection.construct n type with
      | ok connection =>
        simp only [step, htype, h]
        obtain ⟨hn, hmtu, hvalid⟩ := Connection.valid_construct h
        exact valid_addConnection hheap hvalid ⟨type, by rw [hn, htype], hmtu⟩
      | error e =>
        simp only [step, htype, h]
        exact hheap
    | none =>
      simp only [step, htype]
      exact hheap
  | connectionWith host n interface mac ip =>
    cases htype : heap.type? n with
    | some type =>
      cases h : Connection.constructWith text host n type interface mac ip with
      | ok connection =>
        simp only [step, htype, h]
        obtain ⟨hn, hmtu, hvalid⟩ := Connection.valid_constructWith h
        exact valid_addConnection hheap hvalid ⟨type, by rw [hn, htype], hmtu⟩
      | error e =>
        simp only [step, htype, h]
        exact hheap
    | none =>
      simp only [step, htype]
      exact hheap
  | copyConnection i =>
    cases hi : heap.connections[i]? with
    | some t =>
      have ht := List.mem_of_getElem? hi
      simp only [step, hi]
      exact valid_addConnection hheap (hheap.connections t ht) (hheap.mtu t ht)
    | none =>
      simp only [step, hi]
      exact hheap
  | setConnection i setter => exact valid_setConnection hheap i setter

theorem valid_foldl (calls : List ObjectCall) (hheap : Valid text heap) :
    Valid text (calls.foldl (step text) heap) := by
  induction calls generalizing heap with
  | nil => exact hheap
  | cons call calls ih => exact ih (valid_step hheap call)

end Heap

/-- After any calls every object is valid, and a setter that throws has changed nothing. -/
theorem valid_afterCalls (text : AddressText) (calls : List ObjectCall) :
    Heap.Valid text (afterCalls text calls) ∧
      (∀ setter : Network.Setter, Atomic (setter.run text)) ∧
      ∀ (type : Network.LinkType) (setter : Connection.Setter), Atomic (setter.run text type) := by
  refine ⟨Heap.valid_foldl calls ⟨?_, ?_, ?_⟩, Network.Setter.atomic_run,
    Connection.Setter.atomic_run⟩
  all_goals exact fun _ ht => absurd ht List.not_mem_nil

end

end Cloyster
