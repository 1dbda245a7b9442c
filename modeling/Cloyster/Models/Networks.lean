import Cloyster.Models.Fill
import Cloyster.Models.Load

/-! The networks and connections of a filled cluster. Every block that connects the
headnode appends one network and one connection to it, and the network gets the
address that the connection lies in. -/

namespace Cloyster.Models

open Lib

/-- The network's address is that of the connection under the network's mask. -/
def LiesIn (ip : Address) (network : Network) : Prop :=
  ∃ bits mask, ip = .v4 bits ∧ network.subnetMask = .v4 mask ∧ network.address = .v4 (bits &&& mask)

namespace Cluster

variable {boost : Boost} {opts : Options} {host : Host} {field : AFNetwork}
  {network network' : Network} {u : Unit}

/-! ### What building a network leaves -/

theorem value_ok_iff {σ α : Type} {o : Option α} {s t : σ} {a : α} :
    (value o : EStateM Exn σ α) s = .ok a t ↔ o = some a ∧ t = s := by
  rw [value, liftExcept_ok_iff, optionValue_ok_iff]

/-- What cannot change in a network. -/
def fixed (network : Network) : Network.Profile × Network.LinkType :=
  (network.profile, network.type)

theorem keeps_value {σ α β : Type} {f : σ → β} (o : Option α) :
    Keeps f (value o : EStateM Exn σ α) := keeps_liftExcept _

theorem keeps_setSubnetMask (mask : Address) :
    Keeps fixed (Network.setSubnetMask boost.toAddressText mask) :=
  keeps_bind (keeps_refuseIf _) fun _ => keeps_modify fun _ => rfl

theorem keeps_setGateway (gateway : Address) : Keeps fixed (Network.setGateway gateway) :=
  keeps_modify fun _ => rfl

theorem keeps_setDomainName (domainName : String) :
    Keeps fixed (Network.setDomainName domainName) := by
  intro network u network' h
  rw [← (Network.setDomainName_ok h).2]
  rfl

theorem keeps_setNameserversOrFetch (nameservers : Option (List String)) :
    Keeps fixed (setNameserversOrFetch boost host nameservers) := by
  cases nameservers with
  | some nameservers => exact keeps_bind (keeps_liftExcept _) fun _ => keeps_modify fun _ => rfl
  | none => exact keeps_bind (keeps_liftExcept _) fun _ => keeps_modify fun _ => rfl

theorem keeps_setSubnetMaskOrFetch : Keeps fixed (setSubnetMaskOrFetch boost host field) := by
  unfold setSubnetMaskOrFetch
  cases field.subnet_mask with
  | some mask => exact keeps_setSubnetMask mask
  | none =>
    apply keeps_bind (keeps_value _)
    intro interface
    exact keeps_bind (keeps_liftExcept _) keeps_setSubnetMask

theorem keeps_setDomainNameOrFetch : Keeps fixed (setDomainNameOrFetch host field) := by
  unfold setDomainNameOrFetch
  apply keeps_bind (keeps_liftExcept _)
  intro domainName
  by_cases hname : domainName ≠ ""
  · rw [if_pos hname]
    exact keeps_setDomainName domainName
  · rw [if_neg hname]
    exact keeps_bind (keeps_liftExcept _) keeps_setDomainName

/-- Neither an IPv6 address nor an IPv6 mask gets past the check for `0.0.0.0`. -/
theorem setCalculatedAddress_ok {ip : Address} (h : setCalculatedAddress ip network = .ok u network') :
    LiesIn ip network' ∧ fixed network' = fixed network := by
  simp only [setCalculatedAddress, bind_ok_iff, liftExcept_ok_iff] at h
  obtain ⟨_, _, hget, address, _, ⟨hcalculate, rfl⟩, hset⟩ := h
  obtain ⟨rfl, rfl⟩ := EStateM.Result.ok.inj hget
  obtain ⟨hne, rfl⟩ := Network.setAddress_ok_iff.mp hset
  unfold Network.calculateAddress at hcalculate
  split_ifs at hcalculate
  obtain rfl := Except.ok.inj hcalculate
  refine ⟨?_, rfl⟩
  cases hip : ip with
  | v6 bits scopeId => exact absurd (by simp [hip, Address.inetAton, Address.unset]) hne
  | v4 bits =>
    cases hmask : network.subnetMask with
    | v6 mask scopeId => exact absurd (by simp [hmask, Address.inetAton, Address.unset]) hne
    | v4 mask => exact ⟨bits, mask, rfl, rfl, rfl⟩

theorem managementNetwork_ok (h : managementNetwork boost host field = .ok network) :
    fixed network = (.Management, .Ethernet) ∧
      ∃ ip, field.con_ip_addr = some ip ∧ LiesIn ip network := by
  obtain ⟨u, h⟩ := exec_ok_iff.mp h
  simp only [bind_ok_iff, value_ok_iff] at h
  obtain ⟨_, _, ⟨-, rfl⟩, _, n₁, h₁, _, n₂, h₂, _, _, ⟨-, rfl⟩, _, n₃, h₃, _, n₄, h₄,
    ip, _, ⟨hip, rfl⟩, h₅⟩ := h
  obtain ⟨hlies, hfixed⟩ := setCalculatedAddress_ok h₅
  refine ⟨?_, ip, hip, hlies⟩
  rw [hfixed, keeps_setNameserversOrFetch _ _ _ _ h₄, keeps_setDomainName _ _ _ _ h₃,
    keeps_optionForM keeps_setGateway _ _ _ h₂, keeps_setSubnetMask _ _ _ _ h₁]
  rfl

theorem externalNetwork_ok (h : externalNetwork boost host field = .ok network) :
    fixed network = (.External, .Ethernet) := by
  obtain ⟨u, h⟩ := exec_ok_iff.mp h
  have hkeeps : Keeps fixed (do
      setSubnetMaskOrFetch boost host field
      field.gateway.forM Network.setGateway
      setDomainNameOrFetch host field
      setNameserversOrFetch boost host field.nameservers) := by
    refine keeps_bind keeps_setSubnetMaskOrFetch fun _ => ?_
    refine keeps_bind (keeps_optionForM keeps_setGateway) fun _ => ?_
    exact keeps_bind keeps_setDomainNameOrFetch fun _ => keeps_setNameserversOrFetch _
  rw [hkeeps _ _ _ h]
  rfl

theorem applicationNetwork_ok (h : applicationNetwork boost field = .ok network) :
    fixed network = (.Application, .Ethernet) := by
  have hthrow {α : Type} (name : String) (o : Option α) :
      Keeps fixed (throwIfEmpty name o) := by
    cases o with
    | some a => exact keeps_pure a
    | none => exact keeps_throw _
  obtain ⟨u, h⟩ := exec_ok_iff.mp h
  simp only [bind_ok_iff] at h
  obtain ⟨_, n₁, h₁, _, n₂, h₂, _, n₃, h₃, _, n₄, h₄, _, n₅, h₅, _, n₆, h₆, _, n₇, h₇, h₈⟩ := h
  have hservers := @keeps_setNameserversOrFetch boost {} (some _) _ _ _ h₈
  rw [hservers, keeps_setDomainName _ _ _ _ h₇, keeps_setGateway _ _ _ _ h₆,
    keeps_setSubnetMask _ _ _ _ h₅, hthrow _ _ _ _ _ h₄, hthrow _ _ _ _ _ h₃,
    hthrow _ _ _ _ _ h₂, hthrow _ _ _ _ _ h₁]
  rfl

/-! ### What connecting the headnode leaves -/

/-- The MAC address that is kept of a section's. -/
def storedMAC (mac : Option String) : Option String := (mac.filter (· ≠ "")).map Text.lower

/-- One network and one connection to it are added, and nothing else changes. -/
structure Attaches (profile : Network.Profile) (field : AFNetwork) (c c' : Cluster)
    (network : Network) (connection : Connection) : Prop where
  cluster : c' = { c with
    networks := c.networks ++ [network]
    headnode.connections := c.headnode.connections ++ [connection] }
  profile : network.profile = profile
  position : connection.network = c.networks.length
  interface : connection.interface = field.con_interface
  mac : connection.mac = storedMAC field.con_mac_addr
  address : ∀ ip, field.con_ip_addr = some ip → connection.address = ip
  lies : LiesIn connection.address network

variable {profile : Network.Profile} {c c' : Cluster} {connection connection' : Connection}

theorem getNetwork_ok_iff {found : Network × ℕ} :
    getNetwork profile c = .ok found c' ↔
      c.networks.zipIdx.find? (·.1.profile = profile) = some found ∧ c' = c := by
  rw [getNetwork, bind_apply, get_apply]
  dsimp only
  cases c.networks.zipIdx.find? (·.1.profile = profile) with
  | none => simp
  | some p => simp [eq_comm]

/-- The network just added is the one found. -/
theorem eq_of_find?_append_network {networks : List Network} {n : Network} {i : ℕ}
    (hnew : ∀ n ∈ networks, n.profile ≠ profile) (hprofile : network.profile = profile)
    (hfind : (networks ++ [network]).zipIdx.find? (·.1.profile = profile) = some (n, i)) :
    network = n ∧ networks.length = i := by
  have hnone : networks.zipIdx.find? (·.1.profile = profile) = none := by
    rw [List.find?_eq_none]
    intro p hp
    have hmem : p.1 ∈ networks := List.fst_mem_of_mem_zipIdx hp
    simpa using hnew p.1 hmem
  rw [List.zipIdx_append, List.find?_append, hnone] at hfind
  simpa [hprofile] using hfind

theorem newConnection_ok_iff {calls : Connection.ConnectionM Unit} :
    newConnection profile calls c = .ok connection c' ↔
      c' = c ∧ ∃ n i base u, c.networks.zipIdx.find? (·.1.profile = profile) = some (n, i) ∧
        Connection.construct i n.type = .ok base ∧ calls base = .ok u connection := by
  simp only [newConnection, bind_ok_iff, getNetwork_ok_iff, liftExcept_ok_iff, except_bind_ok_iff,
    exec_ok_iff, Prod.exists]
  constructor
  · rintro ⟨n, i, _, ⟨hfind, rfl⟩, ⟨base, hbase, u, hcalls⟩, rfl⟩
    exact ⟨rfl, n, i, base, u, hfind, hbase, hcalls⟩
  · rintro ⟨rfl, n, i, base, u, hfind, hbase, hcalls⟩
    exact ⟨n, i, _, ⟨hfind, rfl⟩, ⟨base, hbase, u, hcalls⟩, rfl⟩

theorem construct_ok {i : ℕ} {type : Network.LinkType}
    (h : Connection.construct i type = .ok connection) :
    connection.network = i ∧ connection.mac = none := by
  obtain ⟨u, h⟩ := exec_ok_iff.mp h
  unfold Connection.raiseMTU at h
  split_ifs at h
  · obtain ⟨-, rfl⟩ := Connection.setMTU_ok_iff.mp h
    exact ⟨rfl, rfl⟩
  · rw [pure_apply] at h
    obtain ⟨-, rfl⟩ := EStateM.Result.ok.inj h
    exact ⟨rfl, rfl⟩

theorem setMACUnlessEmpty_ok {mac : Option String}
    (h : setMACUnlessEmpty mac connection = .ok u connection') (hmac : connection.mac = none) :
    { connection with mac := storedMAC mac } = connection' := by
  simp only [setMACUnlessEmpty, bind_ok_iff, liftExcept_ok_iff,
    AnswerFile.dereference_ok_iff] at h
  obtain ⟨s, connection, ⟨rfl, rfl⟩, h⟩ := h
  by_cases hs : s = ""
  · rw [if_neg (by simpa using hs), pure_apply] at h
    obtain ⟨-, hsame⟩ := EStateM.Result.ok.inj h
    have hstored : storedMAC (some s) = connection.mac := by
      rw [hs, hmac]
      rfl
    rw [hstored, hsame]
  · rw [if_pos hs] at h
    rw [← (Connection.setMAC_ok h).2]
    simp [storedMAC, hs]

theorem setNetworkAddress_ok {ip : Address} (h : setNetworkAddress profile ip c = .ok u c') :
    ∃ n i n', c.networks.zipIdx.find? (·.1.profile = profile) = some (n, i) ∧ LiesIn ip n' ∧
      fixed n' = fixed n ∧ { c with networks := c.networks.set i n' } = c' := by
  simp only [setNetworkAddress, bind_ok_iff, getNetwork_ok_iff, liftExcept_ok_iff, exec_ok_iff,
    Prod.exists, modify_ok_iff] at h
  obtain ⟨n, i, _, ⟨hfind, rfl⟩, n', _, ⟨⟨_, hset⟩, rfl⟩, hc⟩ := h
  obtain ⟨hlies, hfixed⟩ := setCalculatedAddress_ok hset
  exact ⟨n, i, n', hfind, hlies, hfixed, hc⟩

theorem connectManagement_ok (hnew : ∀ n ∈ c.networks, n.profile ≠ .Management)
    (hprofile : network.profile = .Management)
    (hlies : ∃ ip, field.con_ip_addr = some ip ∧ LiesIn ip network)
    (h : connectManagement host field network c = .ok u c') :
    ∃ connection, Attaches .Management field c c' network connection := by
  simp only [connectManagement, addNetwork, addConnection, bind_ok_iff, modify_ok_iff,
    newConnection_ok_iff, value_ok_iff] at h
  obtain ⟨_, _, rfl, connection, _, ⟨rfl, n, i, base, _, hfind, hbase, interface, _,
    ⟨hinterface, rfl⟩, _, c₁, h₁, ip, _, ⟨hip, rfl⟩, _, c₂, h₂, h₃⟩, rfl⟩ := h
  obtain ⟨rfl, rfl⟩ := eq_of_find?_append_network hnew hprofile hfind
  obtain ⟨hi, hmac⟩ := construct_ok hbase
  obtain rfl := Connection.setInterface_ok h₁
  obtain ⟨-, rfl⟩ := Connection.setAddress_ok_iff.mp h₂
  obtain rfl := setMACUnlessEmpty_ok h₃ hmac
  obtain ⟨ip', hip', hlies⟩ := hlies
  obtain rfl : ip = ip' := Option.some.inj (hip.symm.trans hip')
  exact ⟨_, rfl, hprofile, hi, hinterface.symm, rfl, fun a ha => Option.some.inj (hip.symm.trans ha),
    hlies⟩

/-- The network just added is replaced. -/
theorem setNetworkAddress_append_ok {networks : List Network} {ip : Address}
    (hnew : ∀ n ∈ networks, n.profile ≠ profile) (hprofile : network.profile = profile)
    (hc : c.networks = networks ++ [network]) (h : setNetworkAddress profile ip c = .ok u c') :
    ∃ n', LiesIn ip n' ∧ n'.profile = profile ∧
      { c with networks := networks ++ [n'] } = c' := by
  obtain ⟨n, i, n', hfind, hlies, hfixed, rfl⟩ := setNetworkAddress_ok h
  rw [hc] at hfind
  obtain ⟨rfl, rfl⟩ := eq_of_find?_append_network hnew hprofile hfind
  refine ⟨n', hlies, (congrArg Prod.fst hfixed).trans hprofile, ?_⟩
  rw [hc, List.set_append_right _ _ le_rfl, Nat.sub_self, List.set_cons_zero]

theorem connectExternal_ok (hnew : ∀ n ∈ c.networks, n.profile ≠ .External)
    (hprofile : network.profile = .External)
    (h : connectExternal host field network c = .ok u c') :
    ∃ network' connection, Attaches .External field c c' network' connection := by
  simp only [connectExternal, addNetwork, addConnection, bind_ok_iff, modify_ok_iff,
    newConnection_ok_iff, value_ok_iff, liftExcept_ok_iff, exec_ok_iff] at h
  obtain ⟨_, _, rfl, interface, _, ⟨hinterface, rfl⟩, c₁, _, ⟨rfl, n, i, base, _, hfind, hbase, h₁⟩,
    ip, _, ⟨hip, rfl⟩, c₂, _, ⟨⟨_, h₂⟩, rfl⟩, _, _, haddress, c₃, _, ⟨⟨_, h₃⟩, rfl⟩, rfl⟩ := h
  obtain ⟨rfl, rfl⟩ := eq_of_find?_append_network hnew hprofile hfind
  obtain ⟨hi, hmac⟩ := construct_ok hbase
  obtain rfl := Connection.setInterface_ok h₁
  obtain ⟨-, rfl⟩ := Connection.setAddress_ok_iff.mp h₂
  obtain rfl := setMACUnlessEmpty_ok h₃ hmac
  obtain ⟨network', hlies, hprofile', rfl⟩ := setNetworkAddress_append_ok hnew hprofile rfl haddress
  refine ⟨network', _, rfl, hprofile', hi, hinterface.symm, rfl, fun a ha => ?_, hlies⟩
  rw [addressOrFetch, ha] at hip
  exact (Except.ok.inj hip).symm

theorem connectApplication_ok (hnew : ∀ n ∈ c.networks, n.profile ≠ .Application)
    (hinterface : field.con_interface.isSome)
    (h : connectApplication boost host field c = .ok u c') :
    ∃ network connection, Attaches .Application field c c' network connection := by
  rw [connectApplication, if_pos hinterface] at h
  simp only [addNetwork, connect, addConnection, bind_ok_iff, modify_ok_iff, liftExcept_ok_iff,
    newConnection_ok_iff, value_ok_iff] at h
  obtain ⟨network, c, ⟨hbuilt, rfl⟩, _, _, rfl, connection, _, ⟨rfl, n, i, base, _, hfind, hbase,
    _, c₁, h₁, interface, _, ⟨hname, rfl⟩, _, c₂, h₂, ip, _, ⟨hip, rfl⟩, h₃⟩, ip', _, ⟨hip', rfl⟩,
    _, _, haddress, rfl⟩ := h
  have hprofile : network.profile = .Application := congrArg Prod.fst (applicationNetwork_ok hbuilt)
  obtain ⟨rfl, rfl⟩ := eq_of_find?_append_network hnew hprofile hfind
  obtain ⟨hi, hmac⟩ := construct_ok hbase
  obtain rfl := setMACUnlessEmpty_ok h₁ hmac
  obtain rfl := Connection.setInterface_ok h₂
  obtain ⟨-, rfl⟩ := Connection.setAddress_ok_iff.mp h₃
  obtain rfl : ip = ip' := Option.some.inj (hip.symm.trans hip')
  obtain ⟨network', hlies, hprofile', rfl⟩ := setNetworkAddress_append_ok hnew hprofile rfl haddress
  exact ⟨network', _, rfl, hprofile', hi, hname.symm, rfl,
    fun a ha => Option.some.inj (hip.symm.trans ha), hlies⟩

end Cluster

end Cloyster.Models
