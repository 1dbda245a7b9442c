import Cloyster.Models.Networks
import Cloyster.Services.XCAT

/-! The networks that the dialogs collect, and how they get into the model. Of each profile the
first answers are kept. A network and its connection are made outside the model and moved into
it together, so an entry that throws leaves nothing of itself behind. -/

namespace Cloyster.PresenterNetwork

open Lib Models Cluster

structure NetworkCreatorData where
  profile : Network.Profile
  type : Network.LinkType
  interface : String
  address : String
  subnetMask : String
  gateway : String
  name : String
  domains : List Address
  deriving DecidableEq

/-- No two entries are of one profile. -/
structure NetworkCreator where
  networks : List NetworkCreatorData := []
  distinct : (networks.map (·.profile)).Nodup := by simp

namespace NetworkCreator

variable (text : AddressText) (host : Host)

def checkIfProfileExists (creator : NetworkCreator) (profile : Network.Profile) : Bool :=
  creator.networks.any (·.profile = profile)

def addNetworkInformation (creator : NetworkCreator) (data : NetworkCreatorData) :
    Bool × NetworkCreator :=
  if h : creator.checkIfProfileExists data.profile then (false, creator)
  else (true, {
    networks := creator.networks ++ [data]
    distinct := by
      rw [List.map_append]
      refine creator.distinct.append (List.nodup_singleton _) ?_
      simpa [checkIfProfileExists] using h })

/-- The creator after these calls. -/
def ofCalls (given : List NetworkCreatorData) : NetworkCreator :=
  given.foldl (fun creator data => (creator.addNetworkInformation data).2) {}

/-- The network and the connection of an entry. The network will be number `position`. -/
def build (position : ℕ) (net : NetworkCreatorData) : Except Exn (Network × Connection) := do
  let base ← Connection.construct position net.type
  let connection ← exec (do
    Connection.setAddressText text net.address
    Connection.setInterface host net.interface) base
  let network ← exec (do
    Network.setSubnetMaskText text net.subnetMask
    setCalculatedAddress connection.address
    Network.setGatewayText text net.gateway
    Network.setDomainName net.name
    Network.setNameservers net.domains) { profile := net.profile, type := net.type }
  return (network, connection)

def saveNetwork (net : NetworkCreatorData) : ClusterM Unit := do
  let model ← get
  let (network, connection) ← liftExcept (build text host model.networks.length net)
  addNetwork network
  addConnection connection
  -- what is read for the log
  let model ← get
  let added ← liftExcept (model.getConnection model.headnode net.profile)
  let _ ← value added.interface

def saveNetworksToModel (creator : NetworkCreator) : ClusterM Unit :=
  creator.networks.forM (saveNetwork text host)

/-! ### What is kept -/

/-- The entries kept are some of those given, in their order, of each profile the first. -/
structure KeepsFirst (given kept : List NetworkCreatorData) : Prop where
  distinct : (kept.map (·.profile)).Nodup
  order : kept.Sublist given
  first : ∀ profile, kept.find? (·.profile = profile) = given.find? (·.profile = profile)

variable {text host} {given : List NetworkCreatorData}

theorem networks_addNetworkInformation (creator : NetworkCreator) (data : NetworkCreatorData) :
    (creator.addNetworkInformation data).2.networks =
      emplaceBy (·.profile) creator.networks data := by
  have hexists : creator.checkIfProfileExists data.profile ↔
      data.profile ∈ creator.networks.map (·.profile) := by
    simp [checkIfProfileExists]
  unfold addNetworkInformation emplaceBy
  by_cases h : creator.checkIfProfileExists data.profile
  · rw [dif_pos h, if_pos (hexists.mp h)]
  · rw [dif_neg h, if_neg (hexists.not.mp h)]

theorem networks_ofCalls (given : List NetworkCreatorData) :
    (ofCalls given).networks = given.foldl (emplaceBy (·.profile)) [] := by
  have hfold : ∀ (creator : NetworkCreator) (given : List NetworkCreatorData),
      (given.foldl (fun creator data => (creator.addNetworkInformation data).2) creator).networks =
        given.foldl (emplaceBy (·.profile)) creator.networks := by
    intro creator given
    induction given generalizing creator with
    | nil => rfl
    | cons data given ih => rw [List.foldl_cons, ih, networks_addNetworkInformation, List.foldl_cons]
  exact hfold {} given

theorem keepsFirst_ofCalls (given : List NetworkCreatorData) :
    KeepsFirst given (ofCalls given).networks where
  distinct := (ofCalls given).distinct
  order := by
    rw [networks_ofCalls]
    exact sublist_foldl_emplaceBy_append given []
  first profile := by
    rw [networks_ofCalls, find?_foldl_emplaceBy, List.find?_nil, Option.none_or]

/-! ### What an entry becomes -/

/-- The network and the connection that are made of an entry, with the network at a position. -/
structure Realises (text : AddressText) (entry : NetworkCreatorData) (position : ℕ)
    (network : Network) (connection : Connection) : Prop where
  profile : network.profile = entry.profile
  type : network.type = entry.type
  subnetMask : text.makeAddress entry.subnetMask = some network.subnetMask
  gateway : text.makeAddress entry.gateway = some network.gateway
  domainName : network.domainName = entry.name
  nameservers : network.nameservers = entry.domains
  position : connection.network = position
  interface : connection.interface = some entry.interface
  address : text.makeAddress entry.address = some connection.address
  lies : LiesIn connection.address network

variable {position : ℕ} {entry : NetworkCreatorData} {network : Network} {connection : Connection}

/-- Only the address changes. -/
theorem setCalculatedAddress_frame {ip : Address} {network network' : Network} {u : Unit}
    (h : setCalculatedAddress ip network = .ok u network') :
    { network with address := network'.address } = network' := by
  simp only [setCalculatedAddress, bind_ok_iff, liftExcept_ok_iff] at h
  obtain ⟨_, _, hget, address, _, ⟨-, rfl⟩, hset⟩ := h
  obtain ⟨rfl, rfl⟩ := EStateM.Result.ok.inj hget
  obtain ⟨-, rfl⟩ := Network.setAddress_ok_iff.mp hset
  rfl

theorem build_ok (h : build text host position entry = .ok (network, connection)) :
    Realises text entry position network connection := by
  simp only [build, except_bind_ok_iff, exec_ok_iff, except_pure_ok_iff, bind_ok_iff,
    Prod.mk.injEq] at h
  obtain ⟨base, hbase, _, ⟨_, _, c₁, haddress, hinterface⟩, _, ⟨_, _, n₁, hmask, _, n₂,
    hcalculate, _, n₃, hgateway, _, n₄, hdomain, hnameservers⟩, rfl, rfl⟩ := h
  obtain ⟨address, hmake, haddress⟩ := Network.withAddress_ok_iff.mp haddress
  obtain ⟨-, rfl⟩ := Connection.setAddress_ok_iff.mp haddress
  obtain rfl := Connection.setInterface_ok hinterface
  obtain ⟨mask, hmaskText, hset⟩ := Network.withAddress_ok_iff.mp hmask
  obtain ⟨-, rfl⟩ := Network.setSubnetMask_ok_iff.mp hset
  obtain ⟨hlies, -⟩ := setCalculatedAddress_ok hcalculate
  obtain ⟨bits, maskBits, haddress, hbits, hnetwork⟩ := hlies
  have hframe := setCalculatedAddress_frame hcalculate
  obtain ⟨gateway, hgatewayText, hset⟩ := Network.withAddress_ok_iff.mp hgateway
  obtain rfl := modify_ok_iff.mp hset
  obtain ⟨-, rfl⟩ := Network.setDomainName_ok hdomain
  obtain rfl := modify_ok_iff.mp hnameservers
  rw [← hframe] at hbits hnetwork ⊢
  exact ⟨rfl, rfl, hmaskText, hgatewayText, rfl, rfl, (construct_ok hbase).1, rfl, hmake,
    bits, maskBits, haddress, hbits, hnetwork⟩

/-! ### What is saved -/

/-- The entries are in the model, each as a network and a connection at its position, and nothing
else has changed. -/
structure Saved (text : AddressText) (entries : List NetworkCreatorData) (c c' : Cluster) :
    Prop where
  frame : { c with
    networks := c'.networks, headnode.connections := c'.headnode.connections } = c'
  networks : c'.networks.length = entries.length
  connections : c'.headnode.connections.length = entries.length
  realises : ∀ i entry, entries[i]? = some entry → ∃ network connection,
    c'.networks[i]? = some network ∧ c'.headnode.connections[i]? = some connection ∧
      Realises text entry i network connection

/-- Every connection leads to the network that the model has of its profile. -/
def Linked (c : Cluster) : Prop :=
  ∀ connection ∈ c.headnode.connections, ∃ network, c.networks[connection.network]? = some network ∧
    getNetwork network.profile c = .ok (network, connection.network) c

variable {entries : List NetworkCreatorData} {c c' c'' : Cluster} {u : Unit}

theorem saved_add (h : Saved text entries c c')
    (hrealises : Realises text entry c'.networks.length network connection) :
    Saved text (entries ++ [entry]) c { c' with
      networks := c'.networks ++ [network]
      headnode.connections := c'.headnode.connections ++ [connection] } where
  frame := by rw [← h.frame]
  networks := by simp [h.networks]
  connections := by simp [h.connections]
  realises i entry' hentry := by
    rcases Nat.lt_trichotomy i entries.length with hi | rfl | hi
    · rw [List.getElem?_append_left hi] at hentry
      obtain ⟨network', connection', hnetwork, hconnection, hrealises'⟩ := h.realises i entry' hentry
      refine ⟨network', connection', ?_, ?_, hrealises'⟩
      · rw [List.getElem?_append_left (by rwa [h.networks]), hnetwork]
      · rw [List.getElem?_append_left (by rwa [h.connections]), hconnection]
    · obtain rfl : entry = entry' := by simpa using hentry
      rw [h.networks] at hrealises
      refine ⟨network, connection, ?_, ?_, hrealises⟩
      · rw [← h.networks, List.getElem?_concat_length]
      · rw [← h.connections, List.getElem?_concat_length]
    · rw [List.getElem?_eq_none (by simpa using hi)] at hentry
      cases hentry

/-- Two lists whose entries agree position by position. -/
theorem map_eq_map {α β γ : Type} {l : List α} {m : List β} {f : α → γ} {g : β → γ}
    (hlength : m.length = l.length)
    (h : ∀ (i : ℕ) a, l[i]? = some a → ∃ b, m[i]? = some b ∧ g b = f a) : m.map g = l.map f := by
  apply List.ext_getElem?
  intro i
  rw [List.getElem?_map, List.getElem?_map]
  cases ha : l[i]? with
  | none =>
    rw [List.getElem?_eq_none_iff] at ha
    rw [List.getElem?_eq_none (by rwa [hlength])]
    rfl
  | some a =>
    obtain ⟨b, hb, hg⟩ := h i a ha
    rw [hb, Option.map_some, Option.map_some, hg]

theorem networkProfiles_saved (h : Saved text entries c c') :
    c'.networks.map (·.profile) = entries.map (·.profile) := by
  refine map_eq_map h.networks fun i entry hentry => ?_
  obtain ⟨network, connection, hnetwork, -, hrealises⟩ := h.realises i entry hentry
  exact ⟨network, hnetwork, hrealises.profile⟩

theorem connectionProfiles_saved (h : Saved text entries c c') :
    c'.headnode.connections.map (fun connection =>
      (c'.networks[connection.network]?).map (·.profile)) =
        (entries.map (·.profile)).map some := by
  rw [List.map_map]
  refine map_eq_map h.connections fun i entry hentry => ?_
  obtain ⟨network, connection, hnetwork, hconnection, hrealises⟩ := h.realises i entry hentry
  refine ⟨connection, hconnection, ?_⟩
  rw [hrealises.position, hnetwork, Option.map_some, hrealises.profile]
  rfl

/-- The connection that is read for the log is there. -/
theorem getConnection_saved (h : Saved text entries c c')
    (hdistinct : (entries.map (·.profile)).Nodup) {i : ℕ} (hentry : entries[i]? = some entry) :
    ∃ connection, c'.getConnection c'.headnode entry.profile = .ok connection ∧
      connection.interface = some entry.interface := by
  obtain ⟨network, connection, hnetwork, hconnection, hrealises⟩ := h.realises i entry hentry
  have hnodup : (c'.headnode.connections.map fun connection =>
      (c'.networks[connection.network]?).map (·.profile)).Nodup := by
    rw [connectionProfiles_saved h]
    exact hdistinct.map (Option.some_injective _)
  have hfind := find?_of_mem_of_nodup hnodup (List.mem_of_getElem? hconnection)
  rw [hrealises.position, hnetwork, Option.map_some, hrealises.profile] at hfind
  refine ⟨connection, ?_, hrealises.interface⟩
  rw [getConnection, hfind]

theorem linked_of_saved (h : Saved text entries c c') (hdistinct : (entries.map (·.profile)).Nodup) :
    Linked c' := by
  intro connection hmem
  obtain ⟨i, hconnection⟩ := List.mem_iff_getElem?.mp hmem
  have hi : i < entries.length := by
    rw [← h.connections]
    exact (List.getElem?_eq_some_iff.mp hconnection).1
  obtain ⟨network, connection', hnetwork, hconnection', hrealises⟩ :=
    h.realises i entries[i] (List.getElem?_eq_getElem hi)
  obtain rfl : connection = connection' := Option.some.inj (hconnection.symm.trans hconnection')
  rw [hrealises.position]
  refine ⟨network, hnetwork, getNetwork_ok_iff.mpr ⟨?_, rfl⟩⟩
  have hnodup : (c'.networks.zipIdx.map (·.1.profile)).Nodup := by
    have hfst : c'.networks.zipIdx.map (·.1.profile) = c'.networks.map (·.profile) := by
      conv_rhs => rw [← List.zipIdx_map_fst 0 c'.networks, List.map_map]
      rfl
    rw [hfst, networkProfiles_saved h]
    exact hdistinct
  exact find?_of_mem_of_nodup hnodup (List.mk_mem_zipIdx_iff_getElem?.mpr hnetwork)

/-! ### One entry -/

theorem saveNetwork_ok (h : Saved text entries c c')
    (hrun : saveNetwork text host entry c' = .ok u c'') : Saved text (entries ++ [entry]) c c'' := by
  simp only [saveNetwork, addNetwork, addConnection, bind_ok_iff, liftExcept_ok_iff, modify_ok_iff,
    value_ok_iff] at hrun
  obtain ⟨_, _, hget, ⟨network, connection⟩, _, ⟨hbuild, rfl⟩, _, _, rfl, _, _, rfl, _, _, hget',
    added, _, ⟨-, rfl⟩, _, _, ⟨-, rfl⟩, hreturn⟩ := hrun
  obtain ⟨rfl, rfl⟩ := EStateM.Result.ok.inj hget
  obtain ⟨-, rfl⟩ := EStateM.Result.ok.inj hget'
  obtain ⟨-, rfl⟩ := EStateM.Result.ok.inj hreturn
  exact saved_add h (build_ok hbuild)

/-- Once an entry is made, nothing more throws. -/
theorem saveNetwork_returns (h : Saved text entries c c')
    (hdistinct : ((entries ++ [entry]).map (·.profile)).Nodup)
    (hbuild : build text host c'.networks.length entry = .ok (network, connection)) :
    ∃ c'', saveNetwork text host entry c' = .ok () c'' := by
  obtain ⟨added, hadded, hinterface⟩ := getConnection_saved (saved_add h (build_ok hbuild)) hdistinct
    (i := entries.length) List.getElem?_concat_length
  rw [saveNetwork, bind_of_ok (get_apply c'), bind_of_ok (liftExcept_ok_iff.mpr ⟨hbuild, rfl⟩)]
  dsimp only
  rw [addNetwork, bind_of_ok (modify_apply _ _), addConnection, bind_of_ok (modify_apply _ _),
    bind_of_ok (get_apply _), bind_of_ok (liftExcept_ok_iff.mpr ⟨hadded, rfl⟩),
    bind_of_ok (value_ok_iff.mpr ⟨hinterface, rfl⟩)]
  exact ⟨_, rfl⟩

/-- An entry that throws does so before anything is moved into the model. -/
theorem saveNetwork_error {e : Exn} (h : Saved text entries c c')
    (hdistinct : ((entries ++ [entry]).map (·.profile)).Nodup)
    (hrun : saveNetwork text host entry c' = .error e c'') : c'' = c' := by
  cases hbuild : build text host c'.networks.length entry with
  | error e' =>
    rw [saveNetwork, bind_of_ok (get_apply c'), hbuild] at hrun
    exact (EStateM.Result.error.inj hrun).2.symm
  | ok built =>
    obtain ⟨c₁, hreturn⟩ := saveNetwork_returns h hdistinct hbuild
    rw [hreturn] at hrun
    cases hrun

/-! ### All entries -/

/-- Every connection of the headnode leads to a network of the model. -/
def WithinModel (c : Cluster) : Prop :=
  ∀ connection ∈ c.headnode.connections, connection.network < c.networks.length

theorem saved_nil (hempty : c.networks = []) (hwithin : WithinModel c) : Saved text [] c c where
  frame := rfl
  networks := by rw [hempty]; rfl
  connections := by
    rw [List.length_nil, List.length_eq_zero_iff, List.eq_nil_iff_forall_not_mem]
    intro connection hmem
    have hlt := hwithin connection hmem
    rw [hempty] at hlt
    exact Nat.not_lt_zero _ hlt
  realises i entry hentry := by simp at hentry

/-- Whatever is given and however the run ends: the first entries of each profile are kept, and a
first part of them, all of them when the run returns, is in the model, each as its network and its
connection, and every connection leads to the network of its profile. -/
theorem saveNetworksToModel_saves (given : List NetworkCreatorData) (hempty : c.networks = [])
    (hwithin : WithinModel c) :
    KeepsFirst given (ofCalls given).networks ∧
      ∃ n ≤ (ofCalls given).networks.length,
        (∀ u c', saveNetworksToModel text host (ofCalls given) c = .ok u c' →
          n = (ofCalls given).networks.length) ∧
        Saved text ((ofCalls given).networks.take n) c
          (finalState (saveNetworksToModel text host (ofCalls given) c)) ∧
        Linked (finalState (saveNetworksToModel text host (ofCalls given) c)) := by
  refine ⟨keepsFirst_ofCalls given, ?_⟩
  generalize ofCalls given = creator
  have hdistinct (n : ℕ) : ((creator.networks.take n).map (·.profile)).Nodup :=
    creator.distinct.sublist ((List.take_sublist n _).map _)
  have htake {i : ℕ} {entry : NetworkCreatorData} (hentry : creator.networks[i]? = some entry) :
      creator.networks.take (i + 1) = creator.networks.take i ++ [entry] := by
    rw [List.take_add_one, hentry]
    rfl
  obtain ⟨n, hn, hreturn, hsaved⟩ := forM_take_induction
    (P := fun i c' => Saved text (creator.networks.take i) c c') (l := creator.networks)
    (f := saveNetwork text host)
    (fun i entry c₁ c₂ e hentry hsaved hrun => by
      rwa [saveNetwork_error hsaved (by rw [← htake hentry]; exact hdistinct (i + 1)) hrun])
    (fun i entry c₁ c₂ u hentry hsaved hrun => by
      rw [htake hentry]
      exact saveNetwork_ok hsaved hrun)
    (saved_nil hempty hwithin)
  exact ⟨n, hn, hreturn, hsaved, linked_of_saved hsaved (hdistinct n)⟩

/-- The same profile twice, and another one. -/
def sampleGiven : List NetworkCreatorData :=
  [⟨.Management, .Ethernet, "eth1", "10.0.0.1", "255.255.255.0", "10.0.0.254", "example.com", []⟩,
    ⟨.Management, .Ethernet, "eth2", "10.1.0.1", "255.255.255.0", "10.1.0.254", "example.org", []⟩,
    ⟨.External, .Ethernet, "eth3", "10.2.0.1", "255.255.0.0", "10.2.0.254", "example.net", []⟩]

def sampleHost : Host where
  ifaddrs := .ok [{ name := "eth1", addr := some .other }, { name := "eth3", addr := some .other }]

theorem saveNetworksToModel_saves_sample :
    let run := saveNetworksToModel .dottedQuads sampleHost (ofCalls sampleGiven) { headnode := {} }
    KeepsFirst sampleGiven (ofCalls sampleGiven).networks ∧
      ∃ n ≤ (ofCalls sampleGiven).networks.length,
        (∀ u c', run = .ok u c' → n = (ofCalls sampleGiven).networks.length) ∧
        Saved .dottedQuads ((ofCalls sampleGiven).networks.take n) { headnode := {} }
          (finalState run) ∧
        Linked (finalState run) :=
  saveNetworksToModel_saves sampleGiven rfl fun _ h => absurd h List.not_mem_nil

end NetworkCreator

end Cloyster.PresenterNetwork
