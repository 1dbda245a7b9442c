import Cloyster.Models.Networks

/-! What `fillData` leaves, block by block: the networks with the headnode's
connections, the names, the disk image and the nodes. -/

namespace Cloyster.Models

open Lib

/-- The answer file's field for the networks of a profile. -/
def getNetworkField (af : AnswerFile) : Network.Profile → AFNetwork
  | .Management => af.management
  | .Service => af.service
  | .External => af.external
  | .Application => af.application

namespace Cluster

variable {boost : Boost} {opts : Options} {host : Host} {af : AnswerFile} {c c' : Cluster}
  {u : Unit}

/-- The full name that `setIdentity` leaves. -/
def identityFQDN (hostname : AFHostname) : String :=
  fullName hostname.hostname
    (Text.afterFirst '.' (fullName hostname.hostname hostname.domain_name))

/-! ### The blocks without networks -/

theorem setDiskImage_ok {path : String} (h : setDiskImage opts host path c = .ok u c') :
    ∃ image, DiskImage.setPath opts host path c.diskImage = .ok u image ∧
      { c with diskImage := image } = c' := by
  simp only [setDiskImage, bind_ok_iff, refuseIf_ok_iff] at h
  obtain ⟨_, c, ⟨-, rfl⟩, h⟩ := h
  exact zoom_ok_iff.mp h

theorem setIdentity_ok {hostname : AFHostname} (h : setIdentity hostname c = .ok u c') :
    { c with
      headnode.hostname := hostname.hostname
      headnode.fqdn := identityFQDN hostname } = c' :=
  (EStateM.Result.ok.inj h).2

theorem fillOFED_ok {ofed : AFOFED} (h : fillOFED opts ofed c = .ok u c') :
    ∃ ofed, { c with ofed := some ofed } = c' := by
  unfold fillOFED at h
  split_ifs at h
  · cases hkind : ofStringInsensitive OFED.Kind ofed.kind with
    | none =>
      simp only [hkind] at h
      exact absurd h (by simp)
    | some kind =>
      simp only [hkind, bind_ok_iff, value_ok_iff] at h
      obtain ⟨version, c, ⟨-, rfl⟩, h⟩ := h
      exact ⟨_, modify_ok_iff.mp h⟩
  · exact ⟨_, modify_ok_iff.mp h⟩

/-- The mail system before its server is set. -/
def startingMail (settings : AFPostfix) (c : Cluster) (profile : Postfix.Profile) : MailSystem where
  profile
  hostname := some c.headnode.hostname
  domain := some c.getDomainName
  destination := some settings.destination
  certFile := some settings.cert_file
  keyFile := some settings.key_file

theorem fillMailSystem_ok_iff {settings : AFPostfix} (henabled : settings.enabled) :
    fillMailSystem settings c = .ok u c' ↔ ∃ profile mail, settings.profile = some profile ∧
      mailServer settings (startingMail settings c profile) = .ok mail ∧
      { c with mailSystem := some mail } = c' := by
  rw [fillMailSystem, if_pos henabled]
  simp only [bind_ok_iff, liftExcept_ok_iff, get_apply, AnswerFile.dereference_ok_iff,
    modify_ok_iff]
  constructor
  · rintro ⟨_, _, hget, profile, _, ⟨hprofile, rfl⟩, mail, _, ⟨hmail, rfl⟩, hset⟩
    obtain ⟨rfl, rfl⟩ := EStateM.Result.ok.inj hget
    exact ⟨profile, mail, hprofile, hmail, hset⟩
  · rintro ⟨profile, mail, hprofile, hmail, hset⟩
    exact ⟨_, _, rfl, profile, _, ⟨hprofile, rfl⟩, mail, _, ⟨hmail, rfl⟩, hset⟩

theorem fillMailSystem_ok {settings : AFPostfix} (h : fillMailSystem settings c = .ok u c') :
    ∃ mail, { c with mailSystem := mail } = c' := by
  by_cases henabled : settings.enabled
  · obtain ⟨profile, mail, -, -, hset⟩ := (fillMailSystem_ok_iff henabled).mp h
    exact ⟨_, hset⟩
  · rw [fillMailSystem, if_neg henabled] at h
    obtain ⟨-, rfl⟩ := EStateM.Result.ok.inj h
    exact ⟨_, rfl⟩

theorem setGeneric_ok_iff {nodes : AFNodes} :
    setGeneric nodes c = .ok u c' ↔ ∃ generic nodeStartIP nodeRootPassword,
      nodes.generic = some generic ∧ generic.start_ip = some nodeStartIP ∧
      generic.root_password = some nodeRootPassword ∧
      { c with nodeStartIP, nodeRootPassword } = c' := by
  simp only [setGeneric, bind_ok_iff, liftExcept_ok_iff, value_ok_iff, modify_ok_iff,
    AnswerFile.dereference_ok_iff]
  constructor
  · rintro ⟨generic, _, ⟨hgeneric, rfl⟩, ip, _, ⟨hip, rfl⟩, password, _, ⟨hpassword, rfl⟩, hset⟩
    exact ⟨generic, ip, password, hgeneric, hip, hpassword, hset⟩
  · rintro ⟨generic, ip, password, hgeneric, hip, hpassword, hset⟩
    exact ⟨generic, _, ⟨hgeneric, rfl⟩, ip, _, ⟨hip, rfl⟩, password, _, ⟨hpassword, rfl⟩, hset⟩

theorem fillNode_ok {os : OS} {node : AFNode} (h : fillNode host os node c = .ok u c') :
    ∃ management newNode, c.networks.zipIdx.find? (·.1.profile = .Management) = some management ∧
      makeNode host os management node = .ok newNode ∧
      { c with nodes := c.nodes ++ [newNode] } = c' := by
  simp only [fillNode, bind_ok_iff, getNetwork_ok_iff, liftExcept_ok_iff] at h
  obtain ⟨management, c, ⟨hfind, rfl⟩, newNode, _, ⟨hmake, rfl⟩, h⟩ := h
  exact ⟨management, newNode, hfind, hmake, modify_ok_iff.mp h⟩

/-- One node for each entry, in order. -/
theorem forM_fillNode_ok {os : OS} {entries : List AFNode}
    (h : entries.forM (fillNode host os) c = .ok u c') :
    ∃ nodes, { c with nodes := c.nodes ++ nodes } = c' ∧
      List.Forall₂ (fun entry node => ∃ management,
        c.networks.zipIdx.find? (·.1.profile = .Management) = some management ∧
          makeNode host os management entry = .ok node) entries nodes := by
  induction entries generalizing c with
  | nil =>
    obtain ⟨-, rfl⟩ := EStateM.Result.ok.inj h
    exact ⟨[], by rw [List.append_nil], .nil⟩
  | cons entry entries ih =>
    obtain ⟨_, c₁, hfirst, hrest⟩ := bind_ok_iff.mp h
    obtain ⟨management, node, hfind, hmake, rfl⟩ := fillNode_ok hfirst
    obtain ⟨nodes, rfl, hnodes⟩ := ih hrest
    refine ⟨node :: nodes, ?_, .cons ⟨management, hfind, hmake⟩ hnodes⟩
    rw [List.append_assoc, List.singleton_append]

/-! ### Three phases -/

/-- Before the headnode is connected. -/
structure Prepared (opts : Options) (host : Host) (af : AnswerFile) (c c' : Cluster) : Prop where
  networks : c'.networks = c.networks
  connections : c'.headnode.connections = c.headnode.connections
  nodes : c'.nodes = c.nodes
  hostname : c'.headnode.hostname = af.hostname.hostname
  fqdn : c'.headnode.fqdn = identityFQDN af.hostname
  diskImage : ∃ u, DiskImage.setPath opts host af.system.disk_image c.diskImage =
    .ok u c'.diskImage

/-- After the headnode is connected. -/
structure Completed (host : Host) (os : OS) (af : AnswerFile) (c c' : Cluster) : Prop where
  networks : c'.networks = c.networks
  connections : c'.headnode.connections = c.headnode.connections
  hostname : c'.headnode.hostname = c.headnode.hostname
  fqdn : c'.headnode.fqdn = c.headnode.fqdn
  diskImage : c'.diskImage = c.diskImage
  nodes : ∃ nodes, c'.nodes = c.nodes ++ nodes ∧
    List.Forall₂ (fun entry node => ∃ management,
      c.networks.zipIdx.find? (·.1.profile = .Management) = some management ∧
        makeNode host os management entry = .ok node) af.nodes.nodes nodes

/-- The four connecting blocks. -/
def connectAll (boost : Boost) (host : Host) (af : AnswerFile) (management external : Network) :
    ClusterM Unit := do
  connectManagement host af.management management
  connectExternal host af.external external
  connectService boost host af.service af.application
  connectApplication boost host af.application

theorem connectAll_ok_iff {management external : Network} :
    connectAll boost host af management external c = .ok u c' ↔
      ∃ u₁ c₁, connectManagement host af.management management c = .ok u₁ c₁ ∧
        ∃ u₂ c₂, connectExternal host af.external external c₁ = .ok u₂ c₂ ∧
          ∃ u₃ c₃, connectService boost host af.service af.application c₂ = .ok u₃ c₃ ∧
            connectApplication boost host af.application c₃ = .ok u c' := by
  simp only [connectAll, bind_ok_iff]

/-- What connecting the headnode cannot change. -/
def unwired (cluster : Cluster) : Cluster :=
  { cluster with networks := [], headnode.connections := [] }

theorem keeps_newConnection (profile : Network.Profile) (calls : Connection.ConnectionM Unit) :
    Keeps unwired (newConnection profile calls) := by
  intro c connection c' h
  rw [(newConnection_ok_iff.mp h).1]

theorem keeps_setNetworkAddress (profile : Network.Profile) (ip : Address) :
    Keeps unwired (setNetworkAddress profile ip) := by
  intro c u c' h
  obtain ⟨_, _, _, -, -, -, rfl⟩ := setNetworkAddress_ok h
  rfl

theorem keeps_addNetwork (network : Network) : Keeps unwired (addNetwork network) :=
  keeps_modify fun _ => rfl

theorem keeps_addConnection (connection : Connection) : Keeps unwired (addConnection connection) :=
  keeps_modify fun _ => rfl

theorem keeps_connect (profile : Network.Profile) (mac interface : Option String)
    (ip : Option Address) : Keeps unwired (connect host profile mac interface ip) := by
  refine keeps_bind (keeps_newConnection _ _) fun connection => ?_
  refine keeps_bind (keeps_value _) fun ip => ?_
  exact keeps_bind (keeps_setNetworkAddress _ _) fun _ => keeps_addConnection _

theorem keeps_connectAll (af : AnswerFile) (management external : Network) :
    Keeps unwired (connectAll boost host af management external) := by
  have hmanagement : Keeps unwired (connectManagement host af.management management) := by
    refine keeps_bind (keeps_addNetwork _) fun _ => ?_
    exact keeps_bind (keeps_newConnection _ _) fun _ => keeps_addConnection _
  have hexternal : Keeps unwired (connectExternal host af.external external) := by
    refine keeps_bind (keeps_addNetwork _) fun _ => ?_
    refine keeps_bind (keeps_value _) fun interface => ?_
    refine keeps_bind (keeps_newConnection _ _) fun connection => ?_
    refine keeps_bind (keeps_liftExcept _) fun ip => ?_
    refine keeps_bind (keeps_liftExcept _) fun connection => ?_
    refine keeps_bind (keeps_setNetworkAddress _ _) fun _ => ?_
    exact keeps_bind (keeps_liftExcept _) fun _ => keeps_addConnection _
  have hservice : Keeps unwired (connectService boost host af.service af.application) := by
    unfold connectService
    split_ifs
    · refine keeps_bind (keeps_liftExcept _) fun network => ?_
      exact keeps_bind (keeps_addNetwork _) fun _ => keeps_connect _ _ _ _
    · exact keeps_pure _
  have happlication : Keeps unwired (connectApplication boost host af.application) := by
    unfold connectApplication
    split_ifs
    · refine keeps_bind (keeps_liftExcept _) fun network => ?_
      exact keeps_bind (keeps_addNetwork _) fun _ => keeps_connect _ _ _ _
    · exact keeps_pure _
  exact keeps_bind hmanagement fun _ => keeps_bind hexternal fun _ =>
    keeps_bind hservice fun _ => happlication

theorem fill_ok (h : fill boost opts host af c = .ok u c') :
    ∃ management external os c₁ c₂,
      managementNetwork boost host af.management = .ok management ∧
      externalNetwork boost host af.external = .ok external ∧
      Prepared opts host af c c₁ ∧
      connectAll boost host af management external c₁ = .ok u c₂ ∧
      Completed host os af c₂ c' := by
  simp only [fill, bind_ok_iff, liftExcept_ok_iff, setInformation, setQueueSystem, setOS,
    modify_ok_iff] at h
  obtain ⟨management, c, ⟨hmanagement, rfl⟩, external, _, ⟨hexternal, rfl⟩, _, _, himage,
    os, _, ⟨-, rfl⟩, _, _, rfl, _, _, hidentity, _, _, hofed, _, c₁, hc₁,
    _, c₂, h₁, _, c₃, h₂, _, c₄, h₃, _, c₅, h₄, _, _, rfl, _, _, hnodes, _, _, hmail, hgeneric⟩ := h
  refine ⟨management, external, os, c₁, c₅, hmanagement, hexternal, ?_,
    connectAll_ok_iff.mpr ⟨_, c₂, h₁, _, c₃, h₂, _, c₄, h₃, h₄⟩, ?_⟩
  · obtain ⟨image, hpath, rfl⟩ := setDiskImage_ok himage
    obtain rfl := setIdentity_ok hidentity
    obtain ⟨ofed, rfl⟩ := fillOFED_ok hofed
    subst hc₁
    exact ⟨rfl, rfl, rfl, rfl, rfl, _, hpath⟩
  · obtain ⟨nodes, rfl, hmade⟩ := forM_fillNode_ok hnodes
    obtain ⟨mail, rfl⟩ := fillMailSystem_ok hmail
    obtain ⟨_, ip, password, -, -, -, rfl⟩ := setGeneric_ok_iff.mp hgeneric
    exact ⟨rfl, rfl, rfl, rfl, rfl, nodes, rfl, hmade⟩

/-! ### How the headnode is wired -/

/-- A connection made for a network from a field of the answer file. -/
structure Links (field : AFNetwork) (network : Network) (connection : Connection) : Prop where
  interface : connection.interface = field.con_interface
  mac : connection.mac = storedMAC field.con_mac_addr
  address : ∀ ip, field.con_ip_addr = some ip → connection.address = ip
  lies : LiesIn connection.address network

/-- The networks have these profiles, in order, and the connections go to them one by one. -/
structure Wired (af : AnswerFile) (profiles : List Network.Profile) (c : Cluster) : Prop where
  profiles : c.networks.map (·.profile) = profiles
  length : c.headnode.connections.length = c.networks.length
  position : ∀ (i : ℕ) (connection : Connection), c.headnode.connections[i]? = some connection →
    connection.network = i
  links : ∀ (i : ℕ) (network : Network) (connection : Connection), c.networks[i]? = some network →
    c.headnode.connections[i]? = some connection →
      Links (getNetworkField af network.profile) network connection

theorem wired_attaches {profiles : List Network.Profile} {profile : Network.Profile}
    {network : Network} {connection : Connection} (hwired : Wired af profiles c)
    (h : Attaches profile (getNetworkField af profile) c c' network connection) :
    Wired af (profiles ++ [profile]) c' := by
  obtain ⟨rfl, hprofile, hposition, hinterface, hmac, haddress, hlies⟩ := h
  have hlength := hwired.length
  constructor
  · rw [List.map_append, hwired.profiles, List.map_singleton, hprofile]
  · rw [List.length_append, List.length_append, hlength]
    rfl
  · intro i found hfound
    rw [List.getElem?_append] at hfound
    split_ifs at hfound with hi
    · exact hwired.position i found hfound
    · rw [List.getElem?_singleton] at hfound
      split_ifs at hfound with hzero
      obtain rfl := Option.some.inj hfound
      omega
  · intro i n found hn hfound
    rw [List.getElem?_append] at hn hfound
    rw [hlength] at hfound
    split_ifs at hn hfound with hi
    · exact hwired.links i n found hn hfound
    · rw [List.getElem?_singleton] at hn hfound
      split_ifs at hn hfound with hzero
      obtain rfl := Option.some.inj hn
      obtain rfl := Option.some.inj hfound
      rw [hprofile]
      exact ⟨hinterface, hmac, haddress, hlies⟩

/-- The profiles that an answer file without a service network leads to. -/
def profilesOf (af : AnswerFile) : List Network.Profile :=
  if af.application.con_interface.isSome then [.Management, .External, .Application]
  else [.Management, .External]

theorem wired_connectAll {management external : Network} (hfresh : Wired af [] c)
    (hservice : af.service.con_interface = none)
    (hmanagement : managementNetwork boost host af.management = .ok management)
    (hexternal : externalNetwork boost host af.external = .ok external)
    (h : connectAll boost host af management external c = .ok u c') :
    Wired af (profilesOf af) c' := by
  obtain ⟨_, c₁, h₁, _, c₂, h₂, _, c₃, h₃, h₄⟩ := connectAll_ok_iff.mp h
  have hnew {profiles : List Network.Profile} {d : Cluster} {profile : Network.Profile}
      (hd : Wired af profiles d) (hprofile : profile ∉ profiles) :
      ∀ n ∈ d.networks, n.profile ≠ profile := by
    intro n hn heq
    rw [← hd.profiles] at hprofile
    exact hprofile (List.mem_map.mpr ⟨n, hn, heq⟩)
  obtain ⟨hfixed, hlies⟩ := managementNetwork_ok hmanagement
  obtain ⟨_, hattach₁⟩ :=
    connectManagement_ok (hnew hfresh (by decide)) (congrArg Prod.fst hfixed) hlies h₁
  have hwired₁ := wired_attaches hfresh hattach₁
  obtain ⟨_, _, hattach₂⟩ := connectExternal_ok (hnew hwired₁ (by decide))
    (congrArg Prod.fst (externalNetwork_ok hexternal)) h₂
  have hwired₂ := wired_attaches hwired₁ hattach₂
  rw [connectService, hservice] at h₃
  obtain ⟨-, rfl⟩ := EStateM.Result.ok.inj h₃
  unfold profilesOf
  split_ifs with happlication
  · obtain ⟨_, _, hattach₃⟩ :=
      connectApplication_ok (hnew hwired₂ (by decide)) happlication h₄
    exact wired_attaches hwired₂ hattach₃
  · rw [connectApplication, if_neg happlication] at h₄
    obtain ⟨-, rfl⟩ := EStateM.Result.ok.inj h₄
    exact hwired₂

/-- A cluster as it is constructed has no networks and no connections. -/
structure Fresh (c : Cluster) : Prop where
  networks : c.networks = []
  connections : c.headnode.connections = []
  nodes : c.nodes = []
  distro : c.diskImage.distro = none

theorem fresh_construct (h : construct host = .ok c) : Fresh c := by
  simp only [construct, except_bind_ok_iff] at h
  obtain ⟨os, -, h⟩ := h
  obtain rfl := Except.ok.inj h
  exact ⟨rfl, rfl, rfl, rfl⟩

theorem wired_fill (hfresh : Fresh c) (hservice : af.service.con_interface = none)
    (h : fill boost opts host af c = .ok u c') : Wired af (profilesOf af) c' := by
  obtain ⟨management, external, os, c₁, c₂, hmanagement, hexternal, hprepared, hconnect,
    hcompleted⟩ := fill_ok h
  have hnetworks : c₁.networks = [] := hprepared.networks.trans hfresh.networks
  have hconnections : c₁.headnode.connections = [] :=
    hprepared.connections.trans hfresh.connections
  have hempty : Wired af [] c₁ := by
    constructor
    · rw [hnetworks]
      rfl
    · rw [hnetworks, hconnections]
      rfl
    · simp [hconnections]
    · simp [hconnections]
  have hwired := wired_connectAll hempty hservice hmanagement hexternal hconnect
  obtain ⟨hprofiles, hlength, hposition, hlinks⟩ := hwired
  rw [← hcompleted.networks] at hprofiles hlength
  rw [← hcompleted.connections] at hlength
  constructor
  · exact hprofiles
  · exact hlength
  · rw [hcompleted.connections]
    exact hposition
  · rw [hcompleted.networks, hcompleted.connections]
    exact hlinks

theorem diskImage_fill (h : fill boost opts host af c = .ok u c') :
    ∃ u, DiskImage.setPath opts host af.system.disk_image c.diskImage = .ok u c'.diskImage := by
  obtain ⟨_, _, _, c₁, c₂, -, -, hprepared, hconnect, hcompleted⟩ := fill_ok h
  have hkept : unwired c₂ = unwired c₁ := keeps_connectAll _ _ _ _ _ _ hconnect
  have himage : c₂.diskImage = c₁.diskImage := congrArg (·.diskImage) hkept
  rw [hcompleted.diskImage, himage]
  exact hprepared.diskImage

/-! ### The nodes -/

theorem nodes_fill (hfresh : Fresh c) (h : fill boost opts host af c = .ok u c') :
    ∃ os, List.Forall₂ (fun entry node => ∃ management,
      c'.networks.zipIdx.find? (·.1.profile = .Management) = some management ∧
        makeNode host os management entry = .ok node) af.nodes.nodes c'.nodes := by
  obtain ⟨_, _, os, c₁, c₂, -, -, hprepared, hconnect, hcompleted⟩ := fill_ok h
  have hkept : unwired c₂ = unwired c₁ := keeps_connectAll _ _ _ _ _ _ hconnect
  have hempty : c₂.nodes = [] := by
    have hnodes : c₂.nodes = c₁.nodes := congrArg (·.nodes) hkept
    rw [hnodes, hprepared.nodes, hfresh.nodes]
  obtain ⟨nodes, hnodes, hmade⟩ := hcompleted.nodes
  rw [hempty, List.nil_append] at hnodes
  rw [hcompleted.networks, hnodes]
  exact ⟨os, hmade⟩

/-- A node made from an entry, with its one connection. -/
structure Made (management : Network × ℕ) (entry : AFNode) (node : Node)
    (connection : Connection) : Prop where
  connections : node.connections = [connection]
  position : connection.network = management.2
  startIp : entry.start_ip = some connection.address ∧ node.nodeStartIp = some connection.address
  address : connection.address ≠ .unset
  mac : entry.mac_address = some node.macAddress ∧ connection.mac = some (Text.lower node.macAddress)
  bmc : node.bmc.isSome

theorem makeNode_ok {os : OS} {management : Network × ℕ} {entry : AFNode} {node : Node}
    (h : makeNode host os management entry = .ok node) :
    ∃ connection, Made management entry node connection := by
  simp only [makeNode, except_bind_ok_iff, optionValue_ok_iff, except_pure_ok_iff,
    exec_ok_iff, bind_ok_iff] at h
  obtain ⟨base, hbase, _, -, hostname, -, ip, hip, mac, hmac, _, -, _, -, _, -, _, -, _, -, _, -,
    _, -, _, -, _, -, connection, ⟨_, _, withMAC, hset, haddress⟩, rfl⟩ := h
  obtain ⟨hposition, -⟩ := construct_ok hbase
  obtain ⟨-, rfl⟩ := Connection.setMAC_ok hset
  obtain ⟨hne, rfl⟩ := Connection.setAddress_ok_iff.mp haddress
  have hown : entry.mac_address = some mac := by
    unfold nodeMAC at hmac
    cases hentry : entry.mac_address with
    | none =>
      rw [hentry] at hmac
      exact absurd hmac (by simp)
    | some s =>
      rw [hentry] at hmac
      dsimp only at hmac
      cases hvalid : Connection.validateMAC s with
      | error e =>
        rw [hvalid] at hmac
        exact absurd hmac (by simp)
      | ok b =>
        rw [hvalid] at hmac
        rw [Except.ok.inj hmac]
  exact ⟨_, rfl, hposition, ⟨hip, rfl⟩, hne, ⟨hown, rfl⟩, rfl⟩

/-! ### New clusters -/

theorem fillNew_ok {file : KeyFile} (h : fillNew boost opts host file = .ok c') :
    ∃ c u, construct host = .ok c ∧ AnswerFile.FileLoadable boost opts file ∧
      fill boost opts host (AnswerFile.loaded boost file {}) c = .ok u c' := by
  simp only [fillNew, fillData, except_bind_ok_iff, exec_ok_iff, bind_ok_iff, liftExcept_ok_iff,
    AnswerFile.loadOptions_ok_iff] at h
  obtain ⟨c, hnew, u, _, _, ⟨⟨hloadable, rfl⟩, rfl⟩, hfill⟩ := h
  exact ⟨_, u, hnew, hloadable, hfill⟩

end Cluster

end Cloyster.Models
