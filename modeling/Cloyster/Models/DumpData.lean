import Cloyster.Models.Dump
import Cloyster.Models.Profiles

/-! `Cluster::dumpData`: the cluster written over the answer file that stands at the
path. The networks' own addresses go where the answer file has those of the
connections, and the nodes are added to the ones already there. -/

namespace Cloyster.Models

open Lib

def updateNetworkField (af : AnswerFile) (profile : Network.Profile) (f : AFNetwork → AFNetwork) :
    AnswerFile :=
  match profile with
  | .Management => { af with management := f af.management }
  | .Service => { af with service := f af.service }
  | .External => { af with external := f af.external }
  | .Application => { af with application := f af.application }

theorem getNetworkField_updateNetworkField (af : AnswerFile) (profile p : Network.Profile)
    (f : AFNetwork → AFNetwork) :
    getNetworkField (updateNetworkField af profile f) p =
      if p = profile then f (getNetworkField af p) else getNetworkField af p := by
  cases profile <;> cases p <;> rfl

namespace Cluster

/-! ### The answer file that is dumped -/

def describeNetwork (network : Network) (field : AFNetwork) : AFNetwork :=
  { field with
    subnet_mask := some network.subnetMask
    gateway := some network.gateway
    domain_name := some network.domainName
    con_ip_addr := some network.address }

def describeNetworks (networks : List Network) (af : AnswerFile) : AnswerFile :=
  networks.foldl (fun af network =>
    updateNetworkField af network.profile (describeNetwork network)) af

def describeNode (node : Node) : AFNode where
  hostname := some node.hostname
  mac_address := some node.macAddress
  start_ip := node.nodeStartIp
  pre := node.pre
  padding := node.padding.map toString
  cores_per_socket := some (toString node.cpu.coresPerSocket)
  threads_per_core := some (toString node.cpu.threadsPerCore)
  sockets := some (toString node.cpu.sockets)
  bmc_address := node.bmc.map (·.address)
  bmc_username := node.bmc.map (·.username)
  bmc_password := node.bmc.map (·.password)
  bmc_serialport := node.bmc.map fun bmc => toString bmc.serialPort
  bmc_serialspeed := node.bmc.map fun bmc => toString bmc.serialSpeed

/-- The loaded answer file with the cluster written over it. -/
def describe (cluster : Cluster) (af : AnswerFile) : AnswerFile :=
  let af := describeNetworks cluster.networks af
  { af with
    system.disk_image := cluster.diskImage.path
    information := {
      cluster_name := cluster.name
      company_name := cluster.companyName
      administrator_email := cluster.adminMail }
    time.timezone := cluster.timezone
    time.locale := cluster.locale
    nodes.nodes := af.nodes.nodes ++ cluster.nodes.map describeNode }

variable (boost : Boost) (opts : Options) (codec : GKeyFile)

/-- The constructor of the answer file opens the path and then loads it again. -/
def openAnswerFile (path : Path) : FsM (KeyFile × AnswerFile) := do
  let _ ← KeyFile.open codec path
  let file ← KeyFile.load codec path
  let af ← liftExcept (AnswerFile.loadOptions boost opts file {})
  return (file, af)

def dumpFile (path : Path) (file : KeyFile) (af : AnswerFile) : FsM Unit := do
  let file ← liftExcept (exec (AnswerFile.dumpOptions boost af) file)
  KeyFile.save codec path file

/-- `dumpData`, with the answer file it dumps. -/
def dumpData (cluster : Cluster) (path : Path) : FsM AnswerFile := do
  let (file, af) ← openAnswerFile boost opts codec path
  dumpFile boost codec path file (describe cluster af)
  return describe cluster af

/-! ### The networks of the dumped answer file -/

variable {boost opts codec} {networks : List Network} {af : AnswerFile} {p : Network.Profile}

theorem describeNetworks_cons (network : Network) (networks : List Network) (af : AnswerFile) :
    describeNetworks (network :: networks) af =
      describeNetworks networks
        (updateNetworkField af network.profile (describeNetwork network)) := rfl

theorem con_interface_describeNetworks :
    (getNetworkField (describeNetworks networks af) p).con_interface =
      (getNetworkField af p).con_interface := by
  induction networks generalizing af with
  | nil => rfl
  | cons network networks ih =>
    rw [describeNetworks_cons, ih, getNetworkField_updateNetworkField]
    split_ifs <;> rfl

theorem getNetworkField_describeNetworks_of_notMem (h : p ∉ networks.map (·.profile)) :
    getNetworkField (describeNetworks networks af) p = getNetworkField af p := by
  induction networks generalizing af with
  | nil => rfl
  | cons network networks ih =>
    rw [List.map_cons, List.mem_cons, not_or] at h
    rw [describeNetworks_cons, ih h.2, getNetworkField_updateNetworkField, if_neg h.1]

/-- With one network for each profile, every field has the address of its network. -/
theorem con_ip_addr_describeNetworks (hnodup : (networks.map (·.profile)).Nodup)
    {network : Network} (hmem : network ∈ networks) :
    (getNetworkField (describeNetworks networks af) network.profile).con_ip_addr =
      some network.address := by
  induction networks generalizing af with
  | nil => exact absurd hmem List.not_mem_nil
  | cons first networks ih =>
    rw [List.map_cons, List.nodup_cons] at hnodup
    rw [describeNetworks_cons]
    obtain rfl | hrest := List.mem_cons.mp hmem
    · rw [getNetworkField_describeNetworks_of_notMem hnodup.1, getNetworkField_updateNetworkField,
        if_pos rfl]
      rfl
    · exact ih hnodup.2 hrest

/-- The parts that the dump reads besides the networks. -/
def otherParts (af : AnswerFile) : AFSystem × AFTime × AFNodes × AFPostfix :=
  (af.system, af.time, af.nodes, af.postfixSettings)

theorem otherParts_describeNetworks :
    otherParts (describeNetworks networks af) = otherParts af := by
  induction networks generalizing af with
  | nil => rfl
  | cons network networks ih =>
    rw [describeNetworks_cons, ih]
    cases network.profile <;> rfl

/-! ### When the dump returns -/

/-- The server is there when the profile needs one. -/
def SMTPReady (settings : AFPostfix) : Postfix.Profile → Prop
  | .Local => True
  | .Relay => settings.smtp.isSome
  | .SASL => ∃ smtp, settings.smtp = some smtp ∧ smtp.sasl.isSome

def PostfixReady (settings : AFPostfix) : Prop :=
  settings.enabled → ∃ profile, settings.profile = some profile ∧ SMTPReady settings profile

theorem returns_setStringIfSome (group key : String) (value : Option String) :
    Returns (AnswerFile.setStringIfSome group key value) :=
  returns_optionForM fun _ => returns_modify _

theorem returns_dumpNetwork (network : AFNetwork) (networkSection : String) :
    Returns (AnswerFile.dumpNetwork boost network networkSection) := by
  unfold AnswerFile.dumpNetwork
  iterate 6 refine returns_bind (returns_setStringIfSome _ _ _) fun _ => ?_
  exact returns_setStringIfSome _ _ _

theorem returns_dumpNode (node : AFNode × ℕ) : Returns (AnswerFile.dumpNode node) := by
  unfold AnswerFile.dumpNode
  iterate 9 refine returns_bind (returns_setStringIfSome _ _ _) fun _ => ?_
  exact returns_setStringIfSome _ _ _

theorem returns_dumpSMTP {settings : AFPostfix} {profile : Postfix.Profile}
    (h : SMTPReady settings profile) : Returns (AnswerFile.dumpSMTP settings profile) := by
  cases profile with
  | Local => exact returns_pure _
  | Relay =>
    obtain ⟨smtp, hsmtp⟩ := Option.isSome_iff_exists.mp h
    refine returns_liftExcept_bind (AnswerFile.dereference_ok_iff.mpr hsmtp) ?_
    exact returns_bind (returns_modify _) fun _ => returns_modify _
  | SASL =>
    obtain ⟨smtp, hsmtp, hsasl⟩ := h
    obtain ⟨sasl, hsasl⟩ := Option.isSome_iff_exists.mp hsasl
    refine returns_liftExcept_bind (AnswerFile.dereference_ok_iff.mpr hsmtp) ?_
    iterate 2 refine returns_bind (returns_modify _) fun _ => ?_
    refine returns_liftExcept_bind (AnswerFile.dereference_ok_iff.mpr hsasl) ?_
    exact returns_bind (returns_modify _) fun _ => returns_modify _

theorem postfixReady_loaded {file : KeyFile}
    (hloadable : file.hasGroup "postfix" → AnswerFile.PostfixLoadable file) :
    PostfixReady (AnswerFile.loaded boost file {}).postfixSettings := by
  have hfield : (AnswerFile.loaded boost file {}).postfixSettings =
      if file.hasGroup "postfix" then AnswerFile.sectionPostfix file {} else {} := rfl
  rw [hfield]
  by_cases hgroup : file.hasGroup "postfix"
  · rw [if_pos hgroup]
    intro _
    obtain ⟨-, profile, hprofile, -⟩ := hloadable hgroup
    refine ⟨profile, hprofile, ?_⟩
    have hsmtp : (AnswerFile.sectionPostfix file {}).smtp =
        AnswerFile.sectionSMTP file none profile := by
      rw [AnswerFile.sectionPostfix, hprofile]
      rfl
    cases profile with
    | Local => trivial
    | Relay =>
      rw [SMTPReady, hsmtp]
      rfl
    | SASL => exact ⟨_, hsmtp, rfl⟩
  · rw [if_neg hgroup]
    intro henabled
    exact absurd henabled (by decide)

theorem returns_dumpOptions {distro : OS.Distro} (hdistro : af.system.distro = some distro)
    (hmail : PostfixReady af.postfixSettings) : Returns (AnswerFile.dumpOptions boost af) := by
  have hsystem : Returns (AnswerFile.dumpSystemSettings af) := by
    refine returns_liftExcept_bind (AnswerFile.dereference_ok_iff.mpr hdistro) ?_
    iterate 3 refine returns_bind (returns_modify _) fun _ => ?_
    exact returns_modify _
  have hpostfix : Returns (AnswerFile.dumpPostfix af) := by
    unfold AnswerFile.dumpPostfix
    split_ifs with henabled
    · obtain ⟨profile, hprofile, hsmtp⟩ := hmail henabled
      refine returns_liftExcept_bind (AnswerFile.dereference_ok_iff.mpr hprofile) ?_
      iterate 3 refine returns_bind (returns_modify _) fun _ => ?_
      exact returns_dumpSMTP hsmtp
    · exact returns_pure _
  have hinformation : Returns (AnswerFile.dumpInformation af) := by
    iterate 2 refine returns_bind (returns_modify _) fun _ => ?_
    exact returns_modify _
  have htime : Returns (AnswerFile.dumpTimeSettings af) := by
    iterate 2 refine returns_bind (returns_modify _) fun _ => ?_
    exact returns_modify _
  have hhostname : Returns (AnswerFile.dumpHostnameSettings af) :=
    returns_bind (returns_modify _) fun _ => returns_modify _
  iterate 3 refine returns_bind (returns_dumpNetwork _ _) fun _ => ?_
  refine returns_bind hinformation fun _ => ?_
  refine returns_bind htime fun _ => ?_
  refine returns_bind hhostname fun _ => ?_
  refine returns_bind hsystem fun _ => ?_
  exact returns_bind (returns_forM returns_dumpNode) fun _ => hpostfix

theorem distro_of_dumpOptions {file file' : KeyFile} {u : Unit}
    (h : AnswerFile.dumpOptions boost af file = .ok u file') : af.system.distro.isSome := by
  simp only [AnswerFile.dumpOptions, bind_ok_iff] at h
  obtain ⟨_, _, -, _, _, -, _, _, -, _, _, -, _, _, -, _, _, -, _, _, hsystem, -⟩ := h
  simp only [AnswerFile.dumpSystemSettings, bind_ok_iff, liftExcept_ok_iff,
    AnswerFile.dereference_ok_iff] at hsystem
  obtain ⟨distro, _, ⟨hdistro, -⟩, -⟩ := hsystem
  rw [hdistro]
  rfl

theorem distro_loaded (file : KeyFile) :
    (AnswerFile.loaded boost file {}).system.distro = AnswerFile.sectionDistro? file := by
  change (AnswerFile.sectionSystem file {}).distro = _
  unfold AnswerFile.sectionSystem
  cases AnswerFile.sectionDistro? file <;> rfl

variable {opts : Options} {codec : GKeyFile} {c : Cluster} {path : Path} {fs : FS}

/-- The dump returns exactly over a file that loads, with a known distribution. -/
theorem dumpData_ok_iff {P : AnswerFile → Prop} :
    (∃ af fs', dumpData boost opts codec c path fs = .ok af fs' ∧ P af) ↔
      ∃ old, keyFileAt codec fs path = some old ∧ AnswerFile.FileLoadable boost opts old ∧
        (AnswerFile.sectionDistro? old).isSome ∧ P (describe c (AnswerFile.loaded boost old {})) := by
  have hparts (af : AnswerFile) : (describe c af).system.distro = af.system.distro ∧
      (describe c af).postfixSettings = af.postfixSettings := by
    have hsame : otherParts (describeNetworks c.networks af) = otherParts af :=
      otherParts_describeNetworks
    exact ⟨congrArg (·.1.distro) hsame, congrArg (·.2.2.2) hsame⟩
  constructor
  · rintro ⟨af, fs', hdump, hP⟩
    simp only [dumpData, openAnswerFile, dumpFile, bind_ok_iff, KeyFile.load_ok_iff,
      liftExcept_ok_iff, AnswerFile.loadOptions_ok_iff, exec_ok_iff, pure_apply] at hdump
    obtain ⟨_, _, ⟨_, _, hopen, old, fs₁, ⟨hold, rfl⟩, _, _, ⟨⟨hloadable, rfl⟩, rfl⟩, hread⟩,
      _, _, ⟨file, _, ⟨⟨_, hwritten⟩, rfl⟩, -⟩, hreturn⟩ := hdump
    obtain ⟨rfl, rfl⟩ := EStateM.Result.ok.inj hread
    obtain ⟨rfl, rfl⟩ := EStateM.Result.ok.inj hreturn
    have hsame : finalState (KeyFile.open codec path fs) = fs := unchanged_open path fs
    rw [hopen] at hsame
    subst hsame
    have hdistro := distro_of_dumpOptions hwritten
    rw [(hparts _).1, distro_loaded] at hdistro
    exact ⟨old, hold, hloadable, hdistro, hP⟩
  · rintro ⟨old, hold, hloadable, hdistro, hP⟩
    obtain ⟨distro, hdistro⟩ := Option.isSome_iff_exists.mp hdistro
    have hreturns : Returns (AnswerFile.dumpOptions boost
        (describe c (AnswerFile.loaded boost old {}))) := by
      refine @returns_dumpOptions _ _ distro ?_ ?_
      · rw [(hparts _).1, distro_loaded, hdistro]
      · rw [(hparts _).2]
        exact postfixReady_loaded hloadable.mail
    obtain ⟨u, file, hwritten⟩ := hreturns old
    obtain ⟨fs', hsave⟩ := KeyFile.save_of_keyFileAt hold file
    refine ⟨_, fs', ?_, hP⟩
    simp only [dumpData, openAnswerFile, dumpFile, bind_ok_iff, KeyFile.load_ok_iff,
      liftExcept_ok_iff, AnswerFile.loadOptions_ok_iff, exec_ok_iff, pure_apply]
    exact ⟨_, fs, ⟨_, fs, KeyFile.open_of_keyFileAt hold, old, fs, ⟨hold, rfl⟩, _, fs,
      ⟨⟨hloadable, rfl⟩, rfl⟩, rfl⟩, ⟨⟩, fs', ⟨file, fs, ⟨⟨u, hwritten⟩, rfl⟩, hsave⟩, rfl⟩

/-! ### What the dumped answer file says -/

/-- The entry has the node's own values. -/
structure RecordsNode (node : Node) (entry : AFNode) : Prop where
  hostname : entry.hostname = some node.hostname
  mac_address : entry.mac_address = some node.macAddress
  start_ip : entry.start_ip = node.nodeStartIp
  cpu : entry.sockets = some (toString node.cpu.sockets) ∧
    entry.cores_per_socket = some (toString node.cpu.coresPerSocket) ∧
    entry.threads_per_core = some (toString node.cpu.threadsPerCore)
  bmc : entry.bmc_address = node.bmc.map (·.address) ∧
    entry.bmc_username = node.bmc.map (·.username) ∧
    entry.bmc_password = node.bmc.map (·.password)
  serial : entry.bmc_serialport = node.bmc.map (fun bmc => toString bmc.serialPort) ∧
    entry.bmc_serialspeed = node.bmc.map (fun bmc => toString bmc.serialSpeed)

/-- The answer file describes the headnode's connections and, one by one, the nodes. -/
structure Records (c : Cluster) (af : AnswerFile) : Prop where
  connections : ∀ connection ∈ c.headnode.connections, ∀ network,
    c.networks[connection.network]? = some network →
      (getNetworkField af network.profile).con_ip_addr = some connection.address ∧
        (getNetworkField af network.profile).con_interface = connection.interface
  nodes : List.Forall₂ RecordsNode c.nodes af.nodes.nodes

/-- An old content of the path over which the dump is right. -/
structure DumpReady (boost : Boost) (opts : Options) (c : Cluster) (old : KeyFile) : Prop where
  loadable : AnswerFile.FileLoadable boost opts old
  distro : (AnswerFile.sectionDistro? old).isSome
  nodes : AnswerFile.nodeSections boost old = []
  networks : ∀ connection ∈ c.headnode.connections, ∀ network,
    c.networks[connection.network]? = some network →
      network.address = connection.address ∧
        old.value? (networkSection network.profile) "interface" = connection.interface

theorem con_interface_loaded {file : KeyFile} (h : p ≠ .Service) :
    (getNetworkField (AnswerFile.loaded boost file {}) p).con_interface =
      file.value? (networkSection p) "interface" := by
  by_cases hgroup : file.hasGroup (networkSection p)
  · rw [getNetworkField_loaded h hgroup]
    rfl
  · have hnone : file.value? (networkSection p) "interface" = none := by
      cases hvalue : file.value? (networkSection p) "interface" with
      | none => rfl
      | some s => exact absurd (KeyFile.hasGroup_of_value? hvalue) hgroup
    cases p with
    | External => rfl
    | Management => rfl
    | Service => exact absurd rfl h
    | Application =>
      rw [hnone]
      have hfield : (AnswerFile.loaded boost file {}).application = {} := if_neg hgroup
      exact congrArg AFNetwork.con_interface hfield

theorem getNetworkField_describe :
    getNetworkField (describe c af) p = getNetworkField (describeNetworks c.networks af) p := by
  cases p <;> rfl

theorem recordsNodes_append_iff {entries : List AFNode} {nodes : List Node} :
    List.Forall₂ RecordsNode nodes (entries ++ nodes.map describeNode) ↔ entries = [] := by
  constructor
  · intro h
    have hlength := h.length_eq
    rw [List.length_append, List.length_map] at hlength
    exact List.length_eq_zero_iff.mp (by omega)
  · rintro rfl
    rw [List.nil_append, List.forall₂_map_right_iff, List.forall₂_same]
    exact fun node _ => ⟨rfl, rfl, rfl, ⟨rfl, rfl, rfl⟩, ⟨rfl, rfl, rfl⟩, ⟨rfl, rfl⟩⟩

theorem nodes_describe_loaded (c : Cluster) (file : KeyFile) :
    (describe c (AnswerFile.loaded boost file {})).nodes.nodes =
      (AnswerFile.nodeSections boost file).map (AnswerFile.nodeOf boost file) ++
        c.nodes.map describeNode := by
  have hsame : otherParts (describeNetworks c.networks (AnswerFile.loaded boost file {})) =
      otherParts (AnswerFile.loaded boost file {}) := otherParts_describeNetworks
  have hnodes := congrArg (·.2.2.1.nodes) hsame
  exact congrArg (· ++ c.nodes.map describeNode) hnodes

/-- The dump of a filled cluster is right exactly over a loadable file without nodes whose
interfaces are the cluster's, when every connection is the network's own address. -/
theorem dumpData_records_iff {host : Host} {file : KeyFile}
    (h : fillNew boost opts host file = .ok c) :
    (∃ af fs', dumpData boost opts codec c path fs = .ok af fs' ∧ Records c af) ↔
      ∃ old, keyFileAt codec fs path = some old ∧ DumpReady boost opts c old := by
  obtain ⟨c₀, u, hnew, -, hfill⟩ := fillNew_ok h
  have hwired := wired_fill (fresh_construct hnew) rfl hfill
  have hnodup : (c.networks.map (·.profile)).Nodup := hwired.profiles ▸ nodup_profilesOf _
  -- the fields of the networks that are there
  have hfield (old : KeyFile) {i : ℕ} {network : Network} (hnetwork : c.networks[i]? = some network) :
      (getNetworkField (describe c (AnswerFile.loaded boost old {})) network.profile).con_ip_addr =
          some network.address ∧
        (getNetworkField (describe c (AnswerFile.loaded boost old {})) network.profile).con_interface =
          old.value? (networkSection network.profile) "interface" := by
    have hmem : network ∈ c.networks := List.mem_of_getElem? hnetwork
    have hprofile : network.profile ≠ .Service := by
      have hin : network.profile ∈ c.networks.map (·.profile) := List.mem_map_of_mem hmem
      rw [hwired.profiles] at hin
      intro heq
      rw [heq] at hin
      unfold profilesOf at hin
      split_ifs at hin <;> exact absurd hin (by decide)
    rw [getNetworkField_describe]
    exact ⟨con_ip_addr_describeNetworks hnodup hmem,
      con_interface_describeNetworks.trans (con_interface_loaded hprofile)⟩
  rw [dumpData_ok_iff]
  refine exists_congr fun old => and_congr_right fun _ => ?_
  constructor
  · rintro ⟨hloadable, hdistro, hrecords⟩
    refine ⟨hloadable, hdistro, ?_, ?_⟩
    · have hnodes := hrecords.nodes
      rw [nodes_describe_loaded, recordsNodes_append_iff] at hnodes
      exact List.map_eq_nil_iff.mp hnodes
    · intro connection hconnection network hnetwork
      obtain ⟨hip, hinterface⟩ := hrecords.connections connection hconnection network hnetwork
      obtain ⟨hip', hinterface'⟩ := hfield old hnetwork
      exact ⟨Option.some.inj (hip'.symm.trans hip), hinterface'.symm.trans hinterface⟩
  · intro hready
    refine ⟨hready.loadable, hready.distro, ?_, ?_⟩
    · intro connection hconnection network hnetwork
      obtain ⟨haddress, hinterface⟩ := hready.networks connection hconnection network hnetwork
      obtain ⟨hip', hinterface'⟩ := hfield old hnetwork
      exact ⟨hip'.trans (congrArg some haddress), hinterface'.trans hinterface⟩
    · rw [nodes_describe_loaded, recordsNodes_append_iff, hready.nodes]
      rfl

/-- The sample host, with one address on each of its interfaces' networks. -/
def pointHost : Host :=
  { sampleHost with ifaddrs := .ok [
      { name := "eth1", addr := some (.inet 0xc0a81419), netmask := some (.inet 0xffffffff) },
      { name := "eth2", addr := some (.inet 0xac1a1e0a), netmask := some (.inet 0xffffff00) }] }

def pointFile : KeyFile := (sampleFile []).setString "network_management" "subnet_mask" "255.255.255.255"

/-- The sample without its node. -/
def oldFile : KeyFile :=
  .ofGroups (AnswerFile.sampleGroups.dropLast ++ [("ofed", [("kind", "mellanox"), ("version", "latest")])])

theorem dumpData_records_iff_point :
    ∃ c, fillNew .digits {} pointHost pointFile = .ok c ∧
      ∃ af fs', dumpData .digits {} .text c ["answerfile.ini"]
        ((∅ : FS).set ["answerfile.ini"] (.file (GKeyFile.text.toData oldFile))) = .ok af fs' ∧
          Records c af := by
  have hnetworks : (fun c : Cluster => c.headnode.connections.all fun connection =>
      (c.networks[connection.network]?).all fun network =>
        network.address = connection.address ∧
          oldFile.value? (networkSection network.profile) "interface" = connection.interface) <$>
      fillNew .digits {} pointHost pointFile = .ok true := by decide +kernel
  obtain ⟨c, hc, hall⟩ := except_map_ok_iff.mp hnetworks
  have hloads : (AnswerFile.loadOptions .digits {} oldFile {}).isOk := by decide +kernel
  obtain ⟨af, haf⟩ := isOk_iff.mp hloads
  refine ⟨c, hc, (dumpData_records_iff hc).mpr ⟨oldFile, ?_, ?_, by decide +kernel,
    by decide +kernel, ?_⟩⟩
  · rw [keyFileAt_set, if_pos rfl]
  · exact (AnswerFile.loadOptions_ok_iff.mp haf).1
  · intro connection hconnection network hnetwork
    have hhere := List.all_eq_true.mp hall connection hconnection
    rw [hnetwork] at hhere
    simpa using hhere

/-- With no file at the path there is nothing that the dump could be written over. -/
theorem not_dumpData_missing :
    ∃ c, fillNew .digits {} sampleHost (sampleFile []) = .ok c ∧
      ¬ ∃ af fs', dumpData .digits {} .text c ["answerfile.ini"] ∅ = .ok af fs' ∧
        Records c af := by
  have hreturns : (fillNew .digits {} sampleHost (sampleFile [])).isOk := by decide +kernel
  obtain ⟨c, hc⟩ := isOk_iff.mp hreturns
  refine ⟨c, hc, ?_⟩
  rw [dumpData_ok_iff]
  rintro ⟨old, hold, -⟩
  have hnone : keyFileAt .text ∅ ["answerfile.ini"] = none := rfl
  rw [hnone] at hold
  exact absurd hold (by simp)

end Cluster

end Cloyster.Models
