import Cloyster.Services.XCAT
import Cloyster.Models.DiskImage

/-! What a filled cluster hands to xCAT: whether everything that is read is there, and
whether two nodes are registered under one address. Both are settled by the answer
file, its node sections and its disk image. -/

namespace Cloyster.Models

open Lib

namespace Cluster

open Models.XCAT

variable {boost : Boost} {opts : Options} {host : Host} {file : KeyFile} {c : Cluster}

/-! ### The nodes and their connections -/

theorem getConnection_made {management : Network × ℕ} {entry : AFNode} {node : Node}
    {connection : Connection}
    (hfind : c.networks.zipIdx.find? (·.1.profile = .Management) = some management)
    (hmade : Made management entry node connection) :
    c.getConnection node.toServer .Management = .ok connection := by
  have hprofile : management.1.profile = .Management := by
    simpa using List.find?_some hfind
  have hnetwork : c.networks[management.2]? = some management.1 :=
    List.mem_zipIdx_iff_getElem?.mp (List.mem_of_find?_eq_some hfind)
  have hhere : (c.networks[connection.network]?).map (·.profile) = some .Management := by
    rw [hmade.position, hnetwork, Option.map_some, hprofile]
  rw [getConnection, hmade.connections, List.find?_singleton, if_pos (by simpa using hhere)]

/-- The connection that a node section leads to. -/
structure ManagedBy (boost : Boost) (file : KeyFile) (c : Cluster) (nodeSection : String × ℕ)
    (node : Node) (connection : Connection) : Prop where
  found : c.getConnection node.toServer .Management = .ok connection
  address : connection.address = AnswerFile.inheritedAddress boost file nodeSection.1 ∧
    connection.address ≠ .unset
  mac : connection.mac =
    some (Text.lower (AnswerFile.keyText file nodeSection.1 "mac_address"))

theorem managedBy_fillNew (h : fillNew boost opts host file = .ok c) :
    List.Forall₂ (fun nodeSection node => ∃ connection,
      ManagedBy boost file c nodeSection node connection)
      (AnswerFile.nodeSections boost file) c.nodes := by
  obtain ⟨c₀, u, hnew, -, hfill⟩ := fillNew_ok h
  obtain ⟨os, hnodes⟩ := nodes_fill (fresh_construct hnew) hfill
  have hentries : (AnswerFile.loaded boost file {}).nodes.nodes =
      (AnswerFile.nodeSections boost file).map (AnswerFile.nodeOf boost file) := rfl
  rw [hentries, List.forall₂_map_left_iff] at hnodes
  refine hnodes.imp fun nodeSection node ⟨management, hfind, hmake⟩ => ?_
  obtain ⟨connection, hmade⟩ := makeNode_ok hmake
  refine ⟨connection, getConnection_made hfind hmade, ⟨?_, hmade.address⟩, ?_⟩
  · exact (Option.some.inj hmade.startIp.1).symm
  · have hkey : (AnswerFile.nodeOf boost file nodeSection).mac_address =
        if nodeSection.1 ≠ "node" then file.value? nodeSection.1 "mac_address" else none := rfl
    have hmac := hmade.mac.1
    rw [hkey] at hmac
    split_ifs at hmac
    rw [hmade.mac.2, AnswerFile.keyText, hmac, Option.getD_some]

/-! ### Everything that is read is there -/

/-- What the constructor, the image naming and the registration of the nodes read. -/
structure Defined (text : AddressText) (c : Cluster) : Prop where
  nodes : c.nodes ≠ []
  distro : c.diskImage.distro.isSome
  connections : ∀ node ∈ c.nodes, ∃ connection,
    c.getConnection node.toServer .Management = .ok connection ∧ connection.mac.isSome ∧
      connection.address ≠ .unset
  construct : ∃ image, XCAT.construct c = .ok image
  imageName : ∀ imageType nodeType image, ∃ image',
    generateOSImageName c imageType nodeType image = .ok () image'
  imagePath : ∀ nodeType image, ∃ image',
    generateOSImagePath c .Netboot nodeType image = .ok () image'
  addNode : ∀ node ∈ c.nodes, ∃ command, XCAT.addNode c text node = .ok command

/-- Exactly the answer files with a node section that counts and an image whose name is
known lead to a cluster that xCAT can be set up from. -/
theorem defined_fillNew_iff (text : AddressText) (h : fillNew boost opts host file = .ok c) :
    Defined text c ↔ AnswerFile.nodeSections boost file ≠ [] ∧
      Text.filename (AnswerFile.keyText file "system" "disk_image") ∈
        DiskImage.knownImageFilename := by
  have hmanaged := managedBy_fillNew h
  have hnodes : c.nodes ≠ [] ↔ AnswerFile.nodeSections boost file ≠ [] := by
    rw [← List.length_pos_iff, ← List.length_pos_iff, hmanaged.length_eq]
  have hdistro : c.diskImage.distro.isSome ↔
      Text.filename (AnswerFile.keyText file "system" "disk_image") ∈
        DiskImage.knownImageFilename := by
    obtain ⟨c₀, u, hnew, -, hfill⟩ := fillNew_ok h
    obtain ⟨_, hpath⟩ := diskImage_fill hfill
    have himage : (AnswerFile.loaded boost file {}).system.disk_image =
        AnswerFile.keyText file "system" "disk_image" := by
      change (AnswerFile.sectionSystem file {}).disk_image = _
      unfold AnswerFile.sectionSystem
      cases AnswerFile.sectionDistro? file <;> rfl
    rw [himage] at hpath
    exact DiskImage.setPath_distro hpath (fresh_construct hnew).distro
  rw [← hnodes, ← hdistro]
  constructor
  · intro hdefined
    exact ⟨hdefined.nodes, hdefined.distro⟩
  · intro hall
    have hconnections : ∀ node ∈ c.nodes, ∃ connection,
        c.getConnection node.toServer .Management = .ok connection ∧ connection.mac.isSome ∧
          connection.address ≠ .unset := by
      intro node hnode
      obtain ⟨i, hi, rfl⟩ := List.mem_iff_getElem.mp hnode
      have hlt : i < (AnswerFile.nodeSections boost file).length := by
        rw [hmanaged.length_eq]
        exact hi
      obtain ⟨connection, hmanagedBy⟩ := hmanaged.get hlt hi
      refine ⟨connection, hmanagedBy.found, ?_, hmanagedBy.address.2⟩
      rw [hmanagedBy.mac]
      rfl
    refine ⟨hall.1, hall.2, hconnections, construct_isOk_iff.mpr hall,
      fun _ _ _ => generateOSImageName_isOk_iff.mpr hall,
      fun _ _ => generateOSImagePath_isOk_iff.mpr hall, fun node hnode => ?_⟩
    obtain ⟨connection, hfound, hmac, -⟩ := hconnections node hnode
    obtain ⟨mac, hmac⟩ := Option.isSome_iff_exists.mp hmac
    simp only [XCAT.addNode, except_bind_ok_iff, optionValue_ok_iff, except_pure_ok_iff]
    exact ⟨_, connection, hfound, mac, hmac, rfl⟩

/-- An answer file with the installation image of Rocky Linux 9.5. -/
def rockyFile (more : List (String × List (String × String))) : KeyFile :=
  (sampleFile more).setString "system" "disk_image" "/opt/iso/Rocky-9.5-x86_64-dvd.iso"

def rockyHost : Host :=
  { sampleHost with
    pathExists := fun path => path == "/opt/iso/Rocky-9.5-x86_64-dvd.iso"
    checksum := fun _ => .ok "ba60c3653640b5747610ddfb4d09520529bef2d1d83c1feb86b0c84dff31e04e" }

theorem defined_fillNew_iff_rocky :
    ∃ c, fillNew .digits {} rockyHost (rockyFile []) = .ok c ∧ Defined .dottedQuads c := by
  have hreturns : (fillNew .digits {} rockyHost (rockyFile [])).isOk := by decide +kernel
  obtain ⟨c, hc⟩ := isOk_iff.mp hreturns
  exact ⟨c, hc, (defined_fillNew_iff .dottedQuads hc).mpr ⟨by decide +kernel, by decide +kernel⟩⟩

/-- An image of another name is accepted, and its distribution is not there to be read. -/
theorem not_defined_customImage :
    ∃ c, fillNew .digits {} sampleHost (sampleFile []) = .ok c ∧ ¬ Defined .dottedQuads c := by
  have hdistro : (fillNew .digits {} sampleHost (sampleFile [])).map (·.diskImage.distro) =
      .ok none := by decide +kernel
  cases hfill : fillNew .digits {} sampleHost (sampleFile []) with
  | error e =>
    rw [hfill] at hdistro
    exact absurd hdistro (by simp [Except.map])
  | ok c =>
    rw [hfill] at hdistro
    have hnone : c.diskImage.distro = none := Except.ok.inj hdistro
    refine ⟨c, rfl, fun hdefined => ?_⟩
    have hsome := hdefined.distro
    rw [hnone] at hsome
    exact absurd hsome (by decide)

/-! ### Two nodes under one address -/

/-- The address under which a node is registered. -/
def managementAddress (c : Cluster) (node : Node) : Option Address :=
  (c.getConnection node.toServer .Management).toOption.map (·.address)

/-- The MAC address under which a node is registered, as the 48 bits that it stands for. -/
def managementMAC (c : Cluster) (node : Node) : Option (BitVec 48) :=
  ((c.getConnection node.toServer .Management).toOption.bind (·.mac)).map Connection.macBits

structure Distinct (c : Cluster) : Prop where
  addresses : (c.nodes.map (managementAddress c)).Nodup
  macs : (c.nodes.map (managementMAC c)).Nodup

theorem map_managementAddress (h : fillNew boost opts host file = .ok c) :
    c.nodes.map (managementAddress c) = ((AnswerFile.nodeSections boost file).map fun nodeSection =>
      AnswerFile.inheritedAddress boost file nodeSection.1).map some := by
  rw [List.map_map, ← List.forall₂_eq_eq_eq, List.forall₂_map_left_iff, List.forall₂_map_right_iff]
  refine (managedBy_fillNew h).flip.imp fun node nodeSection ⟨connection, hmanaged⟩ => ?_
  rw [managementAddress, hmanaged.found, Function.comp_apply, ← hmanaged.address.1]
  rfl

theorem map_managementMAC (h : fillNew boost opts host file = .ok c) :
    c.nodes.map (managementMAC c) = ((AnswerFile.nodeSections boost file).map fun nodeSection =>
      Connection.macBits (AnswerFile.keyText file nodeSection.1 "mac_address")).map some := by
  rw [List.map_map, ← List.forall₂_eq_eq_eq, List.forall₂_map_left_iff, List.forall₂_map_right_iff]
  refine (managedBy_fillNew h).flip.imp fun node nodeSection ⟨connection, hmanaged⟩ => ?_
  rw [managementMAC, hmanaged.found]
  change (connection.mac).map Connection.macBits = _
  rw [hmanaged.mac, Option.map_some, Connection.macBits_lower]
  rfl

/-- The nodes are told apart exactly when the answer file tells them apart: by the address
of the node's section, or the generic one, and by the MAC address. -/
theorem distinct_fillNew_iff (h : fillNew boost opts host file = .ok c) :
    Distinct c ↔
      ((AnswerFile.nodeSections boost file).map fun nodeSection =>
        AnswerFile.inheritedAddress boost file nodeSection.1).Nodup ∧
      ((AnswerFile.nodeSections boost file).map fun nodeSection =>
        Connection.macBits (AnswerFile.keyText file nodeSection.1 "mac_address")).Nodup := by
  have hsome {α : Type} (l : List α) : (l.map some).Nodup ↔ l.Nodup :=
    List.nodup_map_iff (Option.some_injective α)
  have haddresses := map_managementAddress h
  have hmacs := map_managementMAC h
  constructor
  · rintro ⟨haddress, hmac⟩
    rw [haddresses, hsome] at haddress
    rw [hmacs, hsome] at hmac
    exact ⟨haddress, hmac⟩
  · rintro ⟨haddress, hmac⟩
    constructor
    · rw [haddresses, hsome]
      exact haddress
    · rw [hmacs, hsome]
      exact hmac

/-- A second node, with an address of its own. -/
def secondNode (more : List (String × String)) : String × List (String × String) :=
  ("node.2", [("mac_address", "CA-FE-DE-AD-BE-F0"), ("bmc_address", "10.0.0.3")] ++ more)

theorem distinct_fillNew_iff_two :
    ∃ c, fillNew .digits {} sampleHost (sampleFile [secondNode [("node_ip", "172.26.0.2")]]) =
        .ok c ∧ Distinct c := by
  have hreturns : (fillNew .digits {} sampleHost
      (sampleFile [secondNode [("node_ip", "172.26.0.2")]])).isOk := by decide +kernel
  obtain ⟨c, hc⟩ := isOk_iff.mp hreturns
  exact ⟨c, hc, (distinct_fillNew_iff hc).mpr ⟨by decide +kernel, by decide +kernel⟩⟩

/-- Two nodes without an address of their own both get the generic one. -/
theorem not_distinct_generic :
    ∃ c, fillNew .digits {} sampleHost (sampleFile [secondNode []]) = .ok c ∧ ¬ Distinct c := by
  have haddresses : (fillNew .digits {} sampleHost (sampleFile [secondNode []])).map
      (fun c => c.nodes.map (managementAddress c)) =
        .ok [some (.v4 0xac1a0001), some (.v4 0xac1a0001)] := by decide +kernel
  cases hfill : fillNew .digits {} sampleHost (sampleFile [secondNode []]) with
  | error e =>
    rw [hfill] at haddresses
    exact absurd haddresses (by simp [Except.map])
  | ok c =>
    rw [hfill] at haddresses
    have hmap : c.nodes.map (managementAddress c) =
        [some (.v4 0xac1a0001), some (.v4 0xac1a0001)] := Except.ok.inj haddresses
    refine ⟨c, rfl, fun hdistinct => ?_⟩
    have hnodup := hdistinct.addresses
    rw [hmap] at hnodup
    exact absurd hnodup (by decide)

end Cluster

end Cloyster.Models
