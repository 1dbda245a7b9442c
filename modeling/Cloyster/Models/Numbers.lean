import Cloyster.Models.Identity
import Cloyster.Models.Thrown
import Cloyster.Lib.Numerals

/-! The numbers of an answer file. A node's are read with `stoul` and the mail port with
`stoi`, then cut to 16 bits. Both conversions accept more than numerals, and only one of
the two ways in which `stoul` gives up is caught. -/

namespace Cloyster.Models.Cluster

open Lib AnswerFile

variable {boost : Boost} {opts : Options} {host : Host}

/-! ### Filling around the nodes -/

/-- `fill` up to the nodes. The result is the system they get. -/
def fillHeadnode (boost : Boost) (opts : Options) (host : Host) (af : AnswerFile) :
    ClusterM OS := do
  let management ← liftExcept (managementNetwork boost host af.management)
  let external ← liftExcept (externalNetwork boost host af.external)
  setDiskImage opts host af.system.disk_image
  let os ← liftExcept (nodeOS host af.system)
  setInformation af
  setIdentity af.hostname
  fillOFED opts af.ofed
  setQueueSystem
  connectManagement host af.management management
  connectExternal host af.external external
  connectService boost host af.service af.application
  connectApplication boost host af.application
  setOS os
  return os

theorem fill_eq (af : AnswerFile) : fill boost opts host af = (do
    let os ← fillHeadnode boost opts host af
    af.nodes.nodes.forM (fillNode host os)
    fillMailSystem af.postfixSettings
    setGeneric af.nodes) := by
  simp only [fill, fillHeadnode, bind_assoc, pure_bind]

theorem keeps_fillHeadnode (af : AnswerFile) :
    Keeps (fun cluster => cluster.nodes) (fillHeadnode boost opts host af) := by
  intro c os c' h
  simp only [fillHeadnode, bind_ok_iff, liftExcept_ok_iff, setInformation, setQueueSystem, setOS,
    modify_ok_iff] at h
  obtain ⟨management, _, ⟨-, rfl⟩, external, _, ⟨-, rfl⟩, _, _, himage, os', _, ⟨-, rfl⟩,
    _, _, rfl, _, _, hidentity, _, _, hofed, _, c₁, hc₁, _, c₂, h₁, _, c₃, h₂, _, c₄, h₃,
    _, c₅, h₄, _, _, rfl, hreturn⟩ := h
  obtain ⟨-, rfl⟩ := EStateM.Result.ok.inj hreturn
  have hkept : unwired c₅ = unwired c₁ := keeps_connectAll af management external _ _ _
    (connectAll_ok_iff.mpr ⟨_, c₂, h₁, _, c₃, h₂, _, c₄, h₃, h₄⟩)
  have hnodes : c₅.nodes = c₁.nodes := congrArg (·.nodes) hkept
  obtain ⟨image, -, rfl⟩ := setDiskImage_ok himage
  obtain rfl := setIdentity_ok hidentity
  obtain ⟨ofed, rfl⟩ := fillOFED_ok hofed
  show c₅.nodes = _
  rw [hnodes, ← hc₁]

/-- Neither of the last two blocks looks at the nodes. -/
theorem fillMailSystem_nodes {settings : AFPostfix} {c c' : Cluster} {u : Unit}
    (nodes : List Node) (h : fillMailSystem settings c = .ok u c') :
    fillMailSystem settings { c with nodes } = .ok u { c' with nodes } := by
  by_cases henabled : settings.enabled
  · obtain ⟨profile, mail, hprofile, hmail, rfl⟩ := (fillMailSystem_ok_iff henabled).mp h
    exact (fillMailSystem_ok_iff henabled).mpr ⟨profile, mail, hprofile, hmail, rfl⟩
  · rw [fillMailSystem, if_neg henabled] at h ⊢
    obtain ⟨-, rfl⟩ := EStateM.Result.ok.inj h
    rfl

theorem setGeneric_nodes {entries : AFNodes} {c c' : Cluster} {u : Unit}
    (nodes : List Node) (h : setGeneric entries c = .ok u c') :
    setGeneric entries { c with nodes } = .ok u { c' with nodes } := by
  obtain ⟨generic, ip, password, hgeneric, hip, hpassword, rfl⟩ := setGeneric_ok_iff.mp h
  exact setGeneric_ok_iff.mpr ⟨generic, ip, password, hgeneric, hip, hpassword, rfl⟩

/-! ### One entry changed -/

section

variable {os : OS} {management : Network × ℕ} {c : Cluster}

theorem fillNode_apply (hfind : c.networks.zipIdx.find? (·.1.profile = .Management) = some management)
    (entry : AFNode) : fillNode host os entry c =
      match makeNode host os management entry with
      | .ok node => .ok () { c with nodes := c.nodes ++ [node] }
      | .error e => .error e c := by
  rw [fillNode, bind_of_ok (getNetwork_ok_iff.mpr ⟨hfind, rfl⟩)]
  cases makeNode host os management entry <;> rfl

theorem forM_fillNode_of_ok {entries : List AFNode} {nodes : List Node}
    (hfind : c.networks.zipIdx.find? (·.1.profile = .Management) = some management)
    (h : entries.mapM (makeNode host os management) = .ok nodes) :
    entries.forM (fillNode host os) c = .ok () { c with nodes := c.nodes ++ nodes } := by
  rw [mapM_ok_iff] at h
  induction h generalizing c with
  | nil => rw [List.append_nil]; rfl
  | cons hfirst hrest ih =>
    rename_i entry node entries nodes
    have hnext := ih (c := { c with nodes := c.nodes ++ [node] }) hfind
    rw [List.append_assoc, List.singleton_append] at hnext
    rw [forM_cons_apply, fillNode_apply hfind, hfirst]
    exact hnext

theorem mapM_of_forM_fillNode {entries : List AFNode} {c' : Cluster} {u : Unit}
    (hne : entries ≠ []) (h : entries.forM (fillNode host os) c = .ok u c') :
    ∃ management nodes,
      c.networks.zipIdx.find? (·.1.profile = .Management) = some management ∧
      entries.mapM (makeNode host os management) = .ok nodes ∧
      { c with nodes := c.nodes ++ nodes } = c' := by
  obtain ⟨nodes, hc', hmade⟩ := forM_fillNode_ok h
  obtain ⟨management, hfind⟩ : ∃ management,
      c.networks.zipIdx.find? (·.1.profile = .Management) = some management := by
    cases hmade with
    | nil => exact absurd rfl hne
    | cons hfirst hrest => exact ⟨_, hfirst.choose_spec.1⟩
  refine ⟨management, nodes, hfind, mapM_ok_iff.mpr ?_, hc'⟩
  apply hmade.imp
  rintro entry node ⟨found, hfound, hmake⟩
  rw [hfind] at hfound
  rwa [Option.some.inj hfound]

theorem forM_fillNode_of_error {entries : List AFNode} {e : Exn}
    (hfind : c.networks.zipIdx.find? (·.1.profile = .Management) = some management)
    (h : entries.mapM (makeNode host os management) = .error e) :
    ∃ c', entries.forM (fillNode host os) c = .error e c' := by
  induction entries generalizing c with
  | nil => exact absurd h (by simp [pure, Except.pure])
  | cons entry entries ih =>
    rw [forM_cons_apply, fillNode_apply hfind]
    rw [List.mapM_cons] at h
    cases hmake : makeNode host os management entry with
    | error e' =>
      rw [hmake] at h
      obtain rfl := Except.error.inj h
      exact ⟨c, rfl⟩
    | ok node =>
      rw [hmake] at h
      refine ih hfind ?_
      cases hrest : entries.mapM (makeNode host os management) with
      | error e' =>
        rw [hrest] at h
        exact h
      | ok nodes =>
        rw [hrest] at h
        exact absurd h (by simp [bind, Except.bind, pure, Except.pure])

end

/-! ### The numeric keys of a node -/

inductive NumericKey where
  | sockets | cores_per_socket | threads_per_core | bmc_serialport | bmc_serialspeed
  deriving DecidableEq

namespace NumericKey

def name : NumericKey → String
  | .sockets => "sockets"
  | .cores_per_socket => "cores_per_socket"
  | .threads_per_core => "threads_per_core"
  | .bmc_serialport => "bmc_serialport"
  | .bmc_serialspeed => "bmc_serialspeed"

def setText (text : String) (entry : AFNode) : NumericKey → AFNode
  | .sockets => { entry with sockets := some text }
  | .cores_per_socket => { entry with cores_per_socket := some text }
  | .threads_per_core => { entry with threads_per_core := some text }
  | .bmc_serialport => { entry with bmc_serialport := some text }
  | .bmc_serialspeed => { entry with bmc_serialspeed := some text }

/-- The number that a node has for the key. -/
def stored (node : Node) : NumericKey → Option ℕ
  | .sockets => some node.cpu.sockets
  | .cores_per_socket => some node.cpu.coresPerSocket
  | .threads_per_core => some node.cpu.threadsPerCore
  | .bmc_serialport => node.bmc.map (·.serialPort)
  | .bmc_serialspeed => node.bmc.map (·.serialSpeed)

end NumericKey

/-- With one text changed, only that text decides. -/
theorem makeNode_setText {os : OS} {management : Network × ℕ} {entry : AFNode} {node : Node}
    (h : makeNode host os management entry = .ok node) (text : String) (key : NumericKey) :
    ∃ hostname,
      (∀ n, convertOrError hostname key.name text = .ok n →
        ∃ node', makeNode host os management (key.setText text entry) = .ok node' ∧
          key.stored node' = some n) ∧
      ∀ e, convertOrError hostname key.name text = .error e →
        makeNode host os management (key.setText text entry) = .error e := by
  simp only [makeNode, except_bind_ok_iff, optionValue_ok_iff, except_pure_ok_iff] at h
  obtain ⟨connection, hconnection, _, hos, hostname, hhostname, ip, hip, mac, hmac, password,
    hpassword, sockets, ⟨s, hs, hsockets⟩, cores, ⟨k, hk, hcores⟩, threads, ⟨t, ht, hthreads⟩,
    address, haddress, username, husername, bmcPassword, hbmcPassword, port, ⟨p, hp, hport⟩,
    speed, ⟨v, hv, hspeed⟩, withIP, hexec, rfl⟩ := h
  refine ⟨hostname, fun n hn => ?_, fun e he => ?_⟩
  · cases key <;> simp only [NumericKey.name] at hn <;>
      simp only [NumericKey.setText, makeNode, optionValue, except_ok_bind, hconnection, hos,
        hhostname, hip, hmac, hpassword, hs, hsockets, hk, hcores, ht, hthreads, haddress,
        husername, hbmcPassword, hp, hport, hv, hspeed, hexec, hn] <;>
      exact ⟨_, rfl, rfl⟩
  · cases key <;> simp only [NumericKey.name] at he <;>
      simp only [NumericKey.setText, makeNode, optionValue, except_ok_bind, except_error_bind,
        hconnection, hos, hhostname, hip, hmac, hpassword, hs, hsockets, hk, hcores, ht, hthreads,
        haddress, husername, hbmcPassword, hp, hport, hv, he]

/-! ### Files that differ in one key -/

/-- The same groups, and the same values but for one key. -/
structure AgreeBut (file file' : KeyFile) (sectionName key : String) : Prop where
  groups : file'.getGroups = file.getGroups
  values : ∀ group k, ¬ (group = sectionName ∧ k = key) →
    file'.value? group k = file.value? group k

theorem agreeBut_setString (file : KeyFile) (sectionName key text text' : String) :
    AgreeBut (file.setString sectionName key text) (file.setString sectionName key text')
      sectionName key where
  groups := by
    rw [KeyFile.getGroups, KeyFile.getGroups, KeyFile.setString, KeyFile.setString,
      OrdMap.keys_set, OrdMap.keys_set]
  values group k hne := by
    rw [KeyFile.value?_setString, KeyFile.value?_setString, if_neg hne, if_neg hne]

/-- The sections with a name of their own that no number is read from. -/
def fixedSections : List String :=
  ["network_external", "network_management", "network_application", "information", "time",
    "hostname", "system", "node", "ofed"]

section

variable {file file' : KeyFile} {sectionName key : String}

theorem AgreeBut.hasGroup (h : AgreeBut file file' sectionName key) (group : String) :
    file'.hasGroup group = file.hasGroup group := by
  rw [Bool.eq_iff_iff, ← KeyFile.mem_getGroups_iff, ← KeyFile.mem_getGroups_iff, h.groups]

theorem AgreeBut.value? (h : AgreeBut file file' sectionName key) {group : String}
    (hne : group ≠ sectionName) (k : String) : file'.value? group k = file.value? group k :=
  h.values group k fun hsame => hne hsame.1

theorem AgreeBut.value?_of_ne_key (h : AgreeBut file file' sectionName key) {k : String}
    (hk : k ≠ key) (group : String) : file'.value? group k = file.value? group k :=
  h.values group k fun hsame => hk hsame.2

theorem AgreeBut.nodeSections (h : AgreeBut file file' sectionName key) :
    nodeSections boost file' = nodeSections boost file := by
  unfold AnswerFile.nodeSections KeyFile.listAllPrefixedEntries
  rw [h.groups]

/-- Only the nodes and the mail section can notice the difference. -/
theorem fileLoadable_of_agreeBut (h : FileLoadable boost opts file)
    (hagree : AgreeBut file file' sectionName key) (hfixed : sectionName ∉ fixedSections)
    (hnodes : ∀ nodeSection ∈ AnswerFile.nodeSections boost file, ValidNode boost file' nodeSection.1)
    (hmail : file.hasGroup "postfix" → PostfixLoadable file') :
    FileLoadable boost opts file' := by
  have hvalue (group : String) (hgroup : group ∈ fixedSections) (k : String) :
      file'.value? group k = file.value? group k := by
    apply hagree.value?
    rintro rfl
    exact hfixed hgroup
  have hnetwork (group : String) (hgroup : group ∈ fixedSections)
      (hloadable : NetworkLoadable boost file group) : NetworkLoadable boost file' group := by
    simp only [networkLoadable_iff, AddressOk, hvalue group hgroup] at hloadable ⊢
    exact hloadable
  have hkeys (group : String) (hgroup : group ∈ fixedSections) (keys : List String)
      (hpresent : KeysPresent file group keys) : KeysPresent file' group keys := by
    simp only [KeysPresent, hvalue group hgroup] at hpresent ⊢
    exact hpresent
  constructor
  · exact hnetwork _ (by decide) h.external
  · exact hnetwork _ (by decide) h.management
  · rw [hagree.hasGroup]
    exact fun hgroup => hnetwork _ (by decide) (h.application hgroup)
  · exact hkeys _ (by decide) _ h.information
  · exact hkeys _ (by decide) _ h.time
  · exact hkeys _ (by decide) _ h.hostname
  · have hsystem := h.system
    simp only [SystemLoadable, KeysPresent, sectionDistro?,
      hvalue "system" (by decide)] at hsystem ⊢
    exact hsystem
  · have hgeneric := h.generic
    simp only [loadable_iff, AddressOk, hvalue "node" (by decide), hagree.hasGroup] at hgeneric ⊢
    exact hgeneric
  · rw [hagree.nodeSections]
    exact hnodes
  · rw [hagree.hasGroup]
    exact hmail
  · have hofed := h.ofed
    simp only [OFEDLoadable, keyText, hvalue "ofed" (by decide)] at hofed ⊢
    exact hofed

theorem loaded_of_agreeBut (hagree : AgreeBut file file' sectionName key)
    (hfixed : sectionName ∉ fixedSections) :
    loaded boost file' {} = { loaded boost file {} with
      nodes.nodes := (AnswerFile.nodeSections boost file).map (nodeOf boost file')
      postfixSettings :=
        if file.hasGroup "postfix" then sectionPostfix file' {} else {} } := by
  have hvalue (group : String) (hgroup : group ∈ fixedSections) (k : String) :
      file'.value? group k = file.value? group k := by
    apply hagree.value?
    rintro rfl
    exact hfixed hgroup
  simp only [loaded, sectionNetwork, sectionInformation, sectionTime, sectionHostname,
    sectionSystem, sectionDistro?, sectionOFED, sectionNode, keyText, keyAddress?, keyAddress,
    hagree.hasGroup, hagree.nodeSections, hvalue "network_external" (by decide),
    hvalue "network_management" (by decide), hvalue "network_application" (by decide),
    hvalue "information" (by decide), hvalue "time" (by decide), hvalue "hostname" (by decide),
    hvalue "system" (by decide), hvalue "node" (by decide), hvalue "ofed" (by decide)]
  rfl

theorem mail_of_agreeBut (hagree : AgreeBut file file' sectionName key)
    (hmail : sectionName ≠ "postfix") (hrelay : sectionName ≠ "postfix.relay")
    (hsasl : sectionName ≠ "postfix.sasl") :
    sectionPostfix file' {} = sectionPostfix file {} ∧
      (PostfixLoadable file' ↔ PostfixLoadable file) := by
  have hmain := hagree.value? hmail.symm
  have hrelay := hagree.value? hrelay.symm
  have hsasl := hagree.value? hsasl.symm
  have hsmtp : sectionSMTP file' = sectionSMTP file := by
    funext smtp profile
    cases profile <;> simp only [sectionSMTP, keyText, keyPort?, hrelay, hsasl]
  have hloadable : SMTPLoadable file' = SMTPLoadable file := by
    funext profile
    cases profile <;> simp only [SMTPLoadable, KeysPresent, keyPort?, hrelay, hsasl]
  constructor
  · simp only [sectionPostfix, sectionProfile?, keyText, hmain, hsmtp]
  · simp only [PostfixLoadable, KeysPresent, sectionProfile?, hmain, hloadable]

/-! ### The nodes of the two files -/

variable {nodeKey : NumericKey}

theorem nodeOf_of_ne (hagree : AgreeBut file file' sectionName key) (hnode : sectionName ≠ "node")
    {nodeSection : String × ℕ} (hne : nodeSection.1 ≠ sectionName) :
    nodeOf boost file' nodeSection = nodeOf boost file nodeSection := by
  simp only [nodeOf, completedNode, sectionNode, inheritedText, inheritedAddress, keyAddress,
    hostnameOf, generatedHostname, padding?, keyText, hagree.value? hne, hagree.value? hnode.symm]
  rfl

theorem validNode_of_ne (hagree : AgreeBut file file' sectionName key) (hnode : sectionName ≠ "node")
    {other : String} (hne : other ≠ sectionName) :
    ValidNode boost file' other ↔ ValidNode boost file other := by
  simp only [validNode_iff, loadable_iff, provided_iff, AddressOk, HostnameProvided,
    inheritedText, inheritedAddress, keyAddress, padding?, keyText, hagree.hasGroup,
    hagree.value? hne, hagree.value? hnode.symm]

/-- The section's own node has the text in effect instead. -/
theorem nodeOf_self (hagree : AgreeBut file file' sectionName nodeKey.name)
    (hnode : sectionName ≠ "node") (counter : ℕ) :
    nodeOf boost file' (sectionName, counter) =
      nodeKey.setText (inheritedText file' sectionName nodeKey.name)
        (nodeOf boost file (sectionName, counter)) := by
  have hown (k : String) (hk : k ≠ nodeKey.name) := hagree.value?_of_ne_key hk sectionName
  have hgeneric := hagree.value? hnode.symm
  cases nodeKey <;>
    simp (disch := decide) only [nodeOf, completedNode, sectionNode, inheritedText,
      inheritedAddress, keyAddress, hostnameOf, generatedHostname, padding?, keyText,
      NumericKey.setText, NumericKey.name, hown, hgeneric] <;> rfl

theorem name_mem_attributes (nodeKey : NumericKey) :
    ∃ field ∈ AnswerFile.attributes, field.1 = nodeKey.name := by
  cases nodeKey <;> simp [AnswerFile.attributes, NumericKey.name]

theorem validNode_self (hagree : AgreeBut file file' sectionName nodeKey.name)
    (hnode : sectionName ≠ "node") (h : ValidNode boost file sectionName) :
    ValidNode boost file' sectionName ↔ inheritedText file' sectionName nodeKey.name ≠ "" := by
  have hown (k : String) (hk : k ≠ nodeKey.name) := hagree.value?_of_ne_key hk sectionName
  have hgeneric := hagree.value? hnode.symm
  obtain ⟨field, hfield, hname⟩ := name_mem_attributes nodeKey
  constructor
  · intro hvalid
    rw [← hname]
    exact hvalid.provided.attributes field hfield
  · intro hgiven
    obtain ⟨hloadable, hhostname, hip, htexts⟩ := h
    have hother : nodeKey.name ∉ ["mac_address", "node_ip", "hostname"] := by
      cases nodeKey <;> decide
    simp only [List.mem_cons, List.not_mem_nil, or_false, not_or] at hother
    obtain ⟨hmac, haddress, hhost⟩ := hother
    refine ⟨?_, ?_, ?_, ?_⟩
    · simp only [loadable_iff, AddressOk, hagree.hasGroup, hnode, hown _ (Ne.symm hmac),
        hown _ (Ne.symm haddress)] at hloadable ⊢
      simpa using hloadable
    · simp only [HostnameProvided, keyText, padding?, hgeneric, hown _ (Ne.symm hhost)]
        at hhostname ⊢
      exact hhostname
    · simp only [inheritedAddress, keyAddress, hgeneric, hown _ (Ne.symm haddress)] at hip ⊢
      exact hip
    · intro other hmem
      by_cases hsame : other.1 = nodeKey.name
      · rw [hsame]
        exact hgiven
      · have htext := htexts other hmem
        simp only [inheritedText, keyText, hgeneric, hown _ hsame] at htext ⊢
        exact htext

/-! ### Filling from the two files -/

theorem nodup_nodeSections (boost : Boost) (file : KeyFile) :
    ((AnswerFile.nodeSections boost file).map Prod.fst).Nodup := by
  have hsublist : ((AnswerFile.nodeSections boost file).map Prod.fst).Sublist
      (file.listAllPrefixedEntries "node.") := by
    unfold AnswerFile.nodeSections
    rw [List.map_filterMap]
    induction file.listAllPrefixedEntries "node." with
    | nil => exact .slnil
    | cons group groups ih =>
      rw [List.filterMap_cons]
      cases nodeCounter? boost group with
      | none => exact .cons _ ih
      | some counter => exact .cons_cons _ ih
  exact (OrdMap.keys_nodup file.groups).filter _ |>.sublist hsublist

theorem startsWith_of_mem_nodeSections {nodeSection : String × ℕ}
    (h : nodeSection ∈ AnswerFile.nodeSections boost file) :
    Text.startsWith nodeSection.1 "node." := by
  obtain ⟨group, hgroup, hcounter⟩ := List.mem_filterMap.mp h
  obtain ⟨counter, -, rfl⟩ := Option.map_eq_some_iff.mp hcounter
  exact (List.mem_filter.mp hgroup).2

theorem ne_of_mem_nodeSections {nodeSection : String × ℕ} {group : String}
    (h : nodeSection ∈ AnswerFile.nodeSections boost file)
    (hgroup : ¬ Text.startsWith group "node.") : nodeSection.1 ≠ group := by
  rintro rfl
  exact hgroup (startsWith_of_mem_nodeSections h)

/-- The entries differ at the section's place only. -/
theorem map_nodeOf_set {i counter : ℕ} (hagree : AgreeBut file file' sectionName nodeKey.name)
    (hnode : sectionName ≠ "node")
    (hsection : (AnswerFile.nodeSections boost file)[i]? = some (sectionName, counter)) :
    (AnswerFile.nodeSections boost file).map (nodeOf boost file') =
      ((AnswerFile.nodeSections boost file).map (nodeOf boost file)).set i
        (nodeKey.setText (inheritedText file' sectionName nodeKey.name)
          (nodeOf boost file (sectionName, counter))) := by
  apply List.ext_getElem?
  intro j
  rw [List.getElem?_set, List.getElem?_map, List.getElem?_map]
  split_ifs with hij hlt
  · rw [← hij, hsection, Option.map_some, nodeOf_self hagree hnode]
  · rw [List.length_map] at hlt
    exact absurd (List.getElem?_eq_some_iff.mp hsection).1 hlt
  · cases hj : (AnswerFile.nodeSections boost file)[j]? with
    | none => rfl
    | some nodeSection =>
      have hne : nodeSection.1 ≠ sectionName := by
        intro hsame
        have hfirst : ((AnswerFile.nodeSections boost file).map Prod.fst)[i]? =
            ((AnswerFile.nodeSections boost file).map Prod.fst)[j]? := by
          rw [List.getElem?_map, List.getElem?_map, hsection, hj, Option.map_some, Option.map_some,
            hsame]
        refine hij ((List.getElem?_inj ?_ (nodup_nodeSections boost file)).mp hfirst)
        rw [List.length_map]
        exact (List.getElem?_eq_some_iff.mp hsection).1
      rw [Option.map_some, Option.map_some, nodeOf_of_ne hagree hnode hne]

theorem fillData_of_loadable (h : FileLoadable boost opts file) (c : Cluster) :
    fillData boost opts host file c = fill boost opts host (loaded boost file {}) c := by
  rw [fillData, loadOptions_ok_iff.mpr ⟨h, rfl⟩]
  rfl

theorem fillData_of_not_loadable (h : ¬ FileLoadable boost opts file) (c : Cluster) :
    ∃ e, fillData boost opts host file c = .error e c ∧ e.type ≠ .answerfileValidation := by
  cases hload : loadOptions boost opts file {} with
  | ok af => exact absurd (loadOptions_ok_iff.mp hload).1 h
  | error e =>
    refine ⟨e, ?_, neverThrows_loadOptions file {} e hload⟩
    rw [fillData, hload]
    rfl

theorem fillData_ok {c c' : Cluster} {u : Unit} (h : fillData boost opts host file c = .ok u c') :
    FileLoadable boost opts file ∧
      fill boost opts host (loaded boost file {}) c = .ok u c' := by
  by_cases hloadable : FileLoadable boost opts file
  · rw [fillData_of_loadable hloadable] at h
    exact ⟨hloadable, h⟩
  · obtain ⟨e, herror, -⟩ : ∃ e, fillData boost opts host file c = .error e c ∧ _ :=
      fillData_of_not_loadable hloadable c
    rw [herror] at h
    exact absurd h (by simp)

/-- A run over the entries with one of them replaced. -/
theorem fill_set {af af' : AnswerFile} {c c' : Cluster} {u : Unit} {i : ℕ} {entry : AFNode}
    {text : String} (h : fill boost opts host af c = .ok u c')
    (haf : af' = { af with nodes.nodes := af.nodes.nodes.set i (nodeKey.setText text entry) })
    (hentry : af.nodes.nodes[i]? = some entry) :
    ∃ hostname,
      (∀ n, convertOrError hostname nodeKey.name text = .ok n →
        ∃ c'' node, fill boost opts host af' c = .ok u c'' ∧
          c''.nodes[c.nodes.length + i]? = some node ∧ nodeKey.stored node = some n) ∧
      ∀ e, convertOrError hostname nodeKey.name text = .error e →
        ∃ c'', fill boost opts host af' c = .error e c'' := by
  have hhead : fillHeadnode boost opts host af' = fillHeadnode boost opts host af := by
    rw [haf]
    rfl
  simp only [fill_eq, bind_ok_iff] at h
  obtain ⟨os, c₁, hstart, _, c₂, hnodes, _, c₃, hmail, hgeneric⟩ := h
  have hkept : c₁.nodes = c.nodes := keeps_fillHeadnode af c os c₁ hstart
  obtain ⟨management, nodes, hfind, hmap, rfl⟩ :=
    mapM_of_forM_fillNode (List.ne_nil_of_mem (List.mem_of_getElem? hentry)) hnodes
  have hlength : nodes.length = af.nodes.nodes.length := (mapM_ok_iff.mp hmap).length_eq.symm
  have hi : i < af.nodes.nodes.length := (List.getElem?_eq_some_iff.mp hentry).1
  have hmake : makeNode host os management entry = .ok nodes[i] := by
    have hget := (mapM_ok_iff.mp hmap).get hi (by omega)
    rwa [List.get_eq_getElem, (List.getElem?_eq_some_iff.mp hentry).2] at hget
  obtain ⟨hostname, hok, herror⟩ := makeNode_setText hmake text nodeKey
  have haf' : af'.nodes.nodes = af.nodes.nodes.set i (nodeKey.setText text entry) := by rw [haf]
  rw [fill_eq, hhead, bind_of_ok hstart, haf']
  refine ⟨hostname, fun n hn => ?_, fun e he => ?_⟩
  · obtain ⟨node, hnew, hstored⟩ := hok n hn
    have hrun := forM_fillNode_of_ok hfind (mapM_set_ok (i := i) hmap hnew)
    have hmail' := fillMailSystem_nodes (c₁.nodes ++ nodes.set i node) hmail
    have hgeneric' := setGeneric_nodes (c₁.nodes ++ nodes.set i node) hgeneric
    refine ⟨{ c' with nodes := c₁.nodes ++ nodes.set i node }, node, ?_, ?_, hstored⟩
    · rw [bind_of_ok hrun, haf]
      exact (bind_of_ok hmail' _).trans hgeneric'
    · show (c₁.nodes ++ nodes.set i node)[c.nodes.length + i]? = some node
      rw [hkept, List.getElem?_append_right (by omega), List.getElem?_set]
      simp [hlength, hi]
  · obtain ⟨c'', hrun⟩ := forM_fillNode_of_error hfind (mapM_set_error hmap hi (herror e he))
    exact ⟨c'', bind_of_error hrun _⟩

/-- The text in effect decides what happens to the whole file. -/
theorem fillData_agreeBut {c c' : Cluster} {u : Unit} {i counter : ℕ}
    (hagree : AgreeBut file file' sectionName nodeKey.name)
    (hsection : (AnswerFile.nodeSections boost file)[i]? = some (sectionName, counter))
    (hfill : fillData boost opts host file c = .ok u c')
    (hgiven : inheritedText file' sectionName nodeKey.name ≠ "") :
    ∃ hostname,
      (∀ n, convertOrError hostname nodeKey.name (inheritedText file' sectionName nodeKey.name) =
          .ok n →
        ∃ c'' node, fillData boost opts host file' c = .ok u c'' ∧
          c''.nodes[c.nodes.length + i]? = some node ∧ nodeKey.stored node = some n) ∧
      ∀ e, convertOrError hostname nodeKey.name (inheritedText file' sectionName nodeKey.name) =
          .error e →
        ∃ c'', fillData boost opts host file' c = .error e c'' := by
  have hmem := List.mem_of_getElem? hsection
  have hfixed : sectionName ∉ fixedSections := by
    intro hfixed
    have hnone : ∀ group ∈ fixedSections, ¬ Text.startsWith group "node." := by decide
    exact hnone sectionName hfixed (startsWith_of_mem_nodeSections hmem)
  have hnode : sectionName ≠ "node" := ne_of_mem_nodeSections hmem (by decide)
  obtain ⟨hloadable, hrun⟩ := fillData_ok hfill
  obtain ⟨hmail, hmailLoads⟩ := mail_of_agreeBut hagree
    (ne_of_mem_nodeSections hmem (by decide)) (ne_of_mem_nodeSections hmem (by decide))
    (ne_of_mem_nodeSections hmem (by decide))
  have hloadable' : FileLoadable boost opts file' := by
    refine fileLoadable_of_agreeBut hloadable hagree hfixed (fun nodeSection hmem => ?_)
      fun hgroup => hmailLoads.mpr (hloadable.mail hgroup)
    have hvalid := hloadable.nodes nodeSection hmem
    by_cases hsame : nodeSection.1 = sectionName
    · rw [hsame] at hvalid ⊢
      exact (validNode_self hagree hnode hvalid).mpr hgiven
    · exact (validNode_of_ne hagree hnode hsame).mpr hvalid
  have hentry : (loaded boost file {}).nodes.nodes[i]? =
      some (nodeOf boost file (sectionName, counter)) := by
    show ((AnswerFile.nodeSections boost file).map (nodeOf boost file))[i]? = _
    rw [List.getElem?_map, hsection, Option.map_some]
  rw [fillData_of_loadable hloadable']
  refine fill_set hrun ?_ hentry
  rw [loaded_of_agreeBut hagree hfixed, map_nodeOf_set hagree hnode hsection, hmail]
  rfl

theorem not_loadable_agreeBut {i counter : ℕ}
    (hagree : AgreeBut file file' sectionName nodeKey.name)
    (hsection : (AnswerFile.nodeSections boost file)[i]? = some (sectionName, counter))
    (hempty : inheritedText file' sectionName nodeKey.name = "") :
    ¬ FileLoadable boost opts file' := by
  intro hloadable
  obtain ⟨field, hfield, hname⟩ := name_mem_attributes nodeKey
  have hmem : (sectionName, counter) ∈ AnswerFile.nodeSections boost file' := by
    rw [hagree.nodeSections]
    exact List.mem_of_getElem? hsection
  have hvalid := hloadable.nodes _ hmem
  apply hvalid.provided.attributes field hfield
  rw [hname]
  exact hempty

end

/-! ### What is promised -/

/-- A decimal numeral that `std::size_t` can hold. -/
def SizeNumeral (text : String) : Prop :=
  Text.IsNumeral text.toList ∧ Text.digitsValue text.toList < 2 ^ 64

instance (text : String) : Decidable (SizeNumeral text) :=
  inferInstanceAs (Decidable (_ ∧ _))

/-- A decimal numeral that a port can have. -/
def PortNumeral (text : String) : Prop :=
  Text.IsNumeral text.toList ∧ Text.digitsValue text.toList ≤ 65535

instance (text : String) : Decidable (PortNumeral text) :=
  inferInstanceAs (Decidable (_ ∧ _))

/-- The number of the `i`-th node is the text's, or the file is refused as invalid. -/
structure TakesNodeNumber (boost : Boost) (opts : Options) (host : Host) (file : KeyFile)
    (c : Cluster) (i : ℕ) (nodeKey : NumericKey) (text : String) : Prop where
  numeral : SizeNumeral text → ∃ c' node, fillData boost opts host file c = .ok () c' ∧
    c'.nodes[c.nodes.length + i]? = some node ∧
      nodeKey.stored node = some (Text.digitsValue text.toList)
  other : ¬ SizeNumeral text → ∃ e c', fillData boost opts host file c = .error e c' ∧
    e.type = .answerfileValidation

/-- The port of the mail system is the text's, or loading throws. -/
structure TakesPort (boost : Boost) (opts : Options) (host : Host) (file : KeyFile)
    (c : Cluster) (text : String) : Prop where
  numeral : PortNumeral text → ∃ c' mail port, fillData boost opts host file c = .ok () c' ∧
    c'.mailSystem = some mail ∧ mail.port = some port ∧
      port.toNat = Text.digitsValue text.toList
  other : ¬ PortNumeral text → ∃ e, loadOptions boost opts file {} = .error e

/-! ### The numbers of the nodes -/

section

variable {file file' : KeyFile} {c c' : Cluster}

theorem convertOrError_of_sizeNumeral {nodename fieldName text : String} (h : SizeNumeral text) :
    convertOrError nodename fieldName text = .ok (Text.digitsValue text.toList) := by
  rw [convertOrError, Text.stoul_eq_of_leadingNumeral (Text.leadingNumeral_numeral h.1),
    if_pos h.2]

theorem convertOrError_validation_iff {nodename fieldName text : String} :
    (∃ e, convertOrError nodename fieldName text = .error e ∧ e.type = .answerfileValidation) ↔
      Text.leadingNumeral text = none := by
  rw [← Text.stoul_invalidArgument_iff]
  unfold convertOrError
  cases Text.stoul text with
  | ok n => simp
  | error e => cases e <;> simp

theorem nodeSections_setString {sectionName : String} (h : sectionName ∈ file.getGroups)
    (key text : String) :
    AnswerFile.nodeSections boost (file.setString sectionName key text) =
      AnswerFile.nodeSections boost file := by
  have hgroups : (file.setString sectionName key text).getGroups = file.getGroups := by
    exact (OrdMap.keys_set file.groups sectionName _).trans (if_pos h)
  unfold AnswerFile.nodeSections KeyFile.listAllPrefixedEntries
  rw [hgroups]

theorem getGroups_of_mem_nodeSections {nodeSection : String × ℕ}
    (h : nodeSection ∈ AnswerFile.nodeSections boost file) : nodeSection.1 ∈ file.getGroups := by
  obtain ⟨group, hgroup, hcounter⟩ := List.mem_filterMap.mp h
  obtain ⟨counter, -, rfl⟩ := Option.map_eq_some_iff.mp hcounter
  exact (List.mem_filter.mp hgroup).1

/-- A text that is not empty is in effect. -/
theorem inheritedText_setString {sectionName key text : String} (h : text ≠ "") :
    inheritedText (file.setString sectionName key text) sectionName key = text := by
  have howned : keyText (file.setString sectionName key text) sectionName key = text := by
    rw [keyText, KeyFile.value?_setString, if_pos ⟨rfl, rfl⟩, Option.getD_some]
  rw [inheritedText, howned, inherit, if_neg (by simpa using h)]

theorem SizeNumeral.ne_empty {text : String} (h : SizeNumeral text) : text ≠ "" := by
  rintro rfl
  exact h.1.1 rfl

theorem takesNodeNumber_iff {i counter : ℕ} {sectionName : String} {nodeKey : NumericKey}
    (hsection : (AnswerFile.nodeSections boost file)[i]? = some (sectionName, counter))
    (hfill : fillData boost opts host (file.setString sectionName nodeKey.name "1") c = .ok () c')
    (text : String) :
    TakesNodeNumber boost opts host (file.setString sectionName nodeKey.name text) c i nodeKey
        text ↔
      SizeNumeral text ∨
        inheritedText (file.setString sectionName nodeKey.name text) sectionName nodeKey.name ≠ "" ∧
        Text.leadingNumeral (inheritedText (file.setString sectionName nodeKey.name text)
          sectionName nodeKey.name) = none := by
  have hagree := agreeBut_setString file sectionName nodeKey.name "1" text
  rw [← nodeSections_setString (getGroups_of_mem_nodeSections (List.mem_of_getElem? hsection))
    nodeKey.name "1"] at hsection
  have hown (hnumeral : SizeNumeral text) : inheritedText
      (file.setString sectionName nodeKey.name text) sectionName nodeKey.name = text :=
    inheritedText_setString hnumeral.ne_empty
  by_cases hempty : inheritedText (file.setString sectionName nodeKey.name text) sectionName
      nodeKey.name = ""
  · -- the file is not even loaded, and not for the reason that is promised
    obtain ⟨e, hthrow, htype⟩ : ∃ e, fillData boost opts host
        (file.setString sectionName nodeKey.name text) c = .error e c ∧
          e.type ≠ .answerfileValidation :=
      fillData_of_not_loadable (not_loadable_agreeBut hagree hsection hempty) c
    have hnumeral : ¬ SizeNumeral text := by
      intro hnumeral
      rw [hown hnumeral] at hempty
      exact hnumeral.ne_empty hempty
    apply iff_of_false
    · intro h
      obtain ⟨e', c'', hthrow', htype'⟩ := h.other hnumeral
      rw [hthrow] at hthrow'
      obtain ⟨rfl, -⟩ := EStateM.Result.error.inj hthrow'
      exact htype htype'
    · rintro (h | ⟨hne, -⟩)
      · exact hnumeral h
      · exact hne hempty
  · obtain ⟨hostname, hok, herror⟩ := fillData_agreeBut hagree hsection hfill hempty
    constructor
    · intro h
      by_cases hnumeral : SizeNumeral text
      · exact .inl hnumeral
      · refine .inr ⟨hempty, ?_⟩
        obtain ⟨e, c'', hthrow, htype⟩ := h.other hnumeral
        cases hconvert : convertOrError hostname nodeKey.name (inheritedText
            (file.setString sectionName nodeKey.name text) sectionName nodeKey.name) with
        | ok n =>
          obtain ⟨_, _, hreturn, -⟩ := hok n hconvert
          rw [hthrow] at hreturn
          exact absurd hreturn (by simp)
        | error e' =>
          obtain ⟨_, hthrow'⟩ := herror e' hconvert
          rw [hthrow] at hthrow'
          obtain ⟨rfl, -⟩ := EStateM.Result.error.inj hthrow'
          exact convertOrError_validation_iff.mp ⟨e, hconvert, htype⟩
    · rintro (hnumeral | ⟨-, hnone⟩)
      · rw [hown hnumeral] at hok
        exact ⟨fun _ => hok _ (convertOrError_of_sizeNumeral hnumeral),
          fun hother => absurd hnumeral hother⟩
      · constructor
        · intro hnumeral
          rw [hown hnumeral, Text.leadingNumeral_numeral hnumeral.1] at hnone
          exact absurd hnone (by simp)
        · intro _
          obtain ⟨e, hconvert, htype⟩ := convertOrError_validation_iff.mpr hnone
          obtain ⟨c'', hthrow⟩ := herror e hconvert
          exact ⟨e, c'', hthrow, htype⟩

/-! ### The port -/

/-- The section with the port. -/
def portSection : Postfix.Profile → String
  | .SASL => "postfix.sasl"
  | _ => "postfix.relay"

theorem mailServer_port {settings : AFPostfix} {smtp : AFSMTP} {mail mail' : MailSystem}
    (h : mailServer settings mail = .ok mail') (hremote : mail.profile ≠ .Local)
    (hsmtp : settings.smtp = some smtp) (port : ℤ) :
    ∃ mail'', mailServer { settings with smtp := some { smtp with port := port } } mail =
        .ok mail'' ∧ mail''.port = some (UInt16.ofNat (port % 2 ^ 16).toNat) := by
  unfold mailServer at h ⊢
  cases hprofile : mail.profile with
  | Local => exact absurd hprofile hremote
  | Relay => exact ⟨_, rfl, rfl⟩
  | SASL =>
    simp only [hprofile, hsmtp, except_bind_ok_iff, optionValue_ok_iff] at h
    obtain ⟨_, hsame, sasl, hsasl, -⟩ := h
    obtain rfl := Option.some.inj hsame
    simp only [optionValue, hsasl, except_ok_bind]
    exact ⟨_, rfl, rfl⟩

theorem fillMailSystem_port {settings : AFPostfix} {smtp : AFSMTP} {profile : Postfix.Profile}
    {u : Unit} (h : fillMailSystem settings c = .ok u c') (henabled : settings.enabled)
    (hprofile : settings.profile = some profile) (hremote : profile ≠ .Local)
    (hsmtp : settings.smtp = some smtp) (port : ℤ) :
    ∃ mail, fillMailSystem { settings with smtp := some { smtp with port := port } } c =
        .ok u { c' with mailSystem := some mail } ∧
      mail.port = some (UInt16.ofNat (port % 2 ^ 16).toNat) := by
  obtain ⟨found, mail, hfound, hmail, rfl⟩ := (fillMailSystem_ok_iff henabled).mp h
  obtain rfl := Option.some.inj (hprofile.symm.trans hfound)
  obtain ⟨mail', hmail', hport⟩ := mailServer_port hmail hremote hsmtp port
  have henabled' : { settings with smtp := some { smtp with port := port } }.enabled := henabled
  exact ⟨mail', (fillMailSystem_ok_iff henabled').mpr ⟨profile, mail', hprofile, hmail', rfl⟩, hport⟩

theorem setGeneric_mailSystem {entries : AFNodes} {u : Unit} (mailSystem : Option MailSystem)
    (h : setGeneric entries c = .ok u c') :
    setGeneric entries { c with mailSystem } = .ok u { c' with mailSystem } := by
  obtain ⟨generic, ip, password, hgeneric, hip, hpassword, rfl⟩ := setGeneric_ok_iff.mp h
  exact setGeneric_ok_iff.mpr ⟨generic, ip, password, hgeneric, hip, hpassword, rfl⟩

/-- With another port in the settings only the mail system comes out different. -/
theorem fill_port {af af' : AnswerFile} {smtp : AFSMTP} {profile : Postfix.Profile} {port : ℤ}
    {u : Unit} (h : fill boost opts host af c = .ok u c')
    (haf : af' = { af with postfixSettings.smtp := some { smtp with port := port } })
    (henabled : af.postfixSettings.enabled) (hprofile : af.postfixSettings.profile = some profile)
    (hremote : profile ≠ .Local) (hsmtp : af.postfixSettings.smtp = some smtp) :
    ∃ c'' mail, fill boost opts host af' c = .ok u c'' ∧ c''.mailSystem = some mail ∧
      mail.port = some (UInt16.ofNat (port % 2 ^ 16).toNat) := by
  have hhead : fillHeadnode boost opts host af' = fillHeadnode boost opts host af := by
    rw [haf]
    rfl
  simp only [fill_eq, bind_ok_iff] at h
  obtain ⟨os, c₁, hstart, _, c₂, hnodes, _, c₃, hmail, hgeneric⟩ := h
  obtain ⟨mail, hmail', hport⟩ :=
    fillMailSystem_port hmail henabled hprofile hremote hsmtp port
  refine ⟨{ c' with mailSystem := some mail }, mail, ?_, rfl, hport⟩
  rw [fill_eq, hhead, bind_of_ok hstart, haf]
  refine (bind_of_ok hnodes _).trans ((bind_of_ok hmail' _).trans ?_)
  exact setGeneric_mailSystem (some mail) hgeneric

theorem PortNumeral.stoi {text : String} (h : PortNumeral text) :
    Text.stoi text = .ok (Text.digitsValue text.toList) := by
  have hle := h.2
  have hrange : -2 ^ 31 ≤ (Text.digitsValue text.toList : ℤ) ∧
      (Text.digitsValue text.toList : ℤ) < 2 ^ 31 := by omega
  rw [Text.stoi, Text.leadingNumeral_numeral h.1]
  exact if_pos hrange

/-- A port that fits is not changed when it is cut. -/
theorem toNat_port {n : ℕ} (h : n ≤ 65535) :
    (UInt16.ofNat ((n : ℤ) % 2 ^ 16).toNat).toNat = n := by
  have hmod : ((n : ℤ) % 2 ^ 16).toNat = n := by omega
  rw [hmod, UInt16.toNat_ofNat_of_lt' (by show n < 2 ^ 16; omega)]

theorem keyPort?_setString (sectionName text : String) :
    keyPort? (file.setString sectionName "port" text) sectionName = (Text.stoi text).toOption := by
  rw [keyPort?, KeyFile.value?_setString, if_pos ⟨rfl, rfl⟩, Option.bind_some]

/-- What the port decides about the mail section. -/
theorem postfix_of_agreeBut {profile : Postfix.Profile}
    (hagree : AgreeBut file file' (portSection profile) "port")
    (hprofile : sectionProfile? file = some profile) (hremote : profile ≠ .Local)
    (h : PostfixLoadable file) :
    (PostfixLoadable file' ↔ (keyPort? file' (portSection profile)).isSome) ∧
      ∃ smtp, (sectionPostfix file {}).smtp = some smtp ∧
        sectionPostfix file' {} = { sectionPostfix file {} with
          smtp := some { smtp with port := (keyPort? file' (portSection profile)).getD 0 } } := by
  have hmain (k : String) : file'.value? "postfix" k = file.value? "postfix" k := by
    apply hagree.value?
    cases profile <;> decide
  have hprofile' : sectionProfile? file' = some profile := by
    rw [sectionProfile?, hmain, ← sectionProfile?, hprofile]
  have hrest (k : String) (hk : k ≠ "port") := hagree.value?_of_ne_key hk (portSection profile)
  have hkeys (keys : List String) (hnone : "port" ∉ keys) :
      KeysPresent file' (portSection profile) keys ↔ KeysPresent file (portSection profile) keys := by
    refine forall₂_congr fun k hk => ?_
    rw [hrest k (ne_of_mem_of_not_mem hk hnone)]
  obtain ⟨hpresent, found, hfound, hsmtp⟩ := h
  obtain rfl : profile = found := Option.some.inj (hprofile.symm.trans hfound)
  simp only [PostfixLoadable, KeysPresent, hmain] at hpresent ⊢
  simp only [sectionPostfix, hprofile, hprofile', Option.elim_some, keyText, hmain]
  cases profile with
  | Local => exact absurd rfl hremote
  | Relay =>
    have hserver := hrest "server" (by decide)
    refine ⟨⟨?_, fun hport => ?_⟩, _, rfl, ?_⟩
    · rintro ⟨-, profile, hsame, hsmtp'⟩
      obtain rfl := Option.some.inj hsame
      exact hsmtp'.2
    · exact ⟨hpresent, _, rfl, (hkeys _ (by decide)).mpr hsmtp.1, hport⟩
    · simp only [sectionSMTP, keyText, portSection] at hserver ⊢
      rw [hserver]
  | SASL =>
    have hserver := hrest "server" (by decide)
    have husername := hrest "username" (by decide)
    have hpassword := hrest "password" (by decide)
    refine ⟨⟨?_, fun hport => ?_⟩, _, rfl, ?_⟩
    · rintro ⟨-, profile, hsame, hsmtp'⟩
      obtain rfl := Option.some.inj hsame
      exact hsmtp'.2
    · exact ⟨hpresent, _, rfl, (hkeys _ (by decide)).mpr hsmtp.1, hport⟩
    · simp only [sectionSMTP, keyText, portSection] at hserver husername hpassword ⊢
      rw [hserver, husername, hpassword]

theorem loaded_port {profile : Postfix.Profile} {smtp : Option AFSMTP}
    (hagree : AgreeBut file file' (portSection profile) "port") (hgroup : file.hasGroup "postfix")
    (hsection : sectionPostfix file' {} = { sectionPostfix file {} with smtp }) :
    loaded boost file' {} = { loaded boost file {} with postfixSettings.smtp := smtp } := by
  have hne : portSection profile ∉ fixedSections ∧
      ¬ Text.startsWith (portSection profile) "node." ∧ portSection profile ≠ "node" := by
    cases profile <;> decide
  have hnodes : (AnswerFile.nodeSections boost file).map (nodeOf boost file') =
      (AnswerFile.nodeSections boost file).map (nodeOf boost file) :=
    List.map_congr_left fun nodeSection hmem =>
      nodeOf_of_ne hagree hne.2.2 (ne_of_mem_nodeSections hmem hne.2.1)
  have hsettings : (loaded boost file {}).postfixSettings = sectionPostfix file {} :=
    if_pos hgroup
  rw [loaded_of_agreeBut hagree hne.1, hnodes, if_pos hgroup, hsection, ← hsettings]
  rfl

theorem takesPort_iff {profile : Postfix.Profile} (hgroup : file.hasGroup "postfix")
    (hprofile : sectionProfile? file = some profile) (hremote : profile ≠ .Local)
    (hfill : fillData boost opts host (file.setString (portSection profile) "port" "25") c =
      .ok () c') (text : String) :
    TakesPort boost opts host (file.setString (portSection profile) "port" text) c text ↔
      PortNumeral text ∨ ∃ e, Text.stoi text = .error e := by
  have hagree := agreeBut_setString file (portSection profile) "port" "25" text
  have hne : portSection profile ∉ fixedSections ∧ portSection profile ≠ "postfix" ∧
      ¬ Text.startsWith (portSection profile) "node." := by
    cases profile <;> decide
  have hnode : portSection profile ≠ "node" := by cases profile <;> decide
  have hgroup₁ : (file.setString (portSection profile) "port" "25").hasGroup "postfix" := by
    rw [← KeyFile.mem_getGroups_iff, KeyFile.mem_getGroups_setString, KeyFile.mem_getGroups_iff]
    exact .inr hgroup
  have hprofile₁ : sectionProfile? (file.setString (portSection profile) "port" "25") =
      some profile := by
    rw [sectionProfile?, KeyFile.value?_setString, if_neg fun hsame => hne.2.1 hsame.1.symm,
      ← sectionProfile?, hprofile]
  obtain ⟨hloadable, hrun⟩ := fillData_ok hfill
  obtain ⟨hmail, smtp, hsmtp, hsection⟩ :=
    postfix_of_agreeBut hagree hprofile₁ hremote (hloadable.mail hgroup₁)
  rw [keyPort?_setString] at hmail hsection
  have hloads : FileLoadable boost opts (file.setString (portSection profile) "port" text) ↔
      (Text.stoi text).toOption.isSome := by
    constructor
    · intro h
      refine hmail.mp (h.mail ?_)
      rw [hagree.hasGroup]
      exact hgroup₁
    · intro h
      refine fileLoadable_of_agreeBut hloadable hagree hne.1 (fun nodeSection hmem => ?_)
        fun _ => hmail.mpr h
      have hother : nodeSection.1 ≠ portSection profile := ne_of_mem_nodeSections hmem hne.2.2
      exact (validNode_of_ne hagree hnode hother).mpr (hloadable.nodes nodeSection hmem)
  cases hstoi : Text.stoi text with
  | error e =>
    refine iff_of_true ⟨fun hport => ?_, fun _ => ?_⟩ (.inr ⟨e, rfl⟩)
    · rw [hport.stoi] at hstoi
      exact absurd hstoi (by simp)
    · cases hload : loadOptions boost opts
          (file.setString (portSection profile) "port" text) {} with
      | error e' => exact ⟨e', rfl⟩
      | ok af =>
        have hport := hloads.mp (loadOptions_ok_iff.mp hload).1
        rw [hstoi] at hport
        exact absurd hport (by simp [Except.toOption])
  | ok n =>
    have hloadable' := hloads.mpr (by rw [hstoi]; rfl)
    rw [hstoi] at hsection
    constructor
    · intro h
      by_cases hport : PortNumeral text
      · exact .inl hport
      · obtain ⟨e, hthrow⟩ := h.other hport
        rw [loadOptions_ok_iff.mpr ⟨hloadable', rfl⟩] at hthrow
        exact absurd hthrow (by simp)
    · rintro (hport | ⟨e, he⟩)
      · refine ⟨fun _ => ?_, fun hother => absurd hport hother⟩
        obtain rfl := Except.ok.inj (hport.stoi.symm.trans hstoi)
        have hsettings : (loaded boost (file.setString (portSection profile) "port" "25")
            {}).postfixSettings = sectionPostfix (file.setString (portSection profile) "port" "25")
              {} := if_pos hgroup₁
        obtain ⟨c'', mail, hrun', hmail, hstored⟩ := fill_port hrun
          (loaded_port hagree hgroup₁ hsection)
          (by rw [hsettings]; rfl) (by rw [hsettings]; exact hprofile₁) hremote
          (by rw [hsettings]; exact hsmtp)
        rw [← fillData_of_loadable hloadable'] at hrun'
        exact ⟨c'', mail, _, hrun', hmail, hstored, toNat_port hport.2⟩
      · exact absurd he (by simp)

end

/-- In a file that is in order with `1` or `25` in its place, each number is taken as written
or refused exactly for these texts. -/
theorem takesNumbers_iff (boost : Boost) (opts : Options) (host : Host) (file : KeyFile)
    (c : Cluster) :
    (∀ i sectionName counter (nodeKey : NumericKey) c',
      (AnswerFile.nodeSections boost file)[i]? = some (sectionName, counter) →
      fillData boost opts host (file.setString sectionName nodeKey.name "1") c = .ok () c' →
      ∀ text, TakesNodeNumber boost opts host (file.setString sectionName nodeKey.name text) c i
          nodeKey text ↔
        SizeNumeral text ∨
          inheritedText (file.setString sectionName nodeKey.name text) sectionName nodeKey.name ≠
            "" ∧
          Text.leadingNumeral (inheritedText (file.setString sectionName nodeKey.name text)
            sectionName nodeKey.name) = none) ∧
    ∀ profile c', file.hasGroup "postfix" → sectionProfile? file = some profile →
      profile ≠ .Local →
      fillData boost opts host (file.setString (portSection profile) "port" "25") c = .ok () c' →
      ∀ text, TakesPort boost opts host (file.setString (portSection profile) "port" text) c text ↔
        PortNumeral text ∨ ∃ e, Text.stoi text = .error e :=
  ⟨fun _ _ _ _ _ hsection hfill => takesNodeNumber_iff hsection hfill,
    fun _ _ hgroup hprofile hremote hfill => takesPort_iff hgroup hprofile hremote hfill⟩

/-- An answer file with one node and a mail relay. -/
def relayFile : KeyFile :=
  sampleFile [("postfix", [("destination", "example.com"), ("profile", "Relay"),
      ("smtpd_tls_cert_file", "/etc/pki/cert.pem"), ("smtpd_tls_key_file", "/etc/pki/key.pem")]),
    ("postfix.relay", [("server", "smtp.example.com"), ("port", "25")])]

theorem takesNumbers_iff_relayFile :
    TakesNodeNumber .digits {} sampleHost (relayFile.setString "node.1" "sockets" "2") newCluster 0
        .sockets "2" ∧
      TakesPort .digits {} sampleHost (relayFile.setString "postfix.relay" "port" "587")
        newCluster "587" := by
  have hnode : (outcome (fillData .digits {} sampleHost
      (relayFile.setString "node.1" "sockets" "1") newCluster)).isOk := by decide +kernel
  have hport : (outcome (fillData .digits {} sampleHost
      (relayFile.setString "postfix.relay" "port" "25") newCluster)).isOk := by decide +kernel
  obtain ⟨u, hu⟩ := isOk_iff.mp hnode
  obtain ⟨c, hc⟩ := outcome_ok_iff.mp hu
  obtain ⟨v, hv⟩ := isOk_iff.mp hport
  obtain ⟨d, hd⟩ := outcome_ok_iff.mp hv
  obtain ⟨hnodes, hports⟩ := takesNumbers_iff .digits {} sampleHost relayFile newCluster
  exact ⟨(hnodes 0 "node.1" 1 .sockets c (by decide +kernel) hc "2").mpr
      (.inl (by decide +kernel)),
    (hports .Relay d (by decide +kernel) (by decide +kernel) (by decide) hd "587").mpr
      (.inl (by decide +kernel))⟩

/-- What follows the digits is dropped, and so is what does not fit into 16 bits. -/
theorem not_takesNumbers :
    ¬ TakesNodeNumber .digits {} sampleHost (relayFile.setString "node.1" "sockets" "5x") newCluster
        0 .sockets "5x" ∧
      ¬ TakesPort .digits {} sampleHost (relayFile.setString "postfix.relay" "port" "65561")
        newCluster "65561" := by
  constructor
  · intro h
    obtain ⟨e, c, hthrow, -⟩ := h.other (by decide +kernel)
    have hreturn : (outcome (fillData .digits {} sampleHost
        (relayFile.setString "node.1" "sockets" "5x") newCluster)).isOk := by decide +kernel
    rw [hthrow] at hreturn
    exact absurd hreturn (by simp [outcome, Except.isOk, Except.toBool])
  · intro h
    obtain ⟨e, hthrow⟩ := h.other (by decide +kernel)
    have hreturn : (loadOptions .digits {}
        (relayFile.setString "postfix.relay" "port" "65561") {}).isOk := by decide +kernel
    rw [hthrow] at hreturn
    exact absurd hreturn (by simp [Except.isOk, Except.toBool])

end Cloyster.Models.Cluster
