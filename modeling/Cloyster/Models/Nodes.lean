import Cloyster.Models.AnswerFile

/-! The nodes of an answer file. A node section has each of its values itself, or
takes it from the generic section; a section for which neither has one of them is
refused. What a section amounts to is written down as functions of the key file, and
the loader is shown to compute them. -/

namespace Cloyster.AnswerFile

open Lib

variable (boost : Boost) (file : KeyFile)

/-- The value of a key, empty when there is none. -/
def keyText (sectionName key : String) : String := (file.value? sectionName key).getD ""

/-- The key is absent, or its text is an address. -/
def AddressOk (sectionName key : String) : Prop :=
  ∀ s, file.value? sectionName key = some s → (boost.makeAddress s).isSome

instance (sectionName key : String) : Decidable (AddressOk boost file sectionName key) :=
  decidable_of_iff ((file.value? sectionName key).all fun s => (boost.makeAddress s).isSome) (by
    unfold AddressOk
    cases file.value? sectionName key <;> simp)

/-- The address of a key, unset when there is none. -/
def keyAddress (sectionName key : String) : Address :=
  ((file.value? sectionName key).bind boost.makeAddress).getD .unset

/-- A node as its section alone describes it. -/
def sectionNode (sectionName : String) : AFNode :=
  { pre := if sectionName = "node" then file.value? sectionName "prefix" else none
    padding := if sectionName = "node" then file.value? sectionName "padding" else none
    mac_address := if sectionName ≠ "node" then file.value? sectionName "mac_address" else none
    start_ip := some (keyAddress boost file sectionName "node_ip")
    hostname := some (keyText file sectionName "hostname")
    root_password := some (keyText file sectionName "node_root_password")
    sockets := some (keyText file sectionName "sockets")
    cores_per_socket := some (keyText file sectionName "cores_per_socket")
    threads_per_core := some (keyText file sectionName "threads_per_core")
    bmc_address := some (keyText file sectionName "bmc_address")
    bmc_username := some (keyText file sectionName "bmc_username")
    bmc_password := some (keyText file sectionName "bmc_password")
    bmc_serialport := some (keyText file sectionName "bmc_serialport")
    bmc_serialspeed := some (keyText file sectionName "bmc_serialspeed") }

/-- What a section must have for `loadNode` to return. -/
@[mk_iff] structure Loadable (sectionName : String) : Prop where
  group : file.hasGroup sectionName
  generic : sectionName = "node" →
    (file.value? sectionName "prefix").isSome ∧ (file.value? sectionName "padding").isSome
  own : sectionName ≠ "node" → (file.value? sectionName "mac_address").isSome
  address : AddressOk boost file sectionName "node_ip"

instance (sectionName : String) : Decidable (Loadable boost file sectionName) :=
  decidable_of_iff' _ (loadable_iff boost file sectionName)

/-! ### Loading one section -/

variable {boost file} {sectionName : String}

theorem explainInvalid_ok_iff {α : Type} {message : String → String} {x : Except Exn α} {a : α} :
    explainInvalid message x = .ok a ↔ x = .ok a := by
  unfold explainInvalid
  split <;> simp

theorem convertStringToAddress_ok_iff {s : String} {a : Address} :
    convertStringToAddress boost s = .ok a ↔ boost.makeAddress s = some a := by
  unfold convertStringToAddress
  cases boost.makeAddress s <;> simp

theorem loadStartIp_ok_iff {ip : Option Address} :
    loadStartIp boost file sectionName = .ok ip ↔
      file.hasGroup sectionName ∧ AddressOk boost file sectionName "node_ip" ∧
        some (keyAddress boost file sectionName "node_ip") = ip := by
  unfold loadStartIp AddressOk keyAddress
  rw [except_bind_ok_iff]
  simp only [KeyFile.getStringOpt_ok_iff]
  cases hvalue : file.value? sectionName "node_ip" with
  | none => simp
  | some s =>
    cases ha : boost.makeAddress s with
    | none => simp [explainInvalid_ok_iff, convertStringToAddress_ok_iff, ha]
    | some a =>
      simp [explainInvalid_ok_iff, convertStringToAddress_ok_iff, ha]

theorem getStringIf_ok_iff {p : Prop} [Decidable p] {key : String} {o : Option String} :
    getStringIf file p sectionName key = .ok o ↔
      (p → (file.value? sectionName key).isSome) ∧
        (if p then file.value? sectionName key else none) = o := by
  unfold getStringIf
  split_ifs with hp
  · cases hvalue : file.value? sectionName key with
    | none => simp [KeyFile.getString_ok_iff, hvalue, hp]
    | some s => simp [KeyFile.getString_ok_iff, hvalue, hp]
  · simp [hp]

theorem loadNode_ok_iff {node : AFNode} :
    loadNode boost file sectionName = .ok node ↔
      Loadable boost file sectionName ∧ sectionNode boost file sectionName = node := by
  simp only [loadNode, except_bind_ok_iff, getStringIf_ok_iff, loadStartIp_ok_iff,
    KeyFile.getStringOr_ok_iff, except_pure_ok_iff]
  constructor
  · rintro ⟨_, ⟨hpre, rfl⟩, _, ⟨hpadding, rfl⟩, _, ⟨hmac, rfl⟩, _, ⟨hgroup, haddress, rfl⟩,
      _, ⟨-, rfl⟩, _, ⟨-, rfl⟩, _, ⟨-, rfl⟩, _, ⟨-, rfl⟩, _, ⟨-, rfl⟩, _, ⟨-, rfl⟩, _, ⟨-, rfl⟩,
      _, ⟨-, rfl⟩, _, ⟨-, rfl⟩, _, ⟨-, rfl⟩, rfl⟩
    exact ⟨⟨hgroup, fun h => ⟨hpre h, hpadding h⟩, hmac, haddress⟩, rfl⟩
  · rintro ⟨h, rfl⟩
    exact ⟨_, ⟨fun hg => (h.generic hg).1, rfl⟩, _, ⟨fun hg => (h.generic hg).2, rfl⟩,
      _, ⟨h.own, rfl⟩, _, ⟨h.group, h.address, rfl⟩, _, ⟨h.group, rfl⟩, _, ⟨h.group, rfl⟩,
      _, ⟨h.group, rfl⟩, _, ⟨h.group, rfl⟩, _, ⟨h.group, rfl⟩, _, ⟨h.group, rfl⟩,
      _, ⟨h.group, rfl⟩, _, ⟨h.group, rfl⟩, _, ⟨h.group, rfl⟩, _, ⟨h.group, rfl⟩, rfl⟩

/-! ### Taking values over from the generic section -/

/-- A node's own value, or the generic one. -/
def inherit {α : Type} (isEmpty : α → Bool) (own generic : α) : α :=
  if isEmpty own then generic else own

/-- The value a node gets for a key. -/
def inheritedText (file : KeyFile) (sectionName key : String) : String :=
  inherit (· == "") (keyText file sectionName key) (keyText file "node" key)

def inheritedAddress (boost : Boost) (file : KeyFile) (sectionName : String) : Address :=
  inherit Address.isUnspecified (keyAddress boost file sectionName "node_ip")
    (keyAddress boost file "node" "node_ip")

theorem validateAttribute_ok_iff {α : Type} {isEmpty : α → Bool} {attributeName : String}
    {own generic : α} {o : Option α} :
    validateAttribute isEmpty sectionName attributeName (some own) (some generic) = .ok o ↔
      ¬ isEmpty (inherit isEmpty own generic) ∧ some (inherit isEmpty own generic) = o := by
  unfold validateAttribute inherit dereference
  cases hown : isEmpty own with
  | false => simp [bind, Except.bind, hown]
  | true =>
    cases hgeneric : isEmpty generic with
    | false => simp [bind, Except.bind, hown, hgeneric]
    | true => simp [bind, Except.bind, hown, hgeneric, throw, throwThe, MonadExceptOf.throw]

/-- The keys that a node or the generic section must have, and where they go. -/
def attributes : List (String × (AFNode → Option String)) :=
  [("node_root_password", AFNode.root_password), ("sockets", AFNode.sockets),
    ("cores_per_socket", AFNode.cores_per_socket), ("threads_per_core", AFNode.threads_per_core),
    ("bmc_address", AFNode.bmc_address), ("bmc_username", AFNode.bmc_username),
    ("bmc_password", AFNode.bmc_password), ("bmc_serialport", AFNode.bmc_serialport),
    ("bmc_serialspeed", AFNode.bmc_serialspeed)]

/-- The node's section or the generic one provides every key. -/
@[mk_iff] structure Provided (boost : Boost) (file : KeyFile) (sectionName : String) : Prop where
  start_ip : ¬ (inheritedAddress boost file sectionName).isUnspecified
  attributes : ∀ field ∈ attributes, inheritedText file sectionName field.1 ≠ ""

instance (sectionName : String) : Decidable (Provided boost file sectionName) :=
  decidable_of_iff' _ (provided_iff boost file sectionName)

/-- A node of a section, with its hostname and the values it takes over. -/
def completedNode (boost : Boost) (file : KeyFile) (sectionName hostname : String) : AFNode :=
  { sectionNode boost file sectionName with
    hostname := some hostname
    start_ip := some (inheritedAddress boost file sectionName)
    root_password := some (inheritedText file sectionName "node_root_password")
    sockets := some (inheritedText file sectionName "sockets")
    cores_per_socket := some (inheritedText file sectionName "cores_per_socket")
    threads_per_core := some (inheritedText file sectionName "threads_per_core")
    bmc_address := some (inheritedText file sectionName "bmc_address")
    bmc_username := some (inheritedText file sectionName "bmc_username")
    bmc_password := some (inheritedText file sectionName "bmc_password")
    bmc_serialport := some (inheritedText file sectionName "bmc_serialport")
    bmc_serialspeed := some (inheritedText file sectionName "bmc_serialspeed") }

theorem validateNode_ok_iff {hostname : String} {node : AFNode} :
    validateNode (sectionNode boost file "node")
        { sectionNode boost file sectionName with hostname := some hostname } = .ok node ↔
      Provided boost file sectionName ∧ completedNode boost file sectionName hostname = node := by
  simp only [validateNode, validateText, sectionNode, except_bind_ok_iff, validateAttribute_ok_iff,
    except_pure_ok_iff, provided_iff, attributes, List.forall_mem_cons, beq_iff_eq]
  constructor
  · rintro ⟨_, ⟨h₀, rfl⟩, _, ⟨h₁, rfl⟩, _, ⟨h₂, rfl⟩, _, ⟨h₃, rfl⟩, _, ⟨h₄, rfl⟩, _, ⟨h₅, rfl⟩,
      _, ⟨h₆, rfl⟩, _, ⟨h₇, rfl⟩, _, ⟨h₈, rfl⟩, _, ⟨h₉, rfl⟩, rfl⟩
    exact ⟨⟨h₀, h₁, h₂, h₃, h₄, h₅, h₆, h₇, h₈, h₉, List.forall_mem_nil _⟩, rfl⟩
  · rintro ⟨⟨h₀, h₁, h₂, h₃, h₄, h₅, h₆, h₇, h₈, h₉, -⟩, rfl⟩
    exact ⟨_, ⟨h₀, rfl⟩, _, ⟨h₁, rfl⟩, _, ⟨h₂, rfl⟩, _, ⟨h₃, rfl⟩, _, ⟨h₄, rfl⟩, _, ⟨h₅, rfl⟩,
      _, ⟨h₆, rfl⟩, _, ⟨h₇, rfl⟩, _, ⟨h₈, rfl⟩, _, ⟨h₉, rfl⟩, rfl⟩

/-! ### Hostnames -/

/-- The number of digits that `padding` asks for. -/
def padding? (file : KeyFile) : Option ℕ :=
  match Text.stoi (keyText file "node" "padding") with
  | .ok width => if width < 0 then none else some width.toNat
  | .error _ => none

/-- The hostname made for a node without one. -/
def generatedHostname (file : KeyFile) (counter : ℕ) : String :=
  keyText file "node" "prefix" ++ Text.zeroPad counter ((padding? file).getD 0)

def hostnameOf (file : KeyFile) (sectionName : String) (counter : ℕ) : String :=
  if keyText file sectionName "hostname" ≠ "" then keyText file sectionName "hostname"
  else generatedHostname file counter

/-- A hostname is given, or one can be made. -/
def HostnameProvided (file : KeyFile) (sectionName : String) : Prop :=
  keyText file sectionName "hostname" ≠ "" ∨
    keyText file "node" "prefix" ≠ "" ∧ keyText file "node" "padding" ≠ "" ∧
      (padding? file).isSome

instance (file : KeyFile) (sectionName : String) : Decidable (HostnameProvided file sectionName) := by
  unfold HostnameProvided
  infer_instance

theorem dereference_ok_iff {α : Type} {o : Option α} {a : α} :
    dereference o = .ok a ↔ o = some a := by
  cases o <;> simp [dereference]

theorem formatHostname_ok_iff {pre hostname : String} {counter : ℕ} {width : ℤ} :
    formatHostname pre counter width = .ok hostname ↔
      0 ≤ width ∧ pre ++ Text.zeroPad counter width.toNat = hostname := by
  unfold formatHostname
  split_ifs with h
  · simp [Int.not_le.mpr h]
  · simp [Int.not_lt.mp h]

theorem padding?_eq_some_iff {n : ℕ} :
    padding? file = some n ↔
      ∃ width, Text.stoi (keyText file "node" "padding") = .ok width ∧ 0 ≤ width ∧
        width.toNat = n := by
  unfold padding?
  cases Text.stoi (keyText file "node" "padding") with
  | error e => simp
  | ok width => simp

theorem generateHostname_ok_iff {counter : ℕ} {hostname : String}
    (hgeneric : Loadable boost file "node") :
    generateHostname (sectionNode boost file "node") counter = .ok hostname ↔
      (keyText file "node" "prefix" ≠ "" ∧ keyText file "node" "padding" ≠ "" ∧
        (padding? file).isSome) ∧ generatedHostname file counter = hostname := by
  have hsome {key : String} (h : (file.value? "node" key).isSome) :
      file.value? "node" key = some (keyText file "node" key) := by
    obtain ⟨s, hs⟩ := Option.isSome_iff_exists.mp h
    rw [keyText, hs, Option.getD_some]
  have hpre := hsome (hgeneric.generic rfl).1
  have hpadding := hsome (hgeneric.generic rfl).2
  simp only [generateHostname, sectionNode, if_true, except_bind_ok_iff, dereference_ok_iff,
    throwIf_ok_iff, mapError_ok_iff, formatHostname_ok_iff, hpre, hpadding, Option.some_inj,
    Option.isSome_iff_exists, padding?_eq_some_iff, generatedHostname]
  constructor
  · rintro ⟨_, rfl, _, hne, _, rfl, _, hne', width, hwidth, hle, rfl⟩
    have hwide := padding?_eq_some_iff.mpr ⟨width, hwidth, hle, rfl⟩
    exact ⟨⟨hne, hne', _, width, hwidth, hle, rfl⟩, by rw [hwide, Option.getD_some]⟩
  · rintro ⟨⟨hne, hne', n, width, hwidth, hle, hn⟩, rfl⟩
    have hwide := padding?_eq_some_iff.mpr ⟨width, hwidth, hle, hn⟩
    exact ⟨_, rfl, ⟨⟩, hne, _, rfl, ⟨⟩, hne', width, hwidth, hle, by
      rw [hwide, Option.getD_some, hn]⟩

theorem nodeHostname_ok_iff {counter : ℕ} {hostname : String}
    (hgeneric : Loadable boost file "node") :
    nodeHostname (sectionNode boost file "node") (sectionNode boost file sectionName) counter =
        .ok hostname ↔
      HostnameProvided file sectionName ∧ hostnameOf file sectionName counter = hostname := by
  unfold nodeHostname HostnameProvided hostnameOf
  have hhostname : (sectionNode boost file sectionName).hostname =
      some (keyText file sectionName "hostname") := rfl
  rw [hhostname, except_bind_ok_iff]
  simp only [dereference_ok_iff, Option.some_inj, exists_eq_left']
  by_cases hown : keyText file sectionName "hostname" = ""
  · rw [if_pos hown, generateHostname_ok_iff hgeneric]
    simp [hown]
  · simp [hown]

/-! ### Loading all nodes -/

/-- What makes a node section valid. -/
@[mk_iff] structure ValidNode (boost : Boost) (file : KeyFile) (sectionName : String) : Prop where
  loadable : Loadable boost file sectionName
  hostname : HostnameProvided file sectionName
  provided : Provided boost file sectionName

instance (sectionName : String) : Decidable (ValidNode boost file sectionName) :=
  decidable_of_iff' _ (validNode_iff boost file sectionName)

/-- The node that a node section stands for. -/
def nodeOf (boost : Boost) (file : KeyFile) (nodeSection : String × ℕ) : AFNode :=
  completedNode boost file nodeSection.1 (hostnameOf file nodeSection.1 nodeSection.2)

theorem loadNodeSection_ok_iff {nodeSection : String × ℕ} {node : AFNode}
    (hgeneric : Loadable boost file "node") :
    loadNodeSection boost file (sectionNode boost file "node") nodeSection = .ok node ↔
      ValidNode boost file nodeSection.1 ∧ nodeOf boost file nodeSection = node := by
  unfold loadNodeSection nodeOf
  simp only [except_bind_ok_iff, loadNode_ok_iff, explainInvalid_ok_iff]
  constructor
  · rintro ⟨_, ⟨hload, rfl⟩, hostname, hhost, hvalid⟩
    obtain ⟨hprovides, rfl⟩ := (nodeHostname_ok_iff hgeneric).mp hhost
    obtain ⟨hprovided, hnode⟩ := validateNode_ok_iff.mp hvalid
    exact ⟨⟨hload, hprovides, hprovided⟩, hnode⟩
  · rintro ⟨⟨hload, hprovides, hprovided⟩, hnode⟩
    exact ⟨_, ⟨hload, rfl⟩, _, (nodeHostname_ok_iff hgeneric).mpr ⟨hprovides, rfl⟩,
      validateNode_ok_iff.mpr ⟨hprovided, hnode⟩⟩

/-- Loading returns exactly for valid sections, with one node for each, in file order. -/
theorem loadNodes_ok_iff {af af' : AnswerFile} :
    loadNodes boost file af = .ok af' ↔
      Loadable boost file "node" ∧
        (∀ nodeSection ∈ nodeSections boost file, ValidNode boost file nodeSection.1) ∧
        { af with nodes := {
            generic := some (sectionNode boost file "node")
            nodes := af.nodes.nodes ++ (nodeSections boost file).map (nodeOf boost file) } } =
          af' := by
  have hloaded (hgeneric : Loadable boost file "node") (loaded : List AFNode) :
      (nodeSections boost file).mapM
          (loadNodeSection boost file (sectionNode boost file "node")) = .ok loaded ↔
        (∀ nodeSection ∈ nodeSections boost file, ValidNode boost file nodeSection.1) ∧
          (nodeSections boost file).map (nodeOf boost file) = loaded := by
    simp only [mapM_ok_iff, loadNodeSection_ok_iff hgeneric]
    rw [List.forall₂_and_left, ← List.forall₂_map_left_iff, List.forall₂_eq_eq_eq]
  simp only [loadNodes, except_bind_ok_iff, loadNode_ok_iff, except_pure_ok_iff]
  constructor
  · rintro ⟨_, ⟨hgeneric, rfl⟩, loaded, hmap, rfl⟩
    obtain ⟨hvalid, rfl⟩ := (hloaded hgeneric loaded).mp hmap
    exact ⟨hgeneric, hvalid, rfl⟩
  · rintro ⟨hgeneric, hvalid, rfl⟩
    exact ⟨_, ⟨hgeneric, rfl⟩, _, (hloaded hgeneric _).mpr ⟨hvalid, rfl⟩, rfl⟩

/-! ### Every node is complete -/

/-- The entry of a node section: nothing is missing, and every value is the section's
own or the generic one. -/
structure NodeEntry (boost : Boost) (file : KeyFile) (nodeSection : String × ℕ) (node : AFNode) :
    Prop where
  hostname : ∃ hostname, node.hostname = some hostname ∧ hostname ≠ "" ∧
    hostname = hostnameOf file nodeSection.1 nodeSection.2
  start_ip : ∃ ip, node.start_ip = some ip ∧ ¬ ip.isUnspecified ∧
    ip = inheritedAddress boost file nodeSection.1
  attributes : ∀ field ∈ attributes, ∃ value, field.2 node = some value ∧ value ≠ "" ∧
    value = inheritedText file nodeSection.1 field.1

/-- What loading the nodes into an empty list promises. -/
structure NodesComplete (boost : Boost) (file : KeyFile) (af : AnswerFile) : Prop where
  entries : ∀ af', loadNodes boost file af = .ok af' →
    List.Forall₂ (NodeEntry boost file) (nodeSections boost file) af'.nodes.nodes
  refuses : ∀ nodeSection ∈ nodeSections boost file,
    ¬ (HostnameProvided file nodeSection.1 ∧ Provided boost file nodeSection.1) →
      ∃ e, loadNodes boost file af = .error e

theorem hostnameOf_ne_empty {counter : ℕ} (h : HostnameProvided file sectionName) :
    hostnameOf file sectionName counter ≠ "" := by
  unfold hostnameOf generatedHostname
  split_ifs with hown
  · exact hown
  · obtain hgiven | ⟨hpre, -⟩ := h
    · exact absurd hgiven hown
    · simp [hpre]

theorem attributes_completedNode {hostname : String} :
    ∀ field ∈ attributes, field.2 (completedNode boost file sectionName hostname) =
      some (inheritedText file sectionName field.1) := by
  simp [attributes, completedNode]

theorem nodeEntry_nodeOf {nodeSection : String × ℕ} (h : ValidNode boost file nodeSection.1) :
    NodeEntry boost file nodeSection (nodeOf boost file nodeSection) where
  hostname := ⟨_, rfl, hostnameOf_ne_empty h.hostname, rfl⟩
  start_ip := ⟨_, rfl, h.provided.start_ip, rfl⟩
  attributes field hfield :=
    ⟨_, attributes_completedNode field hfield, h.provided.attributes field hfield, rfl⟩

theorem loadNodes_complete (boost : Boost) (file : KeyFile) (af : AnswerFile) :
    NodesComplete boost file { af with nodes := { af.nodes with nodes := [] } } where
  entries af' h := by
    obtain ⟨-, hvalid, rfl⟩ := loadNodes_ok_iff.mp h
    dsimp only
    rw [List.nil_append, List.forall₂_map_right_iff, List.forall₂_same]
    exact fun nodeSection hmem => nodeEntry_nodeOf (hvalid nodeSection hmem)
  refuses nodeSection hmem hmissing := by
    cases h : loadNodes boost file { af with nodes := { af.nodes with nodes := [] } } with
    | error e => exact ⟨e, rfl⟩
    | ok af' =>
      obtain ⟨-, hvalid, -⟩ := loadNodes_ok_iff.mp h
      have hnode := hvalid nodeSection hmem
      exact absurd ⟨hnode.hostname, hnode.provided⟩ hmissing

end Cloyster.AnswerFile
