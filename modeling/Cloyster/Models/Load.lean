import Cloyster.Models.Nodes

/-! Loading a whole answer file. Each section's loader returns exactly when the keys
it asks for are there, and then sets one field to what the section says. Put together
they decide which sections may be missing. -/

namespace Cloyster.AnswerFile

open Lib

variable (boost : Boost) (opts : Options) (file : KeyFile)

def KeysPresent (sectionName : String) (keys : List String) : Prop :=
  ∀ key ∈ keys, (file.value? sectionName key).isSome

instance (sectionName : String) (keys : List String) :
    Decidable (KeysPresent file sectionName keys) :=
  inferInstanceAs (Decidable (∀ key ∈ keys, (file.value? sectionName key).isSome))

/-! ### What the sections say -/

/-- What a network section must have. -/
@[mk_iff] structure NetworkLoadable (sectionName : String) : Prop where
  interface : (file.value? sectionName "interface").isSome
  ip_address : AddressOk boost file sectionName "ip_address"
  subnet_mask : AddressOk boost file sectionName "subnet_mask"
  gateway : AddressOk boost file sectionName "gateway"

instance (sectionName : String) : Decidable (NetworkLoadable boost file sectionName) :=
  decidable_of_iff' _ (networkLoadable_iff boost file sectionName)

def keyAddress? (sectionName key : String) : Option Address :=
  (file.value? sectionName key).bind boost.makeAddress

/-- A network section read over the values `network` had before. -/
def sectionNetwork (sectionName : String) (network : AFNetwork) : AFNetwork where
  subnet_mask := (keyAddress? boost file sectionName "subnet_mask").or network.subnet_mask
  gateway := (keyAddress? boost file sectionName "gateway").or network.gateway
  domain_name := some (keyText file sectionName "domain_name")
  nameservers :=
    ((file.value? sectionName "nameservers").map (Text.split · ", ")).or network.nameservers
  con_interface := file.value? sectionName "interface"
  con_ip_addr := (keyAddress? boost file sectionName "ip_address").or network.con_ip_addr
  con_mac_addr := some (keyText file sectionName "mac_address")

def sectionInformation : AFInformation where
  cluster_name := keyText file "information" "cluster_name"
  company_name := keyText file "information" "company_name"
  administrator_email := keyText file "information" "administrator_email"

def sectionTime : AFTime where
  timezone := keyText file "time" "timezone"
  timeserver := keyText file "time" "timeserver"
  locale := keyText file "time" "locale"

def sectionHostname : AFHostname where
  hostname := keyText file "hostname" "hostname"
  domain_name := keyText file "hostname" "domain_name"

def sectionDistro? : Option OS.Distro :=
  (file.value? "system" "distro").bind (ofStringInsensitive OS.Distro)

/-- Under a distribution that is not known the rest of the section is not read. -/
def sectionSystem (system : AFSystem) : AFSystem :=
  match sectionDistro? file with
  | none => { system with disk_image := keyText file "system" "disk_image" }
  | some distro => {
      disk_image := keyText file "system" "disk_image"
      distro := some distro
      version := keyText file "system" "version"
      kernel := keyText file "system" "kernel" }

def SystemLoadable : Prop :=
  KeysPresent file "system" ["disk_image", "distro"] ∧
    match sectionDistro? file with
    | none => opts.dryRun
    | some _ => KeysPresent file "system" ["version", "kernel"]

def keyPort? (sectionName : String) : Option ℤ :=
  (file.value? sectionName "port").bind fun s => (Text.stoi s).toOption

def sectionProfile? : Option Postfix.Profile :=
  (file.value? "postfix" "profile").bind (ofStringInsensitive Postfix.Profile)

/-- The server that mail goes through. -/
def sectionSMTP (smtp : Option AFSMTP) : Postfix.Profile → Option AFSMTP
  | .Local => smtp
  | .Relay => some {
      server := keyText file "postfix.relay" "server"
      port := (keyPort? file "postfix.relay").getD 0 }
  | .SASL => some {
      server := keyText file "postfix.sasl" "server"
      port := (keyPort? file "postfix.sasl").getD 0
      sasl := some {
        username := keyText file "postfix.sasl" "username"
        password := keyText file "postfix.sasl" "password" } }

def SMTPLoadable : Postfix.Profile → Prop
  | .Local => True
  | .Relay => KeysPresent file "postfix.relay" ["server"] ∧ (keyPort? file "postfix.relay").isSome
  | .SASL => KeysPresent file "postfix.sasl" ["server", "username", "password"] ∧
      (keyPort? file "postfix.sasl").isSome

def sectionPostfix (settings : AFPostfix) : AFPostfix where
  enabled := true
  destination := Text.split (keyText file "postfix" "destination") ", "
  profile := sectionProfile? file
  smtp := (sectionProfile? file).elim settings.smtp (sectionSMTP file settings.smtp)
  cert_file := keyText file "postfix" "smtpd_tls_cert_file"
  key_file := keyText file "postfix" "smtpd_tls_key_file"

def PostfixLoadable : Prop :=
  KeysPresent file "postfix" ["destination", "smtpd_tls_cert_file", "smtpd_tls_key_file"] ∧
    ∃ profile, sectionProfile? file = some profile ∧ SMTPLoadable file profile

def sectionOFED : AFOFED where
  kind := keyText file "ofed" "kind"
  version := some (if keyText file "ofed" "version" = "" then "latest"
    else keyText file "ofed" "version")
  enabled := true

/-- An empty kind leaves the settings alone, and then the version is not read. -/
def OFEDLoadable : Prop :=
  (file.value? "ofed" "kind").isSome ∧
    (keyText file "ofed" "kind" ≠ "" → (file.value? "ofed" "version").isSome)

/-! ### The loaders -/

variable {boost opts file} {sectionName : String} {af af' : AnswerFile}

theorem getString_ok_iff {key s : String} :
    file.getString sectionName key = .ok s ↔
      (file.value? sectionName key).isSome ∧ keyText file sectionName key = s := by
  rw [KeyFile.getString_ok_iff, keyText]
  cases file.value? sectionName key <;> simp

theorem convertNetworkAddressAndValidate_ok_iff {key : String} {destination o : Option Address} :
    convertNetworkAddressAndValidate boost file sectionName key destination = .ok o ↔
      file.hasGroup sectionName ∧ AddressOk boost file sectionName key ∧
        (keyAddress? boost file sectionName key).or destination = o := by
  unfold convertNetworkAddressAndValidate AddressOk keyAddress?
  rw [except_bind_ok_iff]
  simp only [KeyFile.getStringOpt_ok_iff]
  cases hvalue : file.value? sectionName key with
  | none => simp
  | some s =>
    cases ha : boost.makeAddress s with
    | none => simp [explainInvalid_ok_iff, convertStringToAddress_ok_iff, ha]
    | some a => simp [explainInvalid_ok_iff, convertStringToAddress_ok_iff, ha]

theorem loadNetwork_ok_iff {network network' : AFNetwork} :
    loadNetwork boost file sectionName network = .ok network' ↔
      NetworkLoadable boost file sectionName ∧
        sectionNetwork boost file sectionName network = network' := by
  have hgroup (h : (file.value? sectionName "interface").isSome) : file.hasGroup sectionName := by
    obtain ⟨s, hs⟩ := Option.isSome_iff_exists.mp h
    exact KeyFile.hasGroup_of_value? hs
  have hinterface (h : (file.value? sectionName "interface").isSome) :
      file.value? sectionName "interface" = some (keyText file sectionName "interface") := by
    obtain ⟨s, hs⟩ := Option.isSome_iff_exists.mp h
    rw [keyText, hs, Option.getD_some]
  simp only [loadNetwork, except_bind_ok_iff, getString_ok_iff, KeyFile.getStringOr_ok_iff,
    KeyFile.getStringOpt_ok_iff, convertNetworkAddressAndValidate_ok_iff, except_pure_ok_iff,
    networkLoadable_iff]
  constructor
  · rintro ⟨_, ⟨hi, rfl⟩, _, ⟨-, hip, rfl⟩, _, ⟨-, rfl⟩, _, ⟨-, hmask, rfl⟩, _, ⟨-, rfl⟩,
      _, ⟨-, hgateway, rfl⟩, _, ⟨-, rfl⟩, rfl⟩
    exact ⟨⟨hi, hip, hmask, hgateway⟩, by rw [sectionNetwork, hinterface hi]; rfl⟩
  · rintro ⟨⟨hi, hip, hmask, hgateway⟩, rfl⟩
    have hg := hgroup hi
    exact ⟨_, ⟨hi, rfl⟩, _, ⟨hg, hip, rfl⟩, _, ⟨hg, rfl⟩, _, ⟨hg, hmask, rfl⟩, _, ⟨hg, rfl⟩,
      _, ⟨hg, hgateway, rfl⟩, _, ⟨hg, rfl⟩, by rw [sectionNetwork, hinterface hi]; rfl⟩

theorem loadExternalNetwork_ok_iff :
    loadExternalNetwork boost file af = .ok af' ↔
      NetworkLoadable boost file "network_external" ∧
        { af with external := sectionNetwork boost file "network_external" af.external } = af' := by
  simp only [loadExternalNetwork, except_bind_ok_iff, loadNetwork_ok_iff, except_pure_ok_iff]
  grind

theorem loadManagementNetwork_ok_iff :
    loadManagementNetwork boost file af = .ok af' ↔
      NetworkLoadable boost file "network_management" ∧
        { af with
          management := sectionNetwork boost file "network_management" af.management } = af' := by
  simp only [loadManagementNetwork, except_bind_ok_iff, loadNetwork_ok_iff, except_pure_ok_iff]
  grind

theorem loadApplicationNetwork_ok_iff :
    loadApplicationNetwork boost file af = .ok af' ↔
      (file.hasGroup "network_application" → NetworkLoadable boost file "network_application") ∧
        { af with
          application := if file.hasGroup "network_application" then
              sectionNetwork boost file "network_application" af.application
            else af.application } = af' := by
  unfold loadApplicationNetwork
  by_cases hgroup : file.hasGroup "network_application"
  · simp [hgroup, loadNetwork_ok_iff]
  · simp [hgroup]

theorem loadInformation_ok_iff :
    loadInformation file af = .ok af' ↔
      KeysPresent file "information" ["cluster_name", "company_name", "administrator_email"] ∧
        { af with information := sectionInformation file } = af' := by
  simp only [loadInformation, except_bind_ok_iff, getString_ok_iff, except_pure_ok_iff, KeysPresent,
    List.forall_mem_cons, sectionInformation]
  grind

theorem loadTimeSettings_ok_iff :
    loadTimeSettings file af = .ok af' ↔
      KeysPresent file "time" ["timezone", "timeserver", "locale"] ∧
        { af with time := sectionTime file } = af' := by
  simp only [loadTimeSettings, except_bind_ok_iff, getString_ok_iff, except_pure_ok_iff, KeysPresent,
    List.forall_mem_cons, sectionTime]
  grind

theorem loadHostnameSettings_ok_iff :
    loadHostnameSettings file af = .ok af' ↔
      KeysPresent file "hostname" ["hostname", "domain_name"] ∧
        { af with hostname := sectionHostname file } = af' := by
  simp only [loadHostnameSettings, except_bind_ok_iff, getString_ok_iff, except_pure_ok_iff,
    KeysPresent, List.forall_mem_cons, sectionHostname]
  grind

theorem loadSystemSettings_ok_iff :
    loadSystemSettings opts file af = .ok af' ↔
      SystemLoadable opts file ∧ { af with system := sectionSystem file af.system } = af' := by
  have hdistro : sectionDistro? file =
      (file.value? "system" "distro").bind (ofStringInsensitive OS.Distro) := rfl
  unfold loadSystemSettings SystemLoadable sectionSystem KeysPresent
  simp only [except_bind_ok_iff, getString_ok_iff, List.forall_mem_cons]
  cases hname : file.value? "system" "distro" with
  | none => simp
  | some name =>
    have htext : keyText file "system" "distro" = name := by rw [keyText, hname, Option.getD_some]
    rw [hname, Option.bind_some] at hdistro
    rw [htext, hdistro]
    cases hcast : ofStringInsensitive OS.Distro name with
    | none =>
      by_cases hdry : opts.dryRun
      · simp [hcast, hdry]
      · simp [hcast, hdry]
    | some distro =>
      simp only [↓existsAndEq, hcast, except_bind_ok_iff, getString_ok_iff, except_pure_ok_iff]
      grind

theorem loadPort_ok_iff {port : ℤ} :
    loadPort file sectionName = .ok port ↔ keyPort? file sectionName = some port := by
  unfold loadPort keyPort?
  rw [except_bind_ok_iff]
  simp only [KeyFile.getString_ok_iff, mapError_ok_iff, Option.bind_eq_some_iff]
  refine exists_congr fun s => and_congr_right fun _ => ?_
  cases Text.stoi s <;> simp [Except.toOption]

theorem loadSMTP_ok_iff {smtp o : Option AFSMTP} {profile : Postfix.Profile} :
    loadSMTP file smtp profile = .ok o ↔
      SMTPLoadable file profile ∧ sectionSMTP file smtp profile = o := by
  unfold loadSMTP SMTPLoadable sectionSMTP KeysPresent
  cases profile with
  | Local => simp
  | Relay =>
    simp only [except_bind_ok_iff, getString_ok_iff, loadPort_ok_iff, except_pure_ok_iff,
      List.forall_mem_cons]
    cases keyPort? file "postfix.relay" with
    | none => simp
    | some port => simp
  | SASL =>
    simp only [except_bind_ok_iff, getString_ok_iff, loadPort_ok_iff, except_pure_ok_iff,
      List.forall_mem_cons]
    cases keyPort? file "postfix.sasl" with
    | none => simp
    | some port => simp [and_assoc]

theorem loadPostfixSection_ok_iff {settings settings' : AFPostfix} :
    loadPostfixSection file settings = .ok settings' ↔
      PostfixLoadable file ∧ sectionPostfix file settings = settings' := by
  have hprofile : sectionProfile? file =
      (file.value? "postfix" "profile").bind (ofStringInsensitive Postfix.Profile) := rfl
  unfold loadPostfixSection PostfixLoadable sectionPostfix KeysPresent
  simp only [except_bind_ok_iff, getString_ok_iff, List.forall_mem_cons]
  cases hname : file.value? "postfix" "profile" with
  | none => simp [hprofile, hname]
  | some name =>
    have htext : keyText file "postfix" "profile" = name := by rw [keyText, hname, Option.getD_some]
    rw [hname, Option.bind_some] at hprofile
    rw [htext, hprofile]
    cases hcast : ofStringInsensitive Postfix.Profile name with
    | none => simp [hcast]
    | some profile =>
      simp only [↓existsAndEq, hcast, except_bind_ok_iff, getString_ok_iff, loadSMTP_ok_iff,
        except_pure_ok_iff, Option.elim_some]
      grind

theorem loadPostfix_ok_iff :
    loadPostfix file af = .ok af' ↔
      (file.hasGroup "postfix" → PostfixLoadable file) ∧
        { af with
          postfixSettings := if file.hasGroup "postfix" then sectionPostfix file af.postfixSettings
            else af.postfixSettings } = af' := by
  unfold loadPostfix
  by_cases hgroup : file.hasGroup "postfix"
  · simp [hgroup, loadPostfixSection_ok_iff]
  · simp [hgroup]

theorem loadOFED_ok_iff :
    loadOFED file af = .ok af' ↔
      OFEDLoadable file ∧
        { af with
          ofed := if keyText file "ofed" "kind" = "" then af.ofed else sectionOFED file } = af' := by
  unfold loadOFED OFEDLoadable sectionOFED
  simp only [except_bind_ok_iff, getString_ok_iff]
  by_cases hkind : keyText file "ofed" "kind" = ""
  · simp [hkind]
  · simp [hkind, getString_ok_iff, and_assoc]

/-! ### The whole file -/

/-- What loading asks for. -/
structure FileLoadable (boost : Boost) (opts : Options) (file : KeyFile) : Prop where
  external : NetworkLoadable boost file "network_external"
  management : NetworkLoadable boost file "network_management"
  application :
    file.hasGroup "network_application" → NetworkLoadable boost file "network_application"
  information :
    KeysPresent file "information" ["cluster_name", "company_name", "administrator_email"]
  time : KeysPresent file "time" ["timezone", "timeserver", "locale"]
  hostname : KeysPresent file "hostname" ["hostname", "domain_name"]
  system : SystemLoadable opts file
  generic : Loadable boost file "node"
  nodes : ∀ nodeSection ∈ nodeSections boost file, ValidNode boost file nodeSection.1
  mail : file.hasGroup "postfix" → PostfixLoadable file
  ofed : OFEDLoadable file

/-- What is loaded over `af`. The service network is not read. -/
def loaded (boost : Boost) (file : KeyFile) (af : AnswerFile) : AnswerFile where
  external := sectionNetwork boost file "network_external" af.external
  management := sectionNetwork boost file "network_management" af.management
  application := if file.hasGroup "network_application" then
      sectionNetwork boost file "network_application" af.application
    else af.application
  service := af.service
  information := sectionInformation file
  time := sectionTime file
  hostname := sectionHostname file
  system := sectionSystem file af.system
  nodes := {
    generic := some (sectionNode boost file "node")
    nodes := af.nodes.nodes ++ (nodeSections boost file).map (nodeOf boost file) }
  postfixSettings := if file.hasGroup "postfix" then sectionPostfix file af.postfixSettings
    else af.postfixSettings
  ofed := if keyText file "ofed" "kind" = "" then af.ofed else sectionOFED file

theorem loadOptions_ok_iff :
    loadOptions boost opts file af = .ok af' ↔
      FileLoadable boost opts file ∧ loaded boost file af = af' := by
  simp only [loadOptions, except_bind_ok_iff, loadExternalNetwork_ok_iff,
    loadManagementNetwork_ok_iff, loadApplicationNetwork_ok_iff, loadInformation_ok_iff,
    loadTimeSettings_ok_iff, loadHostnameSettings_ok_iff, loadSystemSettings_ok_iff,
    loadNodes_ok_iff, loadPostfix_ok_iff, loadOFED_ok_iff]
  constructor
  · rintro ⟨_, ⟨hexternal, rfl⟩, _, ⟨hmanagement, rfl⟩, _, ⟨happlication, rfl⟩,
      _, ⟨hinformation, rfl⟩, _, ⟨htime, rfl⟩, _, ⟨hhostname, rfl⟩, _, ⟨hsystem, rfl⟩,
      _, ⟨hgeneric, hnodes, rfl⟩, _, ⟨hmail, rfl⟩, hofed, rfl⟩
    exact ⟨⟨hexternal, hmanagement, happlication, hinformation, htime, hhostname, hsystem,
      hgeneric, hnodes, hmail, hofed⟩, rfl⟩
  · rintro ⟨⟨hexternal, hmanagement, happlication, hinformation, htime, hhostname, hsystem,
      hgeneric, hnodes, hmail, hofed⟩, rfl⟩
    exact ⟨_, ⟨hexternal, rfl⟩, _, ⟨hmanagement, rfl⟩, _, ⟨happlication, rfl⟩,
      _, ⟨hinformation, rfl⟩, _, ⟨htime, rfl⟩, _, ⟨hhostname, rfl⟩, _, ⟨hsystem, rfl⟩,
      _, ⟨hgeneric, hnodes, rfl⟩, _, ⟨hmail, rfl⟩, hofed, rfl⟩

/-! ### Sections that may be missing -/

/-- The sections every answer file needs. -/
@[mk_iff] structure RequiredSections (boost : Boost) (file : KeyFile) : Prop where
  information :
    KeysPresent file "information" ["cluster_name", "company_name", "administrator_email"]
  time : KeysPresent file "time" ["timezone", "timeserver", "locale"]
  hostname : KeysPresent file "hostname" ["hostname", "domain_name"]
  system : KeysPresent file "system" ["disk_image", "distro", "version", "kernel"]
  distro : (sectionDistro? file).isSome
  external : NetworkLoadable boost file "network_external"
  management : NetworkLoadable boost file "network_management"
  generic : Loadable boost file "node"
  nodes : ∀ nodeSection ∈ nodeSections boost file, ValidNode boost file nodeSection.1

instance : Decidable (RequiredSections boost file) :=
  decidable_of_iff' _ (requiredSections_iff boost file)

/-- The optional sections that are there are complete. -/
structure OptionalSections (boost : Boost) (file : KeyFile) : Prop where
  service : file.hasGroup "network_service" → NetworkLoadable boost file "network_service"
  application :
    file.hasGroup "network_application" → NetworkLoadable boost file "network_application"
  mail : file.hasGroup "postfix" → PostfixLoadable file
  ofed : file.hasGroup "ofed" → KeysPresent file "ofed" ["kind", "version"] ∧
    keyText file "ofed" "kind" ≠ "" ∧ keyText file "ofed" "version" ≠ ""

/-- Every optional section shows in its field when it is there, and leaves the default
when it is not. -/
structure Reflects (boost : Boost) (file : KeyFile) (af : AnswerFile) : Prop where
  service : af.service = if file.hasGroup "network_service" then
    sectionNetwork boost file "network_service" {} else {}
  application : af.application = if file.hasGroup "network_application" then
    sectionNetwork boost file "network_application" {} else {}
  mail : af.postfixSettings = if file.hasGroup "postfix" then sectionPostfix file {} else {}
  ofed : af.ofed = if file.hasGroup "ofed" then
    { kind := keyText file "ofed" "kind", version := some (keyText file "ofed" "version"),
      enabled := true } else {}

def LoadsSections (boost : Boost) (opts : Options) (file : KeyFile) : Prop :=
  ∃ af, loadOptions boost opts file {} = .ok af ∧ Reflects boost file af

theorem fileLoadable_of_sections (hrequired : RequiredSections boost file)
    (hoptional : OptionalSections boost file) (hofed : file.hasGroup "ofed") :
    FileLoadable boost opts file where
  external := hrequired.external
  management := hrequired.management
  application := hoptional.application
  information := hrequired.information
  time := hrequired.time
  hostname := hrequired.hostname
  system := by
    obtain ⟨distro, hdistro⟩ := Option.isSome_iff_exists.mp hrequired.distro
    have hkeys := hrequired.system
    unfold SystemLoadable
    rw [hdistro]
    exact ⟨fun key hkey => hkeys key (by grind), fun key hkey => hkeys key (by grind)⟩
  generic := hrequired.generic
  nodes := hrequired.nodes
  mail := hoptional.mail
  ofed :=
    have hkeys := (hoptional.ofed hofed).1
    ⟨hkeys "kind" (by simp), fun _ => hkeys "version" (by simp)⟩

/-- With all that is required there, and what is optional complete, loading does what it
should exactly when `ofed` is not missing and no service network is asked for. -/
theorem loadsSections_iff (hrequired : RequiredSections boost file)
    (hoptional : OptionalSections boost file) :
    LoadsSections boost opts file ↔
      file.hasGroup "ofed" ∧ ¬ file.hasGroup "network_service" := by
  constructor
  · rintro ⟨af, hload, hreflects⟩
    obtain ⟨hloadable, rfl⟩ := loadOptions_ok_iff.mp hload
    refine ⟨?_, fun hservice => ?_⟩
    · obtain ⟨kind, hkind⟩ := Option.isSome_iff_exists.mp hloadable.ofed.1
      exact KeyFile.hasGroup_of_value? hkind
    · have hinterface := (hoptional.service hservice).interface
      have heq := hreflects.service
      rw [if_pos hservice] at heq
      have hnone : file.value? "network_service" "interface" = none :=
        (congrArg AFNetwork.con_interface heq).symm
      rw [hnone] at hinterface
      exact absurd hinterface (by simp)
  · rintro ⟨hofed, hservice⟩
    refine ⟨_, loadOptions_ok_iff.mpr ⟨fileLoadable_of_sections hrequired hoptional hofed, rfl⟩, ?_⟩
    obtain ⟨-, hkind, hversion⟩ := hoptional.ofed hofed
    constructor
    · rw [if_neg hservice]
      rfl
    · rfl
    · rfl
    · simp [loaded, hkind, hofed, sectionOFED, hversion]

/-- The required sections of an answer file with one node. -/
def sampleGroups : List (String × List (String × String)) :=
  [("information", [("cluster_name", "cloyster"), ("company_name", "cloyster-enterprises"),
      ("administrator_email", "foo@example.com")]),
    ("time", [("timezone", "America/Sao_Paulo"), ("timeserver", "0.br.pool.ntp.org"),
      ("locale", "en_US.utf8")]),
    ("hostname", [("hostname", "cloyster"), ("domain_name", "cluster.example.com")]),
    ("network_external", [("interface", "eth1"), ("domain_name", "cluster.external.example.com")]),
    ("network_management", [("interface", "eth2"), ("ip_address", "172.26.30.10"),
      ("subnet_mask", "255.255.255.0"), ("domain_name", "cluster.management.example.com")]),
    ("system", [("disk_image", "/opt/iso/rhel-9.3-x86_64-dvd.iso"), ("distro", "rhel"),
      ("version", "9.3"), ("kernel", "4.18.0-513.5.1.el8_9.x86_64")]),
    ("node", [("prefix", "n"), ("padding", "2"), ("node_ip", "172.26.0.1"),
      ("node_root_password", "pwd"), ("sockets", "1"), ("cores_per_socket", "1"),
      ("threads_per_core", "1"), ("bmc_username", "admin"), ("bmc_password", "admin"),
      ("bmc_serialport", "0"), ("bmc_serialspeed", "9600")]),
    ("node.1", [("hostname", "foo"), ("mac_address", "ca:fe:de:ad:be:ef"),
      ("bmc_address", "10.0.0.2")])]

theorem loadsSections_iff_ofed :
    LoadsSections .digits {} (.ofGroups (sampleGroups ++
      [("ofed", [("kind", "mellanox"), ("version", "latest")])])) := by
  refine (loadsSections_iff (by decide +kernel) ⟨?_, ?_, ?_, ?_⟩).mpr (by decide +kernel)
  · exact fun h => absurd h (by decide +kernel)
  · exact fun h => absurd h (by decide +kernel)
  · exact fun h => absurd h (by decide +kernel)
  · exact fun _ => by decide +kernel

/-- Without the section `ofed` nothing is loaded. -/
theorem not_loadsSections_sample :
    RequiredSections .digits (.ofGroups sampleGroups) ∧
      OptionalSections .digits (.ofGroups sampleGroups) ∧
      ¬ LoadsSections .digits {} (.ofGroups sampleGroups) := by
  refine ⟨by decide +kernel, ⟨?_, ?_, ?_, ?_⟩, ?_⟩
  · exact fun h => absurd h (by decide +kernel)
  · exact fun h => absurd h (by decide +kernel)
  · exact fun h => absurd h (by decide +kernel)
  · exact fun h => absurd h (by decide +kernel)
  · rintro ⟨af, hload, -⟩
    have hofed := (loadOptions_ok_iff.mp hload).1.ofed.1
    exact absurd hofed (by decide +kernel)

end Cloyster.AnswerFile
