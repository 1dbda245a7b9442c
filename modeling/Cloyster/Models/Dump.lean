import Cloyster.Models.Load

/-! Writing an answer file back into a key file, which is meant as the inverse of
loading it. It is not: loading asks for the administrator's address under a key that
is never written. -/

namespace Cloyster.AnswerFile

open Lib

abbrev DumpM := EStateM Exn KeyFile

variable (boost : Boost)

def setString (group key value : String) : DumpM Unit :=
  modify fun file => file.setString group key value

def setStringIfSome (group key : String) (value : Option String) : DumpM Unit :=
  value.forM (setString group key)

/-! ### The sections -/

def dumpNetwork (network : AFNetwork) (networkSection : String) : DumpM Unit := do
  setStringIfSome networkSection "interface" network.con_interface
  setStringIfSome networkSection "ip_address" (network.con_ip_addr.map boost.toString)
  setStringIfSome networkSection "mac_address" network.con_mac_addr
  setStringIfSome networkSection "subnet_mask" (network.subnet_mask.map boost.toString)
  setStringIfSome networkSection "domain_name" network.domain_name
  setStringIfSome networkSection "gateway" (network.gateway.map boost.toString)
  setStringIfSome networkSection "nameservers"
    ((network.nameservers.filter (· ≠ [])).map (", ".intercalate ·))

def dumpExternalNetwork (af : AnswerFile) : DumpM Unit :=
  dumpNetwork boost af.external "network_external"

def dumpManagementNetwork (af : AnswerFile) : DumpM Unit :=
  dumpNetwork boost af.management "network_management"

def dumpApplicationNetwork (af : AnswerFile) : DumpM Unit :=
  dumpNetwork boost af.application "network_application"

/-- The last key is misspelt. -/
def dumpInformation (af : AnswerFile) : DumpM Unit := do
  setString "information" "cluster_name" af.information.cluster_name
  setString "information" "company_name" af.information.company_name
  setString "information" "admm_keyfilestrator_email" af.information.administrator_email

def dumpTimeSettings (af : AnswerFile) : DumpM Unit := do
  setString "time" "timezone" af.time.timezone
  setString "time" "timeserver" af.time.timeserver
  setString "time" "locale" af.time.locale

def dumpHostnameSettings (af : AnswerFile) : DumpM Unit := do
  setString "hostname" "hostname" af.hostname.hostname
  setString "hostname" "domain_name" af.hostname.domain_name

/-- A distribution that was never set has no name. -/
def dumpSystemSettings (af : AnswerFile) : DumpM Unit := do
  let distro ← liftExcept (dereference af.system.distro)
  setString "system" "disk_image" af.system.disk_image
  setString "system" "distro" (NamedEnum.name distro)
  setString "system" "version" af.system.version
  setString "system" "kernel" af.system.kernel

/-- Neither the address nor the MAC address of the node is written. -/
def dumpNode (node : AFNode × ℕ) : DumpM Unit := do
  let sectionName := s!"node.{node.2}"
  setStringIfSome sectionName "hostname" node.1.hostname
  setStringIfSome sectionName "node_root_password" node.1.root_password
  setStringIfSome sectionName "sockets" node.1.sockets
  setStringIfSome sectionName "cores_per_socket" node.1.cores_per_socket
  setStringIfSome sectionName "threads_per_core" node.1.threads_per_core
  setStringIfSome sectionName "bmc_address" node.1.bmc_address
  setStringIfSome sectionName "bmc_username" node.1.bmc_username
  setStringIfSome sectionName "bmc_password" node.1.bmc_password
  setStringIfSome sectionName "bmc_serialport" node.1.bmc_serialport
  setStringIfSome sectionName "bmc_serialspeed" node.1.bmc_serialspeed

def dumpNodes (af : AnswerFile) : DumpM Unit := (af.nodes.nodes.zipIdx 1).forM dumpNode

def dumpSMTP (settings : AFPostfix) : Postfix.Profile → DumpM Unit
  | .Local => pure ()
  | .Relay => do
    let smtp ← liftExcept (dereference settings.smtp)
    setString "postfix.relay" "server" smtp.server
    setString "postfix.relay" "port" (toString smtp.port)
  | .SASL => do
    let smtp ← liftExcept (dereference settings.smtp)
    setString "postfix.sasl" "server" smtp.server
    setString "postfix.sasl" "port" (toString smtp.port)
    let sasl ← liftExcept (dereference smtp.sasl)
    setString "postfix.sasl" "username" sasl.username
    setString "postfix.sasl" "password" sasl.password

def dumpPostfixSection (settings : AFPostfix) : DumpM Unit := do
  let profile ← liftExcept (dereference settings.profile)
  setString "postfix" "profile" (NamedEnum.name profile)
  setString "postfix" "smtpd_tls_cert_file" settings.cert_file
  setString "postfix" "smtpd_tls_key_file" settings.key_file
  dumpSMTP settings profile

def dumpPostfix (af : AnswerFile) : DumpM Unit :=
  if af.postfixSettings.enabled then dumpPostfixSection af.postfixSettings else pure ()

/-- Do the inverse of `loadOptions`. -/
def dumpOptions (af : AnswerFile) : DumpM Unit := do
  dumpExternalNetwork boost af
  dumpManagementNetwork boost af
  dumpApplicationNetwork boost af
  dumpInformation af
  dumpTimeSettings af
  dumpHostnameSettings af
  dumpSystemSettings af
  dumpNodes af
  dumpPostfix af

/-! ### The key that is never written -/

/-- The administrator's address, where loading looks for it. -/
def emailEntry (file : KeyFile) : Option String :=
  file.value? "information" "administrator_email"

variable {boost} {group key : String}

theorem keeps_setString (hkey : key ≠ "administrator_email") (value : String) :
    Keeps emailEntry (setString group key value) := by
  refine keeps_modify fun file => ?_
  rw [emailEntry, KeyFile.value?_setString, if_neg]
  · rfl
  · exact fun h => hkey h.2.symm

theorem keeps_setStringIfSome (hkey : key ≠ "administrator_email") (value : Option String) :
    Keeps emailEntry (setStringIfSome group key value) :=
  keeps_optionForM (keeps_setString hkey)

theorem keeps_dumpNetwork (network : AFNetwork) (networkSection : String) :
    Keeps emailEntry (dumpNetwork boost network networkSection) := by
  unfold dumpNetwork
  iterate 6 refine keeps_bind (keeps_setStringIfSome (by decide) _) fun _ => ?_
  exact keeps_setStringIfSome (by decide) _

theorem keeps_dumpInformation (af : AnswerFile) : Keeps emailEntry (dumpInformation af) := by
  unfold dumpInformation
  iterate 2 refine keeps_bind (keeps_setString (by decide) _) fun _ => ?_
  exact keeps_setString (by decide) _

theorem keeps_dumpTimeSettings (af : AnswerFile) : Keeps emailEntry (dumpTimeSettings af) := by
  unfold dumpTimeSettings
  iterate 2 refine keeps_bind (keeps_setString (by decide) _) fun _ => ?_
  exact keeps_setString (by decide) _

theorem keeps_dumpHostnameSettings (af : AnswerFile) :
    Keeps emailEntry (dumpHostnameSettings af) := by
  refine keeps_bind (keeps_setString (by decide) _) fun _ => ?_
  exact keeps_setString (by decide) _

theorem keeps_dumpSystemSettings (af : AnswerFile) : Keeps emailEntry (dumpSystemSettings af) := by
  refine keeps_bind (keeps_liftExcept _) fun distro => ?_
  iterate 3 refine keeps_bind (keeps_setString (by decide) _) fun _ => ?_
  exact keeps_setString (by decide) _

theorem keeps_dumpNode (node : AFNode × ℕ) : Keeps emailEntry (dumpNode node) := by
  unfold dumpNode
  iterate 9 refine keeps_bind (keeps_setStringIfSome (by decide) _) fun _ => ?_
  exact keeps_setStringIfSome (by decide) _

theorem keeps_dumpSMTP (settings : AFPostfix) (profile : Postfix.Profile) :
    Keeps emailEntry (dumpSMTP settings profile) := by
  cases profile with
  | Local => exact keeps_pure _
  | Relay =>
    refine keeps_bind (keeps_liftExcept _) fun smtp => ?_
    refine keeps_bind (keeps_setString (by decide) _) fun _ => ?_
    exact keeps_setString (by decide) _
  | SASL =>
    refine keeps_bind (keeps_liftExcept _) fun smtp => ?_
    iterate 2 refine keeps_bind (keeps_setString (by decide) _) fun _ => ?_
    refine keeps_bind (keeps_liftExcept _) fun sasl => ?_
    refine keeps_bind (keeps_setString (by decide) _) fun _ => ?_
    exact keeps_setString (by decide) _

theorem keeps_dumpPostfix (af : AnswerFile) : Keeps emailEntry (dumpPostfix af) := by
  unfold dumpPostfix
  split_ifs
  · refine keeps_bind (keeps_liftExcept _) fun profile => ?_
    iterate 3 refine keeps_bind (keeps_setString (by decide) _) fun _ => ?_
    exact keeps_dumpSMTP _ _
  · exact keeps_pure _

theorem keeps_dumpOptions (af : AnswerFile) : Keeps emailEntry (dumpOptions boost af) := by
  refine keeps_bind (keeps_dumpNetwork _ _) fun _ => ?_
  refine keeps_bind (keeps_dumpNetwork _ _) fun _ => ?_
  refine keeps_bind (keeps_dumpNetwork _ _) fun _ => ?_
  refine keeps_bind (keeps_dumpInformation af) fun _ => ?_
  refine keeps_bind (keeps_dumpTimeSettings af) fun _ => ?_
  refine keeps_bind (keeps_dumpHostnameSettings af) fun _ => ?_
  refine keeps_bind (keeps_dumpSystemSettings af) fun _ => ?_
  exact keeps_bind (keeps_forM fun node _ => keeps_dumpNode node) fun _ => keeps_dumpPostfix af

/-! ### No round trip -/

/-- Dumped into an empty key file and loaded again, everything but the networks is as it
was. -/
structure RoundTrips (boost : Boost) (opts : Options) (af : AnswerFile) (file : KeyFile)
    (af' : AnswerFile) : Prop where
  dumps : exec (dumpOptions boost af) ∅ = .ok file
  loads : loadOptions boost opts file {} = .ok af'
  information : af'.information = af.information
  time : af'.time = af.time
  hostname : af'.hostname = af.hostname
  system : af'.system = af.system
  nodes : af'.nodes = af.nodes
  mail : af'.postfixSettings = af.postfixSettings
  ofed : af'.ofed = af.ofed

/-- Whatever is dumped into an empty key file, it does not load again. -/
theorem not_roundTrips (boost : Boost) (opts : Options) (af : AnswerFile) :
    ¬ ∃ file af', RoundTrips boost opts af file af' := by
  rintro ⟨file, af', h⟩
  obtain ⟨u, hdump⟩ := exec_ok_iff.mp h.dumps
  have hkept : emailEntry file = emailEntry ∅ := keeps_dumpOptions af _ _ _ hdump
  have hloadable := (loadOptions_ok_iff.mp h.loads).1
  have hemail : (emailEntry file).isSome := hloadable.information "administrator_email" (by simp)
  rw [hkept] at hemail
  exact absurd hemail (by decide)

/-- The sample with one node, loaded. -/
def sampleAnswerFile : AnswerFile :=
  loaded .digits (.ofGroups (sampleGroups ++
    [("ofed", [("kind", "mellanox"), ("version", "latest")])])) {}

/-- A complete answer file, whose dump is refused for want of the address. -/
theorem not_roundTrips_sample :
    loadOptions .digits {} (.ofGroups (sampleGroups ++
        [("ofed", [("kind", "mellanox"), ("version", "latest")])])) {} = .ok sampleAnswerFile ∧
      ¬ ∃ file af', RoundTrips .digits {} sampleAnswerFile file af' := by
  have hrefused : (exec (dumpOptions .digits sampleAnswerFile) ∅ >>= fun file =>
      loadOptions .digits {} file {}) =
        .error (KeyFile.noSuchEntry "information" "administrator_email") := by decide +kernel
  refine ⟨by decide +kernel, ?_⟩
  rintro ⟨file, af', h⟩
  rw [h.dumps] at hrefused
  have hloads : loadOptions .digits {} file {} =
      .error (KeyFile.noSuchEntry "information" "administrator_email") := hrefused
  rw [h.loads] at hloads
  exact absurd hloads (by simp)

end Cloyster.AnswerFile
