import Cloyster.AddString
import Cloyster.MailSystem.MainFile
import Cloyster.Models.Numbers

/-! The credentials of a relay. They are looked up under the text that the relay has in the
main file. The relay is made from the domain of the headnode and the lookup key from the mail
server, and what the dialog asks for is put into a copy that is dropped. -/

namespace Cloyster

open Lib Models

namespace Postfix

/-- What the credentials are looked up by. -/
def saslKey (mail : MailSystem) : Except Exn String := do
  let server ← optionValue mail.smtpServer
  let port ← optionValue mail.port
  return s!"[{server}]:{port.toNat}"

def saslLine (mail : MailSystem) : Except Exn String := do
  let key ← saslKey mail
  let username ← optionValue mail.username
  let password ← optionValue mail.password
  return s!"{key} {username}:{password}"

/-- `configureSASL` up to the credentials. -/
def configureSASL (opts : Options) (mail : MailSystem) (basedir : Path) : FsM Unit := do
  let fs ← get
  if fs.exists (basedir.child "sasl_password.db") then return
  let line ← liftExcept (saslLine mail)
  addStringToFile opts (basedir.child "sasl_password") line

end Postfix

namespace PresenterMailSystem

/-- What the user chooses and enters. -/
inductive Dialog where
  | declined
  | Local
  | Relay (hostname port : String)
  | SASL (hostname port username password : String)

def Dialog.profile? : Dialog → Option Postfix.Profile
  | .declined => none
  | .Local => some .Local
  | .Relay .. => some .Relay
  | .SASL .. => some .SASL

def setMailSystem (profile : Postfix.Profile) : Cluster.ClusterM Unit :=
  modify fun cluster => { cluster with mailSystem := some { profile } }

/-- The switch of the presenter. `lexicalCast` is Boost's for 16 bits. -/
def enter (lexicalCast : String → Except Exn UInt16) (mailSystem : MailSystem) :
    Dialog → Except Exn MailSystem
  | .declined | .Local => .ok mailSystem
  | .Relay hostname port => do
    let port ← lexicalCast port
    return { mailSystem with hostname := some hostname, port := some port }
  | .SASL hostname port username password => do
    let port ← lexicalCast port
    return { mailSystem with
      hostname := some hostname
      port := some port
      username := some username
      password := some password }

/-- The answers go to a copy, and nothing is done with it. -/
def run (lexicalCast : String → Except Exn UInt16) (dialog : Dialog) : Cluster.ClusterM Unit :=
  match dialog.profile? with
  | none => pure ()
  | some profile => do
    setMailSystem profile
    let mailSystem ← value (← get).mailSystem
    let _ ← liftExcept (enter lexicalCast mailSystem dialog)

end PresenterMailSystem

namespace Postfix

open Cluster AnswerFile PresenterMailSystem

/-! ### What is promised -/

/-- What is asked for with the profile `SASL`. -/
structure Entered where
  server : String
  port : String
  username : String
  password : String
  deriving DecidableEq

/-- All that was entered is there, and the relay's credentials are found. -/
structure Ready (entered : Entered) (mail : MailSystem) : Prop where
  server : mail.smtpServer = some entered.server
  port : ∃ port, mail.port = some port ∧ Text.IsNumeral entered.port.toList ∧
    port.toNat = Text.digitsValue entered.port.toList
  username : mail.username = some entered.username
  password : mail.password = some entered.password
  found : ∃ relayhost, relayhost? mail = some relayhost ∧ saslKey mail = .ok relayhost

/-- The two ways to configure a cluster. -/
inductive Route where
  | answerFile (file : KeyFile)
  | dialog (dialog : Dialog)

def sectionEntered (file : KeyFile) : Entered where
  server := keyText file "postfix.sasl" "server"
  port := keyText file "postfix.sasl" "port"
  username := keyText file "postfix.sasl" "username"
  password := keyText file "postfix.sasl" "password"

/-- What is entered, if the profile is `SASL`. -/
def Route.entered? : Route → Option Entered
  | .answerFile file =>
    if file.hasGroup "postfix" ∧ sectionProfile? file = some .SASL then some (sectionEntered file)
    else none
  | .dialog (.SASL server port username password) => some { server, port, username, password }
  | .dialog _ => none

/-- The domain name that is read back from the headnode's full name. What follows a period in the
hostname is in it twice. -/
def headnodeDomain (hostname domainName : String) : String :=
  if '.' ∈ hostname.toList then
    fullName (Text.afterFirst '.' hostname) (fullName (Text.afterFirst '.' hostname) domainName)
  else domainName

/-- The answer file names the mail server as it names the domain, and its port is one. -/
def Route.Agrees : Route → Prop
  | .answerFile file =>
    PortNumeral (keyText file "postfix.sasl" "port") ∧
      keyText file "postfix.sasl" "server" =
        headnodeDomain (keyText file "hostname" "hostname") (keyText file "hostname" "domain_name")
  | .dialog _ => False

section

variable (boost : Boost) (opts : Options) (host : Host)
  (lexicalCast : String → Except Exn UInt16)

def Route.configure : Route → ClusterM Unit
  | .answerFile file => fillData boost opts host file
  | .dialog answers => PresenterMailSystem.run lexicalCast answers

end

variable {boost : Boost} {opts : Options} {host : Host} {file : KeyFile}
  {lexicalCast : String → Except Exn UInt16} {mail : MailSystem} {entered : Entered}
  {c c' : Cluster} {u : Unit}

/-! ### The relay and the lookup key -/

theorem found_iff {server : String} {port : UInt16} (hprofile : mail.profile = .SASL)
    (hserver : mail.smtpServer = some server) (hport : mail.port = some port) :
    (∃ relayhost, relayhost? mail = some relayhost ∧ saslKey mail = .ok relayhost) ↔
      mail.domain = some server := by
  have hkey : saslKey mail = .ok s!"[{server}]:{port.toNat}" := by
    rw [saslKey, hserver, hport]
    rfl
  rw [relayhost?, hprofile, hport, hkey]
  cases hdomain : mail.domain with
  | none => simp
  | some domain => simp [toString, eq_comm]

/-- The line goes into the password file, under what the main file has as the relay. -/
theorem configureSASL_contains {basedir : Path} {fs fs' : FS} (hdry : opts.dryRun = false)
    (hready : Ready entered mail) (hnew : ¬ fs.exists (basedir.child "sasl_password.db"))
    (h : configureSASL opts mail basedir fs = .ok () fs') :
    ∃ relayhost, relayhost? mail = some relayhost ∧
      Text.contains ((fs'.content? (basedir.child "sasl_password")).getD "")
        s!"{relayhost} {entered.username}:{entered.password}" := by
  obtain ⟨relayhost, hrelay, hkey⟩ := hready.found
  refine ⟨relayhost, hrelay, ?_⟩
  have hline : saslLine mail = .ok s!"{relayhost} {entered.username}:{entered.password}" := by
    rw [saslLine, hkey, hready.username, hready.password]
    rfl
  rw [configureSASL, bind_apply, get_apply] at h
  dsimp only at h
  rw [if_neg hnew, hline] at h
  exact addStringToFile_contains hdry h

/-! ### The dialog -/

/-- After the dialog the mail system has its profile and nothing else. -/
theorem run_mailSystem {dialog : Dialog} {profile : Postfix.Profile}
    (hprofile : dialog.profile? = some profile)
    (h : PresenterMailSystem.run lexicalCast dialog c = .ok u c') :
    c'.mailSystem = some { profile } := by
  simp only [PresenterMailSystem.run, hprofile, setMailSystem, bind_ok_iff, modify_ok_iff,
    value_ok_iff, liftExcept_ok_iff] at h
  obtain ⟨_, _, rfl, _, _, hget, _, _, ⟨-, rfl⟩, _, _, ⟨-, rfl⟩, hreturn⟩ := h
  obtain ⟨-, rfl⟩ := EStateM.Result.ok.inj hget
  obtain ⟨-, rfl⟩ := EStateM.Result.ok.inj hreturn
  rfl

/-! ### The answer file -/

theorem afterFirst_identityFQDN (hostname : AFHostname) :
    Text.afterFirst '.' (identityFQDN hostname) =
      headnodeDomain hostname.hostname hostname.domain_name := by
  unfold identityFQDN headnodeDomain
  split_ifs with hdot
  · rw [afterFirst_fullName_of_mem hdot, afterFirst_fullName_of_mem hdot]
  · rw [afterFirst_fullName hdot, afterFirst_fullName hdot]

/-- The mail system is made from the settings and the names that the headnode has in the end. -/
theorem fill_mailSystem {af : AnswerFile} {profile : Postfix.Profile}
    (henabled : af.postfixSettings.enabled) (hprofile : af.postfixSettings.profile = some profile)
    (h : fill boost opts host af c = .ok u c') :
    ∃ mail, c'.mailSystem = some mail ∧
      mailServer af.postfixSettings (startingMail af.postfixSettings c' profile) = .ok mail := by
  simp only [fill_eq, bind_ok_iff] at h
  obtain ⟨_, _, -, _, c₁, -, _, c₂, hmail, hgeneric⟩ := h
  obtain ⟨found, mail, hfound, hserver, rfl⟩ := (fillMailSystem_ok_iff henabled).mp hmail
  obtain rfl := Option.some.inj (hprofile.symm.trans hfound)
  obtain ⟨_, ip, password, -, -, -, rfl⟩ := setGeneric_ok_iff.mp hgeneric
  exact ⟨mail, rfl, hserver⟩

/-- What an answer file with the profile `SASL` leads to. -/
structure Filled (file : KeyFile) (port : ℤ) (mail : MailSystem) : Prop where
  profile : mail.profile = .SASL
  domain : mail.domain = some (headnodeDomain (keyText file "hostname" "hostname")
    (keyText file "hostname" "domain_name"))
  server : mail.smtpServer = some (keyText file "postfix.sasl" "server")
  port : mail.port = some (UInt16.ofNat (port % 2 ^ 16).toNat)
  username : mail.username = some (keyText file "postfix.sasl" "username")
  password : mail.password = some (keyText file "postfix.sasl" "password")

theorem fillData_filled (hgroup : file.hasGroup "postfix")
    (hprofile : sectionProfile? file = some .SASL)
    (h : fillData boost opts host file c = .ok u c') :
    ∃ port mail, Text.stoi (keyText file "postfix.sasl" "port") = .ok port ∧
      c'.mailSystem = some mail ∧ Filled file port mail := by
  obtain ⟨hloadable, hfill⟩ := fillData_ok h
  obtain ⟨-, hfqdn⟩ := fillData_names h
  have hsettings : (loaded boost file {}).postfixSettings = sectionPostfix file {} :=
    if_pos hgroup
  obtain ⟨mail, hmail, hserver⟩ := fill_mailSystem (by rw [hsettings]; rfl)
    (by rw [hsettings]; exact hprofile) hfill
  obtain ⟨-, profile, hsame, hsmtp⟩ := hloadable.mail hgroup
  obtain rfl := Option.some.inj (hsame.symm.trans hprofile)
  obtain ⟨port, hport⟩ := Option.isSome_iff_exists.mp hsmtp.2
  have hstoi : Text.stoi (keyText file "postfix.sasl" "port") = .ok port := by
    cases htext : file.value? "postfix.sasl" "port" with
    | none => simp [keyPort?, htext] at hport
    | some text =>
      cases hread : Text.stoi text with
      | error e => simp [keyPort?, htext, hread, Except.toOption] at hport
      | ok n =>
        obtain rfl : n = port := by simpa [keyPort?, htext, hread, Except.toOption] using hport
        rw [keyText, htext, Option.getD_some, hread]
  have hdomain : c'.getDomainName = headnodeDomain (keyText file "hostname" "hostname")
      (keyText file "hostname" "domain_name") := by
    rw [getDomainName, hfqdn, afterFirst_identityFQDN]
    rfl
  rw [hsettings, startingMail, hdomain] at hserver
  simp only [mailServer, sectionPostfix, hprofile, Option.elim_some, sectionSMTP, optionValue,
    except_ok_bind, hport, Option.getD_some] at hserver
  obtain rfl := Except.ok.inj hserver
  exact ⟨port, _, hstoi, hmail, rfl, rfl, rfl, rfl, rfl, rfl⟩

/-! ### Both ways -/

theorem Filled.ready_iff_agrees {port : ℤ} (h : Filled file port mail)
    (hstoi : Text.stoi (keyText file "postfix.sasl" "port") = .ok port) :
    Ready (sectionEntered file) mail ↔ (Route.answerFile file).Agrees := by
  have hfound := found_iff h.profile h.server h.port
  rw [h.domain, Option.some_inj] at hfound
  constructor
  · intro hready
    obtain ⟨stored, -, hnumeral, hvalue⟩ := hready.port
    have hlt : stored.toNat < 65536 := stored.toNat_lt
    rw [hvalue] at hlt
    exact ⟨⟨hnumeral, Nat.le_of_lt_succ hlt⟩, (hfound.mp hready.found).symm⟩
  · rintro ⟨hport, hserver⟩
    obtain rfl := Except.ok.inj (hport.stoi.symm.trans hstoi)
    exact ⟨h.server, ⟨_, h.port, hport.1, toNat_port hport.2⟩, h.username, h.password,
      hfound.mpr hserver.symm⟩

/-- Once a cluster is configured, its mail system is ready exactly when an answer file was used
and names the mail server as the domain. -/
theorem ready_iff (boost : Boost) (opts : Options) (host : Host)
    (lexicalCast : String → Except Exn UInt16) (route : Route) (entered : Entered)
    (hentered : route.entered? = some entered) (c c' : Cluster)
    (h : route.configure boost opts host lexicalCast c = .ok () c') :
    (∃ mail, c'.mailSystem = some mail ∧ Ready entered mail) ↔ route.Agrees := by
  cases route with
  | answerFile file =>
    simp only [Route.entered?, Option.ite_none_right_eq_some] at hentered
    obtain ⟨⟨hgroup, hprofile⟩, hsame⟩ := hentered
    obtain rfl := Option.some.inj hsame
    obtain ⟨port, mail, hstoi, hmail, hfilled⟩ := fillData_filled hgroup hprofile h
    rw [← hfilled.ready_iff_agrees hstoi, hmail]
    simp only [Option.some_inj, exists_eq_left']
  | dialog answers =>
    refine iff_of_false ?_ id
    rintro ⟨mail, hmail, hready⟩
    cases answers with
    | declined | Local | Relay => cases hentered
    | SASL server port username password =>
      -- only the profile of the model was set
      have hrun : PresenterMailSystem.run lexicalCast (.SASL server port username password) c =
          .ok () c' := h
      rw [run_mailSystem rfl hrun] at hmail
      obtain rfl := Option.some.inj hmail
      cases hready.server

/-- An answer file with one node and a mail server that asks for credentials. -/
def saslFile (server : String) : KeyFile :=
  sampleFile [("postfix", [("destination", "example.com"), ("profile", "SASL"),
      ("smtpd_tls_cert_file", "/etc/pki/cert.pem"), ("smtpd_tls_key_file", "/etc/pki/key.pem")]),
    ("postfix.sasl", [("server", server), ("port", "587"), ("username", "user"),
      ("password", "secret")])]

theorem ready_iff_domain :
    ∃ c mail, fillData .digits {} sampleHost (saslFile "cluster.example.com") newCluster = .ok () c ∧
      c.mailSystem = some mail ∧ Ready ⟨"cluster.example.com", "587", "user", "secret"⟩ mail := by
  have hreturn : (outcome (fillData .digits {} sampleHost (saslFile "cluster.example.com")
      newCluster)).isOk := by decide +kernel
  obtain ⟨u, hu⟩ := isOk_iff.mp hreturn
  obtain ⟨c, hc⟩ := outcome_ok_iff.mp hu
  obtain ⟨mail, hmail, hready⟩ := (ready_iff .digits {} sampleHost (fun _ => .ok 587)
    (.answerFile (saslFile "cluster.example.com"))
    ⟨"cluster.example.com", "587", "user", "secret"⟩ (by decide +kernel) newCluster c hc).mpr
      ⟨by decide +kernel, by decide +kernel⟩
  exact ⟨c, mail, hc, hmail, hready⟩

/-- With a mail server of another name its credentials are not found, and what is entered into the
dialog is lost. -/
theorem not_ready_smtp :
    (∃ c, fillData .digits {} sampleHost (saslFile "smtp.example.com") newCluster = .ok () c ∧
      ¬ ∃ mail, c.mailSystem = some mail ∧
        Ready ⟨"smtp.example.com", "587", "user", "secret"⟩ mail) ∧
    ∃ c, PresenterMailSystem.run (fun _ => .ok 587)
        (.SASL "smtp.example.com" "587" "user" "secret") newCluster = .ok () c ∧
      ¬ ∃ mail, c.mailSystem = some mail ∧
        Ready ⟨"smtp.example.com", "587", "user", "secret"⟩ mail := by
  constructor
  · have hreturn : (outcome (fillData .digits {} sampleHost (saslFile "smtp.example.com")
        newCluster)).isOk := by decide +kernel
    obtain ⟨u, hu⟩ := isOk_iff.mp hreturn
    obtain ⟨c, hc⟩ := outcome_ok_iff.mp hu
    refine ⟨c, hc, ?_⟩
    rintro ⟨found, hfound, hready⟩
    obtain ⟨port, mail, hstoi, hmail, hfilled⟩ :=
      fillData_filled (by decide +kernel) (by decide +kernel) hc
    obtain rfl := Option.some.inj (hmail.symm.trans hfound)
    have hagrees := (hfilled.ready_iff_agrees hstoi).mp hready
    exact absurd hagrees.2 (by decide +kernel)
  · refine ⟨_, rfl, ?_⟩
    rintro ⟨mail, hmail, hready⟩
    obtain rfl := Option.some.inj hmail
    cases hready.server

end Postfix

end Cloyster
