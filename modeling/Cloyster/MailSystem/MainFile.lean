import Cloyster.MailSystem.Postfix
import Cloyster.Models.Cluster

/-! The main file of Postfix. A template of plain settings is loaded into a key file, the
configured settings are put into its group without a name, and it is saved. A key file has no
settings before its first group, so the template does not load. -/

namespace Cloyster.Postfix

open Lib Models

/-! ### The template -/

/-- The template's settings after the first. Comments and empty lines are left out. -/
def mainTemplateRest : List String :=
  ["command_directory = /usr/sbin", "daemon_directory = /usr/libexec/postfix",
    "data_directory = /var/lib/postfix", "mail_owner = postfix",
    "myhostname = \x7bpostfix_myhostname\x7d", "mydomain = \x7bpostfix_mydomain\x7d",
    "myorigin = $mydomain", "inet_interfaces = all", "inet_protocols = all",
    "mydestination = $myhostname, localhost.$mydomain, localhost, $mydomain,",
    "                \x7bpostfix_mydestination\x7d", "local_recipient_maps =",
    "unknown_local_recipient_reject_code = 550", "mynetworks_style = host",
    "relay_domains = hash:/etc/postfix/transport", "relayhost = $mydomain",
    "smtp_sasl_auth_enable = yes", "smtp_sasl_password_maps = hash:/etc/postfix/sasl_password",
    "smtp_sasl_security_options = noanonymous", "smtp_sasl_tls_security_options = noanonymous",
    "\x7b% endif %\x7d", "alias_maps = hash:/etc/aliases, hash:/etc/postfix/aliases",
    "alias_database = hash:/etc/aliases, hash:/etc/postfix/aliases",
    "smtpd_banner = $myhostname ESMTP $mail_name", "debug_peer_level = 2", "debugger_command =",
    "\t PATH=/bin:/usr/bin:/usr/local/bin:/usr/X11R6/bin",
    "\t ddd $daemon_directory/$process_name $process_id & sleep 5",
    "sendmail_path = /usr/sbin/sendmail.postfix", "newaliases_path = /usr/bin/newaliases.postfix",
    "mailq_path = /usr/bin/mailq.postfix", "setgid_group = postdrop", "html_directory = no",
    "manpage_directory = /usr/share/man",
    "sample_directory = /usr/share/doc/postfix-2.10.1/samples",
    "readme_directory = /usr/share/doc/postfix-2.10.1/README_FILES",
    "smtpd_tls_cert_file = /etc/pki/tls/certs/\x7bfqdn\x7d.cer",
    "smtpd_tls_key_file = /etc/pki/tls/private/\x7bfqdn\x7d.key",
    "smtpd_tls_security_level = may", "smtp_tls_CApath = /etc/pki/tls/certs",
    "smtp_tls_CAfile = /etc/pki/tls/certs/ca-bundle.crt", "smtp_tls_security_level = may",
    "smtp_use_tls = yes", "smtp_tls_cert_file = /etc/pki/tls/certs/\x7bfqdn\x7d.cer",
    "smtp_tls_key_file = /etc/pki/tls/private/\x7bfqdn\x7d.key", "smtpd_delay_reject = no",
    "smtpd_helo_restrictions = reject_invalid_hostname, reject_unknown_hostname, reject_non_fqdn_hostname",
    "smtpd_helo_required = yes", "postscreen_access_list = permit_mynetworks",
    "postscreen_greet_action = enforce", "postscreen_pipelining_enable = yes",
    "postscreen_pipelining_action = enforce", "postscreen_non_smtp_command_enable = yes",
    "postscreen_non_smtp_command_action = drop", "postscreen_bare_newline_enable = yes",
    "postscreen_bare_newline_action = enforce", "message_size_limit = 157286400", "biff = no",
    "disable_vrfy_command = yes"]

/-- The lines of the template up to the last. -/
def mainTemplateLines : List String :=
  "#= CloysterHPC generated file" :: "#soft_bounce = no" :: "queue_directory = /var/spool/postfix" ::
    mainTemplateRest

def mainTemplate : String := String.join (mainTemplateLines.map (· ++ "\n"))

/-! ### Creating the file -/

/-- The host that mail is relayed to. -/
def relayhost? (mail : MailSystem) : Option String :=
  match mail.profile with
  | .Local => none
  | .SASL | .Relay =>
    match mail.domain, mail.port with
    | some domain, some port => some s!"[{domain}]:{port.toNat}"
    | _, _ => none

/-- The files are set together or not at all. -/
def tlsFiles (mail : MailSystem) : List (String × String) :=
  match mail.certFile, mail.keyFile with
  | some certFile, some keyFile =>
    [("smtpd_tls_cert_file", certFile), ("smtpd_tls_key_file", keyFile)]
  | _, _ => []

/-- What is set, in the order of the calls. -/
def configured (mail : MailSystem) : List (String × String) :=
  (mail.hostname.map ("myhostname", ·)).toList ++ (mail.domain.map ("mydomain", ·)).toList ++
    (mail.destination.map fun names => ("mydestination", ",".intercalate names)).toList ++
    tlsFiles mail ++ (relayhost? mail).toList.map ("relayhost", ·)

/-- GLib does nothing for a group without a name. -/
def setStringChecked (file : KeyFile) (group key value : String) : KeyFile :=
  if group = "" then file else file.setString group key value

variable (codec : GKeyFile)

/-- `createFiles` up to the saving of the main file. -/
def createMainFile (mail : MailSystem) (basedir : Path) : FsM Unit := do
  let mainFile := basedir.child "main.cf"
  let _ ← KeyFile.open codec mainFile
  let baseini ← liftExcept (KeyFile.loadData codec mainTemplate)
  KeyFile.save codec mainFile
    ((configured mail).foldl (fun file s => setStringChecked file "" s.1 s.2) baseini)

/-! ### Reading the file -/

def trimBlanks (cs : List Char) : List Char :=
  ((cs.dropWhile isBlank).reverse.dropWhile isBlank).reverse

/-- Comments and empty lines are skipped, and a line that starts with a blank goes on with the
one before. -/
def addLine (settings : List (List Char)) (line : List Char) : List (List Char) :=
  if trimBlanks line = [] ∨ line.head? = some '#' then settings
  else if line.head?.any isBlank then settings.dropLast ++ [settings.getLastD [] ++ line]
  else settings ++ [line]

def parseSetting (line : List Char) : String × String :=
  (String.ofList (trimBlanks (line.takeWhile (· ≠ '='))),
    String.ofList (trimBlanks ((line.dropWhile (· ≠ '=')).drop 1)))

/-- The value of a setting, which is the last that is given. -/
def setting? (text key : String) : Option String :=
  ((((text.toList.splitOn '\n').foldl addLine []).map parseSetting).reverse).lookup key

/-- The main file is written, with the configured settings and with all others as they are in the
template. -/
def WritesMainFile (mail : MailSystem) (basedir : Path) (fs : FS) : Prop :=
  ∃ fs' content, createMainFile codec mail basedir fs = .ok () fs' ∧
    fs'.content? (basedir.child "main.cf") = some content ∧
    ∀ key, setting? content key =
      ((configured mail).reverse.lookup key).or (setting? mainTemplate key)

/-! ### A setting before the first group -/

/-- After comments there is a line with a key. -/
structure StartsWithKey (text : String) (comments : List (List Char)) (line rest : List Char) :
    Prop where
  text : text.toList = Lines.terminated '\n' comments ++ (line ++ '\n' :: rest)
  comments : ∀ comment ∈ comments, '\n' ∉ comment ∧ (comment = [] ∨ comment.head? = some '#')
  line : '\n' ∉ line ∧ '=' ∈ line ∧ ∃ c ∈ line.head?, c.isAlpha

/-- A key line before the first header is an error. -/
def RefusesKeyFirst : Prop :=
  ∀ text comments line rest, StartsWithKey text comments line rest → codec.load text = none

variable {codec}

theorem startsWithKey_mainTemplate : ∃ rest, StartsWithKey mainTemplate
    ["#= CloysterHPC generated file".toList, "#soft_bounce = no".toList]
    "queue_directory = /var/spool/postfix".toList rest := by
  refine ⟨(String.join (mainTemplateRest.map (· ++ "\n"))).toList, ?_, ?_, by decide +kernel,
    by decide +kernel, 'q', rfl, by decide⟩
  · rw [mainTemplate, mainTemplateLines]
    simp only [List.map_cons, String.toList_join, List.flatMap_cons, String.toList_append]
    simp [Lines.terminated]
  · rw [List.forall_mem_cons, List.forall_mem_singleton]
    exact ⟨⟨by decide +kernel, .inr rfl⟩, by decide +kernel, .inr rfl⟩

theorem refusesKeyFirst_text : RefusesKeyFirst .text := by
  intro text comments line rest h
  obtain ⟨hbreak, -, c, hc, halpha⟩ := h.line
  have hparse : KeyFileText.parse text = none := by
    refine KeyFileText.parse_key_first (fun comment hcomment => ?_) ?_ hbreak h.text
    · obtain ⟨hno, hempty | hhash⟩ := h.comments comment hcomment
      · exact ⟨hno, .inl (by rw [hempty]; rfl)⟩
      · exact ⟨hno, .inr hhash⟩
    · rw [Option.mem_def] at hc
      rw [KeyFileText.IsKeyLine, hc]
      constructor
      · rintro (hnone | hhash)
        · cases hnone
        · obtain rfl := Option.some.inj hhash
          exact absurd halpha (by decide)
      · intro hheader
        obtain rfl := Option.some.inj hheader
        exact absurd halpha (by decide)
  show (KeyFileText.parse text).map KeyFile.mk = none
  rw [hparse]
  rfl

/-- Whatever is configured and whatever is on the disk, nothing is written. -/
theorem createMainFile_error (hformat : RefusesKeyFirst codec) (mail : MailSystem) (basedir : Path)
    (fs : FS) : ∃ e, createMainFile codec mail basedir fs = .error e fs := by
  obtain ⟨rest, hstarts⟩ := startsWithKey_mainTemplate
  have hload : KeyFile.loadData codec mainTemplate = .error ⟨.keyFileError, "parse error"⟩ := by
    rw [KeyFile.loadData, hformat _ _ _ _ hstarts]
  have hopen : Unchanged (KeyFile.open codec (basedir.child "main.cf")) fs := unchanged_open _ fs
  unfold Unchanged at hopen
  rw [createMainFile]
  cases hrun : KeyFile.open codec (basedir.child "main.cf") fs with
  | error e fs' =>
    rw [hrun] at hopen
    obtain rfl : fs' = fs := hopen
    exact ⟨e, bind_of_error hrun _⟩
  | ok file fs' =>
    rw [hrun] at hopen
    obtain rfl : fs' = fs := hopen
    rw [bind_of_ok hrun, hload]
    exact ⟨_, rfl⟩

theorem not_writesMainFile (hformat : RefusesKeyFirst codec) (mail : MailSystem) (basedir : Path)
    (fs : FS) : ¬ WritesMainFile codec mail basedir fs := by
  rintro ⟨fs', content, hrun, -⟩
  obtain ⟨e, herror⟩ := createMainFile_error hformat mail basedir fs
  rw [herror] at hrun
  cases hrun

/-- An empty `/etc/postfix`. -/
def emptyBasedir : FS := (((∅ : FS).set ["etc"] .dir).set ["etc", "postfix"] .dir)

theorem not_writesMainFile_relay :
    ¬ WritesMainFile .text { profile := .Relay, domain := some "example.com", port := some 25 }
      ["etc", "postfix"] emptyBasedir :=
  not_writesMainFile refusesKeyFirst_text _ _ _

/-- Not even a local profile with nothing else configured gets its file. -/
theorem mainFile_missing_local :
    ¬ WritesMainFile .text { profile := .Local } ["etc", "postfix"] emptyBasedir := by
  rintro ⟨fs', content, hrun, -⟩
  obtain ⟨e, herror⟩ := createMainFile_error refusesKeyFirst_text { profile := .Local }
    ["etc", "postfix"] emptyBasedir
  rw [herror] at hrun
  cases hrun

end Cloyster.Postfix
