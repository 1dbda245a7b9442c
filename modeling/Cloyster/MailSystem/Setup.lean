import Cloyster.Engine.Steps
import Cloyster.MailSystem.Credentials

/-! Setting up the mail service: the package, the files, the relay or its credentials, and the
daemon. Two of the files are written in a dry run as well. Where a key file with settings before
its first group does not load, the main file does not either, and the set-up never returns. -/

namespace Cloyster.Engine

open Lib Models Services

namespace Postfix

variable (site : Site)

def postfixBasedir : Path := ["etc", "postfix"]

def install : EngineM Unit := command site "dnf -y install postfix"

def createMainFile (mail : MailSystem) : EngineM Unit :=
  onFs (Cloyster.Postfix.createMainFile site.env.codec mail postfixBasedir)

def changeMasterFile (mail : MailSystem) : EngineM Unit :=
  onFs (Cloyster.Postfix.changeMasterFile mail.profile (postfixBasedir.child "master.cf"))

def mapTransport : EngineM Unit := do
  let s ← get
  if !s.fs.exists (postfixBasedir.child "transport.db") then
    command site ("postmap hash:" ++ (postfixBasedir.child "transport").toText)

def touchAliases : EngineM Unit := do
  let s ← get
  if !s.fs.exists (postfixBasedir.child "aliases") then
    onFs (touchFile site.opts.toOptions (postfixBasedir.child "aliases"))

def createFiles (mail : MailSystem) : EngineM Unit := do
  createMainFile site mail
  changeMasterFile mail
  mapTransport site
  touchAliases site

/-- The server is set in the group without a name, so nothing is. -/
def configureRelay (mail : MailSystem) : EngineM Unit :=
  onFs do
    let ini ← KeyFile.open site.env.codec (postfixBasedir.child "main.cf")
    KeyFile.save site.env.codec (postfixBasedir.child "main.cf")
      (match mail.smtpServer, mail.port with
      | some server, some port =>
        Cloyster.Postfix.setStringChecked ini "" "relayhost" s!"{server}:{port.toNat}"
      | _, _ => ini)

/-- Once there is a database nothing is done. -/
def configureSASL (mail : MailSystem) : EngineM Unit := do
  let s ← get
  if s.fs.exists (postfixBasedir.child "sasl_password.db") then return
  onFs (Cloyster.Postfix.configureSASL site.opts.toOptions mail postfixBasedir)
  setPermissions (postfixBasedir.child "sasl_password")
  command site ("postmap " ++ (postfixBasedir.child "sasl_password").toText)
  setPermissions (postfixBasedir.child "sasl_password.db")

def configureProfile (mail : MailSystem) : EngineM Unit :=
  match mail.profile with
  | .Local => pure ()
  | .Relay => configureRelay site mail
  | .SASL => configureSASL site mail

def setup (mail : MailSystem) : EngineM Unit := do
  install site
  createFiles site mail
  configureProfile site mail
  IService.enable site "postfix.service"
  IService.start site "postfix.service"

/-! ### Its steps -/

variable {site}

/-- The main file and the master file are written in a dry run too. -/
def footprint : Scope where
  words := ["dnf", "postmap", "EnableUnitFiles", "StartUnit"]
  files := [postfixBasedir.child "sasl_password"]
  regions := [.below postfixBasedir]
  loose := [postfixBasedir.child "main.cf", postfixBasedir.child "master.cf"]

theorem covers_child (name : String) : footprint.Covers (postfixBasedir.child name) :=
  covers_below (List.mem_singleton_self _) (List.prefix_append _ _)

theorem save_only (codec : GKeyFile) (key : KeyFile) (p : Path) (fs : FS) (q : Path) (hq : q ≠ p) :
    (finalState (KeyFile.save codec p key fs)).get? q = fs.get? q := by
  rw [KeyFile.save, bind_apply, get_apply]
  dsimp only
  cases hwrite : fs.write p (codec.toData key) with
  | ok fs' =>
    rw [FS.write_ok hwrite]
    exact FS.get?_set_of_ne _ _ hq
  | error code => rfl

/-- What reads first and saves then. -/
theorem bind_only {α : Type} {x : FsM α} {f : α → FsM Unit} {fs : FS} {q : Path}
    (hx : Unchanged x fs) (hf : ∀ a, (finalState (f a fs)).get? q = fs.get? q) :
    (finalState ((x >>= f) fs)).get? q = fs.get? q := by
  unfold Unchanged at hx
  rw [bind_apply]
  cases hrun : x fs with
  | ok a fs' =>
    rw [hrun] at hx
    obtain rfl : fs' = fs := hx
    exact hf a
  | error e fs' =>
    rw [hrun] at hx
    obtain rfl : fs' = fs := hx
    rfl

theorem confined_createMainFile (mail : MailSystem) :
    Confined site footprint (createMainFile site mail) := by
  refine confined_onFs_of_only (covers_child "main.cf") (by decide) fun fs q hq => ?_
  refine bind_only (unchanged_open _ fs) fun _ => ?_
  refine bind_only (unchanged_liftExcept _ fs) fun baseini => ?_
  exact save_only _ _ _ fs q hq

theorem confined_changeMasterFile (mail : MailSystem) :
    Confined site footprint (changeMasterFile mail) := by
  refine confined_onFs_of_only (covers_child "master.cf") (by decide) fun fs q hq => ?_
  rw [Cloyster.Postfix.changeMasterFile, bind_apply, get_apply]
  dsimp only
  generalize String.join _ = content
  cases hwrite : fs.write (postfixBasedir.child "master.cf") content with
  | ok fs' =>
    rw [FS.write_ok hwrite]
    exact FS.get?_set_of_ne _ _ hq
  | error code => rfl

theorem confined_configureRelay (mail : MailSystem) :
    Confined site footprint (configureRelay site mail) := by
  refine confined_onFs_of_only (covers_child "main.cf") (by decide) fun fs q hq => ?_
  exact bind_only (unchanged_open _ fs) fun ini => save_only _ _ _ fs q hq

theorem confined_addCredentials (mail : MailSystem) : Confined site footprint
    (onFs (Cloyster.Postfix.configureSASL site.opts.toOptions mail postfixBasedir)) := by
  have hcovers := covers_child "sasl_password"
  refine confined_onFs ?_ fun hdry fs q _ => ?_
  · refine moves_bind moves_get fun fs => moves_ite (fun _ => moves_pure _) fun _ => ?_
    refine moves_bind (moves_of_unchanged (unchanged_liftExcept _)) fun line => ?_
    exact addStringToFile_outside _ line hcovers
  · rw [Cloyster.Postfix.configureSASL, bind_apply, get_apply]
    dsimp only
    split_ifs
    · exact .inl rfl
    · cases hline : Cloyster.Postfix.saslLine mail with
      | error e => exact .inl rfl
      | ok line =>
        refine (addStringToFile_created _ hdry line q).imp_right ?_
        rintro ⟨rfl, hcreated⟩
        exact ⟨by decide, hcreated⟩

theorem confined_configureSASL (mail : MailSystem) :
    Confined site footprint (configureSASL site mail) := by
  refine moves_bind moves_get fun s => moves_ite (fun _ => moves_pure _) fun _ => ?_
  refine moves_bind (confined_addCredentials mail) fun _ => ?_
  refine moves_bind (confined_setPermissions _) fun _ => ?_
  refine moves_bind (confined_command (word_mem (by decide) (by decide) _)) fun _ => ?_
  exact confined_setPermissions _

theorem confined_createFiles (mail : MailSystem) :
    Confined site footprint (createFiles site mail) := by
  refine moves_bind (confined_createMainFile mail) fun _ => ?_
  refine moves_bind (confined_changeMasterFile mail) fun _ => moves_bind ?_ fun _ => ?_
  · refine moves_bind moves_get fun s => moves_ite (fun _ => confined_command ?_) fun _ =>
      moves_pure _
    exact word_mem (by decide) (by decide) _
  · refine moves_bind moves_get fun s => moves_ite (fun _ => ?_) fun _ => moves_pure _
    refine confined_onFs_of_unchanged (touchFile_outside _ (covers_child "aliases")) ?_
    intro hdry fs
    rw [Unchanged, touchFile_dryRun hdry]
    rfl

theorem confined_setup (mail : MailSystem) : Confined site footprint (setup site mail) := by
  refine moves_bind (confined_command (by decide)) fun _ => ?_
  refine moves_bind (confined_createFiles mail) fun _ => moves_bind ?_ fun _ => ?_
  · unfold configureProfile
    cases mail.profile with
    | Local => exact moves_pure _
    | Relay => exact confined_configureRelay mail
    | SASL => exact confined_configureSASL mail
  · exact moves_bind (confined_callObjectFunction _ (by decide)) fun _ =>
      confined_callObjectFunction _ (by decide)

/-- The main file does not load, and nothing follows the installation of the package. -/
theorem setup_throws (hformat : Cloyster.Postfix.RefusesKeyFirst site.env.codec)
    (mail : MailSystem) (s : System) :
    (∃ e t, setup site mail s = .error e t) ∧
      finalState (setup site mail s) = finalState (install site s) := by
  rw [setup, bind_apply]
  cases hinstall : install site s with
  | error e t => exact ⟨⟨e, t, rfl⟩, rfl⟩
  | ok u t =>
    obtain ⟨e, hmain⟩ := Cloyster.Postfix.createMainFile_error hformat mail postfixBasedir t.fs
    have hcreate : createFiles site mail t = .error (.uncaught e) t := by
      refine bind_of_error ?_ _
      rw [createMainFile, onFs, within, hmain]
    dsimp only
    rw [bind_of_error hcreate]
    exact ⟨⟨_, _, rfl⟩, rfl⟩

end Postfix

end Cloyster.Engine
