import Cloyster.ConfigurationFile
import Cloyster.Lib.EventLog
import Cloyster.Services.ImageRepos
import Cloyster.Services.Options
import Cloyster.Services.Repos.Confined
import Cloyster.Services.Script
import Cloyster.Services.XCAT

/-! What the installation works on: the files, the log of what was done outside of the program,
the repository manager and the image of the nodes. Commands and calls on the system bus are
answered by what surrounds the program, which may do to the files what it likes. All that any
step of the installation can do is one transition relation, bounded by the words that commands
start with and by the files whose content may change. -/

namespace Cloyster

open Lib Models Services

/-! ### The cluster as the installation sees it -/

namespace Models

inductive SELinuxMode where
  | Permissive | Enforcing | Disabled
  deriving DecidableEq

inductive ExecutionPlace where
  | Shared | Scatter
  deriving DecidableEq

instance : NamedEnum ExecutionPlace where
  values := [.Shared, .Scatter]
  name
    | .Shared => "Shared"
    | .Scatter => "Scatter"

instance : NamedEnum Network.LinkType where
  values := [.Ethernet, .Infiniband]
  name
    | .Ethernet => "Ethernet"
    | .Infiniband => "Infiniband"

inductive QueueSystem where
  | SLURM (slurm : SLURM)
  | PBS (place : ExecutionPlace)
  deriving DecidableEq

/-- A cluster with the members that only the installation reads. Its queue system is of either
kind, and takes the place of the one that an answer file leads to. -/
structure Installation extends Cluster where
  firewall : Bool := false
  selinux : SELinuxMode := .Disabled
  queue : Option QueueSystem := queueSystem.map .SLURM

namespace XCAT

/-- All members of `XCAT::Image`. -/
structure Stateless extends Image where
  otherpkgs : List String := []
  postinstall : List String := ["#!/bin/sh\n\n"]
  synclists : List String := []
  deriving DecidableEq

end XCAT

end Models

namespace Engine

/-! ### Outside of the program -/

inductive Event where
  | command (text : String) (code : ℤ)
  | bus (method unit : String)
  deriving DecidableEq

/-- What a command answers, and the files it leaves. -/
structure Reply where
  code : ℤ := 0
  output : List String := []
  fs : FS

structure BusError where
  name : String
  message : String

/-- What surrounds the program. The answers depend on what was done before. -/
structure Surroundings where
  /-- A command that cannot be started throws. -/
  command : List Event → FS → String → Except Exn Reply
  bus : List Event → FS → String → String → Except BusError FS
  timestamp : List Event → String
  checksum : String → String
  text : AddressText
  ini : IniFormat
  codec : GKeyFile
  specs : List Char → Option (String → String)
  answers : Answers
  vault : OS → Bool
  order : RPMRepoManager.WalkOrder

/-- The singletons that stay as they are, and the surroundings. -/
structure Site where
  opts : AllOptions
  cluster : Installation
  env : Surroundings

structure System where
  fs : FS
  log : List Event := []
  repos : RPMRepoManager := {}
  image : XCAT.Stateless := {}

/-- What ends a run other than its last step. -/
inductive Halt where
  | exit (code : ℕ)
  | uncaught (e : Exn)

abbrev EngineM := EStateM Halt System

/-- Run code that throws on a part of the system. -/
def within {τ α : Type} (part : System → τ) (put : τ → System → System) (x : EStateM Exn τ α) :
    EngineM α := fun s =>
  match x (part s) with
  | .ok a t => .ok a (put t s)
  | .error e t => .error (.uncaught e) (put t s)

def plain {α : Type} : Except Exn α → EngineM α
  | .ok a => pure a
  | .error e => throw (.uncaught e)

def onFs {α : Type} (x : FsM α) : EngineM α := within System.fs (fun fs s => { s with fs }) x

def onRepos {α : Type} (x : RPMRepoManager.ManagerM α) : EngineM α :=
  within (fun s => (s.repos, s.fs)) (fun t s => { s with repos := t.1, fs := t.2 }) x

def onImage {α : Type} (x : EStateM Exn XCAT.Stateless α) : EngineM α :=
  within System.image (fun image s => { s with image }) x

/-- `XCAT::ImageType` and the path are set on the members that the earlier model has. -/
def onName {α : Type} (x : XCAT.XCATM α) : EngineM α :=
  within (fun s => s.image.toImage) (fun image s => { s with image.toImage := image }) x

variable (site : Site)

/-! ### The runner -/

def perform (command : String) : EngineM Reply := do
  let s ← get
  let reply ← plain (site.env.command s.log s.fs command)
  set { s with fs := reply.fs, log := s.log ++ [Event.command command reply.code] }
  return reply

/-- `IRunner::executeCommand`. A dry run only logs what it would execute. -/
def executeCommand (cmd : String) : EngineM ℤ := do
  if site.opts.dryRun then return 0
  let reply ← perform site cmd
  return reply.code

/-- For a command whose code is not looked at. -/
def command (cmd : String) : EngineM Unit := do
  let _ ← executeCommand site cmd

def failed (cmd : String) : Halt := .uncaught (.runtimeError s!"ERROR: Command failed '{cmd}'")

def checkCommand (cmd : String) : EngineM Unit := do
  if site.opts.dryRun then return
  let reply ← perform site cmd
  refuseIf (reply.code ≠ 0) (failed cmd)

def checkOutput (cmd : String) : EngineM (List String) := do
  refuseIf site.opts.dryRun (.uncaught (.runtimeError
    s!"Cannot capture the output of a command during dry-run mode: {cmd}"))
  let reply ← perform site cmd
  refuseIf (reply.code ≠ 0) (failed cmd)
  return reply.output

def scriptName (script : ScriptBuilder) : String := s!"{site.env.checksum script.toString}.sh"

/-- `IRunner::run`. -/
def run (script : ScriptBuilder) : EngineM ℤ := do
  if site.opts.dryRun then return 0
  onFs (installFile site.opts.toOptions ["tmp", scriptName site script] script.toString)
  command site s!"chmod +x /tmp/{scriptName site script}"
  command site s!"/tmp/{scriptName site script}"
  return 0

/-! ### Services on the bus -/

/-- What `IService::handleException` makes of an error, which is thrown on unless the unit is
missing. -/
def handleException (name function : String) (e : BusError) : Exn :=
  if e.name = "org.freedesktop.systemd1.NoSuchUnit" then
    .runtimeError s!"Daemon {name} not found (NoSuchUnit while calling {function})"
  else .runtimeError e.message

def callObjectFunction (name function : String) : EngineM Unit := do
  if site.opts.dryRun then return
  let s ← get
  let fs ← plain ((site.env.bus s.log s.fs function name).mapError (handleException name function))
  set { s with fs, log := s.log ++ [Event.bus function name] }

namespace IService

def enable (name : String) : EngineM Unit := callObjectFunction site name "EnableUnitFiles"

def disable (name : String) : EngineM Unit := callObjectFunction site name "DisableUnitFiles"

def start (name : String) : EngineM Unit := callObjectFunction site name "StartUnit"

def restart (name : String) : EngineM Unit := callObjectFunction site name "RestartUnit"

def stop (name : String) : EngineM Unit := callObjectFunction site name "StopUnit"

end IService

/-! ### The file helpers and the repositories -/

def backup (filename : Path) : EngineM Unit := do
  let s ← get
  onFs (backupFile site.opts.toOptions filename (site.env.timestamp s.log))

def addString (filename : Path) (string : String) : EngineM Unit :=
  onFs (addStringToFile site.opts.toOptions filename string)

def remove (filename : Path) : EngineM Unit := onFs (removeFile site.opts.toOptions filename)

def makeDirectory (path : Path) : EngineM Unit := onFs (createDirectory site.opts.toOptions path)

/-- `std::filesystem::permissions`, of which only the failure is seen. -/
def setPermissions (path : Path) : EngineM Unit := do
  let s ← get
  refuseIf (s.fs.exists path = false) (.uncaught (.filesystem .noSuchFile path.toText))

/-- `RepoManager::enable`. -/
def enableRepo (repoid : String) : EngineM Unit := do
  if site.opts.dryRun then return
  match ← plain site.cluster.headnode.os.getPackageType with
  | .RPM => onRepos (RPMRepoManager.enable site.env.codec repoid true)
  | .DEB => throw (.uncaught ⟨.logicError, "Not implemented"⟩)

/-- `RepoManager::repo`. -/
def findRepo (repoid : String) : EngineM RPMRepository := do
  match ← plain site.cluster.headnode.os.getPackageType with
  | .RPM => onRepos (RPMRepoManager.repo repoid)
  | .DEB => throw (.uncaught ⟨.logicError, "Not implemented"⟩)

def initializeDefaultRepositories : EngineM Unit :=
  onRepos (RepoManager.initializeDefaultRepositories site.opts.toOptions site.env.answers
    site.env.specs site.env.codec site.env.vault site.cluster.headnode.os site.env.order)

/-! ### What a step can do -/

/-- The word a command starts with. A path to a program stands for itself. -/
def programOf (text : String) : String :=
  if text.toList.head? = some '/' then "/" else String.ofList (text.toList.takeWhile (· ≠ ' '))

def Event.word : Event → String
  | .command text _ => programOf text
  | .bus method _ => method

/-- A file, or all below a directory. -/
inductive Region where
  | file (p : Path)
  | below (dir : Path)
  deriving DecidableEq

def Region.Covers : Region → Path → Prop
  | .file p, q => q = p
  | .below dir, q => dir <+: q

instance (region : Region) (q : Path) : Decidable (region.Covers q) :=
  match region with
  | .file p => inferInstanceAs (Decidable (q = p))
  | .below dir => inferInstanceAs (Decidable (dir <+: q))

/-- The words of commands and bus calls that a program may give, the files it appends to, where
else it may change the content of a file itself, where it does so in a dry run too, and whether it
may name the image. -/
structure Scope where
  words : List String := []
  files : List Path := []
  regions : List Region := []
  loose : List Path := []
  names : Bool := false

namespace Scope

def Covers (scope : Scope) (q : Path) : Prop :=
  q ∈ scope.files ∨ ∃ region ∈ scope.regions, region.Covers q

instance (scope : Scope) (q : Path) : Decidable (scope.Covers q) :=
  have : Decidable (∃ region ∈ scope.regions, region.Covers q) := List.decidableBEx _ _
  inferInstanceAs (Decidable (_ ∨ _))

structure Within (scope scope' : Scope) : Prop where
  words : scope.words ⊆ scope'.words
  files : scope.files ⊆ scope'.files
  regions : scope.regions ⊆ scope'.regions
  loose : scope.loose ⊆ scope'.loose
  names : scope.names → scope'.names

instance (scope scope' : Scope) : Decidable (scope.Within scope') :=
  decidable_of_iff (scope.words ⊆ scope'.words ∧ scope.files ⊆ scope'.files ∧
      scope.regions ⊆ scope'.regions ∧ scope.loose ⊆ scope'.loose ∧ (scope.names → scope'.names))
    ⟨fun h => ⟨h.1, h.2.1, h.2.2.1, h.2.2.2.1, h.2.2.2.2⟩,
      fun h => ⟨h.words, h.files, h.regions, h.loose, h.names⟩⟩

end Scope

/-- One step: a command, a call on the bus, or work of the program's own. The first two are not
made in a dry run, and the third can then only create empty files, but for the loose ones. -/
inductive Transition (scope : Scope) : System → System → Prop
  | command {s : System} {text : String} {reply : Reply} (live : site.opts.dryRun = false)
      (word : programOf text ∈ scope.words)
      (answer : site.env.command s.log s.fs text = .ok reply) :
      Transition scope s
        { s with fs := reply.fs, log := s.log ++ [Event.command text reply.code] }
  | bus {s : System} {method unit : String} {fs : FS} (live : site.opts.dryRun = false)
      (word : method ∈ scope.words) (answer : site.env.bus s.log s.fs method unit = .ok fs) :
      Transition scope s { s with fs, log := s.log ++ [Event.bus method unit] }
  | own {s t : System} (log : t.log = s.log) (repos : s.repos.Sourced → t.repos.Sourced)
      (kept : s.repos.Sourced → SameOutside scope.Covers s.fs t.fs)
      (dry : site.opts.dryRun → t.repos = s.repos ∧ ∀ q ∉ scope.loose,
        t.fs.get? q = s.fs.get? q ∨ q ∈ scope.files ∧ Created s.fs t.fs q)
      (image : scope.names = false → t.image.toImage = s.image.toImage) : Transition scope s t

/-- Every run of the program is made of steps within the scope. -/
abbrev Confined {α : Type} (scope : Scope) (x : EngineM α) : Prop :=
  Moves (Relation.ReflTransGen (Transition site scope)) x

variable {site} {scope scope' : Scope}

/-! ### Scopes -/

theorem Scope.Covers.mono {q : Path} (h : scope.Covers q) (hle : scope.Within scope') :
    scope'.Covers q := by
  obtain hq | ⟨region, hregion, hq⟩ := h
  · exact .inl (hle.files hq)
  · exact .inr ⟨region, hle.regions hregion, hq⟩

theorem covers_of_mem {p : Path} (h : p ∈ scope.files) : scope.Covers p := .inl h

theorem covers_file {p : Path} (h : .file p ∈ scope.regions) : scope.Covers p := .inr ⟨_, h, rfl⟩

theorem covers_below {dir q : Path} (h : .below dir ∈ scope.regions) (hq : dir <+: q) :
    scope.Covers q := .inr ⟨_, h, hq⟩

theorem Transition.mono {s t : System} (h : Transition site scope s t)
    (hle : scope.Within scope') : Transition site scope' s t := by
  cases h with
  | command live word answer => exact .command live (hle.words word) answer
  | bus live word answer => exact .bus live (hle.words word) answer
  | own log repos kept dry image =>
    refine .own log repos (fun hs => (kept hs).mono fun q hq => hq.mono hle) (fun hdry => ?_) ?_
    · obtain ⟨hrepos, hfiles⟩ := dry hdry
      refine ⟨hrepos, fun q hq => ?_⟩
      exact (hfiles q fun hloose => hq (hle.loose hloose)).imp_right fun h => ⟨hle.files h.1, h.2⟩
    · intro hnames
      refine image (Bool.eq_false_iff.mpr fun h => ?_)
      exact absurd (hnames.symm.trans (hle.names h)) (by simp)

theorem confined_mono {α : Type} {x : EngineM α} (h : Confined site scope x)
    (hle : scope.Within scope') : Confined site scope' x :=
  moves_mono (fun _ _ hrun => hrun.lift id fun _ _ hstep => Transition.mono hstep hle) h

/-! ### What every run keeps to -/

section

variable {α : Type} {x : EngineM α}

/-- The log grows by events with the words of the scope. -/
theorem extends_of_confined (h : Confined site scope x) :
    Moves (EventLog.Extends System.log fun e => e.word ∈ scope.words) x := by
  refine moves_of_transitions (fun s t hstep => ?_) h
  cases hstep with
  | command live word answer => exact EventLog.extends_of_concat rfl word
  | bus live word answer => exact EventLog.extends_of_concat rfl word
  | own log repos kept dry image => exact EventLog.extends_of_eq log

theorem grows_of_confined (h : Confined site scope x) : EventLog.Grows System.log x :=
  moves_mono (fun _ _ hext => hext.mono fun _ _ => trivial) (extends_of_confined h)

/-- What the image is called and where it is. -/
def SameName (s t : System) : Prop := t.image.toImage = s.image.toImage

instance : IsPreorder System SameName where
  refl _ := rfl
  trans _ _ _ h h' := h'.trans h

theorem sameName_of_confined (h : Confined site scope x) (hnames : scope.names = false) :
    Moves SameName x := by
  refine moves_of_transitions (fun s t hstep => ?_) h
  cases hstep with
  | command live word answer => rfl
  | bus live word answer => rfl
  | own log repos kept dry image => exact image hnames

end

/-! ### Quiet surroundings -/

/-- Every command succeeds, and nothing touches the files. -/
def Surroundings.quiet : Surroundings where
  command _ fs _ := .ok { fs }
  bus _ fs _ _ := .ok fs
  timestamp _ := "0"
  checksum _ := "0"
  text := .dottedQuads
  ini := .boost
  codec := .text
  specs _ := none
  answers _ _ := true
  vault _ := false
  order := .insertion

/-- A headnode and a node on one management network, both with Rocky Linux, and a queue. -/
def oneNode : Installation where
  name := "cluster"
  headnode :=
    { hostname := "head", fqdn := "head.example.org", os := rocky,
      connections :=
        [{ network := 0, interface := some "eth0", address := .v4 0x0a000001 }] }
  networks := [{ profile := .Management, subnetMask := .v4 0xff000000 }]
  nodes :=
    [{ hostname := "n01", os := rocky,
       connections := [{ network := 0, mac := some "52:54:00:12:34:56", address := .v4 0x0a000002 }] }]
  queueSystem := some { defaultQueue := "execution" }
  diskImage := { path := "/root/Rocky-9.5-x86_64-dvd.iso", distro := some .Rocky }
  selinux := .Permissive

def oneSite : Site := ⟨{}, oneNode, .quiet⟩

def onlyPasswd : FS :=
  { nodes := ⟨[(["etc"], .dir), (["etc", "passwd"], .file "root:x:0:0\n")], by decide⟩ }

end Engine

end Cloyster
