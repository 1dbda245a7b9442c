import Cloyster.Lib.Format
import Cloyster.Models.OS
import Cloyster.Services.KeyFile

/-! The `repos.conf` files. Each group of such a file describes one repository;
the parser interpolates the release variables into its name, paths and keys and
files it under the name of the repository file it belongs to. The identifier is
the group name as it stands: it is the one field that is never interpolated. -/

namespace Cloyster

open Lib

structure RepoPaths where
  repo : String
  gpgkey : Option String := none
  deriving DecidableEq

structure RepoId where
  id : String
  name : String
  filename : String
  deriving DecidableEq

/-- Upstream and mirror configuration of one repository. -/
structure RepoConfig where
  repoId : RepoId
  mirror : RepoPaths
  upstream : RepoPaths
  deriving DecidableEq

/-- The values of the placeholders. -/
structure RepoConfigVars where
  arch : String
  beegfsVersion : String
  ohpcVersion : String
  osversion : String
  releasever : String
  xcatVersion : String
  zabbixVersion : String
  deriving DecidableEq

/-- Repository configurations grouped by file name, in the order of a `std::map`. -/
structure RepoConfFile where
  files : Std.TreeMap String (List RepoConfig) := ∅

namespace RepoConfFile

def insert (conf : RepoConfFile) (filename : String) (value : RepoConfig) : RepoConfFile where
  files := conf.files.insert filename ((conf.files[filename]?).getD [] ++ [value])

def filesnames (conf : RepoConfFile) : List String := conf.files.keys

/-- The first configuration with the identifier, in the order of the file names. -/
def find (conf : RepoConfFile) (repoid : String) : Option RepoConfig :=
  (conf.files.toList.flatMap Prod.snd).find? fun config => config.repoId.id == repoid

/-- The configuration is filed under some name. -/
def Lists (conf : RepoConfFile) (config : RepoConfig) : Prop :=
  ∃ (filename : String) (configs : List RepoConfig),
    conf.files[filename]? = some configs ∧ config ∈ configs

theorem not_lists_empty (config : RepoConfig) : ¬ Lists {} config := by
  rintro ⟨filename, configs, h, -⟩
  simp at h

theorem lists_insert (conf : RepoConfFile) (filename : String) (value config : RepoConfig) :
    (conf.insert filename value).Lists config ↔ config = value ∨ conf.Lists config := by
  simp only [Lists, insert, Std.TreeMap.getElem?_insert, Std.LawfulEqCmp.compare_eq_iff_eq]
  constructor
  · rintro ⟨f, configs, h, hm⟩
    split_ifs at h with hf
    · obtain rfl := Option.some.inj h
      rcases List.mem_append.mp hm with hm | hm
      · cases hold : conf.files[filename]? with
        | none => rw [hold] at hm; exact absurd hm List.not_mem_nil
        | some old => rw [hold] at hm; exact Or.inr ⟨filename, old, hold, hm⟩
      · exact Or.inl (List.mem_singleton.mp hm)
    · exact Or.inr ⟨f, configs, h, hm⟩
  · rintro (rfl | ⟨f, configs, h, hm⟩)
    · exact ⟨filename, _, if_pos rfl, by simp⟩
    · by_cases hf : filename = f
      · subst hf
        exact ⟨filename, _, if_pos rfl, by simp [h, hm]⟩
      · exact ⟨f, configs, by rw [if_neg hf, h], hm⟩

theorem find_isSome_iff (conf : RepoConfFile) (repoid : String) :
    (conf.find repoid).isSome ↔ ∃ config, conf.Lists config ∧ config.repoId.id = repoid := by
  simp only [find, List.find?_isSome, List.mem_flatMap, Prod.exists, beq_iff_eq, Lists,
    Std.TreeMap.mem_toList_iff_getElem?_eq_some]

end RepoConfFile

structure RepoConfFiles where
  distroRepos : RepoConfFile := {}
  nonDistroRepos : RepoConfFile := {}

/-! ### The parser -/

namespace RepoConfigParser

variable (specs : List Char → Option (String → String))

/-- The named arguments of a template. -/
def fmtArgs (vars : RepoConfigVars) : Format.Args :=
  [("releasever".toList, vars.releasever), ("osversion".toList, vars.osversion),
    ("arch".toList, vars.arch), ("beegfsVersion".toList, vars.beegfsVersion),
    ("zabbixVersion".toList, vars.zabbixVersion), ("xcatVersion".toList, vars.xcatVersion),
    ("ohpcVersion".toList, vars.ohpcVersion)]

def interpolateVars (fmt : String) (vars : RepoConfigVars) : Except Format.FormatError String :=
  Format.format specs (fmtArgs vars) fmt

/-- Interpolate a field that may be absent, with the message of a failure. -/
def interpolateOpt (vars : RepoConfigVars) (onError : Format.FormatError → Exn) :
    Option String → Except Exn (Option String)
  | none => .ok none
  | some fmt => (interpolateVars specs fmt vars).mapError onError |>.map some

def failedToFormat (field repoGroup : String) (e : Format.FormatError) : Exn :=
  .runtimeError s!"Failed to format {field} for repo '{repoGroup}': {e.what}"

/-- One group of a conf file. -/
def parseGroup (file : KeyFile) (vars : RepoConfigVars) (repoGroup : String) :
    Except Exn RepoConfig := do
  let name ← file.getString repoGroup "name"
  throwIf (name = "") (.runtimeError s!"Could not load name from repo '{repoGroup}'")
  let name ← (interpolateVars specs name vars).mapError (failedToFormat "name" repoGroup)
  let filename ← file.getString repoGroup "filename"
  throwIf (filename = "") (.runtimeError s!"Could not load filename from repo '{repoGroup}'")
  let mirrorRepo ← interpolateOpt specs vars
    (fun _ => .runtimeError s!"Could not interpolate mirror.repo from repo '{repoGroup}'")
    (← file.getStringOpt repoGroup "mirror.repo")
  let mirrorGpgkey ← interpolateOpt specs vars (failedToFormat "mirror.gpgkey" repoGroup)
    (← file.getStringOpt repoGroup "mirror.gpgkey")
  let upstreamRepo ← file.getString repoGroup "upstream.repo"
  throwIf (upstreamRepo = "")
    (.runtimeError s!"Could not load upstream.repo from repo '{repoGroup}'")
  let upstreamRepo ←
    (interpolateVars specs upstreamRepo vars).mapError (failedToFormat "upstream.repo" repoGroup)
  let upstreamGpgkey ← interpolateOpt specs vars (failedToFormat "upstream.gpgkey" repoGroup)
    (← file.getStringOpt repoGroup "upstream.gpgkey")
  return {
    repoId := { id := repoGroup, name, filename }
    mirror := { repo := mirrorRepo.getD "", gpgkey := mirrorGpgkey }
    upstream := { repo := upstreamRepo, gpgkey := upstreamGpgkey } }

/-- File every group of a conf file. -/
def parseGroups (file : KeyFile) (vars : RepoConfigVars) (output : RepoConfFile) :
    List String → Except Exn RepoConfFile
  | [] => .ok output
  | repoGroup :: groups => do
    let repo ← parseGroup specs file vars repoGroup
    parseGroups file vars (output.insert repo.repoId.filename repo) groups

variable (codec : GKeyFile)

def parse (path : Path) (output : RepoConfFile) (vars : RepoConfigVars) : FsM RepoConfFile := do
  let fs ← get
  -- the message has two placeholders and one argument
  if !fs.exists path then throw ⟨.formatError, "argument not found"⟩
  let file ← KeyFile.open codec path
  liftExcept (parseGroups specs file vars output file.getGroups)

def distroReposPath (shouldUseVault : OS → Bool) (basePath : Path) (osinfo : OS) :
    OS.Distro → Path
  | .RHEL => basePath.child "rhel.conf"
  | .OL => basePath.child "oracle.conf"
  | .AlmaLinux => basePath.child "alma.conf"
  | .Rocky =>
    if shouldUseVault osinfo then basePath.child "rocky-vault.conf"
    else basePath.child "rocky-upstream.conf"

def load (shouldUseVault : OS → Bool) (basePath : Path) (osinfo : OS) (vars : RepoConfigVars) :
    FsM RepoConfFiles := do
  let distro ← liftExcept osinfo.getDistro
  let nonDistroRepos ← parse specs codec (basePath.child "repos.conf") {} vars
  let distroRepos ←
    parse specs codec (distroReposPath shouldUseVault basePath osinfo distro) {} vars
  return { distroRepos, nonDistroRepos }

/-! ### What the parser accepts -/

/-- The template formats over the seven placeholders. -/
def validTemplate (fmt : String) : Bool :=
  (interpolateVars specs fmt ⟨"", "", "", "", "", "", ""⟩).isOk

/-- The group has its three mandatory fields, and all its templates are valid. -/
def wellFormed (file : KeyFile) (repoGroup : String) : Bool :=
  (file.value? repoGroup "name").any (fun t => t != "" && validTemplate specs t) &&
    (file.value? repoGroup "filename").any (· != "") &&
    (file.value? repoGroup "upstream.repo").any (fun t => t != "" && validTemplate specs t) &&
    ["mirror.repo", "mirror.gpgkey", "upstream.gpgkey"].all fun key =>
      (file.value? repoGroup key).all (validTemplate specs)

variable {specs codec} {file : KeyFile} {vars : RepoConfigVars}

theorem validTemplate_iff (fmt : String) (vars : RepoConfigVars) :
    validTemplate specs fmt ↔ ∃ s, interpolateVars specs fmt vars = .ok s := by
  rw [← isOk_iff]
  have hnames : (fmtArgs ⟨"", "", "", "", "", "", ""⟩).map Prod.fst =
    (fmtArgs vars).map Prod.fst := rfl
  exact Bool.eq_iff_iff.mp (Format.format_isOk_congr hnames fmt)

/-- An absent optional field is fine. -/
theorem interpolateOpt_exists_iff (vars : RepoConfigVars) (onError : Format.FormatError → Exn)
    (o : Option String) :
    (∃ s, interpolateOpt specs vars onError o = .ok s) ↔ o.all (validTemplate specs) := by
  cases o with
  | none => simp [interpolateOpt]
  | some fmt =>
    rw [Option.all_some, validTemplate_iff fmt vars, interpolateOpt]
    cases interpolateVars specs fmt vars <;> simp [Except.mapError, Except.map]

theorem hasGroup_of_wellFormed {repoGroup : String} (h : wellFormed specs file repoGroup) :
    file.hasGroup repoGroup := by
  simp only [wellFormed, Bool.and_eq_true] at h
  obtain ⟨t, ht, -⟩ := (Option.any_eq_true _ _).mp h.1.1.1
  exact KeyFile.hasGroup_of_value? ht

/-- A group is accepted exactly when it is well formed. -/
theorem parseGroup_exists_iff (vars : RepoConfigVars) (repoGroup : String) :
    (∃ config, parseGroup specs file vars repoGroup = .ok config) ↔
      wellFormed specs file repoGroup := by
  constructor
  · rintro ⟨config, h⟩
    simp only [parseGroup, except_bind_ok_iff, throwIf_ok_iff, KeyFile.getString_ok_iff,
      mapError_ok_iff, KeyFile.getStringOpt_ok_iff] at h
    obtain ⟨name, hname, -, hname0, _, hnamev, filename, hfile, -, hfile0, _, ⟨-, rfl⟩, _, hmr, _,
      ⟨-, rfl⟩, _, hmg, up, hup, -, hup0, _, hupv, _, ⟨-, rfl⟩, _, hug, -⟩ := h
    have hmr' := (interpolateOpt_exists_iff vars _ _).mp ⟨_, hmr⟩
    have hmg' := (interpolateOpt_exists_iff vars _ _).mp ⟨_, hmg⟩
    have hug' := (interpolateOpt_exists_iff vars _ _).mp ⟨_, hug⟩
    have hnamev' := (validTemplate_iff name vars).mpr ⟨_, hnamev⟩
    have hupv' := (validTemplate_iff up vars).mpr ⟨_, hupv⟩
    simp [wellFormed, hname, hname0, hnamev', hfile, hfile0, hup, hup0, hupv', hmr', hmg', hug']
  · intro h
    have hgroup := hasGroup_of_wellFormed h
    simp only [wellFormed, Bool.and_eq_true, List.all_cons, List.all_nil, Option.any_eq_true,
      bne_iff_ne, and_true] at h
    obtain ⟨⟨⟨⟨name, hname, hname0, hnamev⟩, filename, hfile, hfile0⟩, up, hup, hup0, hupv⟩, hmr,
      hmg, hug⟩ := h
    obtain ⟨name', hname'⟩ := (validTemplate_iff name vars).mp hnamev
    obtain ⟨up', hup'⟩ := (validTemplate_iff up vars).mp hupv
    obtain ⟨mr, hmr'⟩ := (interpolateOpt_exists_iff vars
      (fun _ => .runtimeError s!"Could not interpolate mirror.repo from repo '{repoGroup}'") _).mpr
      hmr
    obtain ⟨mg, hmg'⟩ := (interpolateOpt_exists_iff vars
      (failedToFormat "mirror.gpgkey" repoGroup) _).mpr hmg
    obtain ⟨ug, hug'⟩ := (interpolateOpt_exists_iff vars
      (failedToFormat "upstream.gpgkey" repoGroup) _).mpr hug
    simp only [parseGroup, except_bind_ok_iff, throwIf_ok_iff, KeyFile.getString_ok_iff,
      mapError_ok_iff, KeyFile.getStringOpt_ok_iff, except_pure_ok_iff]
    exact ⟨_, name, hname, (), hname0, name', hname', filename, hfile, (), hfile0, _, ⟨hgroup, rfl⟩,
      mr, hmr', _, ⟨hgroup, rfl⟩, mg, hmg', up, hup, (), hup0, up', hup', _, ⟨hgroup, rfl⟩, ug, hug',
      rfl⟩

/-- The identifier is the group name as it stands. -/
theorem parseGroup_id {repoGroup : String} {config : RepoConfig}
    (h : parseGroup specs file vars repoGroup = .ok config) : config.repoId.id = repoGroup := by
  simp only [parseGroup, except_bind_ok_iff, except_pure_ok_iff] at h
  obtain ⟨_, -, _, -, _, -, _, -, _, -, _, -, _, -, _, -, _, -, _, -, _, -, _, -, _, -, _, -, rfl⟩ := h
  rfl

theorem parseGroups_exists_iff (vars : RepoConfigVars) (groups : List String)
    (output : RepoConfFile) :
    (∃ conf, parseGroups specs file vars output groups = .ok conf) ↔
      ∀ repoGroup ∈ groups, wellFormed specs file repoGroup := by
  induction groups generalizing output with
  | nil => simp [parseGroups]
  | cons repoGroup groups ih =>
    simp only [parseGroups, except_bind_ok_iff, List.forall_mem_cons]
    rw [← parseGroup_exists_iff vars]
    constructor
    · rintro ⟨conf, config, hconfig, hrest⟩
      exact ⟨⟨config, hconfig⟩, (ih _).mp ⟨conf, hrest⟩⟩
    · rintro ⟨⟨config, hconfig⟩, hgroups⟩
      obtain ⟨conf, hconf⟩ := (ih (output.insert config.repoId.filename config)).mpr hgroups
      exact ⟨conf, config, hconfig, hconf⟩

/-- What is listed afterwards was listed before or comes from one of the groups. -/
theorem parseGroups_lists {groups : List String} {output conf : RepoConfFile}
    (h : parseGroups specs file vars output groups = .ok conf) (config : RepoConfig) :
    conf.Lists config ↔ output.Lists config ∨
      ∃ repoGroup ∈ groups, parseGroup specs file vars repoGroup = .ok config := by
  induction groups generalizing output with
  | nil =>
    obtain rfl : output = conf := by simpa [parseGroups] using h
    simp
  | cons repoGroup groups ih =>
    simp only [parseGroups, except_bind_ok_iff] at h
    obtain ⟨first, hfirst, hrest⟩ := h
    rw [ih hrest, RepoConfFile.lists_insert, List.exists_mem_cons_iff, hfirst, Except.ok.injEq,
      eq_comm (a := config)]
    tauto

/-- The identifiers found after parsing are the groups of the file. -/
theorem parseGroups_find_iff {conf : RepoConfFile}
    (h : parseGroups specs file vars {} file.getGroups = .ok conf) (repoid : String) :
    (conf.find repoid).isSome ↔ repoid ∈ file.getGroups := by
  have hall := (parseGroups_exists_iff vars file.getGroups {}).mp ⟨conf, h⟩
  simp only [RepoConfFile.find_isSome_iff, parseGroups_lists h,
    RepoConfFile.not_lists_empty, false_or]
  constructor
  · rintro ⟨config, ⟨repoGroup, hm, hconfig⟩, rfl⟩
    rwa [parseGroup_id hconfig]
  · intro hm
    obtain ⟨config, hconfig⟩ := (parseGroup_exists_iff vars repoid).mpr (hall repoid hm)
    exact ⟨config, ⟨repoid, hm, hconfig⟩, parseGroup_id hconfig⟩

theorem parse_of_keyFileAt {fs : FS} {path : Path} (h : keyFileAt codec fs path = some file)
    (output : RepoConfFile) :
    parse specs codec path output vars fs =
      liftExcept (parseGroups specs file vars output file.getGroups) fs := by
  rw [parse, bind_apply, get_apply]
  dsimp only
  rw [exists_of_keyFileAt h]
  simp only [Bool.not_true, Bool.false_eq_true, if_false]
  rw [bind_of_ok (KeyFile.open_of_keyFileAt h)]

end RepoConfigParser

end Cloyster
