import Cloyster.Services.Repos.Shipped

/-! The names of the repositories to enable. They are formatted from the release,
while the identifiers in the conf files are raw group names, placeholders
included. The two meet for Rocky Linux, whose names carry no release at all; for
the other distributions the name has the digits of the release and no shipped
identifier has a digit. -/

namespace Cloyster

open Lib RepoConfigParser

namespace RepoNames

def resolveCodeReadyBuilderName (osinfo : OS) : Except Exn String := do
  let distro ← osinfo.getDistro
  let majorVersion := osinfo.majorVersion
  let arch := NamedEnum.name osinfo.arch
  match distro with
  | .AlmaLinux => return "crb"
  | .Rocky => return "crb"
  | .RHEL => return s!"codeready-builder-for-rhel-{majorVersion}-{arch}-rpms"
  | .OL => return s!"ol{majorVersion}_codeready_builder"

/-- The repositories of the distribution itself. -/
def distroReposNames (osinfo : OS) : OS.Distro → Except Exn (List String)
  | .AlmaLinux =>
    return ["AlmaLinuxBaseOS", s!"\"AlmaLinux {osinfo.majorVersion} - CRB\""]
  | .Rocky => do return ["appstream", "baseos", ← resolveCodeReadyBuilderName osinfo]
  | .RHEL =>
    return [s!"rhel-{osinfo.majorVersion}-baseos",
      s!"rhel-{osinfo.majorVersion}-codeready-builder"]
  | .OL => return ["OLBaseOS", s!"ol{osinfo.majorVersion}_codeready_builder"]

def commonReposNames : List String :=
  ["epel", "OpenHPC", "OpenHPC-Updates", "rpmfusion", "elrepo", "beegfs"]

/-- The conf files are a parameter of the source that it does not look at. -/
def resolveReposNames (osinfo : OS) (_conffiles : RepoConfFiles) : Except Exn (List String) := do
  let distro ← osinfo.getDistro
  let names ← distroReposNames osinfo distro
  return names ++ commonReposNames

end RepoNames

/-- The table a distribution's repositories are read from. -/
def distroConf (useVault : Bool) : OS.Distro → ConfTable
  | .RHEL => rhelConf
  | .OL => oracleConf
  | .AlmaLinux => almaConf
  | .Rocky => if useVault then rockyVaultConf else rockyUpstreamConf

/-- The shipped conf files lie in `basePath`. -/
structure ShippedConfs (codec : GKeyFile) (fs : FS) (basePath : Path) : Prop where
  repos : keyFileAt codec fs (basePath.child "repos.conf") = some reposConf.toKeyFile
  rhel : keyFileAt codec fs (basePath.child "rhel.conf") = some rhelConf.toKeyFile
  oracle : keyFileAt codec fs (basePath.child "oracle.conf") = some oracleConf.toKeyFile
  alma : keyFileAt codec fs (basePath.child "alma.conf") = some almaConf.toKeyFile
  rockyVault :
    keyFileAt codec fs (basePath.child "rocky-vault.conf") = some rockyVaultConf.toKeyFile
  rockyUpstream :
    keyFileAt codec fs (basePath.child "rocky-upstream.conf") = some rockyUpstreamConf.toKeyFile

/-- The name is the identifier of a repository of one of the two conf files. -/
def RepoConfFiles.Finds (conffiles : RepoConfFiles) (name : String) : Prop :=
  (conffiles.distroRepos.find name).isSome ∨ (conffiles.nonDistroRepos.find name).isSome

section
variable {codec : GKeyFile} {specs : List Char → Option (String → String)} {fs : FS}
  {basePath : Path} {osinfo : OS} {distro : OS.Distro}

theorem ShippedConfs.distroReposPath (h : ShippedConfs codec fs basePath) (vault : OS → Bool)
    (osinfo : OS) (distro : OS.Distro) :
    keyFileAt codec fs (distroReposPath vault basePath osinfo distro) =
      some (distroConf (vault osinfo) distro).toKeyFile := by
  cases distro with
  | RHEL => exact h.rhel
  | OL => exact h.oracle
  | AlmaLinux => exact h.alma
  | Rocky =>
    simp only [RepoConfigParser.distroReposPath, distroConf]
    split_ifs
    · exact h.rockyVault
    · exact h.rockyUpstream

/-- Loading the shipped files succeeds for every release, and what it finds are
the group names of the common table and of the distribution's. -/
theorem load_shipped (specs : List Char → Option (String → String)) (h : ShippedConfs codec fs basePath) (vault : OS → Bool)
    (hd : osinfo.distro = some distro) (vars : RepoConfigVars) :
    ∃ conffiles, load specs codec vault basePath osinfo vars fs = .ok conffiles fs ∧
      ∀ name, conffiles.Finds name ↔
        name ∈ (distroConf (vault osinfo) distro).toKeyFile.getGroups ∨
          name ∈ reposConf.toKeyFile.getGroups := by
  obtain ⟨common, hcommon, hfindCommon⟩ := parseGroups_toKeyFile reposConf specs vars
  obtain ⟨own, hown, hfindOwn⟩ :=
    parseGroups_toKeyFile (distroConf (vault osinfo) distro) specs vars
  refine ⟨⟨own, common⟩, ?_, fun name => or_congr (hfindOwn name) (hfindCommon name)⟩
  have hdistro : liftExcept osinfo.getDistro fs = .ok distro fs := by
    simp [OS.getDistro, hd]
  have hparseCommon : parse specs codec (basePath.child "repos.conf") {} vars fs =
      .ok common fs := by
    rw [parse_of_keyFileAt h.repos, hcommon]
    rfl
  have hparseOwn : parse specs codec (distroReposPath vault basePath osinfo distro) {} vars fs =
      .ok own fs := by
    rw [parse_of_keyFileAt (h.distroReposPath vault osinfo distro), hown]
    rfl
  rw [load, bind_of_ok hdistro, bind_of_ok hparseCommon, bind_of_ok hparseOwn]
  rfl

/-- A decimal numeral has a digit. -/
theorem any_digit_toString (n : ℕ) : (toString n).toList.any Char.isDigit := by
  have hne : Nat.toDigits 10 n ≠ [] := Nat.toDigits_ne_nil
  obtain ⟨c, hc⟩ := List.exists_mem_of_ne_nil _ hne
  have hdigit : c.isDigit := Nat.isDigit_of_mem_toDigits (by omega) (by omega) hc
  rw [Nat.toString_eq_repr, Nat.toList_repr]
  exact List.any_eq_true.mpr ⟨c, hc, hdigit⟩

theorem any_digit_append (pre suf : String) (n : ℕ) :
    (pre ++ toString n ++ suf).toList.any Char.isDigit := by
  rw [String.toList_append, String.toList_append, List.any_append, List.any_append,
    any_digit_toString, Bool.or_true, Bool.true_or]

/-- Outside Rocky Linux one of the names carries the release. -/
theorem exists_digit_distroReposNames (osinfo : OS) (h : distro ≠ .Rocky) :
    ∃ names, RepoNames.distroReposNames osinfo distro = .ok names ∧
      ∃ name ∈ names, name.toList.any Char.isDigit := by
  cases distro with
  | Rocky => exact absurd rfl h
  | RHEL => exact ⟨_, rfl, _, List.mem_cons_self, any_digit_append "rhel-" "-baseos" _⟩
  | OL =>
    exact ⟨_, rfl, _, List.mem_cons_of_mem _ List.mem_cons_self,
      any_digit_append "ol" "_codeready_builder" _⟩
  | AlmaLinux =>
    exact ⟨_, rfl, _, List.mem_cons_of_mem _ List.mem_cons_self,
      any_digit_append "\"AlmaLinux " " - CRB\"" _⟩

theorem commonReposNames_shipped :
    ∀ name ∈ RepoNames.commonReposNames, name ∈ reposConf.toKeyFile.getGroups := by
  simp [RepoNames.commonReposNames, mem_getGroups_toKeyFile, reposConf, reposRows]

theorem rockyReposNames_shipped (useVault : Bool) :
    ∀ name ∈ ["appstream", "baseos", "crb"],
      name ∈ (distroConf useVault .Rocky).toKeyFile.getGroups := by
  cases useVault with
  | true => simp [distroConf, mem_getGroups_toKeyFile, rockyVaultConf, rockyVaultRows]
  | false => simp [distroConf, mem_getGroups_toKeyFile, rockyUpstreamConf, rockyUpstreamRows]

/-- The shipped files load, and every resolved name is found in them. -/
def FindsAll (codec : GKeyFile) (specs : List Char → Option (String → String)) (vault : OS → Bool)
    (basePath : Path) (osinfo : OS) (vars : RepoConfigVars) (fs : FS) : Prop :=
  ∃ conffiles names, load specs codec vault basePath osinfo vars fs = .ok conffiles fs ∧
    RepoNames.resolveReposNames osinfo conffiles = .ok names ∧
    ∀ name ∈ names, conffiles.Finds name

theorem resolveReposNames_eq (hd : osinfo.distro = some distro) {names : List String}
    (h : RepoNames.distroReposNames osinfo distro = .ok names) (conffiles : RepoConfFiles) :
    RepoNames.resolveReposNames osinfo conffiles = .ok (names ++ RepoNames.commonReposNames) := by
  have hdistro : osinfo.getDistro = .ok distro := by simp [OS.getDistro, hd]
  simp [RepoNames.resolveReposNames, except_bind_ok_iff, hdistro, h]

theorem findsAll_rocky (h : ShippedConfs codec fs basePath) (vault : OS → Bool)
    (hd : osinfo.distro = some .Rocky) (vars : RepoConfigVars) :
    FindsAll codec specs vault basePath osinfo vars fs := by
  obtain ⟨conffiles, hload, hfinds⟩ := load_shipped specs h vault hd vars
  have hown : RepoNames.distroReposNames osinfo .Rocky = .ok ["appstream", "baseos", "crb"] := by
    simp [RepoNames.distroReposNames, RepoNames.resolveCodeReadyBuilderName, except_bind_ok_iff,
      OS.getDistro, hd]
  refine ⟨conffiles, _, hload, resolveReposNames_eq hd hown conffiles, ?_⟩
  intro name hmem
  rw [hfinds]
  rcases List.mem_append.mp hmem with hmem | hmem
  · exact Or.inl (rockyReposNames_shipped _ name hmem)
  · exact Or.inr (commonReposNames_shipped name hmem)

/-- The name that carries the release is the identifier of no shipped repository. -/
theorem not_findsAll (h : ShippedConfs codec fs basePath) (vault : OS → Bool)
    (hd : osinfo.distro = some distro) (hrocky : distro ≠ .Rocky) (vars : RepoConfigVars) :
    ¬ FindsAll codec specs vault basePath osinfo vars fs := by
  rintro ⟨conffiles, names, hload, hnames, hall⟩
  obtain ⟨_, hload', hfinds⟩ := load_shipped specs h vault hd vars
  rw [hload] at hload'
  obtain ⟨rfl, -⟩ := EStateM.Result.ok.inj hload'
  obtain ⟨own, hown, name, hmem, hdigit⟩ := exists_digit_distroReposNames osinfo hrocky
  rw [resolveReposNames_eq hd hown] at hnames
  obtain rfl := Except.ok.inj hnames
  rcases (hfinds name).mp (hall name (List.mem_append_left _ hmem)) with hfound | hfound
  · rw [noDigit_toKeyFile _ hfound] at hdigit
    exact absurd hdigit (by simp)
  · rw [noDigit_toKeyFile _ hfound] at hdigit
    exact absurd hdigit (by simp)

/-- Every resolved name is the identifier of a shipped repository exactly on
Rocky Linux, whatever the release, the variables and the vault's answer. -/
theorem resolveReposNames_found_iff (h : ShippedConfs codec fs basePath) (vault : OS → Bool)
    (hd : osinfo.distro = some distro) (vars : RepoConfigVars) :
    FindsAll codec specs vault basePath osinfo vars fs ↔ distro = .Rocky := by
  constructor
  · intro hfinds
    by_contra hrocky
    exact not_findsAll h vault hd hrocky vars hfinds
  · rintro rfl
    exact findsAll_rocky h vault hd vars

end

/-- A directory with the shipped conf files. -/
def confDirectory : FS :=
  [("repos.conf", reposConf), ("rhel.conf", rhelConf), ("oracle.conf", oracleConf),
    ("alma.conf", almaConf), ("rocky-vault.conf", rockyVaultConf),
    ("rocky-upstream.conf", rockyUpstreamConf)].foldl
      (fun fs conf => fs.set [conf.1] (.file (GKeyFile.text.toData conf.2.toKeyFile))) ∅

theorem shippedConfs_confDirectory : ShippedConfs GKeyFile.text confDirectory [] := by
  constructor <;> simp [confDirectory, keyFileAt_set, Path.child]

def rocky : OS := { distro := some .Rocky, majorVersion := 9, minorVersion := 5 }

def rhel : OS := { distro := some .RHEL, majorVersion := 9, minorVersion := 5 }

/-- The variables of release 9.5 with the default versions. -/
def defaultVars : RepoConfigVars where
  arch := "x86_64"
  beegfsVersion := "beegfs_7.3.3"
  ohpcVersion := "3"
  osversion := "9.5"
  releasever := "9"
  xcatVersion := "latest"
  zabbixVersion := "6.4"

theorem resolveReposNames_found_rocky :
    FindsAll GKeyFile.text (fun _ => none) (fun _ => false) [] rocky defaultVars confDirectory :=
  (resolveReposNames_found_iff shippedConfs_confDirectory _ rfl _).mpr rfl

/-- `rhel-9-baseos` is enabled, but the file defines `rhel-{releasever}-baseos`. -/
theorem resolveReposNames_not_found_rhel :
    ¬ FindsAll GKeyFile.text (fun _ => none) (fun _ => false) [] rhel defaultVars confDirectory :=
  not_findsAll shippedConfs_confDirectory _ rfl (by decide) _

end Cloyster
