import Cloyster.Services.Repos.Enabled
import Cloyster.Services.Repos.Failed

/-! The repositories that go into the node image. They are read back from files whose names are
written out, after the initialisation has generated files under the names of the conf tables. The
vault of Rocky Linux is read from a file that is never generated, and a file that is not there
has no repositories. -/

namespace Cloyster

open Lib RPMRepositoryParser

variable (codec : GKeyFile)

/-- The repositories of a file as it is on disk. -/
def RPMRepoManager.repoFile (repoFileName : String) : FsM (List RPMRepository) := fun fs =>
  match parse codec (basedir.child repoFileName) ∅ fs with
  | .ok repos fs => .ok (repos.toList.map Prod.snd) fs
  | .error e fs =>
    if e.type = .outOfRange then
      .error (.runtimeError s!"No such repository file {repoFileName}") fs
    else .error e fs

def RepoManager.repoFile (osinfo : OS) (repo : String) : FsM (List RPMRepository) := do
  match ← liftExcept osinfo.getPackageType with
  | .RPM => RPMRepoManager.repoFile codec repo
  | .DEB => throw ⟨.logicError, "Not implemented"⟩

namespace XCAT

variable (vault : OS → Bool) (osinfo : OS)

def addReposFromFile (filename : String) : FsM (List String) := do
  let repos ← RepoManager.repoFile codec osinfo filename
  liftExcept ((repos.filter (·.enabled)).mapM fun repo => optionValue repo.baseurl)

/-- The file of the distribution itself. -/
def distroRepoFile : OS.Distro → String
  | .RHEL => "rhel.repo"
  | .OL => "oracle.repo"
  | .Rocky => if vault osinfo then "rocky-vault.repo" else "rocky.repo"
  | .AlmaLinux => "almalinux.repo"

def getxCATOSImageRepos : FsM (List String) := do
  let distro ← liftExcept osinfo.getDistro
  let own ← addReposFromFile codec osinfo (distroRepoFile vault osinfo distro)
  let epel ← addReposFromFile codec osinfo "epel.repo"
  let openHPC ← addReposFromFile codec osinfo "OpenHPC.repo"
  return own ++ epel ++ openHPC

/-! ### What is promised -/

open RPMRepoManager

/-- A repository of the distribution's own conf file, enabled in the file it is generated into.
A dry run enables nothing. -/
structure EnabledOwn (opts : Options) (fs : FS) (row : ConfRow) (repo : RPMRepository) : Prop where
  wet : opts.dryRun = false
  own : ∃ distro, osinfo.distro = some distro ∧ row ∈ (distroConf (vault osinfo) distro).rows
  onDisk : ∃ repos, parse codec (basedir.child row.filename) ∅ fs = .ok repos fs ∧
    repos[row.group]? = some repo
  enabled : repo.enabled

/-- The address of every such repository goes into the image. -/
def ListsEnabledOwn (opts : Options) (fs : FS) : Prop :=
  ∀ row repo, EnabledOwn codec vault osinfo opts fs row repo →
    ∃ urls, getxCATOSImageRepos codec vault osinfo fs = .ok urls fs ∧
      ∃ url ∈ urls, repo.baseurl = some url

/-- Rocky Linux with the vault, where one of the three repositories is not taken from a file
named just `.repo` that was there before and is listed before `rocky.repo`. -/
structure MissesVault (opts : Options) (fs : FS) : Prop where
  wet : opts.dryRun = false
  rocky : osinfo.distro = some .Rocky
  vault : vault osinfo
  enabled : ∃ id ∈ ["appstream", "baseos", "crb"], ¬ RepoManager.Hidden codec fs "rocky.repo" id

/-! ### Reading a file back -/

variable {codec vault osinfo} {distro : OS.Distro} {fs : FS}

/-- The addresses of a file are those of its enabled repositories, in order. -/
theorem addReposFromFile_ok_iff (hd : osinfo.distro = some distro) {filename : String}
    {urls : List String} {fs' : FS} :
    addReposFromFile codec osinfo filename fs = .ok urls fs' ↔
      ∃ repos, parse codec (basedir.child filename) ∅ fs = .ok repos fs' ∧
        List.Forall₂ (fun repo url => repo.baseurl = some url)
          ((repos.toList.map Prod.snd).filter (·.enabled)) urls := by
  have hrpm : osinfo.getPackageType = .ok .RPM := by
    rw [OS.getPackageType, OS.getDistro_ok_iff.mpr hd]
    cases distro <;> rfl
  have hfile : RepoManager.repoFile codec osinfo filename fs =
      RPMRepoManager.repoFile codec filename fs := by
    rw [RepoManager.repoFile, hrpm]
    rfl
  rw [addReposFromFile, bind_ok_iff]
  simp only [hfile, RPMRepoManager.repoFile, liftExcept_ok_iff, mapM_ok_iff, optionValue_ok_iff]
  cases parse codec (basedir.child filename) ∅ fs with
  | error e t =>
    dsimp only
    split_ifs <;> simp
  | ok repos t =>
    simp only [EStateM.Result.ok.injEq]
    constructor
    · rintro ⟨_, _, ⟨rfl, rfl⟩, hurls, rfl⟩
      exact ⟨repos, ⟨rfl, rfl⟩, hurls⟩
    · rintro ⟨_, ⟨rfl, rfl⟩, hurls⟩
      exact ⟨_, _, ⟨rfl, rfl⟩, hurls, rfl⟩

theorem mem_enabled_iff {repos : RepoMap} {repo : RPMRepository} :
    repo ∈ (repos.toList.map Prod.snd).filter (·.enabled) ↔
      (∃ id : String, repos[id]? = some repo) ∧ repo.enabled := by
  simp only [List.mem_filter, List.mem_map, Prod.exists, exists_eq_right,
    Std.TreeMap.mem_toList_iff_getElem?_eq_some]

/-- A file whose enabled repositories all have an address is listed. -/
theorem addReposFromFile_returns (hd : osinfo.distro = some distro) {filename : String}
    {repos : RepoMap} (hparse : parse codec (basedir.child filename) ∅ fs = .ok repos fs)
    (hurl : ∀ (id : String) (repo : RPMRepository), repos[id]? = some repo → repo.baseurl.isSome) :
    ∃ urls, addReposFromFile codec osinfo filename fs = .ok urls fs ∧
      ∀ (id : String) (repo : RPMRepository), repos[id]? = some repo → repo.enabled →
        ∃ url ∈ urls, repo.baseurl = some url := by
  have hsome : ∀ repo ∈ (repos.toList.map Prod.snd).filter (·.enabled),
      repo.baseurl = some (repo.baseurl.getD "") := by
    intro repo hm
    obtain ⟨⟨id, hrepo⟩, -⟩ := mem_enabled_iff.mp hm
    obtain ⟨url, hsome⟩ := Option.isSome_iff_exists.mp (hurl id repo hrepo)
    rw [hsome, Option.getD_some]
  have hurls : List.Forall₂ (fun (repo : RPMRepository) url => repo.baseurl = some url) _ _ :=
    List.forall₂_map_right_iff.mpr (List.forall₂_same.mpr hsome)
  refine ⟨_, (addReposFromFile_ok_iff hd).mpr ⟨repos, hparse, hurls⟩, fun id repo hrepo he => ?_⟩
  exact forall₂_exists_right hurls (mem_enabled_iff.mpr ⟨⟨id, hrepo⟩, he⟩)

/-! ### After an initialisation -/

open RepoManager RepoConfigParser

variable {opts : Options} {answers : Answers} {specs : List Char → Option (String → String)}
  {fs' : FS} (R : Run opts answers specs codec vault osinfo fs fs')

/-- A repository that is read has the address of its row. -/
theorem locates_of_parse {filename : String} (hext : Text.extension filename = ".repo")
    {repos : RepoMap} {t : FS} (hparse : parse codec (basedir.child filename) ∅ fs' = .ok repos t)
    {id : String} {repo : RPMRepository} (hrepo : repos[id]? = some repo) :
    ∃ row ∈ R.rows, row.filename = filename ∧
      ∃ url, repo.baseurl = some url ∧ Locates opts specs (repoConfigVars opts osinfo) row url := by
  rcases (parse_ok hparse).2 with ⟨key, hkey, hholds⟩ | hempty
  · obtain ⟨hreads, rfl⟩ := parseRepo_ok_iff.mp (hholds.reads id repo hrepo)
    obtain ⟨row, hrow, hname, -, url, hurl, hlocates⟩ := (R.leftIn hext hkey).group repo.id
      ((hholds.mem_iff repo.id).mp (mem_of_getElem? hrepo))
    exact ⟨row, hrow, hname, url, hreads.baseurl.symm.trans hurl, hlocates⟩
  · exact absurd (mem_of_getElem? hrepo) (hempty id)

/-- Every generated file is read. -/
theorem addReposFromFile_run {row : ConfRow} (hrow : row ∈ R.rows) :
    ∃ repos urls, parse codec (basedir.child row.filename) ∅ fs' = .ok repos fs' ∧
      addReposFromFile codec osinfo row.filename fs' = .ok urls fs' ∧
        ∀ (id : String) (repo : RPMRepository), repos[id]? = some repo → repo.enabled →
          ∃ url ∈ urls, repo.baseurl = some url := by
  obtain ⟨key, hkey, -⟩ := R.exists_key hrow
  obtain ⟨repos, hrepos, -⟩ := parse_of_parseable hkey (R.leftIn (R.usable hrow) hkey).parseable
  have hurl : ∀ (id : String) (repo : RPMRepository), repos[id]? = some repo →
      repo.baseurl.isSome := by
    intro id repo hrepo
    obtain ⟨-, -, -, url, hurl, -⟩ := locates_of_parse R (R.usable hrow) hrepos hrepo
    rw [hurl]
    rfl
  obtain ⟨urls, hurls, hlisted⟩ := addReposFromFile_returns R.hdistro hrepos hurl
  exact ⟨repos, urls, hrepos, hurls, hlisted⟩

/-- Every address that is read is that of a row of the file. -/
theorem locates_of_addReposFromFile {filename : String} (hext : Text.extension filename = ".repo")
    {urls : List String} {t : FS} (h : addReposFromFile codec osinfo filename fs' = .ok urls t)
    {url : String} (hm : url ∈ urls) :
    ∃ row ∈ R.rows, row.filename = filename ∧
      Locates opts specs (repoConfigVars opts osinfo) row url := by
  obtain ⟨repos, hrepos, hurls⟩ := (addReposFromFile_ok_iff R.hdistro).mp h
  obtain ⟨repo, hrepo, hurl⟩ := forall₂_exists_left hurls hm
  obtain ⟨⟨id, hrepo⟩, -⟩ := mem_enabled_iff.mp hrepo
  obtain ⟨row, hrow, hname, url', hurl', hlocates⟩ := locates_of_parse R hext hrepos hrepo
  obtain rfl := Option.some.inj (hurl'.symm.trans hurl)
  exact ⟨row, hrow, hname, hlocates⟩

theorem enabled_row_iff {row : ConfRow} (hrow : row ∈ R.rows) {repos : RepoMap}
    (hparse : parse codec (basedir.child row.filename) ∅ fs' = .ok repos fs')
    {repo : RPMRepository} (hrepo : repos[row.group]? = some repo) :
    repo.enabled ↔
      row.group ∈ R.repos ∧ ¬ Hidden codec fs row.filename row.group := by
  rcases (parse_ok hparse).2 with ⟨key, hkey, hholds⟩ | hempty
  · obtain ⟨hreads, hid⟩ := parseRepo_ok_iff.mp (hholds.reads row.group repo hrepo)
    have hflag := hreads.enabled
    rw [hid] at hflag
    rw [← R.enabled_iff hrow hkey, getBoolean_ok_iff, hflag, Option.some_inj]
  · exact absurd (mem_of_getElem? hrepo) (hempty row.group)

theorem mem_rows_of_own {row : ConfRow} (h : row ∈ (distroConf (vault osinfo) R.distro).rows) :
    row ∈ R.rows := List.mem_append_left _ h

theorem mem_rows_of_common {row : ConfRow} (h : row ∈ reposConf.rows) : row ∈ R.rows :=
  List.mem_append_right _ h

/-- What was enabled is listed when the rows that can be enabled are of the file that is read. -/
theorem listsEnabledOwn_of_filename
    (hread : ∀ row ∈ (distroConf (vault osinfo) R.distro).rows, row.group ∈ R.repos →
      ¬ Hidden codec fs row.filename row.group →
        row.filename = distroRepoFile vault osinfo R.distro) :
    ListsEnabledOwn codec vault osinfo opts fs' := by
  rintro row repo ⟨-, ⟨distro, hdistro, hown⟩, ⟨repos, hparse, hrepo⟩, henabled⟩
  obtain rfl := Option.some.inj (hdistro.symm.trans R.hdistro)
  have hrow := mem_rows_of_own R hown
  obtain ⟨hnamed, hshown⟩ := (enabled_row_iff R hrow hparse hrepo).mp henabled
  obtain ⟨repos', own, hparse', hurls, hlisted⟩ := addReposFromFile_run R hrow
  rw [hparse] at hparse'
  obtain ⟨rfl, -⟩ := EStateM.Result.ok.inj hparse'
  rw [hread row hown hnamed hshown] at hurls
  -- the two files that every image gets
  obtain ⟨epel, hepel, hepelFile⟩ : ∃ row ∈ reposConf.rows, row.filename = "epel.repo" := by decide
  obtain ⟨-, epelUrls, -, hepelUrls, -⟩ := addReposFromFile_run R (mem_rows_of_common R hepel)
  obtain ⟨openHPC, hopenHPC, hopenHPCFile⟩ :
      ∃ row ∈ reposConf.rows, row.filename = "OpenHPC.repo" := by decide
  obtain ⟨-, openHPCUrls, -, hopenHPCUrls, -⟩ :=
    addReposFromFile_run R (mem_rows_of_common R hopenHPC)
  rw [hepelFile] at hepelUrls
  rw [hopenHPCFile] at hopenHPCUrls
  have hget : (liftExcept osinfo.getDistro : FsM OS.Distro) fs' = .ok R.distro fs' :=
    liftExcept_ok_iff.mpr ⟨OS.getDistro_ok_iff.mpr R.hdistro, rfl⟩
  refine ⟨own ++ epelUrls ++ openHPCUrls, ?_, ?_⟩
  · rw [getxCATOSImageRepos, bind_of_ok hget, bind_of_ok hurls, bind_of_ok hepelUrls,
      bind_of_ok hopenHPCUrls]
    rfl
  · obtain ⟨url, hm, hurl⟩ := hlisted row.group repo hrepo henabled
    exact ⟨url, List.mem_append_left _ (List.mem_append_left _ hm), hurl⟩

/-- Outside the vault, the rows that can be enabled are of the file that is read. -/
theorem filename_of_named {own : List String} (hd : osinfo.distro = some distro)
    (hown : RepoNames.distroReposNames osinfo distro = .ok own)
    (hvault : distro = .Rocky → vault osinfo = false) {row : ConfRow}
    (hrow : row ∈ (distroConf (vault osinfo) distro).rows)
    (hnamed : row.group ∈ own ++ RepoNames.commonReposNames) :
    row.filename = distroRepoFile vault osinfo distro := by
  have hrhel : ∀ row ∈ rhelConf.rows, row.filename = "rhel.repo" := by decide
  have horacle : ∀ row ∈ oracleConf.rows, row.filename = "oracle.repo" := by decide
  have halma : ∀ row ∈ almaConf.rows, row.filename = "almalinux.repo" := by decide
  have hrocky : ∀ row ∈ rockyUpstreamConf.rows,
      row.group ∈ ["appstream", "baseos", "crb"] ++ RepoNames.commonReposNames →
        row.filename = "rocky.repo" := by decide
  cases distro with
  | RHEL => exact hrhel row hrow
  | OL => exact horacle row hrow
  | AlmaLinux => exact halma row hrow
  | Rocky =>
    rw [distroReposNames_rocky hd] at hown
    obtain rfl := Except.ok.inj hown
    rw [hvault rfl] at hrow
    rw [distroRepoFile, hvault rfl]
    exact hrocky row hrow hnamed

/-! ### The end of an address -/

/-- The last two segments of a template. -/
def ending (fmt : String) : List Format.Segment :=
  (Format.scan .text fmt.toList).drop ((Format.scan .text fmt.toList).length - 2)

/-- Both templates of the row end so. -/
def EndsIn (endings : List (List Format.Segment)) (row : ConfRow) : Prop :=
  ending row.upstreamRepo ∈ endings ∧ ∃ fmt ∈ row.mirrorRepo, ending fmt ∈ endings

instance (endings : List (List Format.Segment)) (row : ConfRow) : Decidable (EndsIn endings row) :=
  inferInstanceAs (Decidable (_ ∧ _))

variable {vars : RepoConfigVars} {row : ConfRow} {url : String}

/-- An address is what a template is formatted to, after some text. -/
theorem exists_format_of_locates {endings : List (List Format.Segment)} (hends : EndsIn endings row)
    (h : Locates opts specs vars row url) :
    ∃ base fmt s, ending fmt ∈ endings ∧ interpolateVars specs fmt vars = .ok s ∧
      url = Text.rstrip (base ++ s) "/" := by
  obtain ⟨config, hinter, rfl | rfl⟩ := h
  · exact ⟨"", row.upstreamRepo, config.upstream.repo, hends.1, hinter.upstream, by
      rw [String.empty_append, UpstreamRepo.baseurl]⟩
  · obtain ⟨fmt, hfmt, hend⟩ := hends.2
    exact ⟨opts.mirrorBaseUrl ++ "/", fmt, config.mirror.repo, hend, hinter.mirror fmt hfmt, rfl⟩

theorem getLast?_of_suffix {base s : String} {c : Char} (h : [c, '/'] <:+ s.toList) (hc : c ≠ '/') :
    (Text.rstrip (base ++ s) "/").toList.getLast? = some c := by
  refine Text.getLast?_rstrip (d := '/') ?_ (by simpa using hc) (by decide)
  rw [String.toList_append]
  exact h.trans (List.suffix_append _ _)

/-- The repositories of Rocky Linux end in `os`. -/
theorem getLast?_of_endsIn_os (hends : EndsIn [[.text 's', .text '/']] row)
    (h : Locates opts specs vars row url) : url.toList.getLast? = some 's' := by
  obtain ⟨base, fmt, s, hend, hs, rfl⟩ := exists_format_of_locates hends h
  have hsuffix : ending fmt <:+ Format.scan .text fmt.toList := List.drop_suffix _ _
  rw [List.mem_singleton.mp hend] at hsuffix
  exact getLast?_of_suffix (Format.format_ends_texts (l := ['s', '/']) hsuffix hs) (by decide)

/-- How the repositories of `epel.repo` and `OpenHPC.repo` end: in `debug`, in `tree`, in the
architecture or in the release. -/
def commonEndings : List (List Format.Segment) :=
  [[.text 'g', .text '/'], [.text 'e', .text '/'],
    [.field (.name "arch".toList) [], .text '/'],
    [.field (.name "releasever".toList) [], .text '/']]

/-- A numeral ends in a digit. -/
theorem exists_digit_suffix (n : ℕ) : ∃ c, [c] <:+ (toString n).toList ∧ c.isDigit := by
  rw [Nat.toString_eq_repr, Nat.toList_repr]
  rcases List.eq_nil_or_concat' (Nat.toDigits 10 n) with hnil | ⟨l, c, hl⟩
  · exact absurd hnil Nat.toDigits_ne_nil
  · have hmem : c ∈ Nat.toDigits 10 n := by
      rw [hl]
      exact List.mem_append_right _ List.mem_cons_self
    exact ⟨c, ⟨l, hl.symm⟩, Nat.isDigit_of_mem_toDigits (by omega) (by omega) hmem⟩

theorem getLast?_of_endsIn_common (hends : EndsIn commonEndings row)
    (h : Locates opts specs (repoConfigVars opts osinfo) row url) :
    url.toList.getLast? ≠ some 's' := by
  obtain ⟨base, fmt, s, hend, hs, rfl⟩ := exists_format_of_locates hends h
  suffices hlast : ∃ c, [c, '/'] <:+ s.toList ∧ c ≠ '/' ∧ c ≠ 's' by
    obtain ⟨c, hc, hslash, hne⟩ := hlast
    rw [getLast?_of_suffix hc hslash]
    simpa using hne
  have hsuffix : ending fmt <:+ Format.scan .text fmt.toList := List.drop_suffix _ _
  simp only [commonEndings, List.mem_cons, List.not_mem_nil, or_false] at hend
  rcases hend with hend | hend | hend | hend
  · rw [hend] at hsuffix
    exact ⟨'g', Format.format_ends_texts (l := ['g', '/']) hsuffix hs, by decide, by decide⟩
  · rw [hend] at hsuffix
    exact ⟨'e', Format.format_ends_texts (l := ['e', '/']) hsuffix hs, by decide, by decide⟩
  · rw [hend] at hsuffix
    obtain ⟨value, hvalue, hshown⟩ := Format.format_ends_field (l := ['/']) hsuffix hs
    obtain rfl : NamedEnum.name osinfo.arch = value := Option.some.inj hvalue
    cases harch : osinfo.arch with
    | x86_64 =>
      rw [harch] at hshown
      refine ⟨'4', List.IsSuffix.trans ?_ hshown, by decide, by decide⟩
      exact ⟨"x86_6".toList, rfl⟩
    | ppc64le =>
      rw [harch] at hshown
      refine ⟨'e', List.IsSuffix.trans ?_ hshown, by decide, by decide⟩
      exact ⟨"ppc64l".toList, rfl⟩
  · rw [hend] at hsuffix
    obtain ⟨value, hvalue, hshown⟩ := Format.format_ends_field (l := ['/']) hsuffix hs
    obtain rfl : toString osinfo.majorVersion = value := Option.some.inj hvalue
    obtain ⟨c, ⟨l, hl⟩, hdigit⟩ := exists_digit_suffix osinfo.majorVersion
    refine ⟨c, List.IsSuffix.trans ⟨l, ?_⟩ hshown, ?_, ?_⟩
    · rw [← hl, List.append_assoc]
      rfl
    · rintro rfl
      exact absurd hdigit (by decide)
    · rintro rfl
      exact absurd hdigit (by decide)

/-! ### The vault -/

/-- Every address of the image was read from one of the three files. -/
theorem exists_file_of_mem (hd : osinfo.distro = some distro) {urls : List String} {t : FS}
    (h : getxCATOSImageRepos codec vault osinfo fs = .ok urls t) (hm : url ∈ urls) :
    ∃ filename ∈ [distroRepoFile vault osinfo distro, "epel.repo", "OpenHPC.repo"],
      ∃ read, addReposFromFile codec osinfo filename fs = .ok read fs ∧ url ∈ read := by
  have hsame : ∀ {filename urls s t}, addReposFromFile codec osinfo filename s = .ok urls t →
      t = s := by
    intro filename urls s t h
    obtain ⟨repos, hrepos, -⟩ := (addReposFromFile_ok_iff hd).mp h
    exact (parse_ok hrepos).1
  obtain ⟨distro', s₀, hget, hread⟩ := bind_ok_iff.mp h
  obtain ⟨hdistro, rfl⟩ := liftExcept_ok_iff.mp hget
  obtain rfl := Option.some.inj ((OS.getDistro_ok_iff.mp hdistro).symm.trans hd)
  obtain ⟨own, s₁, hown, hread₁⟩ := bind_ok_iff.mp hread
  obtain rfl := hsame hown
  obtain ⟨epel, s₂, hepel, hread₂⟩ := bind_ok_iff.mp hread₁
  obtain rfl := hsame hepel
  obtain ⟨openHPC, s₃, hopenHPC, hread₃⟩ := bind_ok_iff.mp hread₂
  obtain rfl := hsame hopenHPC
  obtain ⟨rfl, -⟩ := EStateM.Result.ok.inj hread₃
  rcases List.mem_append.mp hm with hm | hm
  · rcases List.mem_append.mp hm with hm | hm
    · exact ⟨_, by simp, own, hown, hm⟩
    · exact ⟨_, by simp, epel, hepel, hm⟩
  · exact ⟨_, by simp, openHPC, hopenHPC, hm⟩

theorem extension_distroRepoFile (vault : OS → Bool) (osinfo : OS) (distro : OS.Distro) :
    Text.extension (distroRepoFile vault osinfo distro) = ".repo" := by
  cases distro with
  | RHEL => exact (by decide : Text.extension "rhel.repo" = ".repo")
  | OL => exact (by decide : Text.extension "oracle.repo" = ".repo")
  | AlmaLinux => exact (by decide : Text.extension "almalinux.repo" = ".repo")
  | Rocky =>
    rw [distroRepoFile]
    split_ifs <;> decide

theorem extension_of_mem {filename : String}
    (h : filename ∈ [distroRepoFile vault osinfo distro, "epel.repo", "OpenHPC.repo"]) :
    Text.extension filename = ".repo" := by
  simp only [List.mem_cons, List.not_mem_nil, or_false] at h
  rcases h with rfl | rfl | rfl
  · exact extension_distroRepoFile vault osinfo distro
  · decide
  · decide

theorem vault_rows : ∀ id ∈ ["appstream", "baseos", "crb"],
    ∃ row ∈ rockyVaultConf.rows, row.group = id ∧ row.filename = "rocky.repo" := by
  decide

/-- With the vault only the three can be enabled. -/
theorem group_of_named {own : List String} (hd : osinfo.distro = some .Rocky)
    (hown : RepoNames.distroReposNames osinfo .Rocky = .ok own) (hvault : vault osinfo)
    {row : ConfRow} (hrow : row ∈ (distroConf (vault osinfo) .Rocky).rows)
    (hnamed : row.group ∈ own ++ RepoNames.commonReposNames) :
    row.group ∈ ["appstream", "baseos", "crb"] ∧ row.filename = "rocky.repo" := by
  have hthree : ∀ row ∈ rockyVaultConf.rows,
      row.group ∈ ["appstream", "baseos", "crb"] ++ RepoNames.commonReposNames →
        row.group ∈ ["appstream", "baseos", "crb"] ∧ row.filename = "rocky.repo" := by decide
  rw [distroReposNames_rocky hd] at hown
  obtain rfl := Except.ok.inj hown
  rw [hvault] at hrow
  exact hthree row hrow hnamed

/-- The three files have no address in common with the file that the vault is generated into. -/
theorem endsIn_rows : ∀ row ∈ shippedRows true .Rocky,
    (row.filename = "rocky.repo" → EndsIn [[.text 's', .text '/']] row) ∧
      (row.filename ∈ ["rocky-vault.repo", "epel.repo", "OpenHPC.repo"] →
        EndsIn commonEndings row) := by
  decide +kernel

/-- What is enabled of the vault is in `rocky.repo`, which is not read. -/
theorem not_listsEnabledOwn (R : Run opts answers specs codec vault osinfo fs fs')
    (hmiss : MissesVault codec vault osinfo opts fs) :
    ¬ ListsEnabledOwn codec vault osinfo opts fs' := by
  intro hlists
  obtain ⟨hwet, hrocky, hvault, id, hid, hshown⟩ := hmiss
  have hdistro : R.distro = .Rocky := Option.some.inj (R.hdistro.symm.trans hrocky)
  have hrows : R.rows = shippedRows true .Rocky := by rw [Run.rows, hdistro, hvault]
  obtain ⟨row, hown, rfl, hfile⟩ := vault_rows id hid
  have hown : row ∈ (distroConf (vault osinfo) R.distro).rows := by
    rw [hdistro, hvault]
    exact hown
  have hrow := mem_rows_of_own R hown
  have hnamed : row.group ∈ R.repos := by
    have hnames := R.names
    rw [hdistro, distroReposNames_rocky hrocky] at hnames
    rw [Run.repos, ← Except.ok.inj hnames]
    exact List.mem_append_left _ hid
  -- the repository is enabled in `rocky.repo`
  obtain ⟨repos, urls, hparse, hread, hlisted⟩ := addReposFromFile_run R hrow
  obtain ⟨key, hkey, hgroup⟩ := R.exists_key hrow
  have hmem : row.group ∈ repos := by
    rw [mem_repos_iff hparse, groupsAt, hkey, Option.map_some, Option.getD_some]
    exact hgroup
  obtain ⟨repo, hrepo⟩ := exists_getElem? hmem
  have henabled := (enabled_row_iff R hrow hparse hrepo).mpr ⟨hnamed, hfile ▸ hshown⟩
  obtain ⟨url, hurls, hurl⟩ := hlisted row.group repo hrepo henabled
  obtain ⟨other, hother, hsame, hlocates⟩ :=
    locates_of_addReposFromFile R (R.usable hrow) hread hurls
  rw [hrows] at hother
  have hends := getLast?_of_endsIn_os ((endsIn_rows other hother).1 (hsame.trans hfile)) hlocates
  -- but nothing in the image ends as it does
  obtain ⟨images, himages, url', hm, hurl'⟩ :=
    hlists row repo ⟨hwet, ⟨_, R.hdistro, hown⟩, ⟨repos, hparse, hrepo⟩, henabled⟩
  obtain rfl := Option.some.inj (hurl.symm.trans hurl')
  obtain ⟨filename, hname, read, hread', hm⟩ := exists_file_of_mem R.hdistro himages hm
  obtain ⟨image, himage, rfl, hlocates'⟩ :=
    locates_of_addReposFromFile R (extension_of_mem hname) hread' hm
  rw [hrows] at himage
  rw [hdistro, distroRepoFile, if_pos hvault] at hname
  exact getLast?_of_endsIn_common ((endsIn_rows image himage).2 hname) hlocates' hends

/-! ### The initialisation and the image -/

/-- After an initialisation that returned, the image gets every repository of the distribution
that was enabled, exactly when the vault of Rocky Linux was not used, or gave nothing. -/
theorem listsEnabledOwn_iff (hconf : ShippedConfs codec fs RepoConfigParser.defaultPath)
    (hnone : ∀ q, RPMRepositoryGenerator.backupPath <+: q → fs.get? q = none) {order : WalkOrder}
    {s : RPMRepoManager × FS} {u : Unit}
    (h : initializeDefaultRepositories opts answers specs codec vault osinfo order ({}, fs) =
      .ok u s) :
    ListsEnabledOwn codec vault osinfo opts s.2 ↔ ¬ MissesVault codec vault osinfo opts fs := by
  cases hdry : opts.dryRun with
  | true =>
    refine iff_of_true (fun row repo henabled => ?_) fun hmiss => ?_
    · exact absurd henabled.wet (by simp [hdry])
    · exact absurd hmiss.wet (by simp [hdry])
  | false =>
    obtain ⟨R, -⟩ := run_of_initialise hdry hconf hnone h
    constructor
    · exact fun hlists hmiss => not_listsEnabledOwn R hmiss hlists
    · intro hmiss
      refine listsEnabledOwn_of_filename R fun row hrow hnamed hshown => ?_
      refine filename_of_named R.hdistro R.names (fun hrocky => ?_) hrow hnamed
      by_contra hvault
      rw [Bool.not_eq_false] at hvault
      have hd := R.hdistro
      have hnames := R.names
      rw [hrocky] at hd hnames hrow
      obtain ⟨hthree, hfile⟩ := group_of_named hd hnames hvault hrow hnamed
      exact hmiss ⟨hdry, hd, hvault, _, hthree, hfile ▸ hshown⟩

/-- An installation without repository files. -/
def installation : FS :=
  [("repos.conf", reposConf), ("rhel.conf", rhelConf), ("oracle.conf", oracleConf),
    ("alma.conf", almaConf), ("rocky-vault.conf", rockyVaultConf),
    ("rocky-upstream.conf", rockyUpstreamConf)].foldl
      (fun fs conf => fs.set (RepoConfigParser.defaultPath.child conf.1)
        (.file (GKeyFile.text.toData conf.2.toKeyFile)))
      { nodes := ⟨[(["etc"], .dir), (basedir, .dir), (["opt"], .dir),
          (["opt", "cloysterhpc"], .dir), (["opt", "cloysterhpc", "conf"], .dir),
          (RepoConfigParser.defaultPath, .dir)], by decide⟩ }

theorem shippedConfs_installation :
    ShippedConfs GKeyFile.text installation RepoConfigParser.defaultPath := by
  constructor <;> simp [installation, keyFileAt_set, Path.child]

theorem installation_no_backup :
    ∀ q, RPMRepositoryGenerator.backupPath <+: q → installation.get? q = none := by
  intro q hq
  rw [FS.get?_eq_none_iff]
  intro hm
  have hkeys : installation.keys = [["etc"], basedir, ["opt"], ["opt", "cloysterhpc"],
      ["opt", "cloysterhpc", "conf"], RepoConfigParser.defaultPath] ++
      ["repos.conf", "rhel.conf", "oracle.conf", "alma.conf", "rocky-vault.conf",
        "rocky-upstream.conf"].map RepoConfigParser.defaultPath.child := rfl
  rw [hkeys] at hm
  revert hq
  revert q
  decide

theorem initialise_installation (useVault : Bool) (order : WalkOrder) :
    ∃ s, initializeDefaultRepositories {} (fun _ _ => true) (fun _ => none) GKeyFile.text
      (fun _ => useVault) rocky order ({}, installation) = .ok () s := by
  refine initialise_returns rfl shippedConfs_installation rfl installation_no_backup rfl ?_ ?_
    (by decide) order
  · rw [FS.createDirectories, if_neg (by decide)]
    exact ⟨_, rfl⟩
  · have hnone : installation.children basedir = [] := rfl
    rw [hnone]
    exact fun _ h => absurd h List.not_mem_nil

/-- A release that is not in the vault. -/
theorem listsEnabledOwn_rocky : ∃ s,
    initializeDefaultRepositories {} (fun _ _ => true) (fun _ => none) GKeyFile.text
      (fun _ => false) rocky .insertion ({}, installation) = .ok () s ∧
    ListsEnabledOwn GKeyFile.text (fun _ => false) rocky {} s.2 := by
  obtain ⟨s, hs⟩ := initialise_installation false .insertion
  refine ⟨s, hs, (listsEnabledOwn_iff shippedConfs_installation installation_no_backup hs).mpr ?_⟩
  exact fun hmiss => absurd hmiss.vault (by decide)

/-- A release that is. -/
theorem not_listsEnabledOwn_rocky : ∃ s,
    initializeDefaultRepositories {} (fun _ _ => true) (fun _ => none) GKeyFile.text
      (fun _ => true) rocky .insertion ({}, installation) = .ok () s ∧
    ¬ ListsEnabledOwn GKeyFile.text (fun _ => true) rocky {} s.2 := by
  obtain ⟨s, hs⟩ := initialise_installation true .insertion
  obtain ⟨R, -⟩ := run_of_initialise rfl shippedConfs_installation installation_no_backup hs
  refine ⟨s, hs, not_listsEnabledOwn R ⟨rfl, rfl, rfl, "baseos", by decide, ?_⟩⟩
  have hnone : groupsAt GKeyFile.text installation (basedir.child ".repo") = [] := rfl
  rintro ⟨hmem, -⟩
  rw [hnone] at hmem
  exact absurd hmem List.not_mem_nil

end XCAT

end Cloyster
