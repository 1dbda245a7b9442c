import Cloyster.Services.Repos.Filing
import Cloyster.Services.Repos.Generator

/-! What the shipped conf files list once they are loaded. Every configuration
comes from one row of a table, under the file name of that row, and every file
name can be written: the loaded conf files are well named. -/

namespace Cloyster

open Lib

namespace RepoConfigParser

variable {specs : List Char → Option (String → String)} {vars : RepoConfigVars}

/-- The configuration is the row with its templates interpolated. -/
structure Interpolates (specs : List Char → Option (String → String)) (vars : RepoConfigVars)
    (row : ConfRow) (config : RepoConfig) : Prop where
  id : config.repoId.id = row.group
  filename : config.repoId.filename = row.filename
  name : interpolateVars specs row.name vars = .ok config.repoId.name
  mirror : ∀ fmt, row.mirrorRepo = some fmt →
    interpolateVars specs fmt vars = .ok config.mirror.repo
  upstream : interpolateVars specs row.upstreamRepo vars = .ok config.upstream.repo

theorem interpolates_of_parseGroup {table : ConfTable} {row : ConfRow} {config : RepoConfig}
    (hrow : row ∈ table.rows)
    (h : parseGroup specs table.toKeyFile vars row.group = .ok config) :
    Interpolates specs vars row config := by
  obtain ⟨hname, hfilename, hmirror, -, hupstream, -⟩ := get?_entries row
  obtain ⟨hid, hname', hfilename', hmirror', -, hupstream', -⟩ := describes_of_parseGroup h
  rw [value?_toKeyFile table hrow] at hname' hfilename' hmirror' hupstream'
  rw [hname] at hname'
  rw [hfilename] at hfilename'
  rw [hupstream] at hupstream'
  refine ⟨hid, (Option.some.inj hfilename').symm, Option.some.inj hname', fun fmt hfmt => ?_,
    Option.some.inj hupstream'⟩
  rwa [hmirror, hfmt] at hmirror'

/-- Every configuration is filed under its own file name, and no file is empty. -/
def Filed (conf : RepoConfFile) : Prop :=
  ∀ (filename : String) (configs : List RepoConfig), conf.files[filename]? = some configs →
    configs ≠ [] ∧ ∀ config ∈ configs, config.repoId.filename = filename

theorem filed_of_files {file : KeyFile} {conf : RepoConfFile} {configs : List RepoConfig}
    (h : Files specs vars file conf configs) : Filed conf := by
  intro filename listed hget
  have hlisted := h.files filename
  rw [hget, Option.getD_some] at hlisted
  have hmem : filename ∈ conf.filesnames := by
    rw [RepoConfFile.filesnames, Std.TreeMap.mem_keys, Std.TreeMap.mem_iff_isSome_getElem?, hget]
    rfl
  obtain ⟨config, hconfig, hname⟩ := (h.mem_filesnames filename).mp hmem
  rw [hlisted]
  constructor
  · exact List.ne_nil_of_mem (List.mem_filter.mpr ⟨hconfig, by simpa using hname⟩)
  · intro other hother
    simpa using (List.mem_filter.mp hother).2

/-- What is listed comes from the rows, under their file names, and every row is listed. -/
structure ListsRows (specs : List Char → Option (String → String)) (vars : RepoConfigVars)
    (rows : List ConfRow) (listed : String × List RepoConfig → Prop) : Prop where
  ne_nil : ∀ entry, listed entry → entry.2 ≠ []
  row : ∀ entry, listed entry → ∀ config ∈ entry.2, ∃ row ∈ rows, row.filename = entry.1 ∧
    Interpolates specs vars row config
  listed : ∀ row ∈ rows, ∃ entry, listed entry ∧ entry.1 = row.filename ∧
    ∃ config ∈ entry.2, config.repoId.id = row.group

theorem ListsRows.or {rows rows' : List ConfRow} {listed listed' : String × List RepoConfig → Prop}
    (h : ListsRows specs vars rows listed) (h' : ListsRows specs vars rows' listed') :
    ListsRows specs vars (rows ++ rows') fun entry => listed entry ∨ listed' entry := by
  constructor
  · rintro entry (hl | hl)
    · exact h.ne_nil entry hl
    · exact h'.ne_nil entry hl
  · rintro entry (hl | hl) config hm
    · obtain ⟨row, hrow, hspec⟩ := h.row entry hl config hm
      exact ⟨row, List.mem_append_left _ hrow, hspec⟩
    · obtain ⟨row, hrow, hspec⟩ := h'.row entry hl config hm
      exact ⟨row, List.mem_append_right _ hrow, hspec⟩
  · intro row hm
    rcases List.mem_append.mp hm with hm | hm
    · obtain ⟨entry, hl, hspec⟩ := h.listed row hm
      exact ⟨entry, Or.inl hl, hspec⟩
    · obtain ⟨entry, hl, hspec⟩ := h'.listed row hm
      exact ⟨entry, Or.inr hl, hspec⟩

theorem listsRows_of_parseGroups {table : ConfTable} {conf : RepoConfFile}
    (h : parseGroups specs table.toKeyFile vars {} table.toKeyFile.getGroups = .ok conf) :
    ListsRows specs vars table.rows fun entry => conf.files[entry.1]? = some entry.2 := by
  obtain ⟨configs, hfiles⟩ := files_of_parseGroups h
  have hfiled := filed_of_files hfiles
  have hrow : ∀ config, conf.Lists config → ∃ row ∈ table.rows,
      Interpolates specs vars row config := by
    intro config hconfig
    obtain ⟨repoGroup, hgroup, hparse⟩ := ((parseGroups_lists h config).mp hconfig).resolve_left
      (RepoConfFile.not_lists_empty config)
    obtain ⟨row, hm, rfl⟩ := (mem_getGroups_toKeyFile table repoGroup).mp hgroup
    exact ⟨row, hm, interpolates_of_parseGroup hm hparse⟩
  constructor
  · exact fun entry hget => (hfiled entry.1 entry.2 hget).1
  · intro entry hget config hm
    obtain ⟨row, hrow, hinter⟩ := hrow config ⟨entry.1, entry.2, hget, hm⟩
    have hname := (hfiled entry.1 entry.2 hget).2 config hm
    exact ⟨row, hrow, hinter.filename.symm.trans hname, hinter⟩
  · intro row hm
    have hgroup : row.group ∈ table.toKeyFile.getGroups :=
      (mem_getGroups_toKeyFile table row.group).mpr ⟨row, hm, rfl⟩
    have hfound := (parseGroups_find_iff h row.group).mpr hgroup
    obtain ⟨config, ⟨filename, configs, hget, hconfig⟩, hid⟩ :=
      (RepoConfFile.find_isSome_iff conf row.group).mp hfound
    obtain ⟨other, hother, hinter⟩ := hrow config ⟨filename, configs, hget, hconfig⟩
    -- groups are distinct, so it is the row itself
    obtain rfl : other = row :=
      List.inj_on_of_nodup_map table.nodup hother hm (hinter.id.symm.trans hid)
    have hname := (hfiled filename configs hget).2 config hconfig
    exact ⟨(filename, configs), hget, hname.symm.trans hinter.filename, config, hconfig, hid⟩

/-- The rows of the two conf files that are loaded. -/
def shippedRows (useVault : Bool) (distro : OS.Distro) : List ConfRow :=
  (distroConf useVault distro).rows ++ reposConf.rows

/-- Loading the shipped files gives their rows. -/
theorem load_rows (specs : List Char → Option (String → String)) {codec : GKeyFile} {fs : FS}
    {basePath : Path} {osinfo : OS} {distro : OS.Distro} (h : ShippedConfs codec fs basePath) (vault : OS → Bool)
    (hd : osinfo.distro = some distro) (vars : RepoConfigVars) :
    ∃ conffiles, load specs codec vault basePath osinfo vars fs = .ok conffiles fs ∧
      ListsRows specs vars (shippedRows (vault osinfo) distro) (RepoGenerator.Listed conffiles) := by
  obtain ⟨common, hcommon, -⟩ := parseGroups_toKeyFile reposConf specs vars
  obtain ⟨own, hown, -⟩ := parseGroups_toKeyFile (distroConf (vault osinfo) distro) specs vars
  refine ⟨⟨own, common⟩, ?_,
    (listsRows_of_parseGroups hown).or (listsRows_of_parseGroups hcommon)⟩
  have hdistro : liftExcept osinfo.getDistro fs = .ok distro fs := by
    simp [OS.getDistro, hd]
  have hparseCommon : parse specs codec (basePath.child "repos.conf") {} vars fs =
      .ok common fs := by
    rw [parse_of_keyFileAt h.repos, hcommon]
    rfl
  have hparseOwn : parse specs codec (distroReposPath vault basePath osinfo distro) {} vars fs =
      .ok own fs := by
    rw [parse_of_keyFileAt (h.distroReposPath vault osinfo distro), hown]
    rfl
  rw [load, bind_of_ok hdistro, bind_of_ok hparseCommon, bind_of_ok hparseOwn]
  rfl

/-! ### The names can be written -/

/-- The file name is a plain one with the extension of repository files, and the
name of the repository has a character outside the placeholders. -/
def Usable (row : ConfRow) : Bool :=
  decide ('/' ∉ row.filename.toList) && Text.extension row.filename == ".repo" &&
    (Format.scan .text row.name.toList).any fun
      | .text _ => true
      | _ => false

theorem usable_tables : ∀ table ∈ [reposConf, almaConf, oracleConf, rhelConf, rockyUpstreamConf,
    rockyVaultConf], ∀ row ∈ table.rows, Usable row := by
  decide +kernel

theorem usable_shippedRows (useVault : Bool) (distro : OS.Distro) :
    ∀ row ∈ shippedRows useVault distro, Usable row := by
  intro row hm
  rcases List.mem_append.mp hm with hm | hm
  · refine usable_tables (distroConf useVault distro) ?_ row hm
    cases distro with
    | Rocky => cases useVault <;> simp [distroConf]
    | _ => simp [distroConf]
  · exact usable_tables reposConf List.mem_cons_self row hm

/-- Every listed name can be written. -/
theorem ListsRows.wellNamed {rows : List ConfRow} {conffiles : RepoConfFiles}
    (h : ListsRows specs vars rows (RepoGenerator.Listed conffiles))
    (hrows : ∀ row ∈ rows, Usable row) : RepoGenerator.WellNamed conffiles := by
  have husable : ∀ entry, RepoGenerator.Listed conffiles entry →
      '/' ∉ entry.1.toList ∧ Text.extension entry.1 = ".repo" := by
    intro entry hl
    obtain ⟨config, hm⟩ := List.exists_mem_of_ne_nil _ (h.ne_nil entry hl)
    obtain ⟨row, hrow, hname, -⟩ := h.row entry hl config hm
    have hcheck := hrows row hrow
    simp only [Usable, Bool.and_eq_true, decide_eq_true_eq, beq_iff_eq] at hcheck
    rw [← hname]
    exact hcheck.1
  constructor
  · exact fun entry hl => (husable entry hl).1
  · exact fun entry hl => (husable entry hl).2
  · intro entry hl config hm hempty
    obtain ⟨row, hrow, -, hinter⟩ := h.row entry hl config hm
    have hcheck := hrows row hrow
    simp only [Usable, Bool.and_eq_true, List.any_eq_true] at hcheck
    obtain ⟨seg, hseg, htext⟩ := hcheck.2
    cases seg with
    | text c =>
      have hc := Format.mem_format hseg hinter.name
      rw [hempty] at hc
      exact absurd hc (by simp)
    | field id spec => exact absurd htext (by simp)
    | bad e => exact absurd htext (by simp)

end RepoConfigParser

end Cloyster
