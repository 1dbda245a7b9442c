import Cloyster.Lib.Grouping
import Cloyster.Services.Repos.Names

/-! What loading a conf file gives: one configuration for each group, filed under the name of
its repository file. Groups of one file stay in the order of the conf file, and the identifier
finds the configuration again. -/

namespace Cloyster.RepoConfigParser

open Lib

variable (specs : List Char → Option (String → String)) (vars : RepoConfigVars) (file : KeyFile)

/-- The configuration has what the group says, each template interpolated. -/
structure Describes (repoGroup : String) (config : RepoConfig) : Prop where
  id : config.repoId.id = repoGroup
  name : (file.value? repoGroup "name").map (interpolateVars specs · vars) =
    some (.ok config.repoId.name)
  filename : file.value? repoGroup "filename" = some config.repoId.filename
  mirrorRepo : (file.value? repoGroup "mirror.repo").elim (.ok "")
    (interpolateVars specs · vars) = .ok config.mirror.repo
  mirrorGpgkey : Option.Rel (interpolateVars specs · vars = .ok ·)
    (file.value? repoGroup "mirror.gpgkey") config.mirror.gpgkey
  upstreamRepo : (file.value? repoGroup "upstream.repo").map (interpolateVars specs · vars) =
    some (.ok config.upstream.repo)
  upstreamGpgkey : Option.Rel (interpolateVars specs · vars = .ok ·)
    (file.value? repoGroup "upstream.gpgkey") config.upstream.gpgkey

/-- The configurations of all groups in the order of the conf file, and nothing else, each filed
once. -/
structure Files (conf : RepoConfFile) (configs : List RepoConfig) : Prop where
  describes : List.Forall₂ (Describes specs vars file) file.getGroups configs
  once : (conf.files.toList.flatMap Prod.snd).Perm configs
  files : ∀ filename, (conf.files[filename]?).getD [] =
    configs.filter fun config => config.repoId.filename = filename
  mem_filesnames : ∀ filename, filename ∈ conf.filesnames ↔
    ∃ config ∈ configs, config.repoId.filename = filename
  sorted : conf.filesnames.Pairwise (· < ·)
  find : ∀ config ∈ configs, conf.find config.repoId.id = some config
  find_none : ∀ repoid, repoid ∉ file.getGroups → conf.find repoid = none

variable {specs vars file} {codec : GKeyFile} {fs : FS} {path : Path}

/-! ### One group -/

theorem interpolateOpt_rel {onError : Format.FormatError → Exn} {fmt s : Option String}
    (h : interpolateOpt specs vars onError fmt = .ok s) :
    Option.Rel (interpolateVars specs · vars = .ok ·) fmt s := by
  cases fmt with
  | none =>
    obtain rfl := Except.ok.inj h
    exact .none
  | some fmt =>
    rw [interpolateOpt] at h
    cases hout : interpolateVars specs fmt vars with
    | error e => rw [hout] at h; cases h
    | ok s =>
      rw [hout] at h
      obtain rfl := Except.ok.inj h
      exact .some hout

theorem describes_of_parseGroup {repoGroup : String} {config : RepoConfig}
    (h : parseGroup specs file vars repoGroup = .ok config) :
    Describes specs vars file repoGroup config := by
  simp only [parseGroup, except_bind_ok_iff, throwIf_ok_iff, KeyFile.getString_ok_iff,
    mapError_ok_iff, KeyFile.getStringOpt_ok_iff, except_pure_ok_iff] at h
  obtain ⟨name, hname, -, -, _, hname', filename, hfile, -, -, _, ⟨-, rfl⟩, mirror, hmirror, _,
    ⟨-, rfl⟩, _, hmg, up, hup, -, -, _, hup', _, ⟨-, rfl⟩, _, hug, rfl⟩ := h
  refine ⟨rfl, ?_, hfile, ?_, interpolateOpt_rel hmg, ?_, interpolateOpt_rel hug⟩
  · rw [hname, Option.map_some, hname']
  · have hrel := interpolateOpt_rel hmirror
    generalize file.value? repoGroup "mirror.repo" = fmt at hrel ⊢
    cases hrel with
    | some hout => exact hout
    | none => rfl
  · rw [hup, Option.map_some, hup']

/-! ### All groups -/

theorem parseGroups_ok {groups : List String} {output conf : RepoConfFile}
    (h : parseGroups specs file vars output groups = .ok conf) :
    ∃ configs, List.Forall₂ (Describes specs vars file) groups configs ∧
      conf.files = Grouping.appendAll (·.repoId.filename) id output.files configs := by
  induction groups generalizing output with
  | nil =>
    obtain rfl : output = conf := by simpa [parseGroups] using h
    exact ⟨[], .nil, rfl⟩
  | cons repoGroup groups ih =>
    simp only [parseGroups, except_bind_ok_iff] at h
    obtain ⟨config, hconfig, hrest⟩ := h
    obtain ⟨configs, hdescribes, hfiles⟩ := ih hrest
    exact ⟨config :: configs, .cons (describes_of_parseGroup hconfig) hdescribes, hfiles⟩

theorem map_id_of_describes {groups : List String} {configs : List RepoConfig}
    (h : List.Forall₂ (Describes specs vars file) groups configs) :
    configs.map (·.repoId.id) = groups := by
  induction h with
  | nil => rfl
  | cons hdescribes _ ih => rw [List.map_cons, ih, hdescribes.id]

theorem files_of_parseGroups {conf : RepoConfFile}
    (h : parseGroups specs file vars {} file.getGroups = .ok conf) :
    ∃ configs, Files specs vars file conf configs := by
  obtain ⟨configs, hdescribes, hfiles⟩ := parseGroups_ok h
  have hids := map_id_of_describes hdescribes
  have honce : (conf.files.toList.flatMap Prod.snd).Perm configs := by
    rw [hfiles]
    exact (Grouping.flatMap_toList_appendAll_perm configs).trans (List.Perm.of_eq (List.map_id _))
  refine ⟨configs, hdescribes, honce, fun filename => ?_, fun filename => ?_, ?_,
    fun config hconfig => ?_, fun repoid hrepoid => ?_⟩
  · rw [hfiles, Grouping.getD_appendAll]
    simp
  · rw [RepoConfFile.filesnames, Std.TreeMap.mem_keys, hfiles, Grouping.mem_appendAll]
    simp
  · exact Std.TreeMap.ordered_keys.imp compare_lt_iff_lt.mp
  · have hnodup : ((conf.files.toList.flatMap Prod.snd).map (·.repoId.id)).Nodup := by
      rw [(honce.map _).nodup_iff, hids]
      exact OrdMap.keys_nodup _
    exact find?_of_mem_of_nodup hnodup (honce.mem_iff.mpr hconfig)
  · rw [RepoConfFile.find, List.find?_eq_none]
    intro config hconfig hid
    rw [← hids, ← beq_iff_eq.mp hid] at hrepoid
    exact hrepoid (List.mem_map_of_mem (honce.mem_iff.mp hconfig))

/-! ### Loading -/

/-- Loading a conf file throws exactly when a group is not well formed, and otherwise gives
every group. -/
theorem parse_spec (hfile : keyFileAt codec fs path = some file) (vars : RepoConfigVars) :
    ((∃ e fs', parse specs codec path {} vars fs = .error e fs') ↔
      ∃ repoGroup ∈ file.getGroups, ¬ wellFormed specs file repoGroup) ∧
    ((∀ repoGroup ∈ file.getGroups, wellFormed specs file repoGroup) →
      ∃ conf configs, parse specs codec path {} vars fs = .ok conf fs ∧
        Files specs vars file conf configs) := by
  have hall : (∃ conf, parseGroups specs file vars {} file.getGroups = .ok conf) ↔
      ∀ repoGroup ∈ file.getGroups, wellFormed specs file repoGroup :=
    parseGroups_exists_iff vars file.getGroups {}
  rw [parse_of_keyFileAt hfile]
  cases hparse : parseGroups specs file vars {} file.getGroups with
  | error e =>
    have hbad : ¬ ∀ repoGroup ∈ file.getGroups, wellFormed specs file repoGroup := by
      rw [← hall, hparse]
      simp
    refine ⟨iff_of_true ⟨e, fs, rfl⟩ ?_, fun hgood => absurd hgood hbad⟩
    simpa using hbad
  | ok conf =>
    have hgood := hall.mp ⟨conf, hparse⟩
    obtain ⟨configs, hfiles⟩ := files_of_parseGroups hparse
    refine ⟨iff_of_false ?_ ?_, fun _ => ⟨conf, configs, rfl, hfiles⟩⟩
    · rintro ⟨e, fs', herror⟩
      cases herror
    · rintro ⟨repoGroup, hmem, hbad⟩
      exact hbad (hgood repoGroup hmem)

theorem parse_spec_reposConf : ∃ conf configs,
    parse (fun _ => none) GKeyFile.text ["repos.conf"] {} defaultVars confDirectory =
      .ok conf confDirectory ∧
    Files (fun _ => none) defaultVars reposConf.toKeyFile conf configs :=
  (parse_spec shippedConfs_confDirectory.repos defaultVars).2 fun _ hmem =>
    wellFormed_toKeyFile reposConf hmem

end Cloyster.RepoConfigParser
