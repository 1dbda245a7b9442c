import Cloyster.Services.Repos.Initialise

/-! What an initialisation leaves in the generated files. A repository is at the address of its
row; it is enabled only under a name of the release, in the file that its identifier maps to. A
file named just `.repo` that was there before hides what it defines from the generated files that
are listed after it: that is enabled there and nowhere else. -/

namespace Cloyster

open Lib RPMRepositoryParser

namespace RepoManager

open RPMRepoManager RepoConfigParser

variable {opts : Options} {answers : Answers} {specs : List Char → Option (String → String)}
  {codec : GKeyFile} {vault : OS → Bool} {osinfo : OS} {fs fs' : FS}

/-- The address is that of the row, at the mirror or upstream. -/
def Locates (opts : Options) (specs : List Char → Option (String → String)) (vars : RepoConfigVars)
    (row : ConfRow) (url : String) : Prop :=
  ∃ config, Interpolates specs vars row config ∧
    (url = UpstreamRepo.baseurl config.upstream ∨ url = MirrorRepo.baseurl opts config.mirror)

/-- A file named just `.repo` defines it, and is listed before the other file. -/
structure Hidden (codec : GKeyFile) (fs : FS) (filename id : String) : Prop where
  mem : id ∈ groupsAt codec fs (basedir.child ".repo")
  le : fs.order.le basedir ".repo" filename

/-! ### The first of a list -/

theorem pair_sublist_or {α : Type} {l : List α} {a b : α} (ha : a ∈ l) (hb : b ∈ l) (hne : a ≠ b) :
    [a, b].Sublist l ∨ [b, a].Sublist l := by
  induction l with
  | nil => exact absurd ha List.not_mem_nil
  | cons c l ih =>
    obtain rfl | ha' := List.mem_cons.mp ha
    · have hb' := (List.mem_cons.mp hb).resolve_left hne.symm
      exact .inl (List.Sublist.cons_cons _ (List.singleton_sublist.mpr hb'))
    · obtain rfl | hb' := List.mem_cons.mp hb
      · exact .inr (List.Sublist.cons_cons _ (List.singleton_sublist.mpr ha'))
      · exact (ih ha' hb').imp (·.cons c) (·.cons c)

/-- Nothing is found that comes after another match. -/
theorem find?_ne_of_sublist {α : Type} {p : α → Bool} {l : List α} {a b : α} (hl : l.Nodup)
    (h : [a, b].Sublist l) (ha : p a) : l.find? p ≠ some b := by
  induction l with
  | nil => exact absurd h (by simp)
  | cons c l ih =>
    rw [List.nodup_cons] at hl
    intro hfind
    rw [List.find?_cons] at hfind
    cases h with
    | cons _ h =>
      split at hfind
      · obtain rfl := Option.some.inj hfind
        exact hl.1 (h.subset (by simp))
      · exact ih hl.2 h hfind
    | cons_cons _ h =>
      rw [ha] at hfind
      obtain rfl := Option.some.inj hfind
      exact hl.1 (h.subset (by simp))

/-! ### Names, files and identifiers -/

/-- An identifier maps to one file only. -/
theorem indexedAt_unique {manager : RPMRepoManager} {id : String} {path path' : Path}
    (h : IndexedAt manager id path) (h' : IndexedAt manager id path') : path = path' := by
  obtain ⟨ref, file, hidx, hfile, rfl⟩ := h
  obtain ⟨ref', file', hidx', hfile', rfl⟩ := h'
  obtain rfl := Option.some.inj (hidx.symm.trans hidx')
  obtain rfl := Option.some.inj (hfile.symm.trans hfile')
  rfl

/-- Identifiers of the two conf files are distinct. -/
theorem nodup_groups (useVault : Bool) (distro : OS.Distro) :
    ((shippedRows useVault distro).map (·.group)).Nodup := by
  cases useVault <;> cases distro <;> decide

/-- The only name with the ending and without the extension. -/
theorem eq_of_endsWith {name : String} (hends : Text.endsWith name ".repo")
    (hext : Text.extension name ≠ ".repo") : name = ".repo" := by
  rw [Text.endsWith, List.isSuffixOf_iff_suffix] at hends
  obtain ⟨l, hl⟩ := hends
  rcases List.eq_nil_or_concat' l with rfl | ⟨l, c, rfl⟩
  · exact String.toList_inj.mp hl.symm
  · refine absurd ?_ hext
    have hdots : ¬ (name = "." ∨ name = "..") := by
      rintro (rfl | rfl) <;> simpa using congrArg List.length hl
    rw [Text.extension, if_neg hdots, ← hl]
    simp

theorem hasExtensionLower_dotRepo : hasExtensionLower fs basedir ".repo" ".repo" = false := by
  have hext : Text.extension ".repo" = "" := by decide
  have hlower : ¬ Text.lower "" = Text.lower ".repo" := by decide
  simp [hasExtensionLower, hext, hlower]

theorem exists_keyFileAt_of_mem {path : Path} {id : String} (h : id ∈ groupsAt codec fs path) :
    ∃ key, keyFileAt codec fs path = some key ∧ id ∈ key.getGroups := by
  unfold groupsAt at h
  cases hkey : keyFileAt codec fs path with
  | none =>
    rw [hkey] at h
    exact absurd h List.not_mem_nil
  | some key =>
    rw [hkey] at h
    exact ⟨key, rfl, h⟩

theorem mem_children_of_mem {name id : String} (h : id ∈ groupsAt codec fs (basedir.child name)) :
    name ∈ fs.children basedir := by
  obtain ⟨key, hkey, -⟩ := exists_keyFileAt_of_mem h
  obtain ⟨text, htext, -⟩ := Option.bind_eq_some_iff.mp hkey
  exact FS.mem_children.mpr ⟨_, FS.content?_eq_some.mp htext⟩

namespace Run

/-! ### What is in a generated file -/

variable (R : Run opts answers specs codec vault osinfo fs fs')

abbrev rows : List ConfRow := shippedRows (vault osinfo) R.distro

/-- The identifiers that are enabled. -/
abbrev repos : List String := R.own ++ RepoNames.commonReposNames

/-- A generated file afterwards. -/
structure LeftIn (name : String) (key : KeyFile) : Prop where
  parseable : Parseable codec key
  group : ∀ group ∈ key.getGroups, ∃ row ∈ R.rows, row.filename = name ∧ row.group = group ∧
    ∃ url, key.value? group "baseurl" = some url ∧
      Locates opts specs (repoConfigVars opts osinfo) row url
  enabled : ∀ group ∈ key.getGroups, key.getBoolean codec group "enabled" = .ok true →
    group ∈ R.repos ∧ IndexedAt R.manager group (basedir.child name)

/-- What was written comes from the rows of the file. -/
theorem written_group {name group : String} {key : KeyFile}
    (h : Written opts codec R.conffiles name key) (hm : group ∈ key.getGroups) :
    ∃ row ∈ R.rows, row.filename = name ∧ row.group = group ∧
      ∃ url, key.value? group "baseurl" = some url ∧
        Locates opts specs (repoConfigVars opts osinfo) row url := by
  obtain ⟨configs, hlisted, config, hconfig, hid, -, hurl⟩ := h.group group hm
  obtain ⟨row, hrow, hname, hinter⟩ := R.lists.row (name, configs) hlisted config hconfig
  refine ⟨row, hrow, hname, hinter.id.symm.trans hid, ?_⟩
  rcases hurl with hurl | hurl
  · exact ⟨_, hurl, config, hinter, Or.inl rfl⟩
  · exact ⟨_, hurl, config, hinter, Or.inr rfl⟩

theorem leftIn {name : String} {key : KeyFile} (hext : Text.extension name = ".repo")
    (hkey : keyFileAt codec fs' (basedir.child name) = some key) : R.LeftIn name key := by
  -- what was generated there
  obtain ⟨old, hold⟩ : ∃ old, keyFileAt codec R.full (basedir.child name) = some old := by
    cases hfull : keyFileAt codec R.full (basedir.child name) with
    | some old => exact ⟨old, rfl⟩
    | none =>
      rw [keyFileAt_congr (R.enabled.untouched _ hfull), hfull] at hkey
      exact absurd hkey (by simp)
  have hwritten := R.generated.written name old hext hold
  obtain ⟨key', hkey', hgroups, hsame⟩ := R.enabled.kept _ old hold
  obtain rfl := Option.some.inj (hkey.symm.trans hkey')
  have hmem : ∀ group, group ∈ key.getGroups ↔ group ∈ old.getGroups := fun group => by
    rw [KeyFile.mem_getGroups_iff, KeyFile.mem_getGroups_iff, hgroups]
  have hother : ∀ group name, name ≠ "enabled" →
      SameValue codec name (old.value? group name) (key.value? group name) :=
    fun group name hne => hsame group name fun h => hne h.1
  constructor
  · intro group hm source
    have hparse := (parseRepo_exists_iff source group).mp
      (hwritten.parseable group ((hmem group).mp hm) source)
    obtain ⟨⟨label, hname, hne⟩, ⟨flag, henabled⟩, check, hcheck⟩ := hparse
    refine (parseRepo_exists_iff source group).mpr ⟨⟨label, ?_, hne⟩, ?_, check, ?_⟩
    · rw [← hname]
      exact ((hother group "name" (by decide))).symm
    · by_cases hset : group ∈ R.repos ∧ IndexedAt R.manager group (basedir.child name)
      · obtain ⟨path, key', hindexed, hkey', htrue⟩ := R.enabled.set group hset.1
        obtain rfl := indexedAt_unique hindexed hset.2
        obtain rfl := Option.some.inj (hkey.symm.trans hkey')
        exact ⟨true, getBoolean_ok_iff.mp htrue⟩
      · exact ⟨flag, ((hsame group "enabled" fun h => hset h.2).symm.trans henabled)⟩
    · exact (hother group "gpgcheck" (by decide)).symm.trans hcheck
  · intro group hm
    have hurl : key.value? group "baseurl" = old.value? group "baseurl" :=
      (hother group "baseurl" (by decide)).symm
    rw [hurl]
    exact R.written_group hwritten ((hmem group).mp hm)
  · intro group hm htrue
    by_contra hset
    obtain ⟨-, -, -, -, -, hfalse, -⟩ := hwritten.group group ((hmem group).mp hm)
    have hvalue : (old.value? group "enabled").bind codec.parseBoolean = some true :=
      (hsame group "enabled" fun h => hset h.2).trans (getBoolean_ok_iff.mp htrue)
    rw [hfalse] at hvalue
    exact absurd ((codec.parseBoolean_text false).symm.trans hvalue) (by simp)

/-! ### Every row has its file -/

theorem usable {row : ConfRow} (hrow : row ∈ R.rows) : Text.extension row.filename = ".repo" := by
  have hcheck := usable_shippedRows (vault osinfo) R.distro row hrow
  simp only [Usable, Bool.and_eq_true, beq_iff_eq] at hcheck
  exact hcheck.1.2

theorem wellNamed : RepoGenerator.WellNamed R.conffiles :=
  R.lists.wellNamed (usable_shippedRows (vault osinfo) R.distro)

/-- The backup leaves no file in the way, and a directory would have stopped the generation. -/
theorem mid_eq_none {row : ConfRow} (hrow : row ∈ R.rows) :
    R.mid.get? (basedir.child row.filename) = none := by
  obtain ⟨entry, hlisted, hname, -⟩ := R.lists.listed row hrow
  obtain ⟨n, hn⟩ := R.completes.returns
  have hgenerable := RepoGenerator.generable_of_generate R.wellNamed R.backedUp.isDir hn
  cases hnode : R.mid.get? (basedir.child row.filename) with
  | none => rfl
  | some node =>
    cases node with
    | file text => exact absurd hnode (R.backedUp.not_file (R.usable hrow) text)
    | dir =>
      rw [← hname] at hnode
      exact absurd hnode (hgenerable.notDir entry hlisted)

theorem mem_groupsAt_full {row : ConfRow} (hrow : row ∈ R.rows) :
    row.group ∈ groupsAt codec R.full (basedir.child row.filename) := by
  obtain ⟨⟨name, configs⟩, hlisted, hname, hconfig⟩ := R.lists.listed row hrow
  obtain rfl : name = row.filename := hname
  obtain ⟨repos, hrepos, hmem⟩ :=
    R.completes.parses row.filename ⟨configs, hlisted⟩ (R.mid_eq_none hrow)
  exact (mem_repos_iff hrepos row.group).mp ((hmem row.group).mpr ⟨configs, hlisted, hconfig⟩)

/-- Enabling keeps the groups of every file. -/
theorem exists_key {row : ConfRow} (hrow : row ∈ R.rows) :
    ∃ key, keyFileAt codec fs' (basedir.child row.filename) = some key ∧
      row.group ∈ key.getGroups := by
  obtain ⟨old, hold, hmem⟩ := exists_keyFileAt_of_mem (R.mem_groupsAt_full hrow)
  obtain ⟨key, hkey, hgroups, -⟩ := R.enabled.kept _ old hold
  refine ⟨key, hkey, ?_⟩
  rw [KeyFile.mem_getGroups_iff, hgroups, ← KeyFile.mem_getGroups_iff]
  exact hmem

/-! ### What an identifier maps to -/

/-- The file named just `.repo` is left alone by the backup and by the generation. -/
theorem get?_dotRepo : R.full.get? (basedir.child ".repo") = fs.get? (basedir.child ".repo") := by
  rw [R.generated.others, R.backedUp.left _ hasExtensionLower_dotRepo]
  intro name hname he
  obtain ⟨-, rfl⟩ := Path.child_inj.mp he
  exact absurd hname (by decide)

theorem groupsAt_dotRepo :
    groupsAt codec R.full (basedir.child ".repo") = groupsAt codec fs (basedir.child ".repo") := by
  rw [groupsAt, groupsAt, keyFileAt_congr R.get?_dotRepo]

theorem matches_dotRepo {id : String} (h : id ∈ groupsAt codec fs (basedir.child ".repo")) :
    (Text.endsWith ".repo" ".repo" &&
      decide (id ∈ groupsAt codec R.full (basedir.child ".repo"))) = true := by
  rw [R.groupsAt_dotRepo, decide_eq_true h]
  decide

theorem matches_row {row : ConfRow} (hrow : row ∈ R.rows) :
    (Text.endsWith row.filename ".repo" &&
      decide (row.group ∈ groupsAt codec R.full (basedir.child row.filename))) = true := by
  rw [endsWith_of_extension (by decide) (R.usable hrow), decide_eq_true (R.mem_groupsAt_full hrow)]
  rfl

theorem filename_ne_dotRepo {row : ConfRow} (hrow : row ∈ R.rows) : row.filename ≠ ".repo" := by
  intro he
  have hext := R.usable hrow
  rw [he] at hext
  exact absurd hext (by decide)

theorem order_full : R.full.order = fs.order := R.generated.order.trans R.backedUp.order

/-- What was there before the generation was made before. -/
theorem created_dotRepo {row : ConfRow} (hrow : row ∈ R.rows)
    (h : row.group ∈ groupsAt codec fs (basedir.child ".repo")) :
    [".repo", row.filename].Sublist (R.full.created basedir) := by
  obtain ⟨added, hadded⟩ := R.generated.created
  have hmid : ".repo" ∈ R.mid.created basedir := by
    obtain ⟨node, hnode⟩ := FS.mem_children.mp (mem_children_of_mem h)
    refine (R.mid.perm_children basedir).mem_iff.mp (FS.mem_children.mpr ⟨node, ?_⟩)
    rw [R.backedUp.left _ hasExtensionLower_dotRepo, hnode]
  have hnot : row.filename ∉ R.mid.created basedir := by
    intro hm
    obtain ⟨node, hnode⟩ := FS.mem_children.mp ((R.mid.perm_children basedir).mem_iff.mpr hm)
    rw [R.mid_eq_none hrow] at hnode
    exact absurd hnode (by simp)
  have hfull : row.filename ∈ R.full.created basedir :=
    (R.full.perm_children basedir).mem_iff.mp (mem_children_of_mem (R.mem_groupsAt_full hrow))
  rw [hadded] at hfull ⊢
  have hafter := (List.mem_append.mp hfull).resolve_left hnot
  exact (List.singleton_sublist.mpr hmid).append (List.singleton_sublist.mpr hafter)

/-- A row is found in its file or in `.repo`. -/
theorem firstFile_row {row : ConfRow} (hrow : row ∈ R.rows) :
    ∃ name, firstFile codec R.full (R.full.children basedir) row.group = some name ∧
      (name = row.filename ∨
        name = ".repo" ∧ row.group ∈ groupsAt codec fs (basedir.child ".repo")) := by
  have hfound : (firstFile codec R.full (R.full.children basedir) row.group).isSome := by
    rw [firstFile, List.find?_isSome]
    exact ⟨row.filename, mem_children_of_mem (R.mem_groupsAt_full hrow), R.matches_row hrow⟩
  obtain ⟨name, hname⟩ := Option.isSome_iff_exists.mp hfound
  refine ⟨name, hname, ?_⟩
  have hspec := List.find?_some hname
  rw [Bool.and_eq_true, decide_eq_true_eq] at hspec
  by_cases hext : Text.extension name = ".repo"
  · obtain ⟨key, hkey, hgroup⟩ := exists_keyFileAt_of_mem hspec.2
    obtain ⟨other, hother, hfilename, hsame, -⟩ :=
      R.written_group (R.generated.written name key hext hkey) hgroup
    obtain rfl : other = row := List.inj_on_of_nodup_map (nodup_groups _ _) hother hrow hsame
    exact .inl hfilename.symm
  · obtain rfl := eq_of_endsWith hspec.1 hext
    rw [R.groupsAt_dotRepo] at hspec
    exact .inr ⟨rfl, hspec.2⟩

/-- What `.repo` hides is not found in the file of its row. -/
theorem firstFile_ne_of_hidden {row : ConfRow} (hrow : row ∈ R.rows)
    (h : Hidden codec fs row.filename row.group) :
    firstFile codec R.full (R.full.children basedir) row.group ≠ some row.filename := by
  have hle : R.full.order.le basedir ".repo" row.filename := by
    rw [R.order_full]
    exact h.le
  exact find?_ne_of_sublist (R.full.nodup_children basedir)
    (FS.sublist_children (R.created_dotRepo hrow h.mem) hle) (R.matches_dotRepo h.mem)

/-- What `.repo` defines is not found there when the other file is listed first. -/
theorem firstFile_ne_of_not_le {row : ConfRow} (hrow : row ∈ R.rows)
    (h : row.group ∈ groupsAt codec fs (basedir.child ".repo"))
    (hle : ¬ fs.order.le basedir ".repo" row.filename) :
    firstFile codec R.full (R.full.children basedir) row.group ≠ some ".repo" := by
  have hdot : ".repo" ∈ R.full.children basedir := by
    rw [← R.groupsAt_dotRepo] at h
    exact mem_children_of_mem h
  have hfile := mem_children_of_mem (R.mem_groupsAt_full hrow)
  obtain hfirst | hafter := pair_sublist_or hdot hfile (R.filename_ne_dotRepo hrow).symm
  · have hlisted := FS.le_of_sublist_children hfirst
    rw [R.order_full] at hlisted
    exact absurd hlisted hle
  · exact find?_ne_of_sublist (R.full.nodup_children basedir) hafter (R.matches_row hrow)

/-- A row maps to its file unless `.repo` hides it. -/
theorem indexedAt_iff {row : ConfRow} (hrow : row ∈ R.rows) :
    IndexedAt R.manager row.group (basedir.child row.filename) ↔
      ¬ Hidden codec fs row.filename row.group := by
  rw [R.indexed]
  constructor
  · rintro ⟨name, hfirst, hpath⟩ hhidden
    obtain ⟨-, rfl⟩ := Path.child_inj.mp hpath
    exact R.firstFile_ne_of_hidden hrow hhidden hfirst
  · intro hnot
    obtain ⟨name, hfirst, rfl | ⟨rfl, hdot⟩⟩ := R.firstFile_row hrow
    · exact ⟨row.filename, hfirst, rfl⟩
    · exact absurd hfirst (R.firstFile_ne_of_not_le hrow hdot fun hle => hnot ⟨hdot, hle⟩)

/-- Exactly what the release names and `.repo` does not hide is enabled in the generated files. -/
theorem enabled_iff {row : ConfRow} (hrow : row ∈ R.rows) {key : KeyFile}
    (hkey : keyFileAt codec fs' (basedir.child row.filename) = some key) :
    key.getBoolean codec row.group "enabled" = .ok true ↔
      row.group ∈ R.repos ∧ ¬ Hidden codec fs row.filename row.group := by
  obtain ⟨key', hkey', hmem⟩ := R.exists_key hrow
  obtain rfl := Option.some.inj (hkey.symm.trans hkey')
  constructor
  · intro htrue
    obtain ⟨hnamed, hindexed⟩ := (R.leftIn (R.usable hrow) hkey).enabled row.group hmem htrue
    exact ⟨hnamed, (R.indexedAt_iff hrow).mp hindexed⟩
  · rintro ⟨hnamed, hshown⟩
    obtain ⟨path, key', hindexed, hkey', htrue⟩ := R.enabled.set row.group hnamed
    obtain rfl := indexedAt_unique hindexed ((R.indexedAt_iff hrow).mpr hshown)
    obtain rfl := Option.some.inj (hkey.symm.trans hkey')
    exact htrue

end Run

end RepoManager

end Cloyster
