import Cloyster.Services.Shell.Furnished

/-! An installation that returns. Where every command succeeds, on a machine with what the
installation needs and for a cluster whose parts are all there, each task returns and leaves what
the next ones need, so the whole installation does. -/

namespace Cloyster.Engine.Shell

open Lib Models Services RPMRepoManager RPMRepositoryParser

variable {site : Site} {codec : GKeyFile} {dirs : List Path} {p : Path}

/-! ### What the tasks need -/

/-- The repositories of the provisioner. -/
def provisionerRepos : List String := ["xcat-core", "xcat-dep"]

/-- The files whose repositories go into the image of Rocky Linux. -/
def imageFiles : List String := ["rocky.repo", "epel.repo", "OpenHPC.repo"]

/-- The file can be read, and each of its repositories has an address. -/
def Readable (codec : GKeyFile) (fs : FS) (name : String) : Prop :=
  ∃ key repos, keyFileAt codec fs (basedir.child name) = some key ∧
    parse codec (basedir.child name) ∅ fs = .ok repos fs ∧
    ∀ (id : String) (repo : RPMRepository), repos[id]? = some repo → repo.baseurl.isSome

theorem Readable.congr {fs fs' : FS} {name : String} (h : Readable codec fs name)
    (hsame : keyFileAt codec fs' (basedir.child name) = keyFileAt codec fs (basedir.child name)) :
    Readable codec fs' name := by
  obtain ⟨key, repos, hkey, hparse, hurls⟩ := h
  have hkey' := hsame.trans hkey
  rw [parse_eq hkey, liftExcept_ok_iff] at hparse
  refine ⟨key, repos, hkey', ?_, hurls⟩
  rw [parse_eq hkey', liftExcept_ok_iff]
  exact ⟨hparse.1, rfl⟩

/-- What is needed of the repositories and of the files: those of the provisioner are known, those
for the image can be read, and they are in different files. -/
structure Ready (codec : GKeyFile) (dirs : List Path) (s : RPMRepoManager × FS) : Prop where
  furnished : Furnished dirs s.2
  backed : Backed codec s
  sourced : s.1.Sourced
  known : ∀ id ∈ provisionerRepos, id ∈ s.1.filesIdx
  readable : ∀ name ∈ imageFiles, Readable codec s.2 name
  apart : ∀ id ∈ provisionerRepos, ∀ name ∈ imageFiles, ¬ IndexedAt s.1 id (basedir.child name)

theorem Ready.mono {dirs' : List Path} {s : RPMRepoManager × FS} (h : Ready codec dirs s)
    (hdirs : dirs' ⊆ dirs) : Ready codec dirs' s :=
  { h with furnished := h.furnished.mono hdirs }

/-- A file in the repository directory. -/
def InBasedir (q : Path) : Prop := basedir <+: q

theorem inBasedir_child (name : String) : InBasedir (basedir.child name) := List.prefix_append _ _

theorem Ready.congr {dirs' : List Path} {m : RPMRepoManager} {fs fs' : FS}
    (h : Ready codec dirs (m, fs)) (hfurnished : Furnished dirs' fs')
    (hkept : SameOutside (fun q => ¬ InBasedir q) fs fs') : Ready codec dirs' (m, fs') := by
  have hsame : ∀ q, InBasedir q → keyFileAt codec fs' q = keyFileAt codec fs q := by
    intro q hq
    rw [keyFileAt, keyFileAt, hkept q (not_not_intro hq)]
  refine ⟨hfurnished, ⟨h.backed.sound, fun ref file hin => ?_, h.backed.apart, h.backed.indexed⟩,
    h.sourced, h.known, fun name hname => ?_, h.apart⟩
  · obtain ⟨key, hkey, hgroups⟩ := h.backed.onDisk ref file hin
    exact ⟨key, (hsame _ (h.sourced file (List.mem_of_getElem? hin.2))).trans hkey, hgroups⟩
  · exact (h.readable name hname).congr (hsame _ (inBasedir_child name))

/-- Enabling one of them keeps that. -/
theorem Ready.enable {s : RPMRepoManager × FS} (h : Ready codec standingDirectories s) {id : String}
    (hid : id ∈ provisionerRepos) : ∃ t, RPMRepoManager.enable codec id true s = .ok () t ∧
      Ready codec standingDirectories t := by
  obtain ⟨ref, hidx⟩ := exists_getElem? (h.known id hid)
  obtain ⟨t, hrun, ht, hsaved⟩ := enable_backed h.backed hidx true
  have hmoves : Moves Tidy (RPMRepoManager.enable codec id true) := enable_tidy id true
  have htidy := hmoves s h.sourced
  rw [hrun] at htidy
  have hnot : ∀ q, (∀ other ∈ [id], ¬ IndexedAt s.1 other q) → t.2.get? q = s.2.get? q :=
    hsaved.untouched
  have houtside : ∀ q, ¬ InBasedir q → t.2.get? q = s.2.get? q := by
    refine fun q hq => hnot q fun other hother ⟨ref, file, _, hfile, hpath⟩ => hq ?_
    rw [← hpath]
    exact h.sourced file (List.mem_of_getElem? hfile)
  refine ⟨t, hrun, h.furnished.congr (by decide) houtside, ht, htidy.1, fun other hother => ?_,
    fun name hname => ?_, fun other hother name hname => ?_⟩
  · rw [hsaved.memory.filesIdx]
    exact h.known other hother
  · refine (h.readable name hname).congr (keyFileAt_congr (hnot _ ?_))
    rw [List.forall_mem_singleton]
    exact h.apart id hid name hname
  · rw [hsaved.memory.indexedAt_iff]
    exact h.apart other hother name hname

variable (site) in
/-- The state between the tasks. -/
abbrev AtRest : System → Prop := Standing site (Ready site.env.codec standingDirectories)

/-! ### The program's own work -/

/-- Work on other files than those of the repositories. -/
theorem ready_of_furnished {dirs' : List Path} {x : FsM Unit}
    (hx : Total (Furnished dirs) x fun _ => Furnished dirs')
    (hkept : Moves (SameOutside fun q => ¬ InBasedir q) x) (m : RPMRepoManager) :
    Total (fun fs => Ready codec dirs (m, fs)) x fun _ fs => Ready codec dirs' (m, fs) := by
  intro fs h
  obtain ⟨u, fs', hrun, hfs'⟩ := hx fs h.furnished
  have hsame := hkept fs
  rw [hrun] at hsame
  exact ⟨u, fs', hrun, h.congr hfs' hsame⟩

theorem runs_backup_edited (hp : p ∈ editedFiles) :
    Runs (Standing site (Ready site.env.codec dirs)) (backup site p) := by
  refine runs_backup fun _ m timestamp => ready_of_furnished (backupFile_furnished hp timestamp)
    (backupFile_outside _ _ fun q hq hin => ?_) m
  have hhead : ["opt"] <+: q := by
    refine List.IsPrefix.trans ?_ hq
    rw [backupName, Path.child, installPath]
    simp
  obtain ⟨r, rfl⟩ := hhead
  simp [InBasedir, RPMRepoManager.basedir] at hin

theorem runs_addString_edited (hp : p ∈ editedFiles) (string : String) :
    Runs (Standing site (Ready site.env.codec dirs)) (addString site p string) := by
  obtain ⟨hroot, -, houtside, -, hapart⟩ := editedFiles_apart p hp
  refine total_addString fun _ => ready_of_furnished (fun fs h => ?_)
    (addStringToFile_outside _ string houtside)
  obtain ⟨fs', hrun, hfs'⟩ := addStringToFile_furnished h hroot (.inl (h.edited p hp)) hapart string
  exact ⟨(), fs', hrun, hfs'⟩

theorem runs_remove_remade (hp : p ∈ remadeFiles) :
    Runs (Standing site (Ready site.env.codec dirs)) (remove site p) :=
  total_remove fun _ => ready_of_furnished (removeFile_furnished hp)
    (removeFile_outside _ (remadeFiles_apart p hp).2.1)

/-- What was removed, or was not there, is made where its directory is. -/
theorem runs_addString_remade (hp : p ∈ remadeFiles) (hparent : p.parent ∈ dirs) (string : String) :
    Runs (Standing site (Ready site.env.codec dirs)) (addString site p string) := by
  obtain ⟨hroot, houtside, -, hapart⟩ := remadeFiles_apart p hp
  refine total_addString fun _ => ready_of_furnished (fun fs h => ?_)
    (addStringToFile_outside _ string houtside)
  have hwritable : fs.Writable p := by
    have hplain := h.remade p hp
    cases hnode : fs.get? p with
    | none => exact .inr ⟨hnode, hroot, h.places _ hparent⟩
    | some node =>
      cases node with
      | dir => simp [FS.isDir, hnode] at hplain
      | file text => exact .inl (FS.isRegular_iff.mpr ⟨text, hnode⟩)
  obtain ⟨fs', hrun, hfs'⟩ := addStringToFile_furnished h hroot hwritable hapart string
  exact ⟨(), fs', hrun, hfs'⟩

theorem total_makeDirectory_made {d : Path} (hd : d ∈ madeDirectories) :
    Total (Standing site (Ready site.env.codec dirs)) (makeDirectory site d)
      fun _ => Standing site (Ready site.env.codec (d :: dirs)) :=
  total_makeDirectory fun hlive =>
    ready_of_furnished (createDirectory_furnished hlive hd) (createDirectory_outside _ _)

theorem runs_script (henv : Obliging site.env) (script : ScriptBuilder) :
    Runs (Standing site (Ready site.env.codec dirs)) (run site script) := by
  refine runs_run henv script fun _ m name data =>
    ready_of_furnished (installFile_furnished name data) (installFile_outside _ data ?_) m
  simp [InBasedir, RPMRepoManager.basedir]

theorem runs_configureServer (slurm : SLURM) :
    Runs (AtRest site) (SLURM.configureServer site slurm) := by
  refine total_bind (runs_remove_remade (by decide)) fun _ => ?_
  refine total_bind (total_makeDirectory_made (by decide)) fun _ => ?_
  refine total_post (runs_addString_remade (by decide) List.mem_cons_self _) fun _ t ht hlive => ?_
  exact (ht hlive).mono (List.subset_cons_self _ _)

theorem runs_memlock : Runs (AtRest site) (removeMemlockLimits site) :=
  total_bind (runs_backup_edited (by decide)) fun _ => runs_addString_edited (by decide) _

/-! ### The cluster -/

/-- The parts of the cluster that the installation reads are there. -/
structure Equipped (site : Site) : Prop where
  obliging : Obliging site.env
  distro : site.cluster.headnode.os.distro = some .Rocky
  upstream : MirrorRepo.isLocalUrl site.opts.mirrorBaseUrl = false
  selinux : site.cluster.selinux ≠ .Disabled
  ofed : site.cluster.ofed = none
  management : ∃ connection interface,
    site.cluster.getConnection site.cluster.headnode .Management = .ok connection ∧
      connection.interface = some interface
  connections : ∀ connection ∈ site.cluster.headnode.connections, ∃ network interface length,
    networkOf site connection = .ok network ∧ connection.interface = some interface ∧
      prefixLength site network = .ok length
  nodes : site.cluster.nodes ≠ []
  image : site.cluster.diskImage.distro.isSome
  defined : ∀ node ∈ site.cluster.nodes,
    ∃ cmd, Models.XCAT.addNode site.cluster.toCluster site.env.text node = .ok cmd
  /-- The release is not in the vault. -/
  vault : site.env.vault site.cluster.headnode.os = false

/-- Told of another step the program goes on. -/
theorem runs_stopAfter (hstop : site.opts.stopAfterStep ∉ (stageTasks site).map Prod.snd)
    {P : System → Prop} {step : String} (hstep : step ∈ (stageTasks site).map Prod.snd) :
    Runs P (maybeStopAfterStep site step) :=
  runs_refuseIf (fun heq : site.opts.stopAfterStep = step => hstop (heq ▸ hstep)) _

namespace Equipped

variable (h : Equipped site) {F : RPMRepoManager × FS → Prop}

include h

theorem runs_dnf (cmd : String) : Runs (Standing site F) (ELOSService.dnf site cmd) :=
  total_bind (total_executeCommand h.obliging _) fun _ => total_pure fun _ hs => hs.2

theorem runs_systemctl (verb service : String) :
    Runs (Standing site F) (ELOSService.systemctl site verb service) :=
  total_bind (total_executeCommand h.obliging _) fun _ => total_pure fun _ hs => hs.2

theorem runs_command (cmd : String) : Runs (Standing site F) (command site cmd) :=
  Engine.runs_command h.obliging cmd

theorem runs_headnodeConnection :
    Runs (Standing site F) (XCAT.headnodeConnection site .Management) := by
  obtain ⟨connection, -, hconnection, -⟩ := h.management
  exact runs_plain ⟨connection, hconnection⟩

theorem runs_headnodeInterface :
    Runs (Standing site F) (XCAT.headnodeInterface site .Management) := by
  obtain ⟨connection, interface, hconnection, hinterface⟩ := h.management
  change Total _ (plain _ >>= _) _
  exact total_plain_bind hconnection (runs_plain ⟨interface, optionValue_ok_iff.mpr hinterface⟩)

/-! ### The headnode -/

theorem runs_pin : Runs (AtRest site) (pinOSVersion site) := by
  refine total_ite (fun _ => runs_pure _) fun _ => ?_
  exact total_plain_bind (OS.getDistro_ok_iff.mpr h.distro) (runs_pure _)

theorem runs_update : Runs (AtRest site) (runSystemUpdate site) :=
  total_ite (fun _ => total_bind (h.runs_dnf _) fun _ => runs_discard (h.runs_systemctl _ _) ())
    fun _ => runs_pure _

theorem runs_selinux : Runs (AtRest site) (configureSELinuxMode site) := by
  unfold configureSELinuxMode
  cases hmode : site.cluster.selinux with
  | Permissive => exact h.runs_command _
  | Enforcing => exact h.runs_command _
  | Disabled => exact absurd hmode h.selinux

theorem runs_firewall : Runs (AtRest site) (configureFirewall site) := by
  refine total_ite (fun _ => ?_) fun _ => runs_discard (h.runs_systemctl _ _) ()
  refine total_bind (h.runs_systemctl _ _) fun _ => ?_
  refine total_bind (total_bind h.runs_headnodeInterface fun _ => h.runs_command _) fun _ => ?_
  rw [h.ofed]
  exact total_bind (runs_pure _) fun _ => h.runs_command _

theorem runs_hosts : Runs (AtRest site) (configureHostsFile site) := by
  obtain ⟨connection, -, hconnection, -⟩ := h.management
  have hentry : ∃ entry, hostsEntry site = .ok entry := ⟨_, by rw [hostsEntry, hconnection]; rfl⟩
  refine total_bind (runs_plain hentry) fun entry => ?_
  refine total_bind (runs_backup_edited (by decide)) fun _ => ?_
  exact runs_addString_edited (by decide) entry

theorem runs_network {connection : Connection}
    (hmem : connection ∈ site.cluster.headnode.connections) :
    Runs (AtRest site) (configureNetwork site connection) := by
  obtain ⟨network, interface, length, hnetwork, hinterface, hlength⟩ :=
    h.connections connection hmem
  have hadd : ∃ add, addConnection site connection network interface = .ok add :=
    ⟨_, by rw [addConnection, hlength]; rfl⟩
  refine total_plain_bind hnetwork (total_ite (fun _ => runs_pure _) fun _ => ?_)
  refine total_plain_bind (optionValue_ok_iff.mpr hinterface) ?_
  have hexists : Runs (AtRest site) (connectionExists site (NamedEnum.name network.profile)) :=
    total_ite (fun _ => runs_pure _) fun _ =>
      total_bind (total_executeCommand h.obliging _) fun _ => total_pure fun _ hs => hs.2
  refine total_bind hexists fun there => total_ite (fun _ => runs_pure _) fun _ => ?_
  refine total_bind (h.runs_command _) fun _ => total_bind (h.runs_command _) fun _ => ?_
  refine total_bind (h.runs_command _) fun _ => total_bind (runs_plain hadd) fun _ => ?_
  exact total_bind (h.runs_command _) fun _ => h.runs_command _

theorem runs_dns : Runs (AtRest site) (disableNetworkManagerDNSOverride site) := by
  refine total_bind (runs_remove_remade (by decide)) fun _ => ?_
  refine total_bind (runs_addString_remade (by decide) (by decide) _) fun _ => ?_
  exact runs_discard (h.runs_systemctl _ _) ()

theorem runs_networks : Runs (AtRest site)
    (configureNetworks site site.cluster.headnode.connections) := by
  refine total_bind (h.runs_systemctl _ _) fun _ => ?_
  exact total_bind (runs_forM fun connection hmem => h.runs_network hmem) fun _ => h.runs_dns

theorem runs_serveTime {connection : Connection}
    (hmem : connection ∈ site.cluster.headnode.connections) :
    Runs (AtRest site) (serveTime site connection) := by
  obtain ⟨network, -, length, hnetwork, -, hlength⟩ := h.connections connection hmem
  have hallow : ∃ allow, allowClients site connection network = .ok allow :=
    ⟨_, by rw [allowClients, hlength]; rfl⟩
  refine total_plain_bind hnetwork (total_ite (fun _ => ?_) fun _ => runs_pure _)
  refine total_bind (runs_addString_edited (by decide) _) fun _ => ?_
  exact total_bind (runs_plain hallow) fun _ => runs_addString_edited (by decide) _

theorem runs_time : Runs (AtRest site)
    (configureTimeService site site.cluster.headnode.connections) := by
  refine total_bind (h.runs_dnf _) fun _ => total_bind (runs_backup_edited (by decide)) fun _ => ?_
  refine total_bind (runs_forM fun connection hmem => h.runs_serveTime hmem) fun _ => ?_
  exact runs_discard (h.runs_systemctl _ _) ()

theorem runs_infiniband : Runs (AtRest site) (configureInfiniband site) := by
  rw [configureInfiniband, h.ofed]
  exact runs_pure _

theorem runs_nfs : Runs (AtRest site) (setupNFS site) :=
  total_bind h.runs_headnodeConnection fun _ => runs_discard (runs_script h.obliging _) ()

theorem runs_queue : Runs (AtRest site) (configureQueueSystem site) := by
  unfold configureQueueSystem
  cases site.cluster.queue with
  | none => exact runs_pure _
  | some queue =>
    cases queue with
    | SLURM slurm =>
      refine total_bind (runs_discard (h.runs_dnf _) ()) fun _ => ?_
      refine total_bind (runs_configureServer slurm) fun _ => ?_
      have hservices (verb : String) : Runs (AtRest site) (do
          let _ ← ELOSService.systemctl site verb "munge"
          let _ ← ELOSService.systemctl site verb "slurmctld") :=
        total_bind (h.runs_systemctl _ _) fun _ => runs_discard (h.runs_systemctl _ _) ()
      exact total_bind (hservices "enable --now") fun _ => hservices "start"
    | PBS place =>
      refine total_bind (h.runs_dnf _) fun _ => total_bind (h.runs_systemctl _ _) fun _ => ?_
      refine total_bind (h.runs_command _) fun _ => ?_
      exact total_bind (h.runs_command _) fun _ => h.runs_command _

/-! ### The provisioner -/

theorem runs_enableRepo {repoid : String} (hid : repoid ∈ provisionerRepos) :
    Runs (AtRest site) (enableRepo site repoid) := by
  have hrpm : site.cluster.headnode.os.getPackageType = .ok .RPM := by
    rw [OS.getPackageType, OS.getDistro_ok_iff.mpr h.distro]
    rfl
  refine total_ite (fun _ => runs_pure _) fun hwet => total_plain_bind hrpm ?_
  exact runs_onRepos (Bool.eq_false_iff.mpr hwet) fun s hs => by
    obtain ⟨t, hrun, ht⟩ := hs.enable hid
    exact ⟨(), t, hrun, ht⟩

theorem runs_onName_name :
    Runs (Standing site F)
      (onName (Models.XCAT.generateOSImageName site.cluster.toCluster .Netboot .Compute)) := by
  refine runs_onName fun image => ?_
  obtain ⟨image', hname⟩ :=
    Models.XCAT.generateOSImageName_isOk_iff.mpr ⟨h.nodes, h.image⟩
  exact ⟨(), image', hname⟩

theorem runs_onName_path :
    Runs (Standing site F)
      (onName (Models.XCAT.generateOSImagePath site.cluster.toCluster .Netboot .Compute)) := by
  refine runs_onName fun image => ?_
  obtain ⟨image', hpath⟩ :=
    Models.XCAT.generateOSImagePath_isOk_iff.mpr ⟨h.nodes, h.image⟩
  exact ⟨(), image', hpath⟩

theorem runs_patchInstall : Runs (Standing site F) (XCAT.patchInstall site) := by
  refine total_bind (total_executeCommand h.obliging _) fun code => total_of_fact fun _ => ?_
  refine total_ite (fun _ => ?_) fun _ => runs_pure _
  exact total_bind (h.runs_command _) fun _ =>
    total_bind (h.runs_command _) fun _ => h.runs_command _

theorem runs_setupProvisioner : Runs (AtRest site) (setupProvisioner site) := by
  refine total_bind (h.runs_enableRepo (by decide)) fun _ => ?_
  refine total_bind (h.runs_enableRepo (by decide)) fun _ => ?_
  refine total_bind (total_bind (runs_onImage fun image => ⟨_, _, rfl⟩) fun _ =>
    h.runs_onName_name) fun _ => ?_
  refine total_bind (total_bind (h.runs_dnf _) fun _ => runs_discard (h.runs_dnf _) ())
    fun _ => ?_
  refine total_bind h.runs_patchInstall fun _ => ?_
  refine total_bind h.runs_headnodeInterface fun interface => ?_
  exact total_bind (runs_checkCommand h.obliging _) fun _ => runs_checkCommand h.obliging _

/-! ### The image -/

theorem runs_getImageInstallArgs :
    Runs (Standing site F) (XCAT.getImageInstallArgs site .Netboot .Compute) :=
  total_bind h.runs_onName_name fun _ => total_bind h.runs_onName_path fun _ =>
    runs_get fun _ => runs_pure _

theorem runs_configureEL9 : Runs (Standing site F) (XCAT.configureEL9 site) :=
  runs_forM fun cmd _ => h.runs_command cmd

/-- Asked for the image, the surroundings answer that it is there. -/
theorem total_imageExists (hlive : site.opts.dryRun = false) (image : String) :
    Total (Standing site F) (XCAT.imageExists site image)
      fun there t => there = true ∧ Standing site F t := by
  have hask : Total (Standing site F) (do
      let code ← executeCommand site s!"lsdef -t osimage {image}"
      return decide (code = 0)) fun there t => there = true ∧ Standing site F t :=
    total_bind (total_executeCommand h.obliging _) fun code => total_pure fun _ hs =>
      ⟨decide_eq_true hs.1, hs.2⟩
  rw [XCAT.imageExists, hlive, if_neg (by simp)]
  exact total_ite (fun _ => total_bind (h.runs_command _) fun _ => hask) fun _ => hask

/-- An image that is there is not made again. -/
theorem runs_createNodeImage (hlive : site.opts.dryRun = false)
    (hcopied : site.opts.shouldSkip "copycds" = false) :
    Runs (Standing site F) (createNodeImage site) := by
  refine total_bind h.runs_getImageInstallArgs fun args => ?_
  refine total_bind h.runs_configureEL9 fun _ => ?_
  refine total_bind h.runs_onName_name fun _ => runs_get fun s => ?_
  refine total_bind (h.total_imageExists hlive _) fun there => total_of_fact fun hthere => ?_
  rw [hthere, hcopied]
  exact runs_pure _

/-! ### The nodes -/

theorem runs_setNodesImage : Runs (Standing site F) (XCAT.setNodesImage site) :=
  runs_get fun _ => runs_checkCommand h.obliging _

theorem runs_addNodes : Runs (Standing site F) (XCAT.addNodes site) := by
  refine total_bind (runs_forM fun node hnode => ?_) fun _ => ?_
  · exact total_bind (runs_plain (h.defined node hnode)) fun cmd => h.runs_command cmd
  refine total_bind (h.runs_command _) fun _ => total_bind (h.runs_command _) fun _ => ?_
  refine total_bind (h.runs_command _) fun _ => total_bind (h.runs_command _) fun _ => ?_
  exact h.runs_setNodesImage

end Equipped

/-! ### The repositories -/

/-- A machine that the program was put on, with nothing where it makes its own files. -/
structure Fresh (codec : GKeyFile) (fs : FS) : Prop where
  furnished : Furnished standingDirectories fs
  confs : ShippedConfs codec fs RepoConfigParser.defaultPath
  backup : ∀ q, RPMRepositoryGenerator.backupPath <+: q → fs.get? q = none
  room : ∃ t, fs.createDirectories RPMRepositoryGenerator.backupPath = .ok t
  basedir : fs.isDir RPMRepoManager.basedir
  empty : ∀ name ∈ fs.children RPMRepoManager.basedir, Text.endsWith name ".repo" = false

section

open RepoManager

variable {opts : Options} {answers : Answers} {specs : List Char → Option (String → String)}
  {codec : GKeyFile} {vault : OS → Bool} {osinfo : OS} {fs fs' : FS}

/-- Outside of the repositories an initialisation makes the directories of its backup only. -/
theorem isDir_initialise (R : Run opts answers specs codec vault osinfo fs fs') {q : Path}
    (hq : ¬ InBasedir q) :
    fs'.isDir q ↔ fs.isDir q ∨ q <+: RPMRepositoryGenerator.backupPath := by
  have hfull : R.full.get? q = R.mid.get? q := by
    refine R.generated.others q fun name _ he => hq ?_
    rw [he]
    exact List.prefix_append _ _
  have hdir : fs'.isDir q = R.full.isDir q := by
    cases hkey : keyFileAt codec R.full q with
    | none => rw [FS.isDir, FS.isDir, R.enabled.untouched q hkey]
    | some key =>
      obtain ⟨key', hkey', -⟩ := R.enabled.kept q key hkey
      obtain ⟨text, htext, -⟩ := Option.bind_eq_some_iff.mp hkey
      obtain ⟨text', htext', -⟩ := Option.bind_eq_some_iff.mp hkey'
      rw [FS.isDir, FS.isDir, FS.content?_eq_some.mp htext, FS.content?_eq_some.mp htext']
      simp
  rw [hdir, FS.isDir, hfull, ← FS.isDir, R.backedUp.dirs]

theorem furnished_initialise (R : Run opts answers specs codec vault osinfo fs fs')
    (hkept : SameOutside Repositories fs fs') (h : Furnished dirs fs)
    (hdirs : ∀ d ∈ dirs, ¬ RPMRepoManager.basedir <+: d) : Furnished dirs fs' := by
  have hregular : ∀ q, ¬ Repositories q → fs'.isRegular q = fs.isRegular q := by
    intro q hq
    rw [FS.isRegular_eq, FS.isRegular_eq, hkept q hq]
  have hplain : ∀ q, ¬ InBasedir q → ¬ q <+: RPMRepositoryGenerator.backupPath →
      fs.isDir q = false → fs'.isDir q = false := by
    intro q hq hpre hdir
    rw [Bool.eq_false_iff, Ne, isDir_initialise R hq, not_or]
    exact ⟨by simp [hdir], hpre⟩
  refine ⟨fun p hp => ?_, fun p hp => hplain p ?_ ?_ (h.remade p hp), fun d hd => ?_,
    fun d hd q hq => ?_, fun p hp timestamp => hplain _ ?_ ?_ (h.backups p hp timestamp)⟩
  · rw [hregular p, h.edited p hp]
    obtain ⟨-, -, hbase, hbackup, -⟩ := editedFiles_apart p hp
    exact not_or.mpr ⟨hbase, hbackup⟩
  · exact (remadeFiles_apart p hp).2.1
  · exact (remadeFiles_apart p hp).2.2.1
  · exact (isDir_initialise R (hdirs d hd)).mpr (.inl (h.places d hd))
  · rw [hregular q, h.made d hd q hq]
    have hapart : ∀ d ∈ madeDirectories, ¬ RPMRepoManager.basedir <+: d ∧
        ¬ RPMRepositoryGenerator.backupPath <+: d := by decide
    rintro (hin | hin)
    · exact (hapart d hd).1 (hin.trans hq)
    · exact (hapart d hd).2 (hin.trans hq)
  · exact not_basedir_backupName p timestamp
  · exact not_prefix_backupName hp timestamp (.inr rfl)

/-- A repository of the shipped files is known afterwards, and is not in the file of another. -/
theorem indexed_initialise (R : Run opts answers specs codec vault osinfo fs fs')
    {manager : RPMRepoManager} {repos : List String}
    (henabled : Enabled R.manager manager repos true) {id : String} {names : List String}
    (hid : ∃ row ∈ RepoConfigParser.reposConf.rows, row.group = id ∧ row.filename ∉ names)
    (hnames : ".repo" ∉ names) :
    id ∈ manager.filesIdx ∧ ∀ name ∈ names, ¬ IndexedAt manager id (basedir.child name) := by
  obtain ⟨row, hrow, rfl, hfilename⟩ := hid
  obtain ⟨first, hfirst, hcases⟩ := R.firstFile_row (Cloyster.XCAT.mem_rows_of_common R hrow)
  have hindexed : IndexedAt R.manager row.group (basedir.child first) :=
    (R.indexed row.group _).mpr ⟨first, hfirst, rfl⟩
  refine ⟨?_, fun name hname hat => ?_⟩
  · obtain ⟨ref, file, hidx, -⟩ := hindexed
    rw [henabled.filesIdx]
    exact mem_of_getElem? hidx
  · rw [henabled.indexedAt_iff] at hat
    obtain rfl := (Path.child_inj.mp (indexedAt_unique hat hindexed)).2
    obtain rfl | ⟨rfl, -⟩ := hcases
    · exact hfilename hname
    · exact hnames hname

/-- Every generated file is read, and its repositories have addresses. -/
theorem readable_initialise (R : Run opts answers specs codec vault osinfo fs fs') {name : String}
    (hname : ∃ row ∈ R.rows, row.filename = name) : Readable codec fs' name := by
  obtain ⟨row, hrow, rfl⟩ := hname
  obtain ⟨key, hkey, -⟩ := R.exists_key hrow
  obtain ⟨repos, hparse, -⟩ := parse_of_parseable hkey (R.leftIn (R.usable hrow) hkey).parseable
  refine ⟨key, repos, hkey, hparse, fun id repo hrepo => ?_⟩
  obtain ⟨-, -, -, url, hurl, -⟩ :=
    Cloyster.XCAT.locates_of_parse R (R.usable hrow) hparse hrepo
  rw [hurl]
  rfl

end

namespace Equipped

variable (h : Equipped site)

include h

theorem total_initialise : Total
    (fun s => s.repos = {} ∧ (site.opts.dryRun = false → Fresh site.env.codec s.fs))
    (initializeDefaultRepositories site) fun _ => AtRest site := by
  rintro s ⟨hrepos, hfresh⟩
  cases hmode : site.opts.dryRun with
  | true =>
    refine ⟨(), s, ?_, fun hlive => absurd (hmode.symm.trans hlive) (by simp)⟩
    rw [initializeDefaultRepositories, onRepos, within, RepoManager.initializeDefaultRepositories,
      if_pos hmode]
    rfl
  | false =>
    obtain ⟨hfurnished, hconf, hbackup, hroom, hdir, hempty⟩ := hfresh hmode
    obtain ⟨t, hrun⟩ : ∃ t, RepoManager.initializeDefaultRepositories site.opts.toOptions
        site.env.answers site.env.specs site.env.codec site.env.vault site.cluster.headnode.os
        site.env.order ({}, s.fs) = .ok () t :=
      RepoManager.initialise_returns hmode hconf h.distro hbackup hdir hroom hempty h.upstream _
    obtain ⟨R, hcoherent, hsound, henabled⟩ :=
      RepoManager.run_of_initialise hmode hconf hbackup hrun
    have hsourced : Sourced {} := fun file hfile => absurd hfile (by simp)
    have htidy : Tidy ({}, s.fs) t := by
      have hmoves := @initializeDefaultRepositories_tidy site.opts.toOptions site.env.codec
        site.env.answers site.env.specs site.env.vault site.cluster.headnode.os site.env.order
        ({}, s.fs)
      rwa [hrun] at hmoves
    obtain ⟨hkept, hsame⟩ := htidy hsourced
    refine ⟨(), { s with repos := t.1, fs := t.2 }, ?_, fun _ => ?_⟩
    · rw [initializeDefaultRepositories, onRepos, within, hrepos, hrun]
    · have hindexed : ∀ id ∈ provisionerRepos, id ∈ t.1.filesIdx ∧
          ∀ name ∈ imageFiles, ¬ IndexedAt t.1 id (basedir.child name) := by
        have hrows : ∀ id ∈ provisionerRepos, ∃ row ∈ RepoConfigParser.reposConf.rows,
            row.group = id ∧ row.filename ∉ imageFiles := by decide
        exact fun id hid => indexed_initialise R henabled (hrows id hid) (by decide)
      have hreadable : ∀ name ∈ imageFiles, Readable site.env.codec t.2 name := by
        have hrows : ∀ name ∈ imageFiles,
            ∃ row ∈ RepoConfigParser.shippedRows false .Rocky, row.filename = name := by decide
        intro name hname
        refine readable_initialise R ?_
        have hrocky : R.distro = .Rocky := Option.some.inj (R.hdistro.symm.trans h.distro)
        rw [RepoManager.Run.rows, h.vault, hrocky]
        exact hrows name hname
      exact ⟨furnished_initialise R hsame hfurnished (by decide),
        ⟨hsound, fun ref file hin => (hcoherent.onDisk ref file hin).groups, hcoherent.apart,
          hcoherent.indexed⟩, hkept, fun id hid => (hindexed id hid).1, hreadable,
        fun id hid => (hindexed id hid).2⟩

/-! ### The run -/

section

variable (hstop : site.opts.stopAfterStep ∉ (stageTasks site).map Prod.snd)

include hstop

theorem runs_untilMail :
    ∀ task ∈ (tasks site).tail.take 22, Runs (AtRest site) task.run := by
  have hpoint {step : String} (hstep : step ∈ (stageTasks site).map Prod.snd) :
      Runs (AtRest site) (maybeStopAfterStep site step) := runs_stopAfter hstop hstep
  change ∀ task ∈ ([.pin, .stopAfter "configure-repositories", .required,
    .stopAfter "install-required-packages", .update, .stopAfter "run-system-update", .selinux,
    .firewall, .fqdn, .ssh, .hosts, .timezone, .locale, .networks, .time,
    .stopAfter "configure-time-service", .openHPC, .infiniband, .stopAfter "install-infiniband",
    .nfs, .stopAfter "nfs-setup", .queue] : List (Task site)), _
  simp only [List.forall_mem_cons, List.not_mem_nil, false_implies, implies_true, and_true]
  exact ⟨h.runs_pin, hpoint (by simp [stageTasks]), runs_discard (h.runs_dnf _) (),
    hpoint (by simp [stageTasks]), h.runs_update, hpoint (by simp [stageTasks]), h.runs_selinux,
    h.runs_firewall, h.runs_command _, h.runs_command _, h.runs_hosts, h.runs_command _,
    h.runs_command _, h.runs_networks, h.runs_time, hpoint (by simp [stageTasks]),
    runs_discard (h.runs_dnf _) (), h.runs_infiniband,
    hpoint (by simp [stageTasks]), h.runs_nfs, hpoint (by simp [stageTasks]), h.runs_queue⟩

/-- Until the mail system is set up nothing fails. -/
theorem total_untilMail : Total
    (fun s => s.repos = {} ∧ (site.opts.dryRun = false → Fresh site.env.codec s.fs))
    (runAll ((tasks site).take 23)) fun _ => AtRest site := by
  have htasks : (tasks site).take 23 = Task.repositories :: (tasks site).tail.take 22 := rfl
  rw [htasks, runAll_cons]
  exact total_bind h.total_initialise fun _ => runs_forM (h.runs_untilMail hstop)

variable (hmail : site.cluster.mailSystem = none)

include hmail

/-- Without a mail system it gets to the image. -/
theorem total_untilImage : Total
    (fun s => s.repos = {} ∧ (site.opts.dryRun = false → Fresh site.env.codec s.fs))
    (runAll ((tasks site).take 29)) fun _ => AtRest site := by
  have hpoint {step : String} (hstep : step ∈ (stageTasks site).map Prod.snd) :
      Runs (AtRest site) (maybeStopAfterStep site step) := runs_stopAfter hstop hstep
  have hmailed : Runs (AtRest site) (configureMailSystem site) := by
    rw [configureMailSystem, hmail]
    exact runs_pure _
  have htasks : (tasks site).take 29 = (tasks site).take 23 ++ [.mail, .memlock, .development,
      .stopAfter "install-development-components", .provisioner,
      .stopAfter "provisioner-setup"] := rfl
  rw [htasks, runAll_append]
  refine total_bind (h.total_untilMail hstop) fun _ => runs_forM ?_
  simp only [List.forall_mem_cons, List.not_mem_nil, false_implies, implies_true, and_true]
  exact ⟨hmailed, runs_memlock, runs_discard (h.runs_dnf _) (),
    hpoint (by simp [stageTasks]), h.runs_setupProvisioner, hpoint (by simp [stageTasks])⟩

/-- And it returns when the image is made. -/
theorem total_install_of_image (himage : Runs (AtRest site) (createNodeImage site)) : Total
    (fun s => s.repos = {} ∧ (site.opts.dryRun = false → Fresh site.env.codec s.fs))
    (install site) fun _ => AtRest site := by
  have hpoint : Runs (AtRest site) (maybeStopAfterStep site "provisioner-create-image") :=
    runs_stopAfter hstop (by simp [stageTasks])
  have hrest : ∀ task ∈ (tasks site).drop 29, Runs (AtRest site) task.run := by
    change ∀ task ∈ ([.image, .stopAfter "provisioner-create-image", .addNodes, .nodesImage,
      .nodesBoot, .resetNodes] : List (Task site)), _
    simp only [List.forall_mem_cons, List.not_mem_nil, false_implies, implies_true, and_true]
    exact ⟨himage, hpoint, h.runs_addNodes, h.runs_setNodesImage, h.runs_command _,
      h.runs_command _⟩
  rw [install_eq_tasks, ← List.take_append_drop 29 (tasks site), runAll_append]
  exact total_bind (h.total_untilImage hstop hmail) fun _ => runs_forM hrest

/-- A live installation without a mail system, and with the copy of its medium, returns from any
machine as it needs it. -/
theorem total_install (hlive : site.opts.dryRun = false)
    (hcopied : site.opts.shouldSkip "copycds" = false) :
    Total (fun s => s.repos = {} ∧ Fresh site.env.codec s.fs) (install site)
      fun _ => AtRest site :=
  total_pre (h.total_install_of_image hstop hmail (h.runs_createNodeImage hlive hcopied))
    fun _ hs => ⟨hs.1, fun _ => hs.2⟩

end

end Equipped

/-! ### One machine -/

/-- A machine that the program was unpacked on, with no repository files yet. -/
def machine : FS :=
  [(["etc", "passwd"], Node.file "root:x:0:0\n"), (hostsFile, .file "127.0.0.1 localhost\n"),
    (chronyFile, .file "makestep 1.0 3\n"), (limitsFile.parent, .dir),
    (limitsFile, .file "# End of file\n"), (["etc", "NetworkManager"], .dir),
    (dnsFile.parent, .dir), (["tmp"], .dir)].foldl
    (fun fs entry => fs.set entry.1 entry.2) Cloyster.XCAT.installation

theorem machine_no_backup {q : Path} (hq : installPath ++ ["backup"] <+: q) :
    machine.get? q = none := by
  have hall : ∀ q ∈ machine.keys, ¬ installPath ++ ["backup"] <+: q := by decide
  exact (FS.get?_eq_none_iff _ _).mpr fun hm => hall q hm hq

theorem furnished_machine : Furnished standingDirectories machine where
  edited := by decide
  remade := by decide
  places := by decide
  made d hd q hq := by
    have hall : ∀ d ∈ madeDirectories, ∀ q ∈ d.inits, machine.isRegular q = false := by decide
    exact hall d hd q ((List.mem_inits _ _).mpr hq)
  backups p hp timestamp := by
    have hnone : machine.get? (backupName p timestamp) = none := by
      refine machine_no_backup ?_
      rw [backupName, Path.child, List.append_assoc, List.append_assoc]
      exact List.prefix_append _ _
    have hroot : backupName p timestamp ≠ [] := by simp [backupName, Path.child]
    simp [FS.isDir, hroot, hnone]

theorem fresh_machine : Fresh .text machine where
  furnished := furnished_machine
  confs := by
    refine RepoManager.shippedConfs_mono Cloyster.XCAT.shippedConfs_installation
      fun name text h => ?_
    simpa [machine, FS.get?_set, RepoConfigParser.defaultPath, Path.child, hostsFile, chronyFile,
      limitsFile, dnsFile, Path.parent] using h
  backup q hq := machine_no_backup (List.IsPrefix.trans (by decide) hq)
  room := by
    rw [FS.createDirectories, if_neg (by decide)]
    exact ⟨_, rfl⟩
  basedir := rfl
  empty := by
    have hnone : machine.children RPMRepoManager.basedir = [] := rfl
    rw [hnone]
    exact fun _ h => absurd h List.not_mem_nil

theorem equipped_oneSite : Equipped oneSite where
  obliging := obliging_quiet
  distro := rfl
  upstream := by decide
  selinux := by decide
  ofed := rfl
  management := ⟨_, _, rfl, rfl⟩
  connections := by
    rw [oneSite, oneNode, List.forall_mem_singleton]
    exact ⟨_, _, _, rfl, rfl, rfl⟩
  nodes := by decide
  image := rfl
  defined := by
    rw [oneSite, oneNode, List.forall_mem_singleton]
    exact ⟨_, rfl⟩
  vault := rfl

/-- What is done about the queue and the mail does not matter for the rest. -/
theorem Equipped.with (h : Equipped site) {opts : AllOptions}
    (hupstream : MirrorRepo.isLocalUrl opts.mirrorBaseUrl = false) (queue : Option QueueSystem)
    (mailSystem : Option MailSystem) :
    Equipped ⟨opts, { site.cluster with queue, mailSystem }, site.env⟩ :=
  ⟨h.obliging, h.distro, hupstream, h.selinux, h.ofed, h.management, h.connections, h.nodes,
    h.image, h.defined, h.vault⟩

theorem install_oneSite : ∃ t, install oneSite { fs := machine } = .ok () t := by
  obtain ⟨_, t, hrun, -⟩ := equipped_oneSite.total_install (by decide) rfl rfl (by decide)
    { fs := machine } ⟨rfl, fresh_machine⟩
  exact ⟨t, hrun⟩

end Cloyster.Engine.Shell
