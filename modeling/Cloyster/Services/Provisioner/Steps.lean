import Cloyster.Services.Provisioner

/-! The steps of the provisioner. The image is made with one set of commands and the nodes are
registered with another, and the files written are the three that tell what goes into the image,
the repository behind the web server and the scripts. -/

namespace Cloyster.Engine.XCAT

open Lib Models Services Models.XCAT

variable {site : Site} {scope : Scope}

/-! ### The links -/

theorem programOf_link (target name : String) : programOf (link target name) = "ln" := by
  simp only [link, String.append_assoc]
  exact (programOf_append (by decide) _).trans (by decide)

theorem not_mem_link {target name : String} (ht : ',' ∉ target.toList) (hn : ',' ∉ name.toList) :
    ',' ∉ (link target name).toList := by
  have hshare : ',' ∉ share.toList := by decide
  simp [link, toString, ht, hn, hshare]

theorem not_mem_links {folder version : String} (hfolder : ',' ∉ folder.toList)
    (hversion : ',' ∉ version.toList) : ∀ cmd ∈ links folder version, ',' ∉ cmd.toList := by
  have hfiles : ∀ file ∈ netbootFiles ++ installFiles,
      ',' ∉ file.1.toList ∧ ',' ∉ file.2.toList := by
    decide
  intro cmd hcmd
  simp only [links, List.mem_append, List.mem_map, List.mem_singleton] at hcmd
  obtain (⟨file, hfile, rfl⟩ | ⟨file, hfile, rfl⟩) | rfl := hcmd
  · obtain ⟨hkind, hname⟩ := hfiles file (List.mem_append_left _ hfile)
    exact not_mem_link (by simp [toString, hkind, hname])
      (by simp [toString, hkind, hname, hfolder, hversion])
  · obtain ⟨hkind, hname⟩ := hfiles file (List.mem_append_right _ hfile)
    exact not_mem_link (by simp [toString, hkind, hname])
      (by simp [toString, hkind, hname, hfolder, hversion])
  · exact not_mem_link (by decide) (by simp [toString, hfolder, hversion])

/-- Splitting at the commas gives the commands back. -/
theorem split_createSymlinkCommand {folder version : String} (hfolder : ',' ∉ folder.toList)
    (hversion : ',' ∉ version.toList) :
    ((createSymlinkCommand folder version).toList.splitOn ',').map String.ofList =
      links folder version := by
  have hjoin : (createSymlinkCommand folder version).toList =
      [','].intercalate ((links folder version).map String.toList) := by
    rw [createSymlinkCommand, String.toList_intercalate]
    rfl
  rw [hjoin, List.splitOn_intercalate]
  · simp
  · simpa using not_mem_links hfolder hversion
  · simp [links]

theorem exists_link_of_mem {cmd : String} (h : cmd ∈ symlinkCommands) :
    ∃ target name, cmd = link target name := by
  obtain ⟨⟨folder, version⟩, hpair, hcmd⟩ := List.mem_flatMap.mp h
  have hclean : ∀ pair ∈ [("rocky", "rocky9"), ("ol", "ol9"), ("alma", "alma9")],
      ',' ∉ pair.1.toList ∧ ',' ∉ pair.2.toList := by
    decide
  obtain ⟨hfolder, hversion⟩ := hclean _ hpair
  dsimp only at hcmd
  rw [split_createSymlinkCommand hfolder hversion] at hcmd
  simp only [links, List.mem_append, List.mem_map, List.mem_singleton] at hcmd
  obtain (⟨file, -, rfl⟩ | ⟨file, -, rfl⟩) | rfl := hcmd
  · exact ⟨_, _, rfl⟩
  · exact ⟨_, _, rfl⟩
  · exact ⟨_, _, rfl⟩

theorem confined_configureEL9 (h : "ln" ∈ scope.words) :
    Confined site scope (configureEL9 site) := by
  refine moves_forM fun cmd hcmd => confined_command ?_
  obtain ⟨target, name, rfl⟩ := exists_link_of_mem hcmd
  rw [programOf_link]
  exact h

/-! ### Setting up -/

theorem confined_onOSImage {f : String → EngineM Unit} (h : ∀ image, Confined site scope (f image)) :
    Confined site scope (onOSImage f) := moves_bind moves_get fun s => h s.image.osimage

theorem confined_headnodeConnection (profile : Network.Profile) :
    Confined site scope (headnodeConnection site profile) := confined_plain _

theorem confined_headnodeInterface (profile : Network.Profile) :
    Confined site scope (headnodeInterface site profile) :=
  moves_bind (confined_headnodeConnection profile) fun _ => confined_plain _

theorem confined_headnodeAddress (profile : Network.Profile) :
    Confined site scope (headnodeAddress site profile) :=
  moves_bind (confined_headnodeConnection profile) fun _ => moves_pure _

theorem confined_addPackages (packages : List String) :
    Confined site scope (addPackages packages) := confined_onImage fun _ => rfl

theorem confined_addPostinstall (entry : String) : Confined site scope (addPostinstall entry) :=
  confined_onImage fun _ => rfl

theorem confined_addSynclist (entry : String) : Confined site scope (addSynclist entry) :=
  confined_onImage fun _ => rfl

theorem confined_construct (h : scope.names = true) : Confined site scope (construct site) :=
  moves_bind (confined_setImage _ h) fun _ => confined_onName _ h

theorem confined_installPackages (h : "dnf" ∈ scope.words) :
    Confined site scope (installPackages site) := by
  refine moves_bind (ELOSService.confined_dnf _ h) fun _ => ?_
  exact moves_bind (ELOSService.confined_dnf _ h) fun _ => moves_pure _

theorem confined_patchInstall (h : ["grep", "sed", "xcatconfig"] ⊆ scope.words) :
    Confined site scope (patchInstall site) := by
  have hgrep : "grep" ∈ scope.words := h (by simp)
  have hsed : "sed" ∈ scope.words := h (by simp)
  have hconfig : "xcatconfig" ∈ scope.words := h (by simp)
  refine moves_bind (confined_executeCommand (word_mem (by decide) hgrep _)) fun code => ?_
  refine moves_ite (fun _ => ?_) fun _ => moves_pure _
  refine moves_bind (confined_command (word_mem (by decide) hsed _)) fun _ => ?_
  refine moves_bind (confined_command (word_mem (by decide) hsed _)) fun _ => ?_
  exact confined_command hconfig

theorem confined_setup (h : "chdef" ∈ scope.words) : Confined site scope (setup site) := by
  refine moves_bind (confined_headnodeInterface _) fun interface => ?_
  refine moves_bind (confined_checkCommand ?_) fun _ => confined_checkCommand ?_
  · simp only [String.append_assoc]
    exact word_mem (by decide) h _
  · exact word_mem (by decide) h _

/-! ### The image -/

/-- What is given and written to tell what goes into the image, and by the scripts that customize
it. -/
def contentFootprint : Scope where
  words := ["bash", "createrepo", "apachectl", "systemctl", "chdef", "cp", "mkdir", "chown", "chmod",
    "/"]
  files := ["compute.otherpkglist", "compute.postinstall", "compute.synclists"].map netboot.child
  regions := [.below confDir, .below ["tmp"]]

/-- And until the image is packed. -/
def imageFootprint : Scope :=
  { contentFootprint with
    words := contentFootprint.words ++
      ["ln", "rmdef", "lsdef", "copycds", "genimage", "packimage"]
    names := true }

theorem contentFootprint_within : contentFootprint.Within imageFootprint := by decide

theorem confined_imageExists (image : String) (hrmdef : "rmdef" ∈ scope.words)
    (hlsdef : "lsdef" ∈ scope.words) : Confined site scope (imageExists site image) := by
  have hask : Confined site scope (do
      let code ← executeCommand site s!"lsdef -t osimage {image}"
      return decide (code = 0)) :=
    moves_bind (confined_executeCommand (word_mem (by decide) hlsdef _)) fun _ => moves_pure _
  refine moves_ite (fun _ => moves_pure _) fun _ => moves_ite (fun _ => ?_) fun _ => hask
  exact moves_bind (confined_command (word_mem (by decide) hrmdef _)) fun _ => hask

theorem confined_prepareImage (hbash : "bash" ∈ scope.words) (hcopycds : "copycds" ∈ scope.words) :
    Confined site scope (prepareImage site) := by
  refine moves_bind moves_get fun s => moves_ite (fun _ => confined_command ?_) fun _ =>
    confined_checkCommand (word_mem (by decide) hcopycds _)
  simp only [String.append_assoc]
  exact word_mem (by decide) hbash _

theorem confined_createHTTPRepo (repoName : String) :
    Confined site contentFootprint (createHTTPRepo site repoName) := by
  have hconf : contentFootprint.Covers (confDir ++ pathOf s!"{repoName}.conf") :=
    covers_below (by decide) (List.prefix_append _ _)
  refine moves_bind moves_get fun s => moves_ite (fun _ => moves_pure _) fun _ => ?_
  refine moves_bind (confined_makeDirectory _) fun _ => ?_
  refine moves_bind (confined_makeDirectory _) fun _ => ?_
  refine moves_bind (confined_installFile _ hconf) fun _ => ?_
  refine moves_bind (confined_checkCommand (by decide)) fun _ => ?_
  exact moves_bind (confined_checkCommand (by decide)) fun _ => moves_pure _

theorem confined_addOtherpkgdir (url : String) :
    Confined site contentFootprint (addOtherpkgdir site url) := by
  refine confined_onOSImage fun image => confined_checkCommand ?_
  simp only [String.append_assoc]
  exact word_mem (by decide) (by decide) _

theorem confined_addDoca : Confined site contentFootprint (addDoca site) := by
  refine moves_ite (fun _ => moves_pure _) fun _ => ?_
  refine moves_bind (confined_findRepo _) fun repo => ?_
  exact moves_bind (confined_plain _) fun url => confined_addOtherpkgdir url

theorem confined_kernelVersion : Confined site contentFootprint (kernelVersion site) :=
  moves_ite (fun _ => moves_pure _) fun _ => ELOSService.confined_getKernelInstalled (by decide)

theorem confined_configureMellanox : Confined site contentFootprint (configureMellanox site) := by
  refine moves_bind (confined_plain _) fun _ => moves_bind (confined_addPackages _) fun _ => ?_
  refine moves_bind confined_kernelVersion fun kernelVersion => ?_
  refine moves_bind (confined_createHTTPRepo _) fun localRepo => ?_
  refine moves_bind (confined_checkCommand ?_) fun _ => ?_
  · simp only [String.append_assoc]
    exact word_mem (by decide) (by decide) _
  refine moves_bind (confined_checkCommand (word_mem (by decide) (by decide) _)) fun _ => ?_
  exact moves_bind confined_addDoca fun _ => confined_addOtherpkgdir _

theorem confined_configureInfiniband : Confined site contentFootprint (configureInfiniband site) := by
  unfold configureInfiniband
  cases site.cluster.ofed with
  | none => exact moves_pure _
  | some ofed =>
    dsimp only
    cases ofed.kind with
    | Inbox => exact confined_addPackages _
    | Mellanox => exact confined_configureMellanox
    | Oracle => exact moves_throw _

theorem confined_addEntries {name : String} (entries : List String)
    (h : netboot.child name ∈ contentFootprint.files) :
    Confined site contentFootprint (addEntries site name entries) :=
  moves_forM fun entry _ => confined_addString entry h

theorem confined_removeFile {name : String} (h : netboot.child name ∈ contentFootprint.files) :
    Confined site contentFootprint (remove site (netboot.child name)) :=
  confined_remove (covers_of_mem h)

theorem confined_generatePostinstallFile :
    Confined site contentFootprint (generatePostinstallFile site) := by
  refine moves_bind (confined_removeFile (by decide)) fun _ => ?_
  refine moves_bind (confined_addPostinstall _) fun _ => ?_
  refine moves_bind (confined_addPostinstall _) fun _ => ?_
  refine moves_bind moves_get fun s => moves_bind (confined_addEntries _ (by decide)) fun _ => ?_
  exact moves_ite (fun _ => moves_pure _) fun _ => confined_setPermissions _

theorem confined_addToOSImage (key value : String) :
    Confined site contentFootprint (addToOSImage site key value) := by
  refine confined_onOSImage fun image => confined_command ?_
  simp only [String.append_assoc]
  exact word_mem (by decide) (by decide) _

/-- Reading a repository file back changes nothing. -/
theorem unchanged_addReposFromFile (codec : GKeyFile) (osinfo : OS) (filename : String) (fs : FS) :
    Unchanged (Cloyster.XCAT.addReposFromFile codec osinfo filename) fs := by
  refine unchanged_bind (unchanged_bind (unchanged_liftExcept _ _) fun type _ => ?_)
    fun repos _ => unchanged_liftExcept _ _
  cases type with
  | RPM =>
    have hparse : Unchanged (RPMRepositoryParser.parse codec
        (RPMRepoManager.basedir.child filename) ∅) fs := RPMRepoManager.unchanged_parse _ _ _
    unfold Unchanged at hparse
    change finalState (RPMRepoManager.repoFile codec filename fs) = fs
    unfold RPMRepoManager.repoFile
    cases hrun : RPMRepositoryParser.parse codec (RPMRepoManager.basedir.child filename) ∅ fs with
    | ok repos fs' =>
      rw [hrun] at hparse
      exact hparse
    | error e fs' =>
      rw [hrun] at hparse
      dsimp only
      split_ifs
      · exact hparse
      · exact hparse
  | DEB => rfl

theorem unchanged_getxCATOSImageRepos (codec : GKeyFile) (vault : OS → Bool) (osinfo : OS)
    (fs : FS) : Unchanged (Cloyster.XCAT.getxCATOSImageRepos codec vault osinfo) fs := by
  refine unchanged_bind (unchanged_liftExcept _ _) fun distro _ => ?_
  refine unchanged_bind (unchanged_addReposFromFile _ _ _ fs) fun own _ => ?_
  refine unchanged_bind (unchanged_addReposFromFile _ _ _ fs) fun epel _ => ?_
  exact unchanged_bind (unchanged_addReposFromFile _ _ _ fs) fun openHPC _ => rfl

theorem confined_addRepos : Confined site contentFootprint (addRepos site) := by
  refine moves_ite (fun _ => moves_pure _) fun _ => ?_
  refine moves_bind ?_ fun repos => confined_addToOSImage _ _
  exact confined_onFs_of_unchanged (moves_of_unchanged fun fs => unchanged_getxCATOSImageRepos _ _ _ fs)
    fun _ fs => unchanged_getxCATOSImageRepos _ _ _ fs

theorem confined_configureImage : Confined site contentFootprint (configureImage site) := by
  have hselinux : Confined site contentFootprint configureSELinux := by
    unfold configureSELinux
    exact confined_addPostinstall _
  refine moves_bind (confined_makeDirectory _) fun _ => moves_bind hselinux fun _ => ?_
  refine moves_bind ?_ fun _ => moves_bind ?_ fun _ => ?_
  · exact moves_bind (confined_addPackages _) fun _ => confined_addSynclist _
  · refine moves_bind (confined_addPackages _) fun _ => ?_
    exact moves_bind (confined_headnodeAddress _) fun _ => confined_addPostinstall _
  refine moves_bind confined_configureInfiniband fun _ => moves_bind ?_ fun _ => ?_
  · refine moves_bind (confined_addPackages _) fun _ => ?_
    refine moves_bind (confined_headnodeAddress _) fun _ => ?_
    refine moves_bind (confined_addPostinstall _) fun _ => ?_
    refine moves_bind (confined_addPostinstall _) fun _ => ?_
    exact moves_bind (confined_addPostinstall _) fun _ => confined_addSynclist _
  refine moves_bind ?_ fun _ => moves_bind confined_generatePostinstallFile fun _ =>
    moves_bind ?_ fun _ => ?_
  · refine moves_bind (confined_removeFile (by decide)) fun _ => moves_bind moves_get fun s => ?_
    exact confined_addEntries _ (by decide)
  · exact moves_bind (confined_removeFile (by decide)) fun _ => confined_addEntries _ (by decide)
  · refine moves_bind (confined_addToOSImage _ _) fun _ => ?_
    refine moves_bind (confined_addToOSImage _ _) fun _ => ?_
    exact moves_bind (confined_addToOSImage _ _) fun _ => confined_addRepos

theorem confined_fixMunge (chroot : String) : Confined site contentFootprint (fixMunge site chroot) := by
  refine moves_bind (confined_makeDirectory _) fun _ => moves_bind (confined_command ?_) fun _ => ?_
  · simp only [String.append_assoc]
    exact word_mem (by decide) (by decide) _
  refine moves_bind (confined_command ?_) fun _ => moves_forM fun dir _ => confined_command ?_
  · simp only [String.append_assoc]
    exact word_mem (by decide) (by decide) _
  · simp only [String.append_assoc]
    exact word_mem (by decide) (by decide) _

theorem confined_customizeImage (customizations : List ScriptBuilder) :
    Confined site contentFootprint (customizeImage site customizations) := by
  have hscripts : Confined site contentFootprint (customizations.forM fun script => do
      let _ ← run site script) :=
    moves_forM fun script _ => moves_bind (confined_run (by decide) (by decide)) fun _ =>
      moves_pure _
  refine moves_bind (confined_plain _) fun queue => ?_
  cases queue with
  | SLURM slurm =>
    exact moves_bind moves_get fun s => moves_bind (confined_fixMunge _) fun _ => hscripts
  | PBS place => exact hscripts

theorem confined_genimage : Confined site imageFootprint (genimage site) :=
  confined_onOSImage fun _ => confined_checkCommand (word_mem (by decide) (by decide) _)

theorem confined_packimage : Confined site imageFootprint (packimage site) :=
  confined_onOSImage fun _ => confined_checkCommand (word_mem (by decide) (by decide) _)

theorem confined_buildImage (imageType : ImageType) (nodeType : NodeType)
    (customizations : List ScriptBuilder) :
    Confined site imageFootprint (buildImage site imageType nodeType customizations) := by
  refine moves_bind (confined_prepareImage (by decide) (by decide)) fun _ => ?_
  refine moves_bind (confined_onName _ rfl) fun _ => ?_
  refine moves_bind (confined_mono confined_configureImage contentFootprint_within) fun _ => ?_
  refine moves_bind (confined_mono (confined_customizeImage _) contentFootprint_within) fun _ => ?_
  exact moves_bind confined_genimage fun _ => confined_packimage

theorem confined_createImage (imageType : ImageType) (nodeType : NodeType)
    (customizations : List ScriptBuilder) :
    Confined site imageFootprint (createImage site imageType nodeType customizations) := by
  refine moves_bind (confined_configureEL9 (by decide)) fun _ => ?_
  refine moves_bind (confined_onName _ rfl) fun _ => moves_bind moves_get fun s => ?_
  refine moves_bind (confined_imageExists _ (by decide) (by decide)) fun there => ?_
  exact moves_ite (fun _ => confined_buildImage _ _ _) fun _ => moves_pure _

theorem confined_getImageInstallArgs (imageType : ImageType) (nodeType : NodeType)
    (h : scope.names = true) : Confined site scope (getImageInstallArgs site imageType nodeType) := by
  refine moves_bind (confined_onName _ h) fun _ => moves_bind (confined_onName _ h) fun _ => ?_
  exact moves_bind moves_get fun s => moves_pure _

/-! ### The nodes -/

def nodesFootprint : Scope where
  words := ["mkdef", "makehosts", "makedhcp", "makedns", "makegocons", "nodeset", "rsetboot",
    "rpower"]

theorem programOf_addNode {cluster : Cluster} {text : AddressText} {node : Models.Node}
    {cmd : String} (h : Models.XCAT.addNode cluster text node = .ok cmd) :
    programOf cmd = "mkdef" := by
  obtain ⟨connection, -, h⟩ := except_bind_ok_iff.mp h
  obtain ⟨mac, -, h⟩ := except_bind_ok_iff.mp h
  obtain rfl := Except.ok.inj h
  simp only [String.append_assoc]
  exact (programOf_append (by decide) _).trans (by decide)

theorem confined_addNode (node : Models.Node) (h : "mkdef" ∈ scope.words) :
    Confined site scope (addNode site node) := by
  unfold addNode
  cases hcmd : Models.XCAT.addNode site.cluster.toCluster site.env.text node with
  | error e => exact moves_throw _
  | ok cmd =>
    refine confined_command ?_
    rw [programOf_addNode hcmd]
    exact h

theorem confined_setNodesImage : Confined site nodesFootprint (setNodesImage site) := by
  refine confined_onOSImage fun image => confined_checkCommand ?_
  simp only [String.append_assoc]
  exact word_mem (by decide) (by decide) _

theorem confined_addNodes : Confined site nodesFootprint (addNodes site) := by
  refine moves_bind (moves_forM fun node _ => confined_addNode node (by decide)) fun _ => ?_
  refine moves_bind (confined_command (by decide)) fun _ => ?_
  refine moves_bind (confined_command (by decide)) fun _ => ?_
  refine moves_bind (confined_command (by decide)) fun _ => ?_
  exact moves_bind (confined_command (by decide)) fun _ => confined_setNodesImage

end Cloyster.Engine.XCAT
