import Cloyster.Services.Provisioner.Order
import Cloyster.Services.Shell.Returns

/-! Where the image is to be made, on the machines on which the rest of an installation returns.
What goes into it is put together and told to the provisioner without a failure. To be customized
the image needs a queue system: a dry run for a cluster with one returns, and a run for a cluster
without one ends there. -/

namespace Cloyster.Engine.Shell

open Lib Models Services RPMRepoManager

variable {site : Site} {F : RPMRepoManager × FS → Prop} {dirs : List Path}

/-- While the files for the image are written. -/
abbrev AtImage (site : Site) : System → Prop :=
  Standing site (Ready site.env.codec (XCAT.netboot :: standingDirectories))

/-- Cleaning an old image up was asked for. -/
def CleanedUp (s : System) : Prop := ∃ image, .command (XCAT.cleaning image) 0 ∈ s.log

/-! ### The files that tell what goes into the image -/

theorem runs_addPackages (packages : List String) :
    Runs (Standing site F) (XCAT.addPackages packages) := runs_onImage fun _ => ⟨_, _, rfl⟩

theorem runs_addSynclist (entry : String) : Runs (Standing site F) (XCAT.addSynclist entry) :=
  runs_onImage fun _ => ⟨_, _, rfl⟩

theorem total_addPostinstall (entry : String) : Total (Standing site F) (XCAT.addPostinstall entry)
    fun _ t => (∃ entries, t.image.postinstall = entries ++ [entry]) ∧ Standing site F t :=
  fun _ hs => ⟨(), _, rfl, ⟨_, rfl⟩, hs⟩

theorem runs_addPostinstall (entry : String) :
    Runs (Standing site F) (XCAT.addPostinstall entry) :=
  total_post (total_addPostinstall entry) fun _ _ ht => ht.2

theorem runs_addEntries {name : String} (hname : XCAT.netboot.child name ∈ remadeFiles)
    (entries : List String) : Runs (AtImage site) (XCAT.addEntries site name entries) :=
  runs_forM fun entry _ =>
    runs_addString_remade hname (by rw [Path.parent_child]; exact List.mem_cons_self) entry

/-- A file with a text in it is there. -/
theorem exists_of_textAt {fs : FS} {p : Path} (h : textAt fs p ≠ "") : fs.exists p := by
  rw [textAt] at h
  cases hcontent : fs.content? p with
  | none => exact absurd (by rw [hcontent, Option.getD_none]) h
  | some text => simp [FS.exists, FS.content?_eq_some.mp hcontent]

/-- What was appended to is there. -/
theorem total_addString_there {p : Path} {entry : String} (hentry : entry ≠ "")
    (hruns : Runs (Standing site F) (addString site p entry)) :
    Total (Standing site F) (addString site p entry)
      fun _ t => Standing site F t ∧ (site.opts.dryRun = false → t.fs.exists p) := by
  intro s hs
  obtain ⟨u, t, hrun, ht⟩ := hruns s hs
  refine ⟨u, t, hrun, ht, fun hlive => ?_⟩
  obtain ⟨k, htext, hall⟩ := addStringToFile_text site.opts.toOptions hlive entry s.fs
  unfold addString onFs within at hrun
  cases hfirst : addStringToFile site.opts.toOptions p entry s.fs with
  | error e fs =>
    rw [hfirst] at hrun
    exact absurd hrun (by simp)
  | ok v fs =>
    rw [hfirst] at hrun htext
    obtain ⟨-, rfl⟩ := EStateM.Result.ok.inj hrun
    refine exists_of_textAt fun hempty => hentry ?_
    have hthere : Text.contains (appendAll (textAt s.fs p) ([entry].take k)) entry := by
      rw [List.take_of_length_le (hall v fs hfirst)]
      exact contains_appendAll List.mem_cons_self
    rw [← htext] at hthere
    change Text.contains (textAt fs p) entry at hthere
    rw [hempty, Text.contains, decide_eq_true_iff] at hthere
    exact String.toList_eq_nil_iff.mp (List.infix_nil.mp hthere)

theorem runs_setPermissions {p : Path} :
    Runs (fun s => Standing site F s ∧ s.fs.exists p) (setPermissions p) :=
  total_get fun s hs => by
    rw [refuseIf, if_neg (by simp [hs.2])]
    exact total_pure fun t ht => ht ▸ hs

theorem runs_generateOtherPkgListFile :
    Runs (AtImage site) (XCAT.generateOtherPkgListFile site) :=
  total_bind (runs_remove_remade (by decide)) fun _ =>
    runs_get fun _ => runs_addEntries (by decide) _

theorem runs_generateSynclistsFile : Runs (AtImage site) (XCAT.generateSynclistsFile site) :=
  total_bind (runs_remove_remade (by decide)) fun _ => runs_addEntries (by decide) _

/-- The file is made by its last entry at the latest. -/
theorem runs_generatePostinstallFile : Runs (AtImage site) (XCAT.generatePostinstallFile site) := by
  refine total_bind (runs_remove_remade (by decide)) fun _ => ?_
  refine total_bind (runs_addPostinstall _) fun _ => ?_
  refine total_bind (total_addPostinstall _) fun _ => total_get fun s hs => ?_
  obtain ⟨⟨entries, hentries⟩, hstanding⟩ := hs
  rw [hentries]
  have hlast : Runs (AtImage site) (addString site (XCAT.netboot.child "compute.postinstall")
      "systemctl disable firewalld\n") :=
    runs_addString_remade (by decide) (by decide) _
  refine total_pre (P := AtImage site) ?_ fun t ht => ht ▸ hstanding
  refine total_bind (total_forM_append (runs_addEntries (by decide) entries)
    (total_bind (total_addString_there (by decide) hlast) fun _ => runs_pure _)) fun _ => ?_
  refine total_ite (fun _ => total_pure fun _ ht => ht.1) fun hwet => ?_
  refine total_post (total_pre runs_setPermissions fun t ht => ?_) fun _ _ ht => ht.1
  exact ⟨ht.1, ht.2 (Bool.eq_false_iff.mpr hwet)⟩

/-! ### The repositories of the image -/

theorem getxCATOSImageRepos_returns {codec : GKeyFile} {vault : OS → Bool} {osinfo : OS} {fs : FS}
    (hd : osinfo.distro = some .Rocky) (hvault : vault osinfo = false)
    (h : ∀ name ∈ imageFiles, Readable codec fs name) :
    ∃ urls, Cloyster.XCAT.getxCATOSImageRepos codec vault osinfo fs = .ok urls fs := by
  have hfile : ∀ name ∈ imageFiles,
      ∃ urls, Cloyster.XCAT.addReposFromFile codec osinfo name fs = .ok urls fs := by
    intro name hname
    obtain ⟨-, repos, -, hparse, hurls⟩ := h name hname
    obtain ⟨urls, hrun, -⟩ := Cloyster.XCAT.addReposFromFile_returns hd hparse hurls
    exact ⟨urls, hrun⟩
  obtain ⟨own, hown⟩ := hfile "rocky.repo" (by decide)
  obtain ⟨epel, hepel⟩ := hfile "epel.repo" (by decide)
  obtain ⟨openHPC, hopenHPC⟩ := hfile "OpenHPC.repo" (by decide)
  have hdistro : liftExcept osinfo.getDistro fs = .ok OS.Distro.Rocky fs := by
    rw [OS.getDistro_ok_iff.mpr hd]
    rfl
  have hname : Cloyster.XCAT.distroRepoFile vault osinfo .Rocky = "rocky.repo" := by
    rw [Cloyster.XCAT.distroRepoFile, hvault]
    rfl
  rw [Cloyster.XCAT.getxCATOSImageRepos, bind_of_ok hdistro, hname, bind_of_ok hown,
    bind_of_ok hepel, bind_of_ok hopenHPC]
  exact ⟨_, rfl⟩

namespace Equipped

variable (h : Equipped site)

include h

theorem runs_addToOSImage (key value : String) :
    Runs (Standing site F) (XCAT.addToOSImage site key value) := runs_get fun _ => h.runs_command _

theorem runs_addRepos : Runs (Standing site (Ready site.env.codec dirs)) (XCAT.addRepos site) := by
  refine total_ite (fun _ => runs_pure _) fun hwet => ?_
  refine total_bind (total_onFs (fun hdry => absurd hdry hwet) fun _ m fs hs => ?_)
    fun _ => h.runs_addToOSImage _ _
  obtain ⟨urls, hrun⟩ := getxCATOSImageRepos_returns h.distro h.vault hs.readable
  exact ⟨urls, fs, hrun, hs⟩

theorem runs_headnodeAddress :
    Runs (Standing site F) (XCAT.headnodeAddress site .Management) :=
  total_bind h.runs_headnodeConnection fun _ => runs_pure _

/-! ### Making the image -/

theorem runs_prepareImage : Runs (Standing site F) (XCAT.prepareImage site) :=
  runs_get fun _ => total_ite (fun _ => h.runs_command _) fun _ => runs_checkCommand h.obliging _

/-- Where the copy of the medium is skipped. -/
theorem total_prepareImage (hlive : site.opts.dryRun = false)
    (hskip : site.opts.shouldSkip "copycds" = true) :
    Total (Standing site F) (XCAT.prepareImage site)
      fun _ t => Standing site F t ∧ CleanedUp t := by
  refine total_get fun s hs => ?_
  rw [hskip, if_pos rfl]
  refine total_pre (P := Standing site F) ?_ fun t ht => ht ▸ hs
  refine total_post (total_command_logged h.obliging hlive _) fun _ t ht => ⟨ht.1, ?_⟩
  exact ⟨s.image.toImage, ht.2⟩

theorem runs_configureImage : Runs (AtRest site) (XCAT.configureImage site) := by
  refine total_bind (total_makeDirectory_made (by decide)) fun _ => ?_
  refine total_bind (runs_addPostinstall _) fun _ => ?_
  refine total_bind (total_bind (runs_addPackages _) fun _ => runs_addSynclist _) fun _ => ?_
  have htime : Runs (AtImage site) (XCAT.configureTimeService site) :=
    total_bind (runs_addPackages _) fun _ =>
      total_bind h.runs_headnodeAddress fun _ => runs_addPostinstall _
  have hinfiniband : Runs (AtImage site) (XCAT.configureInfiniband site) := by
    rw [XCAT.configureInfiniband, h.ofed]
    exact runs_pure _
  have hslurm : Runs (AtImage site) (XCAT.configureSLURM site) := by
    refine total_bind (runs_addPackages _) fun _ => total_bind h.runs_headnodeAddress fun _ => ?_
    refine total_bind (runs_addPostinstall _) fun _ => ?_
    refine total_bind (runs_addPostinstall _) fun _ => ?_
    exact total_bind (runs_addPostinstall _) fun _ => runs_addSynclist _
  have hdefinition : Runs (AtImage site) (XCAT.configureOSImageDefinition site) :=
    total_bind (h.runs_addToOSImage _ _) fun _ => total_bind (h.runs_addToOSImage _ _) fun _ =>
      total_bind (h.runs_addToOSImage _ _) fun _ => h.runs_addRepos
  refine total_bind htime fun _ => total_bind hinfiniband fun _ => total_bind hslurm fun _ => ?_
  refine total_bind runs_generateOtherPkgListFile fun _ => ?_
  refine total_bind runs_generatePostinstallFile fun _ => ?_
  refine total_bind runs_generateSynclistsFile fun _ => ?_
  exact total_post hdefinition fun _ t ht hlive => (ht hlive).mono (List.subset_cons_self _ _)

/-! ### A dry run -/

section

variable (hdry : site.opts.dryRun = true) (hqueue : site.cluster.queue ≠ none)

include hdry hqueue

theorem runs_customizeImage_dryRun (customizations : List ScriptBuilder) :
    Runs (AtRest site) (XCAT.customizeImage site customizations) := by
  have hnot {P : Prop} (hlive : site.opts.dryRun = false) : P :=
    absurd (hdry.symm.trans hlive) (by simp)
  have hscripts : Runs (AtRest site) (customizations.forM fun script => do
      let _ ← run site script) :=
    runs_forM fun script _ => runs_discard (runs_script h.obliging script) ()
  obtain ⟨queue, hsome⟩ := Option.ne_none_iff_exists'.mp hqueue
  refine total_plain_bind (optionValue_ok_iff.mpr hsome) ?_
  cases queue with
  | SLURM slurm =>
    refine runs_get fun s => total_bind (Q := fun _ => AtRest site) ?_ fun _ => hscripts
    refine total_bind (Q := fun _ => AtRest site) (total_makeDirectory hnot) fun _ => ?_
    refine total_bind (h.runs_command _) fun _ => total_bind (h.runs_command _) fun _ => ?_
    exact runs_forM fun dir _ => h.runs_command _
  | PBS place => exact total_bind (runs_pure ()) fun _ => hscripts

/-- Nothing can be asked about the image, so it is made. -/
theorem runs_createNodeImage_dryRun : Runs (AtRest site) (createNodeImage site) := by
  refine total_bind h.runs_getImageInstallArgs fun args => ?_
  refine total_bind h.runs_configureEL9 fun _ => ?_
  refine total_bind h.runs_onName_name fun _ => runs_get fun s => ?_
  rw [XCAT.imageExists, if_pos hdry]
  refine total_bind (runs_pure false) fun there => total_ite (fun _ => ?_) fun _ => runs_pure _
  refine total_bind h.runs_prepareImage fun _ => total_bind h.runs_onName_path fun _ => ?_
  refine total_bind h.runs_configureImage fun _ => ?_
  refine total_bind (h.runs_customizeImage_dryRun hdry hqueue _) fun _ => ?_
  exact total_bind (runs_get fun _ => runs_checkCommand h.obliging _) fun _ =>
    runs_get fun _ => runs_checkCommand h.obliging _

/-- It goes through all tasks. -/
theorem total_install_dryRun (hstop : site.opts.stopAfterStep ∉ (stageTasks site).map Prod.snd)
    (hmail : site.cluster.mailSystem = none) :
    Total (fun s => s.repos = {}) (install site) fun _ => AtRest site :=
  total_pre (h.total_install_of_image hstop hmail (h.runs_createNodeImage_dryRun hdry hqueue))
    fun _ hs => ⟨hs, fun hlive => absurd (hdry.symm.trans hlive) (by simp)⟩

end

/-! ### Without a queue system -/

variable (hlive : site.opts.dryRun = false) (hskip : site.opts.shouldSkip "copycds" = true)
  (hqueue : site.cluster.queue = none)

include hlive hskip hqueue

/-- What goes into the image is put together, and then the customization throws. -/
theorem throws_buildImage (customizations : List ScriptBuilder) :
    Throws (AtRest site) (XCAT.buildImage site .Netboot .Compute customizations)
      (.uncaught ⟨.badOptionalAccess, "bad optional access"⟩) CleanedUp := by
  have hkeep {P : Event → Prop} (s t : System) (hext : EventLog.Extends System.log P s t)
      (hclean : CleanedUp s) : CleanedUp t :=
    hclean.imp fun _ hmem => hext.isPrefix.subset hmem
  have hpath : Confined site { names := true }
      (onName (Models.XCAT.generateOSImagePath site.cluster.toCluster .Netboot .Compute)) :=
    confined_onName _ rfl
  refine throws_bind (h.total_prepareImage hlive hskip) fun _ => ?_
  refine throws_bind (total_frame h.runs_onName_path (grows_of_confined hpath) hkeep) fun _ => ?_
  refine throws_bind (total_frame h.runs_configureImage
    (grows_of_confined XCAT.confined_configureImage) hkeep) fun _ => ?_
  refine throws_bind_left ?_
  rw [XCAT.customizeImage, hqueue]
  exact throws_bind_left (throws_throw fun _ hs => hs.2)

theorem throws_createNodeImage : Throws (AtRest site) (createNodeImage site)
    (.uncaught ⟨.badOptionalAccess, "bad optional access"⟩) CleanedUp := by
  refine throws_bind h.runs_getImageInstallArgs fun args => ?_
  refine throws_bind h.runs_configureEL9 fun _ => ?_
  refine throws_bind h.runs_onName_name fun _ => throws_get fun s => ?_
  refine throws_bind (h.total_imageExists hlive _) fun there => ?_
  rw [hskip, if_pos (by simp)]
  exact throws_pre (h.throws_buildImage hlive hskip hqueue _) fun _ hs => hs.2

/-- The run is over when the image is customized. -/
theorem throws_install (hstop : site.opts.stopAfterStep ∉ (stageTasks site).map Prod.snd)
    (hmail : site.cluster.mailSystem = none) :
    Throws (fun s => s.repos = {} ∧ Fresh site.env.codec s.fs) (install site)
      (.uncaught ⟨.badOptionalAccess, "bad optional access"⟩) CleanedUp := by
  have htasks : (tasks site).drop 29 = Task.image :: (tasks site).drop 30 := rfl
  rw [install_eq_tasks, ← List.take_append_drop 29 (tasks site), runAll_append, htasks]
  refine throws_bind (total_pre (h.total_untilImage hstop hmail) fun s hs => ⟨hs.1, fun _ => hs.2⟩)
    fun _ => ?_
  rw [runAll_cons]
  exact throws_bind_left (h.throws_createNodeImage hlive hskip hqueue)

end Equipped

end Cloyster.Engine.Shell
