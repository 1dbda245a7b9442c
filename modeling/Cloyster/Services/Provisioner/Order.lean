import Cloyster.Engine.Ordered
import Cloyster.Services.Provisioner.Steps

/-! In which order the provisioner works. The medium is copied only when there is no image, the
image is generated from it and packed, and the nodes are registered and restarted only with an
image that was packed or found. -/

namespace Cloyster.Engine

open Lib Models Services

/-- What later commands rest on. -/
inductive Milestone where
  /-- The package was asked for. -/
  | installed
  /-- There was no image of the name. -/
  | missing
  /-- The medium was copied, or else cleaning the old image up was asked for. -/
  | medium
  | generated
  /-- The image was packed, or was there and is not to be made again. -/
  | ready
  /-- The nodes have the image. -/
  | assigned
  deriving DecidableEq

namespace Milestone

instance : Fintype Milestone :=
  ⟨{.installed, .missing, .medium, .generated, .ready, .assigned}, by intro k; cases k <;> simp⟩

/-- The commands that rest on it. -/
def words : Milestone → List String
  | .installed => ["grep", "xcatconfig", "chdef", "lsdef", "rmdef", "copycds", "genimage",
      "packimage", "mkdef", "makehosts", "makedhcp", "makedns", "makegocons", "nodeset", "rsetboot",
      "rpower"]
  | .missing => ["copycds"]
  | .medium => ["genimage"]
  | .generated => ["packimage"]
  | .ready => ["mkdef", "makehosts", "makedhcp", "makedns", "makegocons", "nodeset"]
  | .assigned => ["rsetboot", "rpower"]

end Milestone

namespace XCAT

open Models.XCAT

variable (site : Site)

/-- The name and the path of the image, as far as the cluster leads to them. -/
def nodeImage : Models.XCAT.Image where
  osimage := (finalState (generateOSImageName site.cluster.toCluster .Netboot .Compute {})).osimage
  chroot := (finalState (generateOSImagePath site.cluster.toCluster .Netboot .Compute {})).chroot

def cleaning (image : Models.XCAT.Image) : String :=
  s!"bash -c \"rm -rf {image.chroot} && " ++
    "echo > /install/custom/netboot/compute.otherpkglist && " ++
    "echo > /install/custom/netboot/compute.postinstall\""

theorem programOf_cleaning (image : Models.XCAT.Image) : programOf (cleaning image) = "bash" := by
  unfold cleaning
  simp only [String.append_assoc]
  exact programOf_eq (by decide) (by decide) _

/-- The events that reach a milestone. -/
def Reaches : Milestone → Event → Prop
  | .installed, e => ∃ code, e = .command "dnf -y install xCAT" code
  | .missing, e => ∃ code ≠ 0, e = .command s!"lsdef -t osimage {(nodeImage site).osimage}" code
  | .medium, e =>
    if site.opts.shouldSkip "copycds" then ∃ code, e = .command (cleaning (nodeImage site)) code
    else e = .command s!"copycds {site.cluster.diskImage.path}" 0
  | .generated, e => e = .command s!"genimage {(nodeImage site).osimage}" 0
  | .ready, e => e = .command s!"packimage {(nodeImage site).osimage}" 0 ∨
      site.opts.shouldSkip "copycds" = false ∧
        e = .command s!"lsdef -t osimage {(nodeImage site).osimage}" 0
  | .assigned, e => e = .command s!"nodeset compute osimage={(nodeImage site).osimage}" 0

def plan : Plan System Event Milestone := logPlan (Reaches site) fun e k => e.word ∈ k.words

variable {site} {scope : Scope} {α : Type} {x : EngineM α} {I : Models.XCAT.Image → Prop}
  {ks : List Milestone}

/-! ### What is known of a state -/

variable (site) in
/-- What the image is called, and the milestones that are behind. -/
def Known (I : Models.XCAT.Image → Prop) (ks : List Milestone) (s : System) : Prop :=
  I s.image.toImage ∧ (plan site).Knows ks s

/-- The image has the name and the path of the nodes' image. -/
abbrev IsNodeImage (site : Site) (image : Models.XCAT.Image) : Prop := image = nodeImage site

theorem Known.mono {js : List Milestone} {s : System} (h : Known site I ks s) (hjs : js ⊆ ks) :
    Known site I js s := ⟨h.1, h.2.mono hjs⟩

theorem Known.cons {k : Milestone} {e : Event} {s : System} (h : Known site I ks s) (he : e ∈ s.log)
    (hreaches : Reaches site k e) : Known site I (k :: ks) s := by
  refine ⟨h.1, fun j hj => ?_⟩
  obtain rfl | hj := List.mem_cons.mp hj
  · exact ⟨e, he, hreaches⟩
  · exact h.2 j hj

/-- A program whose commands rest on known milestones only. -/
theorem orderly_confined (h : Confined site scope x) (hI : scope.names = false ∨ ∀ image, I image)
    (hneeds : ∀ k : Milestone, k ∈ ks ∨ ∀ word ∈ scope.words, word ∉ k.words) :
    (plan site).Orderly (Known site I ks) x fun _ => Known site I ks :=
  orderly_of_confined h hI fun e he k hk =>
    (hneeds k).resolve_right fun hnot => hnot e.word he hk

/-! ### Commands -/

section

variable (hlive : site.opts.dryRun = false) {cmd word : String} (hword : programOf cmd = word)
  (hneeds : ∀ k : Milestone, word ∈ k.words → k ∈ ks)

include hlive hword hneeds

theorem orderly_executeCommand : (plan site).Orderly (Known site I ks) (executeCommand site cmd)
    fun code s => Known site I ks s ∧ .command cmd code ∈ s.log :=
  orderly_execute hlive fun _ k hk => hneeds k (hword ▸ hk)

theorem orderly_command : (plan site).Orderly (Known site I ks) (command site cmd)
    fun _ s => Known site I ks s ∧ ∃ code, .command cmd code ∈ s.log :=
  orderly_give hlive fun _ k hk => hneeds k (hword ▸ hk)

theorem orderly_checkCommand : (plan site).Orderly (Known site I ks) (checkCommand site cmd)
    fun _ s => Known site I ks s ∧ .command cmd 0 ∈ s.log :=
  orderly_check hlive fun _ k hk => hneeds k (hword ▸ hk)

end

/-! ### The name of the image -/

theorem onName_ok {y : XCATM α} {s t : System} {a : α} (h : onName y s = .ok a t) :
    ∃ image, y s.image.toImage = .ok a image ∧
      t = { s with image := { s.image with toImage := image } } := by
  unfold onName within at h
  cases hrun : y s.image.toImage with
  | ok b image =>
    rw [hrun] at h
    obtain ⟨rfl, rfl⟩ := EStateM.Result.ok.inj h
    exact ⟨image, rfl, rfl⟩
  | error e image =>
    rw [hrun] at h
    exact absurd h (by simp)

theorem generateOSImageName_ok {image named : Models.XCAT.Image}
    (h : generateOSImageName site.cluster.toCluster .Netboot .Compute image = .ok () named) :
    named = { image with osimage := (nodeImage site).osimage } := by
  simp only [generateOSImageName, bind_ok_iff, liftExcept_ok_iff, modify_ok_iff] at h
  obtain ⟨version, _, ⟨hversion, rfl⟩, node, _, ⟨hnode, rfl⟩, rfl⟩ := h
  simp only [nodeImage, generateOSImageName, hversion, hnode]
  rfl

theorem generateOSImagePath_ok {image placed : Models.XCAT.Image}
    (h : generateOSImagePath site.cluster.toCluster .Netboot .Compute image = .ok () placed) :
    placed = { image with chroot := (nodeImage site).chroot } := by
  simp only [generateOSImagePath, bind_ok_iff, refuseIf_ok_iff, liftExcept_ok_iff,
    modify_ok_iff] at h
  obtain ⟨_, _, ⟨-, rfl⟩, version, _, ⟨hversion, rfl⟩, node, _, ⟨hnode, rfl⟩, rfl⟩ := h
  simp only [nodeImage, generateOSImagePath, hversion, hnode]
  rfl

theorem orderly_onName {y : XCATM Unit} {J : Models.XCAT.Image → Prop}
    (h : ∀ image image', I image → y image = .ok () image' → J image') :
    (plan site).Orderly (Known site I ks) (onName y) fun _ => Known site J ks := by
  intro s hs hlog
  have hview : (finalState (onName y s)).log = s.log := by
    unfold onName within
    cases y s.image.toImage <;> rfl
  refine ⟨?_, fun u t hrun => ?_⟩
  · change (plan site).Ordered (finalState (onName y s)).log
    rw [hview]
    exact hlog
  · obtain ⟨image, hy, rfl⟩ := onName_ok hrun
    exact ⟨h _ _ hs.1 hy, hs.2⟩

/-- Naming the image once more changes nothing. -/
theorem orderly_name : (plan site).Orderly (Known site (IsNodeImage site) ks)
    (onName (generateOSImageName site.cluster.toCluster .Netboot .Compute))
    fun _ => Known site (IsNodeImage site) ks := by
  refine orderly_onName fun image named himage hnamed => ?_
  rw [IsNodeImage, generateOSImageName_ok hnamed, himage]

theorem orderly_path : (plan site).Orderly (Known site (IsNodeImage site) ks)
    (onName (generateOSImagePath site.cluster.toCluster .Netboot .Compute))
    fun _ => Known site (IsNodeImage site) ks := by
  refine orderly_onName fun image placed himage hplaced => ?_
  rw [IsNodeImage, generateOSImagePath_ok hplaced, himage]

theorem orderly_getImageInstallArgs : (plan site).Orderly (Known site I ks)
    (getImageInstallArgs site .Netboot .Compute) fun _ => Known site (IsNodeImage site) ks := by
  have hname : (plan site).Orderly (Known site I ks)
      (onName (generateOSImageName site.cluster.toCluster .Netboot .Compute))
      fun _ => Known site (fun image => image.osimage = (nodeImage site).osimage) ks :=
    orderly_onName fun image named _ hnamed => by rw [generateOSImageName_ok hnamed]
  refine Plan.orderly_bind hname fun _ => ?_
  refine Plan.orderly_bind (orderly_onName fun image placed himage hplaced => ?_) fun _ =>
    Plan.orderly_get fun r hr => Plan.orderly_pure fun s hs => hs ▸ hr
  rw [IsNodeImage, generateOSImagePath_ok hplaced, himage]

/-! ### Making the image -/

section

variable (hlive : site.opts.dryRun = false)

include hlive

theorem orderly_imageExists (hks : .installed ∈ ks) : (plan site).Orderly
    (Known site (IsNodeImage site) ks) (imageExists site (nodeImage site).osimage) fun there s =>
      Known site (IsNodeImage site) ks s ∧ ∃ code, there = decide (code = 0) ∧
        .command s!"lsdef -t osimage {(nodeImage site).osimage}" code ∈ s.log := by
  have hneeds (word : String) (hword : ∀ k : Milestone, word ∈ k.words → k = .installed) :
      ∀ k : Milestone, word ∈ k.words → k ∈ ks := fun k hk => hword k hk ▸ hks
  have hask : (plan site).Orderly (Known site (IsNodeImage site) ks) (do
      let code ← executeCommand site s!"lsdef -t osimage {(nodeImage site).osimage}"
      return decide (code = 0)) fun there s =>
        Known site (IsNodeImage site) ks s ∧ ∃ code, there = decide (code = 0) ∧
          .command s!"lsdef -t osimage {(nodeImage site).osimage}" code ∈ s.log := by
    refine Plan.orderly_bind (orderly_executeCommand hlive
      (programOf_eq (by decide) (by decide) _) (hneeds "lsdef" (by decide))) fun code => ?_
    exact Plan.orderly_pure fun s hs => ⟨hs.1, code, rfl, hs.2⟩
  refine Plan.orderly_ite (fun hdry => absurd (hlive.symm.trans hdry) (by simp)) fun _ => ?_
  refine Plan.orderly_ite (fun _ => ?_) fun _ => hask
  refine Plan.orderly_bind (orderly_command hlive (programOf_eq (by decide) (by decide) _)
    (hneeds "rmdef" (by decide))) fun _ => ?_
  exact Plan.orderly_pre hask fun s hs => hs.1

theorem orderly_installPackages : (plan site).Orderly (Known site I []) (installPackages site)
    fun _ => Known site I [.installed] := by
  have hneeds : ∀ k : Milestone, "dnf" ∈ k.words → k ∈ ([] : List Milestone) := by decide
  have hdnf (cmd : String) : (plan site).Orderly (Known site I []) (ELOSService.dnf site cmd)
      fun _ s => Known site I [] s ∧ ∃ code, .command s!"dnf -y {cmd}" code ∈ s.log :=
    Plan.orderly_bind (orderly_executeCommand hlive (programOf_eq (by decide) (by decide) _) hneeds)
      fun code => Plan.orderly_pure fun s hs => ⟨hs.1, code, hs.2⟩
  refine Plan.orderly_bind (hdnf _) fun _ => ?_
  refine Plan.orderly_bind (Plan.orderly_pre (hdnf _) fun s hs => hs.1) fun _ => ?_
  refine Plan.orderly_pure ?_
  rintro s ⟨hs, code, hmem⟩
  have htext : "dnf -y " ++ ("install " ++ "xCAT") = "dnf -y install xCAT" := by decide
  exact hs.cons hmem ⟨code, by rw [← htext]; rfl⟩

/-- The old image counts as the medium when nothing is to be copied. -/
theorem orderly_cleaning (hskip : site.opts.shouldSkip "copycds") :
    (plan site).Orderly (Known site (IsNodeImage site) ks)
      (command site (cleaning (nodeImage site)))
      fun _ => Known site (IsNodeImage site) (.medium :: ks) := by
  have hneeds : ∀ k : Milestone, "bash" ∈ k.words → k ∈ ks := by
    intro k hk
    exact absurd hk (by revert k; decide)
  refine Plan.orderly_post (orderly_command hlive (programOf_cleaning _) hneeds) ?_
  rintro _ s ⟨hs, code, hmem⟩
  refine hs.cons hmem ?_
  rw [Reaches, if_pos hskip]
  exact ⟨code, rfl⟩

theorem orderly_copycds (hskip : ¬ site.opts.shouldSkip "copycds") (hks : .installed ∈ ks)
    (hmissing : .missing ∈ ks) :
    (plan site).Orderly (Known site (IsNodeImage site) ks)
      (copycds site site.cluster.diskImage.path)
      fun _ => Known site (IsNodeImage site) (.medium :: ks) := by
  have hneeds : ∀ k : Milestone, "copycds" ∈ k.words → k ∈ ks := by
    intro k hk
    have hk' : k = .installed ∨ k = .missing := by
      revert k
      decide
    obtain rfl | rfl := hk'
    · exact hks
    · exact hmissing
  refine Plan.orderly_post (orderly_checkCommand hlive
    (programOf_eq (by decide) (by decide) _) hneeds) ?_
  rintro _ s ⟨hs, hmem⟩
  refine hs.cons hmem ?_
  rw [Reaches, if_neg hskip]

/-- Only without an image is the medium copied. -/
theorem orderly_prepareImage (hks : .installed ∈ ks)
    (hmissing : site.opts.shouldSkip "copycds" = false → .missing ∈ ks) :
    (plan site).Orderly (Known site (IsNodeImage site) ks) (prepareImage site) fun _ s =>
      Known site (IsNodeImage site) (.medium :: ks) s := by
  refine Plan.orderly_get_keep fun r hr => ?_
  have hname : r.image.toImage = nodeImage site := hr.1
  have hchroot : r.image.chroot = (nodeImage site).chroot := congrArg (·.chroot) hname
  refine Plan.orderly_ite (fun hskip => ?_) fun hskip => ?_
  · rw [hchroot]
    exact orderly_cleaning hlive hskip
  · have hmiss : .missing ∈ ks := hmissing (Bool.eq_false_iff.mpr hskip)
    exact orderly_copycds hlive hskip hks hmiss

/-- A command about the image that reaches a milestone. -/
theorem orderly_onOSImage {cmd : String → String} {w : String} {k : Milestone}
    (hword : programOf (cmd (nodeImage site).osimage) = w)
    (hneeds : ∀ j : Milestone, w ∈ j.words → j ∈ ks)
    (hreaches : Reaches site k (.command (cmd (nodeImage site).osimage) 0)) :
    (plan site).Orderly (Known site (IsNodeImage site) ks)
      (onOSImage fun image => checkCommand site (cmd image))
      fun _ => Known site (IsNodeImage site) (k :: ks) := by
  refine Plan.orderly_get_keep fun r hr => ?_
  have hname : r.image.osimage = (nodeImage site).osimage := congrArg (·.osimage) hr.1
  rw [hname]
  refine Plan.orderly_post (orderly_checkCommand hlive hword hneeds) ?_
  exact fun _ s hs => hs.1.cons hs.2 hreaches

theorem orderly_buildImage (hinstalled : .installed ∈ ks)
    (hmissing : site.opts.shouldSkip "copycds" = false → .missing ∈ ks)
    (customizations : List ScriptBuilder) :
    (plan site).Orderly (Known site (IsNodeImage site) ks)
      (buildImage site .Netboot .Compute customizations)
      fun _ => Known site (IsNodeImage site) [.installed, .ready] := by
  refine Plan.orderly_bind (orderly_prepareImage hlive hinstalled hmissing) fun _ => ?_
  have hmedium : ∀ s, Known site (IsNodeImage site) (.medium :: ks) s →
      Known site (IsNodeImage site) [.installed, .medium] s := fun s hs =>
    hs.mono (by simp [hinstalled])
  refine Plan.orderly_bind (Plan.orderly_pre orderly_path hmedium) fun _ => ?_
  refine Plan.orderly_bind (orderly_confined confined_configureImage (.inl rfl) (by decide))
    fun _ => ?_
  refine Plan.orderly_bind (orderly_confined (confined_customizeImage _) (.inl rfl) (by decide))
    fun _ => ?_
  refine Plan.orderly_bind (orderly_onOSImage hlive (k := .generated)
    (programOf_eq (by decide) (by decide) _) (w := "genimage") (by decide) rfl) fun _ => ?_
  refine Plan.orderly_post (orderly_onOSImage hlive (k := .ready)
    (programOf_eq (by decide) (by decide) _) (w := "packimage") (by decide) (.inl rfl)) ?_
  exact fun _ s hs => hs.mono (by simp)

/-- The image is made when there is none, or without the medium in any case. -/
theorem orderly_createImage (customizations : List ScriptBuilder) :
    (plan site).Orderly (Known site (IsNodeImage site) [.installed])
      (createImage site .Netboot .Compute customizations)
      fun _ => Known site (IsNodeImage site) [.installed, .ready] := by
  have hlinks : Confined site { words := ["ln"] } (configureEL9 site) :=
    confined_configureEL9 (by decide)
  refine Plan.orderly_bind (orderly_confined hlinks (.inl rfl) (by decide)) fun _ => ?_
  refine Plan.orderly_bind orderly_name fun _ => Plan.orderly_get_keep fun r hr => ?_
  have hname : r.image.osimage = (nodeImage site).osimage := congrArg (·.osimage) hr.1
  rw [hname]
  refine Plan.orderly_bind (orderly_imageExists hlive (by decide)) fun there => ?_
  refine Plan.orderly_ite (fun hmake => ?_) fun hmake => Plan.orderly_pure ?_
  · cases hskip : site.opts.shouldSkip "copycds" with
    | true =>
      refine Plan.orderly_pre (orderly_buildImage hlive
        (List.mem_singleton_self Milestone.installed) ?_ _) ?_
      · exact fun h => absurd (hskip.symm.trans h) (by simp)
      · exact fun s hs => hs.1
    | false =>
      refine Plan.orderly_pre (orderly_buildImage hlive
        (List.mem_cons_of_mem _ (List.mem_singleton_self Milestone.installed))
        (fun _ => List.mem_cons_self) _) ?_
      rintro s ⟨hs, code, rfl, hmem⟩
      have hcode : code ≠ 0 := by simpa [hskip] using hmake
      exact hs.cons hmem ⟨code, hcode, rfl⟩
  · rintro s ⟨hs, code, rfl, hmem⟩
    obtain ⟨hcode, hskip⟩ : code = 0 ∧ site.opts.shouldSkip "copycds" = false := by
      simpa using hmake
    subst hcode
    exact (hs.cons hmem (k := .ready) (.inr ⟨hskip, rfl⟩)).mono (by simp)

/-! ### The nodes -/

theorem orderly_setNodesImage (hneeds : ∀ k : Milestone, "nodeset" ∈ k.words → k ∈ ks) :
    (plan site).Orderly (Known site (IsNodeImage site) ks) (setNodesImage site)
      fun _ => Known site (IsNodeImage site) (.assigned :: ks) := by
  refine orderly_onOSImage hlive (k := .assigned) (w := "nodeset") ?_ hneeds rfl
  exact programOf_eq (by decide) (by decide) _

theorem orderly_addNodes : (plan site).Orderly (Known site (IsNodeImage site) [.installed, .ready])
    (addNodes site) fun _ => Known site (IsNodeImage site) [.assigned, .installed, .ready] := by
  have hconfined {y : EngineM Unit} (h : Confined site
      { words := ["mkdef", "makehosts", "makedhcp", "makedns", "makegocons"] } y) :
      (plan site).Orderly (Known site (IsNodeImage site) [.installed, .ready]) y
        fun _ => Known site (IsNodeImage site) [.installed, .ready] :=
    orderly_confined h (.inl rfl) (by decide)
  refine Plan.orderly_bind (hconfined (moves_forM fun node _ => confined_addNode node (by decide)))
    fun _ => ?_
  refine Plan.orderly_bind (hconfined (confined_command (by decide))) fun _ => ?_
  refine Plan.orderly_bind (hconfined (confined_command (by decide))) fun _ => ?_
  refine Plan.orderly_bind (hconfined (confined_command (by decide))) fun _ => ?_
  refine Plan.orderly_bind (hconfined (confined_command (by decide))) fun _ => ?_
  exact orderly_setNodesImage hlive (by decide)

end

end XCAT

end Cloyster.Engine
