import Cloyster.Services.Shell.Runs

/-! The order of a whole run. Until the provisioner is set up no command rests on a milestone, and
from there the tasks reach the milestones that the later ones rest on. -/

namespace Cloyster.Engine.Shell

open Lib Models Services Engine.XCAT

variable {site : Site} {I : Models.XCAT.Image → Prop} {ks : List Milestone}

/-! ### The tasks -/

theorem orderly_runAll {tasks : List (Task site)}
    (hnames : (∀ task ∈ tasks, task.footprint.names = false) ∨ ∀ image, I image)
    (hneeds : ∀ task ∈ tasks, ∀ k : Milestone,
      k ∈ ks ∨ ∀ word ∈ task.footprint.words, word ∉ k.words) :
    (plan site).Orderly (Known site I ks) (runAll tasks) fun _ => Known site I ks := by
  induction tasks with
  | nil => exact Plan.orderly_pure fun s hs => hs
  | cons task tasks ih =>
    rw [runAll_cons]
    refine Plan.orderly_bind (orderly_confined task.confined ?_ (hneeds task List.mem_cons_self))
      fun _ => ih ?_ fun later hlater => hneeds later (List.mem_cons_of_mem _ hlater)
    · exact hnames.imp_left fun h => h task List.mem_cons_self
    · exact hnames.imp_left fun h later hlater => h later (List.mem_cons_of_mem _ hlater)

theorem orderly_stopAfter (step : String) :
    (plan site).Orderly (Known site I ks) (maybeStopAfterStep site step)
      fun _ => Known site I ks := Plan.orderly_refuseIf _ fun _ hs _ => hs

section

variable (hlive : site.opts.dryRun = false)

include hlive

theorem orderly_setupProvisioner :
    (plan site).Orderly (Known site (fun _ => True) []) (setupProvisioner site)
      fun _ => Known site (fun _ => True) [.installed] := by
  have hconfined {y : EngineM Unit} (h : Confined site
      { words := ["dnf"], regions := repoRegions, names := true } y) :
      (plan site).Orderly (Known site (fun _ => True) []) y fun _ => Known site (fun _ => True) [] :=
    orderly_confined h (.inr fun _ => trivial) (by decide)
  have hafter {y : EngineM Unit} (h : Confined site
      { words := ["grep", "sed", "xcatconfig", "chdef"] } y) :
      (plan site).Orderly (Known site (fun _ => True) [.installed]) y
        fun _ => Known site (fun _ => True) [.installed] :=
    orderly_confined h (.inr fun _ => trivial) (by decide)
  refine Plan.orderly_bind (hconfined (confined_enableRepo _ (by decide))) fun _ => ?_
  refine Plan.orderly_bind (hconfined (confined_enableRepo _ (by decide))) fun _ => ?_
  refine Plan.orderly_bind (hconfined (confined_construct rfl)) fun _ => ?_
  refine Plan.orderly_bind (orderly_installPackages hlive) fun _ => ?_
  refine Plan.orderly_bind (hafter (confined_patchInstall (by decide))) fun _ => ?_
  exact hafter (confined_setup (by decide))

end

/-! ### The run -/

variable (site) in
/-- The tasks before the provisioner. -/
def headnodeTasks : List (Task site) := ((stageTasks site).take 7).flatMap (withStop site)

theorem tasks_eq (site : Site) : tasks site = headnodeTasks site ++
    ([Task.provisioner, Task.stopAfter "provisioner-setup"] ++
      ([Task.image, Task.stopAfter "provisioner-create-image"] ++ lastTasks site)) := rfl

theorem orderly_install (hlive : site.opts.dryRun = false) :
    (plan site).Orderly (Known site (fun _ => True) []) (install site)
      fun _ => Known site (IsNodeImage site) [.installed, .ready, .assigned] := by
  have hhead : (plan site).Orderly (Known site (fun _ => True) []) (runAll (headnodeTasks site))
      fun _ => Known site (fun _ => True) [] :=
    orderly_runAll (.inr fun _ => trivial) (of_decide_eq_true rfl)
  have himage : (plan site).Orderly (Known site (fun _ => True) [.installed]) (createNodeImage site)
      fun _ => Known site (IsNodeImage site) [.installed, .ready] :=
    Plan.orderly_bind orderly_getImageInstallArgs fun _ => orderly_createImage hlive _
  have hassign : (plan site).Orderly (Known site (IsNodeImage site) [.assigned, .installed, .ready])
      (setNodesImage site) fun _ => Known site (IsNodeImage site) [.installed, .ready, .assigned] :=
    Plan.orderly_post (orderly_setNodesImage hlive (by decide)) fun _ s hs => hs.mono (by simp)
  have hlast {y : EngineM Unit} (h : Confined site { words := ["rsetboot", "rpower"] } y) :
      (plan site).Orderly (Known site (IsNodeImage site) [.installed, .ready, .assigned]) y
        fun _ => Known site (IsNodeImage site) [.installed, .ready, .assigned] :=
    orderly_confined h (.inl rfl) (by decide)
  rw [install_eq_tasks, tasks_eq, runAll_append]
  refine Plan.orderly_bind hhead fun _ => Plan.orderly_bind (orderly_setupProvisioner hlive)
    fun _ => Plan.orderly_bind (orderly_stopAfter _) fun _ => ?_
  refine Plan.orderly_bind himage fun _ => Plan.orderly_bind (orderly_stopAfter _) fun _ => ?_
  refine Plan.orderly_bind (orderly_addNodes hlive) fun _ => Plan.orderly_bind hassign fun _ => ?_
  refine Plan.orderly_bind (hlast (confined_command (by decide))) fun _ => ?_
  refine Plan.orderly_bind (hlast (confined_command (by decide))) fun _ => ?_
  exact Plan.orderly_pure fun s hs => hs

theorem ordered_install (site : Site) (fs : FS) :
    (plan site).Ordered (finalState (install site { fs })).log := by
  have hstart : Known site (fun _ => True) [] ({ fs } : System) :=
    ⟨trivial, fun k hk => absurd hk List.not_mem_nil⟩
  cases hdry : site.opts.dryRun with
  | true =>
    rw [log_of_dryRun hdry]
    exact Plan.ordered_nil
  | false => exact (orderly_install hdry { fs } hstart Plan.ordered_nil).1

/-- However a run ends, every command it has given comes after the events that it rests on. A live
run that returns has asked for the provisioner, has an image and has given it to the nodes. -/
theorem install_order (site : Site) (fs : FS) :
    (plan site).Ordered (finalState (install site { fs })).log ∧
      ∀ u t, site.opts.dryRun = false → install site { fs } = .ok u t →
        ∀ k : Milestone, k = .installed ∨ k = .ready ∨ k = .assigned →
          (plan site).Reached t.log k := by
  refine ⟨ordered_install site fs, fun u t hlive hrun k hk => ?_⟩
  have hstart : Known site (fun _ => True) [] ({ fs } : System) :=
    ⟨trivial, fun k hk => absurd hk List.not_mem_nil⟩
  have hpost := (orderly_install hlive { fs } hstart Plan.ordered_nil).2 u t hrun
  exact hpost.2 k (by simpa using hk)

/-! ### Without a queue system -/

/-- The commands that make the image. -/
def makingWords : List String := ["genimage", "packimage"]

/-- No event is about making the image. -/
abbrev MakesNone {α : Type} (x : EngineM α) : Prop :=
  Moves (EventLog.Extends System.log fun e => e.word ∉ makingWords) x

theorem makesNone_of_confined {α : Type} {scope : Scope} {x : EngineM α}
    (h : Confined site scope x) (hwords : ∀ word ∈ scope.words, word ∉ makingWords) :
    MakesNone x :=
  moves_mono (fun _ _ hext => hext.mono fun e he => hwords e.word he) (extends_of_confined h)

theorem makesNone_runAll {tasks : List (Task site)}
    (h : ∀ task ∈ tasks, ∀ word ∈ task.footprint.words, word ∉ makingWords) :
    MakesNone (runAll tasks) :=
  moves_forM fun task htask => makesNone_of_confined task.confined (h task htask)

/-- The image is customized for the queue system before it is made. -/
theorem makesNone_buildImage (hqueue : site.cluster.queue = none)
    (customizations : List ScriptBuilder) :
    MakesNone (buildImage site .Netboot .Compute customizations) := by
  have hprepare : Confined site { words := ["bash", "copycds"] } (prepareImage site) :=
    confined_prepareImage (by decide) (by decide)
  have hpath : Confined site { names := true }
      (onName (Models.XCAT.generateOSImagePath site.cluster.toCluster .Netboot .Compute)) :=
    confined_onName _ rfl
  refine moves_bind (makesNone_of_confined hprepare (by decide)) fun _ => ?_
  refine moves_bind (makesNone_of_confined hpath (by decide)) fun _ => ?_
  refine moves_bind (makesNone_of_confined confined_configureImage (by decide)) fun _ => ?_
  refine moves_bind_of_ok (makesNone_of_confined (confined_customizeImage _) (by decide)) ?_
  intro s u t hrun
  rw [customizeImage, hqueue] at hrun
  exact absurd hrun (by simp [optionValue, plain, bind_apply])

theorem makesNone_createNodeImage (hqueue : site.cluster.queue = none) :
    MakesNone (createNodeImage site) := by
  have hargs : Confined site { names := true } (getImageInstallArgs site .Netboot .Compute) :=
    confined_getImageInstallArgs _ _ rfl
  have hlinks : Confined site { words := ["ln"] } (configureEL9 site) :=
    confined_configureEL9 (by decide)
  have hname : Confined site { names := true }
      (onName (Models.XCAT.generateOSImageName site.cluster.toCluster .Netboot .Compute)) :=
    confined_onName _ rfl
  have hexists (image : String) :
      Confined site { words := ["rmdef", "lsdef"] } (imageExists site image) :=
    confined_imageExists image (by decide) (by decide)
  refine moves_bind (makesNone_of_confined hargs (by decide)) fun _ => ?_
  refine moves_bind (makesNone_of_confined hlinks (by decide)) fun _ => ?_
  refine moves_bind (makesNone_of_confined hname (by decide)) fun _ => moves_bind moves_get fun s => ?_
  refine moves_bind (makesNone_of_confined (hexists _) (by decide)) fun there => ?_
  exact moves_ite (fun _ => makesNone_buildImage hqueue _) fun _ => moves_pure _

/-- Without a queue system no image is ever made, and the nodes are registered only with one that
was there. -/
theorem install_noQueue (hqueue : site.cluster.queue = none) (fs : FS) :
    (∀ e ∈ (finalState (install site { fs })).log, e.word ∉ makingWords) ∧
      ∀ l e r, (finalState (install site { fs })).log = l ++ e :: r →
        e.word ∈ Milestone.ready.words → site.opts.shouldSkip "copycds" = false ∧
          .command s!"lsdef -t osimage {(nodeImage site).osimage}" 0 ∈ l := by
  have hmakes : MakesNone (install site) := by
    rw [install_eq_tasks, tasks_eq, runAll_append]
    refine moves_bind (makesNone_runAll (of_decide_eq_true rfl)) fun _ => ?_
    rw [runAll_append]
    refine moves_bind (makesNone_runAll (of_decide_eq_true rfl)) fun _ => ?_
    have hlast : MakesNone
        (runAll (Task.stopAfter "provisioner-create-image" :: lastTasks site)) :=
      makesNone_runAll (of_decide_eq_true rfl)
    exact moves_bind (makesNone_createNodeImage hqueue) fun _ => hlast
  obtain ⟨more, hmore, hnone⟩ := hmakes { fs }
  have hlog : ∀ e ∈ (finalState (install site { fs })).log, e.word ∉ makingWords := by
    intro e he
    rw [hmore] at he
    exact hnone e he
  refine ⟨hlog, fun l e r hsplit hword => ?_⟩
  obtain ⟨d, hd, hpacked | hthere⟩ := ordered_install site fs l e r hsplit .ready hword
  · refine absurd ?_ (hlog d (hsplit ▸ List.mem_append_left _ hd))
    have hpack : programOf s!"packimage {(nodeImage site).osimage}" = "packimage" :=
      programOf_eq (by decide) (by decide) _
    rw [hpacked, Event.word, hpack]
    decide
  · exact ⟨hthere.1, hthere.2 ▸ hd⟩

/-- Without a queue, where the surroundings answer that there is an image. -/
def foundSite : Site := { oneSite with cluster.queue := none }

/-- The same, told to clean the image up and to make it again. -/
def cleanedSite : Site := { foundSite with opts.skipSteps := ["copycds"] }

/-- The first returns with the image given to the nodes. The second cleans the old image up, and
ends when the image is customized. -/
theorem install_noQueue_two :
    (∃ t l r, install foundSite { fs := machine } = .ok () t ∧
      t.log = l ++ .command "nodeset compute osimage=rocky9.5-x86_64-netboot-compute" 0 :: r ∧
      .command "lsdef -t osimage rocky9.5-x86_64-netboot-compute" 0 ∈ l) ∧
    (∃ t, install cleanedSite { fs := machine } =
        .error (.uncaught ⟨.badOptionalAccess, "bad optional access"⟩) t ∧ CleanedUp t ∧
      ∀ e ∈ t.log, e.word ∉ makingWords ∧ e.word ∉ Milestone.ready.words) := by
  constructor
  · have hequipped : Equipped foundSite := equipped_oneSite.with (by decide) _ _
    obtain ⟨_, t, hrun, -⟩ := hequipped.total_install (by decide) rfl rfl (by decide)
      { fs := machine } ⟨rfl, fresh_machine⟩
    have hstart : Known foundSite (fun _ => True) [] ({ fs := machine } : System) :=
      ⟨trivial, fun k hk => absurd hk List.not_mem_nil⟩
    have hname : (nodeImage foundSite).osimage = "rocky9.5-x86_64-netboot-compute" := rfl
    obtain ⟨e, he, rfl⟩ := ((orderly_install rfl { fs := machine } hstart
      Plan.ordered_nil).2 () t hrun).2 .assigned (by simp)
    obtain ⟨l, r, hsplit⟩ := List.append_of_mem he
    have hnone := @install_noQueue foundSite rfl machine
    rw [hrun] at hnone
    have hword : programOf s!"nodeset compute osimage={(nodeImage foundSite).osimage}" =
        "nodeset" := programOf_eq (by decide) (by decide) _
    obtain ⟨-, hfound⟩ := hnone.2 l _ r hsplit (by rw [Event.word, hword]; decide)
    rw [hname] at hsplit hfound
    exact ⟨t, l, r, hrun, hsplit, hfound⟩
  · have hequipped : Equipped cleanedSite := equipped_oneSite.with (by decide) _ _
    obtain ⟨t, hrun, hclean⟩ := hequipped.throws_install rfl (by decide) rfl (by decide) rfl
      { fs := machine } ⟨rfl, fresh_machine⟩
    have hnone := @install_noQueue cleanedSite rfl machine
    rw [hrun] at hnone
    refine ⟨t, hrun, hclean, fun e he => ⟨hnone.1 e he, fun hword => ?_⟩⟩
    obtain ⟨l, r, hsplit⟩ := List.append_of_mem he
    exact absurd (hnone.2 l e r hsplit hword).1 (by decide)

end Cloyster.Engine.Shell
