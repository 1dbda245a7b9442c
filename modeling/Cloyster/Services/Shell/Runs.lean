import Cloyster.Services.Shell.Image

/-! What every run of the installation keeps to, whether it returns, leaves at a point or throws:
the commands it gives, the files it changes, what a dry run does and what is logged by the time it
leaves. -/

namespace Cloyster.Engine

open Lib Models Services

variable {site : Site} {scope : Scope} {α : Type} {x : EngineM α}

/-! ### From the steps to the runs -/

/-- Commands and calls with these words leave a file that is there as it is. -/
structure LeavesAlone (env : Surroundings) (words : List String) (p : Path) : Prop where
  command : ∀ log fs text reply, programOf text ∈ words →
    env.command log fs text = .ok reply →
      ∀ content, fs.content? p = some content → reply.fs.content? p = some content
  bus : ∀ log fs method unit fs', method ∈ words → env.bus log fs method unit = .ok fs' →
    ∀ content, fs.content? p = some content → fs'.content? p = some content

theorem LeavesAlone.mono {env : Surroundings} {words words' : List String} {p : Path}
    (h : LeavesAlone env words' p) (hle : words ⊆ words') : LeavesAlone env words p where
  command log fs text reply hword := h.command log fs text reply (hle hword)
  bus log fs method unit fs' hword := h.bus log fs method unit fs' (hle hword)

theorem leavesAlone_quiet (words : List String) (p : Path) : LeavesAlone .quiet words p where
  command _ _ _ _ _ h _ hcontent := by rw [← Except.ok.inj h, hcontent]
  bus _ _ _ _ _ _ h _ hcontent := by rw [← Except.ok.inj h, hcontent]

/-- From a manager whose files are in the repository directory, a file that is there stays as it
is. -/
def Untouched (p : Path) (s t : System) : Prop :=
  s.repos.Sourced → t.repos.Sourced ∧
    ∀ content, s.fs.content? p = some content → t.fs.content? p = some content

instance (p : Path) : IsPreorder System (Untouched p) where
  refl _ h := ⟨h, fun _ hcontent => hcontent⟩
  trans _ _ _ h h' hs := by
    obtain ⟨ht, hst⟩ := h hs
    obtain ⟨hu, htu⟩ := h' ht
    exact ⟨hu, fun content hcontent => htu content (hst content hcontent)⟩

theorem untouched_of_confined {p : Path} (h : Confined site scope x) (hp : ¬ scope.Covers p)
    (halone : LeavesAlone site.env scope.words p) : Moves (Untouched p) x := by
  refine moves_of_transitions (fun s t hstep hs => ?_) h
  cases hstep with
  | command live word answer => exact ⟨hs, halone.command _ _ _ _ word answer⟩
  | bus live word answer => exact ⟨hs, halone.bus _ _ _ _ _ word answer⟩
  | own log repos kept dry image =>
    exact ⟨repos hs, fun content hcontent => (kept hs p hp).trans hcontent⟩

/-- What a dry run leaves. It has no events, loads no repositories, and all it may do to the files
but the loose ones is to make some of them, empty. -/
structure Dry (scope : Scope) (s t : System) : Prop where
  log : t.log = s.log
  repos : t.repos = s.repos
  files : ∀ q ∉ scope.loose, t.fs.get? q = s.fs.get? q ∨ q ∈ scope.files ∧ Created s.fs t.fs q

instance : IsPreorder System (Dry scope) where
  refl _ := ⟨rfl, rfl, fun _ _ => .inl rfl⟩
  trans s t u h h' := by
    refine ⟨h'.log.trans h.log, h'.repos.trans h.repos, fun q hq => ?_⟩
    obtain hst | ⟨hfile, hfree, hmade⟩ := h.files q hq
    · refine (h'.files q hq).imp (·.trans hst) fun ⟨hfile, hfree, hmade⟩ => ?_
      exact ⟨hfile, hst ▸ hfree, hmade⟩
    · obtain htu | ⟨-, hfree', -⟩ := h'.files q hq
      · exact .inr ⟨hfile, hfree, htu.trans hmade⟩
      · exact absurd (hmade.symm.trans hfree') (by simp)

theorem dry_of_confined (h : Confined site scope x) (hdry : site.opts.dryRun = true) :
    Moves (Dry scope) x := by
  refine moves_of_transitions (fun s t hstep => ?_) h
  cases hstep with
  | command live word answer => exact absurd (live.symm.trans hdry) (by simp)
  | bus live word answer => exact absurd (live.symm.trans hdry) (by simp)
  | own log repos kept dry image => exact ⟨log, (dry hdry).1, (dry hdry).2⟩

namespace Shell

/-- Tasks stay within any scope that all their footprints are in. -/
theorem confined_runAll {tasks : List (Task site)}
    (h : ∀ task ∈ tasks, task.footprint.Within scope) : Confined site scope (runAll tasks) :=
  moves_forM fun task htask => confined_mono task.confined (h task htask)

theorem grows_runAll (tasks : List (Task site)) : EventLog.Grows System.log (runAll tasks) :=
  moves_forM fun task _ => grows_of_confined task.confined

/-! ### The whole installation -/

/-- All that the installation gives, appends to and changes. -/
def footprint : Scope where
  words := ["subscription-manager", "dnf", "systemctl", "setenforce", "firewall-cmd",
    "hostnamectl", "sed", "timedatectl", "localectl", "nmcli", "rpm", "uname", "bash", "chmod", "/",
    "qmgr", "postmap", "EnableUnitFiles", "StartUnit", "grep", "xcatconfig", "chdef", "ln", "rmdef",
    "lsdef", "copycds", "createrepo", "apachectl", "cp", "mkdir", "chown", "genimage", "packimage",
    "mkdef", "makehosts", "makedhcp", "makedns", "makegocons", "nodeset", "rsetboot", "rpower"]
  files := [hostsFile, dnsFile, chronyFile, SLURM.configurationFile, limitsFile,
    Postfix.postfixBasedir.child "sasl_password", XCAT.netboot.child "compute.otherpkglist",
    XCAT.netboot.child "compute.postinstall", XCAT.netboot.child "compute.synclists"]
  regions := [.below RPMRepoManager.basedir, .below RPMRepositoryGenerator.backupPath, backups,
    .file selinuxFile, .below ["tmp"], .below Postfix.postfixBasedir, .below confDir]
  loose := [Postfix.postfixBasedir.child "main.cf", Postfix.postfixBasedir.child "master.cf"]
  names := true

theorem tasks_within : ∀ task ∈ tasks site, task.footprint.Within footprint :=
  of_decide_eq_true rfl

theorem confined_install : Confined site footprint (install site) := by
  rw [install_eq_tasks]
  exact confined_runAll tasks_within

/-- Whatever the options and however the run ends, every event starts with a word of the footprint,
and a file outside of it that such commands leave alone holds what it held. -/
theorem install_footprint (s : System) :
    EventLog.Extends System.log (fun e => e.word ∈ footprint.words) s
        (finalState (install site s)) ∧
      ∀ p content, ¬ footprint.Covers p → LeavesAlone site.env footprint.words p →
        s.repos.Sourced → s.fs.content? p = some content →
          (finalState (install site s)).fs.content? p = some content :=
  ⟨extends_of_confined confined_install s, fun _ content hp halone hs =>
    (untouched_of_confined confined_install hp halone s hs).2 content⟩

/-- What a task logs stays in the log, when the tasks before it return. -/
theorem mem_log_of_split {before after : List (Task site)} {task : Task site}
    (htasks : tasks site = before ++ task :: after) {s t : System}
    (hbefore : runAll before s = .ok () t) {e : Event} (he : e ∈ (finalState (task.run t)).log) :
    e ∈ (finalState (install site s)).log := by
  rw [install_eq_tasks, htasks, runAll_append, bind_of_ok hbefore, runAll_cons]
  exact (Stages.prefix_bind task.run (fun _ => grows_runAll after) t).subset he

theorem install_footprint_passwd : ∃ t, install oneSite { fs := machine } = .ok () t ∧
    .command "hostnamectl set-hostname head.example.org" 0 ∈ t.log ∧
    (∀ e ∈ t.log, e.word ∈ footprint.words) ∧
    t.fs.content? ["etc", "passwd"] = some "root:x:0:0\n" := by
  obtain ⟨t, hrun⟩ := install_oneSite
  obtain ⟨⟨more, hmore, hwords⟩, hkept⟩ := @install_footprint oneSite { fs := machine }
  have hsourced : ({ fs := machine } : System).repos.Sourced := fun file hfile =>
    absurd hfile (by simp)
  have hthere : machine.content? ["etc", "passwd"] = some "root:x:0:0\n" := rfl
  have htasks : tasks oneSite =
      (tasks oneSite).take 9 ++ Task.fqdn :: (tasks oneSite).drop 10 := rfl
  have hall := hrun
  rw [install_eq_tasks, htasks, runAll_append] at hall
  obtain ⟨_, mid, hbefore, -⟩ := bind_ok_iff.mp hall
  have hmem : .command "hostnamectl set-hostname head.example.org" 0 ∈
      (finalState (install oneSite { fs := machine })).log :=
    mem_log_of_split htasks hbefore (List.mem_append_right _ (List.mem_singleton_self _))
  have hpasswd := hkept ["etc", "passwd"] _ (of_decide_eq_true rfl) (leavesAlone_quiet _ _)
    hsourced hthere
  rw [hrun] at hmem hpasswd hmore
  have hlog : t.log = more := hmore
  exact ⟨t, hrun, hmem, fun e he => hwords e (hlog ▸ he), hpasswd⟩

/-- A dry run gives no command and makes no call. All it does to the files is to make some of nine,
empty, and to write the main file and the master file of Postfix. -/
theorem install_dryRun (hdry : site.opts.dryRun = true) (s : System) :
    Dry footprint s (finalState (install site s)) :=
  dry_of_confined confined_install hdry s

/-- A dry run of the same. -/
def drySite : Site := { oneSite with opts.dryRun := true }

/-- Only the directories are there. -/
def bareMachine : FS :=
  { nodes := ⟨[(["etc"], .dir), (["etc", "NetworkManager"], .dir), (dnsFile.parent, .dir),
      (limitsFile.parent, .dir), (SLURM.configurationFile.parent, .dir), (["install"], .dir),
      (["install", "custom"], .dir), (XCAT.netboot, .dir)], by decide⟩ }

/-- It goes through all tasks. The files are made, and nothing is in them. -/
theorem install_dryRun_one : ∃ t, install drySite { fs := bareMachine } = .ok () t ∧
    Dry footprint { fs := bareMachine } t ∧
      ∀ p ∈ [hostsFile, dnsFile, chronyFile], t.fs.get? p = some (.file "") := by
  have hequipped : Equipped drySite := equipped_oneSite.with (by decide) _ _
  obtain ⟨_, t, hrun, -⟩ := hequipped.total_install_dryRun rfl (by decide) (by decide) rfl
    { fs := bareMachine } rfl
  have hdry : Dry footprint { fs := bareMachine } _ :=
    @install_dryRun drySite rfl { fs := bareMachine }
  rw [hrun] at hdry
  refine ⟨t, hrun, hdry, fun p hp => ?_⟩
  have htasks : tasks drySite = (tasks drySite).take 16 ++ (tasks drySite).drop 16 := rfl
  obtain ⟨mid, hbefore, hmade⟩ : ∃ mid,
      runAll ((tasks drySite).take 16) { fs := bareMachine } = .ok () mid ∧
        ∀ p ∈ [hostsFile, dnsFile, chronyFile], mid.fs.get? p = some (.file "") := by
    refine ⟨_, rfl, ?_⟩
    rw [List.forall_mem_cons, List.forall_mem_cons, List.forall_mem_singleton]
    exact ⟨rfl, rfl, rfl⟩
  have hafter : Dry footprint mid (finalState (runAll ((tasks drySite).drop 16) mid)) :=
    dry_of_confined (confined_runAll fun task htask =>
      tasks_within task (List.mem_of_mem_drop htask)) rfl mid
  have hloose : p ∉ footprint.loose := by
    revert hp
    revert p
    decide
  rw [install_eq_tasks, htasks, runAll_append, bind_of_ok hbefore] at hrun
  rw [hrun] at hafter
  obtain hsame | ⟨-, hfree, -⟩ := hafter.files p hloose
  · exact hsame.trans (hmade p hp)
  · rw [hmade p hp] at hfree
    exact absurd hfree (by simp)

theorem log_of_dryRun (hdry : site.opts.dryRun = true) (fs : FS) :
    (finalState (install site { fs })).log = [] :=
  (dry_of_confined confined_install hdry { fs }).log

/-! ### Leaving at a point -/

/-- The names at which the program may be told to stop, in order. -/
def points : List String :=
  ["configure-repositories", "install-required-packages", "run-system-update",
    "configure-time-service", "install-infiniband", "nfs-setup", "install-development-components",
    "provisioner-setup", "provisioner-create-image"]

/-- The same installation, told to stop at a point. -/
def stopping (site : Site) (name : String) : Site := { site with opts.stopAfterStep := name }

theorem names_stages (site : Site) : (stages site).map (·.name) = points := rfl

theorem stages_stopping (site : Site) (name : String) :
    stages (stopping site name) = stages site := rfl

theorem grows_stages (site : Site) : ∀ stage ∈ stages site, EventLog.Grows System.log stage.run := by
  intro stage hstage
  obtain ⟨⟨tasks, name⟩, -, rfl⟩ := List.mem_map.mp hstage
  exact grows_runAll tasks

theorem install_stopping (site : Site) (name : String) :
    install (stopping site name) =
      Stages.run (.exit 0) name (runAll (lastTasks site)) (stages site) := by
  rw [install_eq_stages, stages_stopping]
  rfl

theorem nodup_stages (site : Site) : ((stages site).map (·.name)).Nodup := by
  rw [names_stages]
  decide

/-- The stages up to the point, and leaving. -/
theorem install_stopping_getElem (site : Site) {i : ℕ} (hi : i < points.length) :
    install (stopping site points[i]) =
      Stages.upTo ((stages site).take (i + 1)) >>= fun _ => throw (.exit 0) := by
  have hi' : i < (stages site).length := hi
  have hname : points[i] = (stages site)[i].name := List.getElem_map (l := stages site) (·.name)
  rw [install_stopping]
  generalize points[i] = name at hname ⊢
  subst hname
  exact Stages.run_getElem (nodup_stages site) hi'

theorem install_stopping_of_notMem (site : Site) {name : String} (h : name ∉ points) :
    install (stopping site name) =
      Stages.upTo (stages site) >>= fun _ => runAll (lastTasks site) := by
  rw [← names_stages site] at h
  rw [install_stopping, Stages.run_of_notMem h]

/-- Told to stop at a point, the program does the stages up to it and leaves there, and never
returns. A name that is no point stops nothing. What the program has logged when it leaves is the
beginning of what it logs when it is told to stop later or not to stop. -/
theorem install_points (site : Site) (s : System) :
    (∀ i (hi : i < points.length), install (stopping site points[i]) s =
      (Stages.upTo ((stages site).take (i + 1)) >>= fun _ => throw (.exit 0)) s) ∧
    (∀ name ∉ points, install (stopping site name) s =
      (Stages.upTo (stages site) >>= fun _ => runAll (lastTasks site)) s) ∧
    (∀ i j (hi : i < points.length) (hj : j < points.length), i ≤ j →
      (finalState (install (stopping site points[i]) s)).log <+:
        (finalState (install (stopping site points[j]) s)).log) ∧
    (∀ name ∈ points, ∀ free ∉ points,
      (finalState (install (stopping site name) s)).log <+:
        (finalState (install (stopping site free) s)).log) ∧
    (∀ name ∈ points, ∀ u t, install (stopping site name) s ≠ .ok u t) := by
  refine ⟨fun i hi => ?_, fun name hfree => ?_, fun i j hi hj hij => ?_,
    fun name hmem free hfree => ?_, fun name hmem u t hrun => ?_⟩
  · rw [install_stopping_getElem site hi]
  · rw [install_stopping_of_notMem site hfree]
  · rw [install_stopping_getElem site hi, install_stopping_getElem site hj,
      Stages.finalState_bind_throw, Stages.finalState_bind_throw]
    exact Stages.upTo_prefix (grows_stages site) (Nat.succ_le_succ hij) s
  · obtain ⟨i, hi, rfl⟩ := List.getElem_of_mem hmem
    have hi' : i < (stages site).length := hi
    rw [install_stopping_getElem site hi, install_stopping_of_notMem site hfree,
      Stages.finalState_bind_throw]
    refine (Stages.upTo_prefix (grows_stages site) hi' s).trans ?_
    rw [List.take_length]
    exact Stages.prefix_bind _ (fun _ => grows_runAll _) s
  · obtain ⟨i, hi, rfl⟩ := List.getElem_of_mem hmem
    rw [install_stopping_getElem site hi] at hrun
    obtain ⟨_, v, -, hthrow⟩ := bind_ok_iff.mp hrun
    exact absurd hthrow (by simp)

/-! ### A mail system -/

/-- A task that always throws ends the run, and what follows it leaves no trace. -/
theorem runAll_throws (before after : List (Task site)) {task : Task site}
    (h : ∀ s u t, task.run s ≠ .ok u t) (s : System) :
    (∀ u t, runAll (before ++ task :: after) s ≠ .ok u t) ∧
      finalState (runAll (before ++ task :: after) s) =
        finalState (runAll (before ++ [task]) s) := by
  rw [runAll_append, runAll_append, runAll_cons, runAll_cons, bind_apply, bind_apply]
  cases runAll before s with
  | error e t => exact ⟨fun u r h => absurd h (by simp), rfl⟩
  | ok u t =>
    dsimp only
    rw [bind_apply, bind_apply]
    cases hrun : task.run t with
    | ok v r => exact absurd hrun (h t v r)
    | error e r => exact ⟨fun u r h => absurd h (by simp), rfl⟩

/-- The commands of the provisioner and of the nodes. -/
def provisionerWords : List String :=
  ["grep", "xcatconfig", "chdef", "ln", "rmdef", "lsdef", "copycds", "createrepo", "apachectl", "cp",
    "mkdir", "chown", "genimage", "packimage", "mkdef", "makehosts", "makedhcp", "makedns",
    "makegocons", "nodeset", "rsetboot", "rpower"]

/-- All that is done until the mail system is set up. -/
def headnodeFootprint : Scope :=
  { footprint with words := footprint.words.filter (· ∉ provisionerWords) }

/-- With a mail system no installation returns, and none gets to the provisioner: the main file
that is written first cannot be read back. -/
theorem install_mail {mail : MailSystem} (hmail : site.cluster.mailSystem = some mail)
    (hformat : Cloyster.Postfix.RefusesKeyFirst site.env.codec) (fs : FS) :
    (∀ u t, install site { fs } ≠ .ok u t) ∧
      ∀ e ∈ (finalState (install site { fs })).log, e.word ∉ provisionerWords := by
  have htasks : tasks site = (tasks site).take 23 ++ Task.mail :: (tasks site).drop 24 := rfl
  have hthrows : ∀ s u t, (Task.mail : Task site).run s ≠ .ok u t := by
    intro s u t hrun
    have hsetup : configureMailSystem site = Postfix.setup site mail := by
      rw [configureMailSystem, hmail]
      rfl
    obtain ⟨e, r, herror⟩ := (Postfix.setup_throws hformat mail s).1
    change configureMailSystem site s = .ok u t at hrun
    rw [hsetup, herror] at hrun
    exact absurd hrun (by simp)
  have hwithin : ∀ task ∈ (tasks site).take 23 ++ [Task.mail],
      task.footprint.Within headnodeFootprint := of_decide_eq_true rfl
  rw [install_eq_tasks, htasks]
  obtain ⟨hnever, hfinal⟩ := runAll_throws ((tasks site).take 23) ((tasks site).drop 24) hthrows
    { fs }
  refine ⟨hnever, fun e he => ?_⟩
  obtain ⟨more, hmore, hwords⟩ := extends_of_confined (confined_runAll hwithin) { fs }
  rw [hfinal, hmore] at he
  have hword : e.word ∈ footprint.words.filter (· ∉ provisionerWords) := hwords e he
  exact of_decide_eq_true (List.mem_filter.mp hword).2

/-- The headnode and the node, with a mail system of their own. -/
def localSite : Site := { oneSite with cluster.mailSystem := some { profile := .Local } }

/-- The package is asked for, and nothing after it. -/
theorem install_mail_local : ∃ t, finalState (install localSite { fs := machine }) = t ∧
    (∀ u t, install localSite { fs := machine } ≠ .ok u t) ∧
    .command "dnf -y install postfix" 0 ∈ t.log ∧ ∀ e ∈ t.log, e.word ∉ provisionerWords := by
  obtain ⟨hnever, hwords⟩ := @install_mail localSite _ rfl
    Cloyster.Postfix.refusesKeyFirst_text machine
  have hequipped : Equipped localSite := equipped_oneSite.with (by decide) _ _
  obtain ⟨_, mid, hbefore, -⟩ := hequipped.total_untilMail (by decide) { fs := machine }
    ⟨rfl, fun _ => fresh_machine⟩
  have htasks : tasks localSite =
      (tasks localSite).take 23 ++ Task.mail :: (tasks localSite).drop 24 := rfl
  refine ⟨_, rfl, hnever, mem_log_of_split htasks hbefore ?_, hwords⟩
  change _ ∈ (finalState (Postfix.setup localSite { profile := .Local } mid)).log
  rw [(Postfix.setup_throws Cloyster.Postfix.refusesKeyFirst_text _ mid).2]
  exact List.mem_append_right _ (List.mem_singleton_self _)

end Shell

end Cloyster.Engine
