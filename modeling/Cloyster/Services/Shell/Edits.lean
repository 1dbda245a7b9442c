import Cloyster.Services.Shell.Runs

/-! Two files that the installation only appends to. Over any number of runs, each of them dry or
live and interrupted anywhere, a text is appended to them once at most, in the order of the
program, and a live run that returns leaves all of them there. -/

namespace Cloyster.Engine.Shell

open Lib Models Services

variable {site : Site} {p : Path} {l : List String}

/-! ### Texts that are appended -/

/-- The files of the manager are in the repository directory. -/
def Sourced (s : System) : Prop := s.repos.Sourced

/-- Appending to a file that is there. -/
abbrev appendingTo (p : Path) : Work System String := appending fun s => s.fs.content? p

/-- The commands of the installation leave the file alone. -/
def Kept (site : Site) (p : Path) : Prop := LeavesAlone site.env footprint.words p

theorem through_of_confined {α : Type} {scope : Scope} {x : EngineM α} (h : Confined site scope x)
    (hp : ¬ scope.Covers p) (hwords : scope.words ⊆ footprint.words) (hkept : Kept site p) :
    (appendingTo p).Through Sourced [] x :=
  Work.through_nil fun s hs => untouched_of_confined h hp (hkept.mono hwords) s hs

theorem through_addString (hlive : site.opts.dryRun = false) (string : String) :
    (appendingTo p).Through Sourced [string] (addString site p string) := by
  intro s hs
  obtain ⟨k, hcontent, hall⟩ :=
    addStringToFile_content site.opts.toOptions hlive (p := p) string s.fs
  unfold addString onFs within
  cases hrun : addStringToFile site.opts.toOptions p string s.fs with
  | ok u fs =>
    rw [hrun] at hcontent
    exact ⟨hs, k, hcontent, fun _ _ _ => hall u fs hrun⟩
  | error e fs =>
    rw [hrun] at hcontent
    exact ⟨hs, k, hcontent, fun _ _ h => absurd h (by simp)⟩

/-- A value that cannot be had ends the run. -/
theorem through_plain {α β : Type} {value : Except Exn α} {f : α → EngineM β} {work : Work System String}
    (h : ∀ a, value = .ok a → work.Through Sourced l (f a)) :
    work.Through Sourced l (plain value >>= f) := by
  cases value with
  | ok a => exact h a rfl
  | error e => exact Work.through_throw _ l

/-! ### The two files -/

inductive KeptFile where
  | time | limits

namespace KeptFile

def path : KeptFile → Path
  | .time => chronyFile
  | .limits => limitsFile

variable (site) in
/-- What is appended for one connection, as far as it gets. -/
def timeEdits (connection : Connection) : List String :=
  match networkOf site connection with
  | .error _ => []
  | .ok network =>
    if network.profile = .Management ∨ network.profile = .Service then
      match allowClients site connection network with
      | .ok allow => ["local stratum 10\n", allow]
      | .error _ => ["local stratum 10\n"]
    else []

/-- All that a run appends, in order. -/
def edits (file : KeptFile) (site : Site) : List String :=
  match file with
  | .time => site.cluster.headnode.connections.flatMap (timeEdits site)
  | .limits => ["* soft memlock unlimited\n" ++ "* hard memlock unlimited\n"]

end KeptFile

theorem through_serveTime (hlive : site.opts.dryRun = false) (connection : Connection) :
    (appendingTo chronyFile).Through Sourced (KeptFile.timeEdits site connection)
      (serveTime site connection) := by
  refine through_plain fun network hnetwork => ?_
  simp only [KeptFile.timeEdits, hnetwork]
  split_ifs with hserves
  · have hstratum := through_addString (p := chronyFile) hlive "local stratum 10\n"
    cases hallow : allowClients site connection network with
    | ok allow => exact Work.through_bind hstratum fun _ => through_addString hlive allow
    | error e =>
      exact Work.through_bind (m := []) hstratum fun _ => Work.through_throw _ []
  · exact Work.through_pure _

theorem through_configureTimeService (hlive : site.opts.dryRun = false)
    (hkept : Kept site chronyFile) :
    (appendingTo chronyFile).Through Sourced (KeptFile.time.edits site)
      (configureTimeService site site.cluster.headnode.connections) := by
  have hdnf : Confined site { words := ["dnf"] } (ELOSService.install site "chrony") :=
    ELOSService.confined_dnf _ (by decide)
  have hbackup : Confined site { regions := [backups] } (backup site chronyFile) :=
    confined_backup _ (by decide)
  have henable : Confined site { words := ["systemctl"] } (do
      let _ ← ELOSService.enableService site "chronyd") :=
    moves_bind (ELOSService.confined_systemctl _ _ (by decide)) fun _ => moves_pure _
  refine Work.through_nil_bind (through_of_confined hdnf (by decide) (by decide) hkept) fun _ => ?_
  refine Work.through_nil_bind (through_of_confined hbackup (by decide) (by decide) hkept) fun _ => ?_
  refine Work.through_bind_nil ?_ fun _ =>
    through_of_confined henable (by decide) (by decide) hkept
  exact Work.through_forM fun connection _ => through_serveTime hlive connection

theorem through_removeMemlockLimits (hlive : site.opts.dryRun = false)
    (hkept : Kept site limitsFile) :
    (appendingTo limitsFile).Through Sourced (KeptFile.limits.edits site)
      (removeMemlockLimits site) := by
  have hbackup : Confined site { regions := [backups] } (backup site limitsFile) :=
    confined_backup _ (by decide)
  exact Work.through_nil_bind (through_of_confined hbackup (by decide) (by decide) hkept) fun _ =>
    through_addString hlive _

/-! ### A run -/

theorem through_runAll {tasks : List (Task site)}
    (h : ∀ task ∈ tasks, task.footprint.Within footprint ∧ ¬ task.footprint.Covers p)
    (hkept : Kept site p) : (appendingTo p).Through Sourced [] (runAll tasks) := by
  have hrun : (appendingTo p).Through Sourced (tasks.flatMap fun _ => []) (runAll tasks) :=
    Work.through_forM fun task htask => through_of_confined task.confined (h task htask).2
      (h task htask).1.words hkept
  rwa [List.flatMap_eq_nil_iff.mpr fun _ _ => rfl] at hrun

/-- The tasks around the one that is about the file leave it alone. -/
theorem through_split {before after : List (Task site)} {task : Task site}
    (htasks : tasks site = before ++ task :: after)
    (hothers : ∀ task ∈ before ++ after, ¬ task.footprint.Covers p) (hkept : Kept site p)
    (htask : (appendingTo p).Through Sourced l task.run) :
    (appendingTo p).Through Sourced l (install site) := by
  have hwithin : ∀ task ∈ before ++ after, task.footprint.Within footprint := by
    intro other hother
    refine tasks_within other ?_
    rw [htasks]
    obtain hmem | hmem := List.mem_append.mp hother
    · exact List.mem_append_left _ hmem
    · exact List.mem_append_right _ (List.mem_cons_of_mem _ hmem)
  rw [install_eq_tasks, htasks, runAll_append, runAll_cons]
  refine Work.through_nil_bind (through_runAll (fun other hmem => ?_) hkept) fun _ =>
    Work.through_bind_nil htask fun _ => through_runAll (fun other hmem => ?_) hkept
  · exact ⟨hwithin other (List.mem_append_left _ hmem),
      hothers other (List.mem_append_left _ hmem)⟩
  · exact ⟨hwithin other (List.mem_append_right _ hmem),
      hothers other (List.mem_append_right _ hmem)⟩

theorem through_install (hlive : site.opts.dryRun = false) (file : KeptFile)
    (hkept : Kept site file.path) :
    (appendingTo file.path).Through Sourced (file.edits site) (install site) := by
  cases file with
  | time =>
    have htasks : tasks site = (tasks site).take 15 ++ Task.time :: (tasks site).drop 16 := rfl
    exact through_split htasks (of_decide_eq_true rfl) hkept
      (through_configureTimeService hlive hkept)
  | limits =>
    have htasks : tasks site = (tasks site).take 24 ++ Task.memlock :: (tasks site).drop 25 := rfl
    exact through_split htasks (of_decide_eq_true rfl) hkept
      (through_removeMemlockLimits hlive hkept)

variable {content : String}

/-- A dry run may make a file, and leaves one that is there as it is. -/
theorem content_of_dryRun (hdry : site.opts.dryRun = true) (hp : p ∉ footprint.loose) {s : System}
    (hcontent : s.fs.content? p = some content) :
    (finalState (install site s)).fs.content? p = some content := by
  obtain hsame | ⟨-, hfree, -⟩ := (dry_of_confined confined_install hdry s).files p hp
  · rwa [FS.content?, hsame]
  · rw [FS.content?, hfree] at hcontent
    exact absurd hcontent (by simp)

/-- What one run of the program leaves. -/
theorem exists_content_install (file : KeptFile) (hkept : Kept site file.path) {fs : FS}
    (hcontent : fs.content? file.path = some content) :
    ∃ k, (finalState (install site { fs })).fs.content? file.path =
        some (appendAll content ((file.edits site).take k)) ∧
      (site.opts.dryRun = false → ∀ u t, install site { fs } = .ok u t →
        (file.edits site).length ≤ k) := by
  cases hdry : site.opts.dryRun with
  | true =>
    have hloose : file.path ∉ footprint.loose := by cases file <;> decide
    exact ⟨0, content_of_dryRun hdry hloose hcontent, fun h => absurd h (by simp)⟩
  | false =>
    have hsourced : Sourced ({ fs } : System) := fun file hfile => absurd hfile (by simp)
    obtain ⟨-, k, hdone, hall⟩ := through_install hdry file hkept { fs } hsourced
    exact ⟨k, hdone content hcontent, fun _ => hall⟩

/-! ### One run after another -/

/-- Every run starts from the files that the last one left. -/
def rerun (fs : FS) (sites : List Site) : FS :=
  sites.foldl (fun fs site => (finalState (install site { fs })).fs) fs

/-- Over any runs with the same edits, whatever their options and however they end, a file that the
commands leave alone holds what it held and a first part of the edits, each of them once. After a
live run that returned it holds all of them. -/
theorem rerun_text (file : KeptFile) (edits : List String) (sites : List Site)
    (h : ∀ site ∈ sites, file.edits site = edits ∧ Kept site file.path) {fs : FS}
    (hcontent : fs.content? file.path = some content) :
    ∃ k, (rerun fs sites).content? file.path = some (appendAll content (edits.take k)) ∧
      ∀ before site after u t, sites = before ++ site :: after → site.opts.dryRun = false →
        install site { fs := rerun fs before } = .ok u t → edits.length ≤ k := by
  induction sites using List.reverseRecOn with
  | nil => exact ⟨0, hcontent, fun before site after u t hsplit => absurd hsplit (by simp)⟩
  | append_singleton sites last ih =>
    obtain ⟨j, htext, hall⟩ := ih fun site hsite => h site (List.mem_append_left _ hsite)
    obtain ⟨rfl, hkept⟩ := h last (List.mem_append_right _ (List.mem_singleton_self _))
    obtain ⟨k, htext', hall'⟩ := exists_content_install file hkept htext
    have hrerun : rerun fs (sites ++ [last]) =
        (finalState (install last { fs := rerun fs sites })).fs := by
      rw [rerun, List.foldl_append]
      rfl
    refine ⟨max j k, ?_, fun before site after u t hsplit hlive hrun => ?_⟩
    · rw [hrerun, htext', appendAll_take_take]
    · obtain rfl | ⟨after, final, rfl⟩ := List.eq_nil_or_concat after
      · obtain ⟨rfl, hlast⟩ := List.append_inj' hsplit rfl
        obtain rfl := (List.cons.inj hlast).1
        exact le_max_of_le_right (hall' hlive u t hrun)
      · rw [List.concat_eq_append, ← List.cons_append, ← List.append_assoc] at hsplit
        have hsites := (List.append_inj' hsplit rfl).1
        exact le_max_of_le_left (hall before site after u t hsites hlive hrun)

/-- To the end, dry, and left after a while. -/
def threeRuns : List Site :=
  [oneSite, { oneSite with opts.dryRun := true },
    { oneSite with opts.stopAfterStep := "nfs-setup" }]

/-- The first run leaves both lines, and the others add nothing. -/
theorem rerun_text_three : (rerun machine threeRuns).content? chronyFile =
    some "makestep 1.0 3\nlocal stratum 10\nallow 10.0.0.1/8\n" := by
  have hedits : KeptFile.time.edits oneSite = ["local stratum 10\n", "allow 10.0.0.1/8\n"] := rfl
  have hall : ∀ site ∈ threeRuns, KeptFile.time.edits site = KeptFile.time.edits oneSite ∧
      Kept site KeptFile.time.path := by
    rw [threeRuns, List.forall_mem_cons, List.forall_mem_cons, List.forall_mem_singleton]
    exact ⟨⟨rfl, leavesAlone_quiet _ _⟩, ⟨rfl, leavesAlone_quiet _ _⟩,
      ⟨rfl, leavesAlone_quiet _ _⟩⟩
  have hthere : machine.content? chronyFile = some "makestep 1.0 3\n" := rfl
  obtain ⟨t, hrun⟩ := install_oneSite
  obtain ⟨k, htext, hreturned⟩ := rerun_text .time _ threeRuns hall hthere
  have hk := hreturned [] oneSite _ () t rfl rfl hrun
  rw [List.take_of_length_le hk, hedits] at htext
  exact htext.trans (congrArg some (by decide))

end Cloyster.Engine.Shell
