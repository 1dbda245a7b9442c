import Cloyster.Services.Shell.Runs

/-! The configuration of the queue system, once its server is set up. What the file holds is what
this run has put there, and the server reads the cluster from it. -/

namespace Cloyster.Engine

open Lib Models Services Directives

variable {site : Site} {p : Path}

theorem onFs_ok {α : Type} {x : FsM α} {s t : System} {a : α} (h : onFs x s = .ok a t) :
    x s.fs = .ok a t.fs := by
  unfold onFs within at h
  cases hrun : x s.fs with
  | ok b fs =>
    rw [hrun] at h
    obtain ⟨rfl, rfl⟩ := EStateM.Result.ok.inj h
    rfl
  | error e fs =>
    rw [hrun] at h
    exact absurd h (by simp)

theorem onFs_of_ok {α : Type} {x : FsM α} {s : System} {fs : FS} {a : α} (h : x s.fs = .ok a fs) :
    onFs x s = .ok a { s with fs } := by
  unfold onFs within
  rw [h]

/-- A file that is there stays as it is. -/
def Stays (p : Path) (s t : System) : Prop :=
  ∀ content, s.fs.content? p = some content → t.fs.content? p = some content

instance (p : Path) : IsPreorder System (Stays p) where
  refl _ _ hcontent := hcontent
  trans _ _ _ h h' content hcontent := h' content (h content hcontent)

theorem stays_executeCommand {words : List String} (halone : LeavesAlone site.env words p)
    {cmd : String} (hword : programOf cmd ∈ words) : Moves (Stays p) (executeCommand site cmd) := by
  unfold executeCommand
  refine moves_ite (fun _ => moves_pure _) fun _ => moves_bind ?_ fun _ => moves_pure _
  intro s content hcontent
  rw [perform, bind_apply, get_apply]
  dsimp only
  rw [bind_apply]
  cases hanswer : site.env.command s.log s.fs cmd with
  | error e => exact hcontent
  | ok reply => exact halone.command _ _ _ _ hword hanswer content hcontent

theorem stays_systemctl (halone : LeavesAlone site.env ["systemctl"] p) (verb service : String) :
    Moves (Stays p) (ELOSService.systemctl site verb service) := by
  have hword : programOf s!"systemctl {verb} {service}" ∈ ["systemctl"] := by
    rw [String.append_assoc, String.append_assoc, List.mem_singleton]
    exact programOf_eq (by decide) (by decide) _
  exact moves_bind (stays_executeCommand halone hword) fun _ => moves_pure _

namespace SLURM

open Models.SLURM

variable {slurm : Models.SLURM}

theorem conf_ne_empty (cluster : Installation) (slurm : Models.SLURM) : conf cluster slurm ≠ "" := by
  intro hempty
  rw [conf, ← String.toList_inj, String.toList_append] at hempty
  exact absurd (List.append_eq_nil_iff.mp hempty).2 (by decide)

/-- The file is made anew. -/
theorem configureServer_text (hlive : site.opts.dryRun = false) {s t : System} {u : Unit}
    (hrun : configureServer site slurm s = .ok u t) :
    textAt t.fs configurationFile = conf site.cluster slurm := by
  obtain ⟨_, r, hremove, hrun⟩ := bind_ok_iff.mp hrun
  obtain ⟨_, q, hmake, hadd⟩ := bind_ok_iff.mp hrun
  have hgone : textAt r.fs configurationFile = "" := removeFile_text _ hlive (onFs_ok hremove)
  have hkept : textAt q.fs configurationFile = textAt r.fs configurationFile := by
    have hmoves := createDirectory_outside (P := fun _ => False) site.opts.toOptions
      configurationFile.parent r.fs
    rw [onFs_ok hmake] at hmoves
    exact hmoves.text (by simp)
  obtain ⟨k, htext, hall⟩ := addStringToFile_text site.opts.toOptions hlive
    (p := configurationFile) (conf site.cluster slurm) q.fs
  have hfinal := onFs_ok hadd
  rw [hfinal] at htext
  rw [List.take_of_length_le (hall u t.fs hfinal), hkept, hgone, appendAll_singleton,
    appendOnce_empty (conf_ne_empty _ _)] at htext
  exact htext

theorem stays_services (halone : LeavesAlone site.env ["systemctl"] p) : Moves (Stays p) (do
    enableServer site
    startServer site) := by
  have hservice (verb service : String) : Moves (Stays p) (ELOSService.systemctl site verb service) :=
    stays_systemctl halone verb service
  refine moves_bind (moves_bind (hservice _ _) fun _ => moves_bind (hservice _ _) fun _ =>
    moves_pure _) fun _ => ?_
  exact moves_bind (hservice _ _) fun _ => moves_bind (hservice _ _) fun _ => moves_pure _

/-- A set-up that returns has told the server of the whole cluster, whatever the file held before:
the directives are those of the template with the names of the cluster in them, and there is one
of a node for each of the nodes. -/
theorem configureSLURM_directives (hlive : site.opts.dryRun = false)
    (halone : LeavesAlone site.env ["systemctl"] configurationFile)
    (hnames : BareNames site.cluster slurm) {s t : System}
    (hrun : Shell.configureSLURM site slurm s = .ok () t) :
    ∃ text, t.fs.content? configurationFile = some text ∧
      directives text = confDirectives site.cluster slurm ∧
      declared text "NodeName" = site.cluster.nodes.map nodeSettings := by
  obtain ⟨_, r, -, hrun⟩ := bind_ok_iff.mp hrun
  obtain ⟨_, q, hserver, hrun⟩ := bind_ok_iff.mp hrun
  have htext : textAt q.fs configurationFile = conf site.cluster slurm :=
    configureServer_text hlive hserver
  have hcontent : q.fs.content? configurationFile = some (conf site.cluster slurm) := by
    unfold textAt at htext
    cases hthere : q.fs.content? configurationFile with
    | none =>
      rw [hthere] at htext
      exact absurd htext.symm (conf_ne_empty _ _)
    | some text =>
      rw [hthere] at htext
      exact congrArg some htext
  have hstays := stays_services halone q
  rw [hrun] at hstays
  exact ⟨_, hstays _ hcontent, directives_conf hnames, declared_conf hnames⟩

theorem configureSLURM_one (slurm : Models.SLURM) :
    ∃ t, Shell.configureSLURM oneSite slurm { fs := onlyPasswd } = .ok () t := by
  let installed : System :=
    { fs := onlyPasswd, log := [.command "dnf -y install ohpc-slurm-server" 0] }
  have hinstall : installServer oneSite { fs := onlyPasswd } = .ok () installed := rfl
  have hremove : remove oneSite configurationFile installed = .ok () installed := rfl
  obtain ⟨made, hmade⟩ : ∃ made, makeDirectory oneSite configurationFile.parent installed =
      .ok () made := ⟨_, rfl⟩
  obtain ⟨opened, hopen⟩ : ∃ opened, made.fs.openAppend configurationFile = .ok opened := by
    obtain ⟨-, rfl⟩ := EStateM.Result.ok.inj hmade
    exact ⟨_, rfl⟩
  obtain ⟨fs, hadd⟩ := addStringToFile_returns {} (conf oneNode slurm) hopen
  have hserver : configureServer oneSite slurm installed = .ok () { made with fs } := by
    rw [configureServer, bind_of_ok hremove, bind_of_ok hmade]
    exact onFs_of_ok hadd
  rw [Shell.configureSLURM, bind_of_ok hinstall, bind_of_ok hserver]
  exact ⟨_, rfl⟩

theorem configureSLURM_directives_one : ∃ t text,
    Shell.configureSLURM oneSite { defaultQueue := "execution" } { fs := onlyPasswd } = .ok () t ∧
      t.fs.content? configurationFile = some text ∧
      declared text "NodeName" = [[("NodeName", "n01"), ("Sockets", "0"), ("CoresPerSocket", "0"),
        ("ThreadsPerCore", "0"), ("State", "UNKNOWN")]] := by
  obtain ⟨t, hrun⟩ := configureSLURM_one { defaultQueue := "execution" }
  have hnames : BareNames oneNode { defaultQueue := "execution" } := by
    refine ⟨by decide, by decide, by decide, ?_⟩
    rw [oneNode, List.forall_mem_singleton]
    decide
  obtain ⟨text, hcontent, -, hdeclared⟩ :=
    @configureSLURM_directives oneSite _ rfl (leavesAlone_quiet _ _) hnames _ _ hrun
  exact ⟨t, text, hrun, hcontent, hdeclared⟩

end SLURM

end Cloyster.Engine
