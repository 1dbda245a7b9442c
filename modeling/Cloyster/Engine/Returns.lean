import Cloyster.Engine.Steps
import Cloyster.Lib.Total
import Cloyster.Services.Provisioner

/-! When the engine's own functions return. Surroundings in which every command succeeds leave
only the program's own work to fail, and a dry run does none of it. What the work needs is one
predicate on the repositories and the files, which each step keeps. -/

namespace Cloyster.Engine

open Lib Models Services

variable {site : Site} {F G : RPMRepoManager × FS → Prop} {α : Type}

/-- Every command succeeds, and the files stay as they are. -/
def Obliging (env : Surroundings) : Prop :=
  ∀ log fs text, ∃ reply, env.command log fs text = .ok reply ∧ reply.code = 0 ∧ reply.fs = fs

theorem obliging_quiet : Obliging .quiet := fun _ fs _ => ⟨{ fs }, rfl, rfl, rfl⟩

/-- Outside of a dry run the repositories and the files are as `F` has them. -/
def Standing (site : Site) (F : RPMRepoManager × FS → Prop) (s : System) : Prop :=
  site.opts.dryRun = false → F (s.repos, s.fs)

/-! ### Commands -/

section

variable (henv : Obliging site.env)

include henv

theorem total_perform (cmd : String) : Total (Standing site F) (perform site cmd)
    fun reply t => reply.code = 0 ∧ Standing site F t ∧ .command cmd 0 ∈ t.log := by
  intro s hs
  obtain ⟨reply, hanswer, hcode, hfs⟩ := henv s.log s.fs cmd
  refine ⟨reply, { s with fs := reply.fs, log := s.log ++ [.command cmd reply.code] }, ?_, hcode,
    fun hlive => ?_, by simp [hcode]⟩
  · rw [perform, bind_apply, get_apply]
    dsimp only
    rw [hanswer]
    rfl
  · rw [hfs]
    exact hs hlive

theorem total_executeCommand (cmd : String) : Total (Standing site F) (executeCommand site cmd)
    fun code t => code = 0 ∧ Standing site F t :=
  total_ite (fun _ => total_pure fun _ hs => ⟨rfl, hs⟩) fun _ =>
    total_bind (total_perform henv cmd) fun _ => total_pure fun _ hs => ⟨hs.1, hs.2.1⟩

theorem runs_command (cmd : String) : Runs (Standing site F) (command site cmd) :=
  total_bind (total_executeCommand henv cmd) fun _ => total_pure fun _ hs => hs.2

theorem runs_checkCommand (cmd : String) : Runs (Standing site F) (checkCommand site cmd) :=
  total_ite (fun _ => runs_pure _) fun _ => total_bind (total_perform henv cmd) fun _ =>
    total_of_fact fun hcode => total_post (runs_refuseIf (not_not_intro hcode) _) fun _ _ ht => ht.1

theorem total_command_logged (hlive : site.opts.dryRun = false) (cmd : String) :
    Total (Standing site F) (command site cmd)
      fun _ t => Standing site F t ∧ .command cmd 0 ∈ t.log := by
  rw [command, executeCommand, if_neg (by simp [hlive])]
  refine total_bind (Q := fun _ t => Standing site F t ∧ .command cmd 0 ∈ t.log) ?_
    fun _ => runs_pure _
  exact total_bind (total_perform henv cmd) fun _ => total_pure fun _ hs => hs.2

end

/-! ### The program's own work -/

theorem runs_plain {x : Except Exn α} (h : ∃ a, x = .ok a) : Runs (Standing site F) (plain x) := by
  obtain ⟨a, rfl⟩ := h
  exact runs_pure a

/-- With a value that is there the rest is run. -/
theorem total_plain_bind {β : Type} {x : Except Exn α} {a : α} (h : x = .ok a) {f : α → EngineM β}
    {P : System → Prop} {Q : β → System → Prop} (hf : Total P (f a) Q) :
    Total P (plain x >>= f) Q := by
  subst h
  exact hf

theorem total_within {τ : Type} {part : System → τ} {put : τ → System → System}
    {x : EStateM Exn τ α} (h : ∀ s, Standing site F s → ∃ a t, x (part s) = .ok a t ∧
      Standing site G (put t s)) :
    Total (Standing site F) (within part put x) fun _ => Standing site G := by
  intro s hs
  obtain ⟨a, t, hrun, ht⟩ := h s hs
  exact ⟨a, put t s, by rw [within, hrun], ht⟩

/-- Work on the files from one predicate to another, or with nothing to do in a dry run. -/
theorem total_onFs {x : FsM α} (hdry : site.opts.dryRun = true → Returns x)
    (hlive : site.opts.dryRun = false →
      ∀ m, Total (fun fs => F (m, fs)) x fun _ fs => G (m, fs)) :
    Total (Standing site F) (onFs x) fun _ => Standing site G := by
  refine total_within fun s hs => ?_
  cases hmode : site.opts.dryRun with
  | true =>
    obtain ⟨a, fs, hrun⟩ := hdry hmode s.fs
    exact ⟨a, fs, hrun, fun h => absurd (hmode.symm.trans h) (by simp)⟩
  | false =>
    obtain ⟨a, fs, hrun, hfs⟩ := hlive hmode s.repos s.fs (hs hmode)
    exact ⟨a, fs, hrun, fun _ => hfs⟩

theorem runs_onRepos {x : RPMRepoManager.ManagerM α} (hlive : site.opts.dryRun = false)
    (hx : Runs F x) : Runs (Standing site F) (onRepos x) :=
  total_within fun s hs => by
    obtain ⟨a, t, hrun, ht⟩ := hx (s.repos, s.fs) (hs hlive)
    exact ⟨a, t, hrun, fun _ => ht⟩

/-- The image is not part of what the work needs. -/
theorem runs_onImage {x : EStateM Exn XCAT.Stateless α} (h : Returns x) :
    Runs (Standing site F) (onImage x) :=
  total_within fun s hs => by
    obtain ⟨a, image, hrun⟩ := h s.image
    exact ⟨a, image, hrun, hs⟩

theorem runs_onName {x : XCAT.XCATM α} (h : Returns x) : Runs (Standing site F) (onName x) :=
  total_within fun s hs => by
    obtain ⟨a, image, hrun⟩ := h s.image.toImage
    exact ⟨a, image, hrun, hs⟩

/-! ### The helpers -/

/-- A dry run makes the file when it can, and goes on when it cannot. -/
theorem returns_addStringToFile_dryRun {opts : Options} (hdry : opts.dryRun = true) (p : Path)
    (string : String) : Returns (addStringToFile opts p string) := by
  intro fs
  rw [addStringToFile, bind_apply, get_apply]
  dsimp only
  simp only [hdry, if_true]
  cases fs.openAppend p with
  | ok opened =>
    split_ifs
    · exact ⟨_, _, rfl⟩
    · exact ⟨_, _, rfl⟩
  | error code =>
    split_ifs
    · exact ⟨_, _, rfl⟩
    · exact ⟨_, _, rfl⟩

theorem total_addString {p : Path} {string : String} (h : site.opts.dryRun = false → ∀ m,
      Total (fun fs => F (m, fs)) (addStringToFile site.opts.toOptions p string)
        fun _ fs => G (m, fs)) :
    Total (Standing site F) (addString site p string) fun _ => Standing site G :=
  total_onFs (fun hdry => returns_addStringToFile_dryRun hdry p string) h

theorem total_remove {p : Path} (h : site.opts.dryRun = false → ∀ m,
      Total (fun fs => F (m, fs)) (removeFile site.opts.toOptions p) fun _ fs => G (m, fs)) :
    Total (Standing site F) (remove site p) fun _ => Standing site G :=
  total_onFs (fun hdry fs => ⟨_, _, removeFile_dryRun hdry fs p⟩) h

theorem total_makeDirectory {p : Path} (h : site.opts.dryRun = false → ∀ m,
      Total (fun fs => F (m, fs)) (createDirectory site.opts.toOptions p) fun _ fs => G (m, fs)) :
    Total (Standing site F) (makeDirectory site p) fun _ => Standing site G :=
  total_onFs (fun hdry fs => ⟨_, _, createDirectory_dryRun hdry fs p⟩) h

theorem runs_backup {p : Path} (h : site.opts.dryRun = false → ∀ m timestamp,
      Runs (fun fs => F (m, fs)) (backupFile site.opts.toOptions p timestamp)) :
    Runs (Standing site F) (backup site p) :=
  runs_get fun _ => total_onFs (fun hdry fs => ⟨_, _, backupFile_dryRun hdry fs p _⟩)
    fun hlive m => h hlive m _

theorem runs_run (henv : Obliging site.env) (script : ScriptBuilder)
    (h : site.opts.dryRun = false → ∀ m name data,
      Runs (fun fs => F (m, fs)) (installFile site.opts.toOptions ["tmp", name] data)) :
    Runs (Standing site F) (run site script) := by
  refine total_ite (fun _ => runs_pure _) fun hwet => ?_
  have hlive : site.opts.dryRun = false := Bool.eq_false_iff.mpr hwet
  refine total_bind (total_onFs (fun hdry => absurd hdry hwet) fun _ m => h hlive m _ _) fun _ => ?_
  refine total_bind (runs_command henv _) fun _ => ?_
  exact runs_discard (runs_command henv _) 0

end Cloyster.Engine
