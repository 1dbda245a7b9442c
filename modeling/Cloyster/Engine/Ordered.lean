import Cloyster.Engine.Steps
import Cloyster.Lib.Milestones

/-! Steps in the order of a plan. The plan is about what is logged, and a command may be given as
soon as all that its event needs is known. What the image is called is carried along. -/

namespace Cloyster.Engine

open Lib

variable {site : Site} {scope : Scope} {α β κ : Type} {reached : κ → Event → Prop}
  {needs : Event → κ → Prop} {ks : List κ} {I : Models.XCAT.Image → Prop}

/-- A plan of the log. -/
def logPlan (reached : κ → Event → Prop) (needs : Event → κ → Prop) : Plan System Event κ :=
  ⟨System.log, reached, needs⟩

/-- A program none of whose commands needs what is not known. -/
theorem orderly_of_confined {x : EngineM α} (h : Confined site scope x)
    (hI : scope.names = false ∨ ∀ image, I image)
    (hneeds : ∀ e : Event, e.word ∈ scope.words → ∀ k, needs e k → k ∈ ks) :
    (logPlan reached needs).Orderly
      (fun s => I s.image.toImage ∧ (logPlan reached needs).Knows ks s) x
      fun _ s => I s.image.toImage ∧ (logPlan reached needs).Knows ks s := by
  refine Plan.orderly_of_extends (extends_of_confined h) hneeds fun s hs => ?_
  obtain hnames | hall := hI
  · have hsame : (finalState (x s)).image.toImage = s.image.toImage :=
      sameName_of_confined h hnames s
    rwa [hsame]
  · exact hall _

/-- A value that cannot be had ends the run. -/
theorem orderly_plain {plan : Plan System Event κ} {P : System → Prop} {Q : β → System → Prop}
    {value : Except Exn α} {f : α → EngineM β}
    (h : ∀ a, value = .ok a → plan.Orderly P (f a) Q) : plan.Orderly P (plain value >>= f) Q := by
  cases value with
  | ok a => exact h a rfl
  | error e => exact fun s _ hlog => ⟨hlog, fun b t hrun => absurd hrun (by simp [plain, bind_apply])⟩

section

variable (hlive : site.opts.dryRun = false) {cmd : String}
  (hneeds : ∀ code k, needs (.command cmd code) k → k ∈ ks)

include hlive hneeds

theorem orderly_execute : (logPlan reached needs).Orderly
    (fun s => I s.image.toImage ∧ (logPlan reached needs).Knows ks s) (executeCommand site cmd)
    fun code s => (I s.image.toImage ∧ (logPlan reached needs).Knows ks s) ∧
      .command cmd code ∈ s.log := by
  intro s hs hlog
  have hrun : executeCommand site cmd s = (do
      let reply ← perform site cmd
      return reply.code : EngineM ℤ) s := by
    rw [executeCommand, hlive]
    rfl
  rw [hrun, perform, bind_apply, bind_apply, get_apply]
  dsimp only
  rw [bind_apply]
  cases hanswer : site.env.command s.log s.fs cmd with
  | error e => exact ⟨hlog, fun code t h => absurd h (by simp [plain])⟩
  | ok reply =>
    refine ⟨Plan.ordered_concat hlog fun k hk => hs.2 k (hneeds _ k hk), fun code t h => ?_⟩
    obtain ⟨rfl, rfl⟩ := EStateM.Result.ok.inj h
    refine ⟨⟨hs.1, Plan.knows_of_prefix hs.2 (List.prefix_append _ _)⟩, ?_⟩
    exact List.mem_append_right _ (List.mem_singleton_self _)

theorem orderly_give : (logPlan reached needs).Orderly
    (fun s => I s.image.toImage ∧ (logPlan reached needs).Knows ks s) (command site cmd)
    fun _ s => (I s.image.toImage ∧ (logPlan reached needs).Knows ks s) ∧
      ∃ code, .command cmd code ∈ s.log :=
  Plan.orderly_bind (orderly_execute hlive hneeds) fun code =>
    Plan.orderly_pure fun _ hs => ⟨hs.1, code, hs.2⟩

theorem orderly_check : (logPlan reached needs).Orderly
    (fun s => I s.image.toImage ∧ (logPlan reached needs).Knows ks s) (checkCommand site cmd)
    fun _ s => (I s.image.toImage ∧ (logPlan reached needs).Knows ks s) ∧
      .command cmd 0 ∈ s.log := by
  have hrun : checkCommand site cmd = (do
      let code ← executeCommand site cmd
      refuseIf (code ≠ 0) (failed cmd) : EngineM Unit) := by
    rw [checkCommand, executeCommand, hlive, if_neg (by simp), if_neg (by simp), bind_assoc]
    rfl
  rw [hrun]
  refine Plan.orderly_bind (orderly_execute (I := I) hlive hneeds) fun code => ?_
  refine Plan.orderly_refuseIf _ fun s hs hcode => ?_
  obtain rfl : code = 0 := not_not.mp hcode
  exact hs

end

end Cloyster.Engine
