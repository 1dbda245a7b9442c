import Cloyster.Lib.Registry
import Cloyster.Models.Cluster
import Cloyster.View.Newt

/-! The singletons, and the two functions that initialise them. Those that depend on the options
alone come before the model of the cluster, and those that depend on the model after it. A
program here keeps which singletons it initialised and which ones it got. -/

namespace Cloyster

open Lib Lib.Registry

inductive Singleton where
  | Options | MessageBus | IRunner | Cluster | RepoManager | IOSService
  deriving DecidableEq

/-- What ends the program other than the end of `main`: an exception that nothing catches, a
dialog that is left so, or a dialog that is still shown. -/
inductive Stop where
  | uncaught (e : Exn)
  | left (how : Newt.Left)
  | waiting
  deriving DecidableEq

abbrev MainM := RegistryM Stop Singleton

namespace MainM

/-- What code does that reaches no singleton. -/
def plain {α : Type} (x : Except Exn α) : MainM α := aside (x.mapError .uncaught)

def settle {α : Type} : Newt.Answer α → Except Stop α
  | some (.ok a) => .ok a
  | some (.error how) => .error (.left how)
  | none => .error .waiting

def dialog {α : Type} (menu : Newt.Answer α) : MainM α := aside (settle menu)

end MainM

namespace Singleton

def get (T : Singleton) : MainM Unit :=
  read (.uncaught (.runtimeError "Singleton read before initialization")) T

/-- `std::call_once` with the factory. -/
def init (T : Singleton) (factory : MainM Unit) : MainM Unit := fill T factory

/-- Those that depend on the options alone. -/
def first : Set Singleton := {.Options, .MessageBus, .IRunner}

theorem options_mem_first : .Options ∈ first := by simp [first]

theorem runner_mem_first : .IRunner ∈ first := by simp [first]

theorem insert_first : insert IRunner (insert MessageBus (insert Options ∅)) = first := by
  ext T
  cases T <;> simp [first]

theorem insert_univ : insert IOSService (insert RepoManager (insert Cluster first)) = Set.univ := by
  ext T
  cases T <;> simp [first]

end Singleton

namespace MainM

variable {T : Singleton} {S : Set Singleton} {α : Type}

theorem orderly_get (h : T ∈ S) : Orderly S T.get S := orderly_read _ h

theorem completes_get (h : T ∈ S) : Completes S T.get () S := completes_read _ h

theorem orderly_plain (x : Except Exn α) : Orderly S (plain x) S := orderly_aside _

theorem plain_ok {x : Except Exn α} {a : α} {t t' : Trace Singleton}
    (h : plain x t = .ok a t') : x = .ok a := by
  obtain ⟨hx, -⟩ := aside_ok_iff.mp h
  cases x with
  | ok b => exact congrArg Except.ok (Except.ok.inj hx)
  | error e => exact absurd hx (by simp [Except.mapError])

theorem dialog_ok {menu : Newt.Answer α} {a : α} {t t' : Trace Singleton}
    (h : dialog menu t = .ok a t') : menu = some (.ok a) := by
  obtain ⟨hmenu, -⟩ := aside_ok_iff.mp h
  rcases menu with _ | how | b
  · exact absurd hmenu (by simp [settle])
  · exact absurd hmenu (by simp [settle])
  · exact congrArg (some ∘ Except.ok) (Except.ok.inj hmenu)

theorem completes_dialog {menu : Newt.Answer α} {a : α} (h : menu = some (.ok a)) :
    Completes S (dialog menu) a S := by
  apply completes_aside
  rw [h]
  rfl

theorem completes_plain {x : Except Exn α} {a : α} (h : x = .ok a) : Completes S (plain x) a S := by
  apply completes_aside
  rw [h]
  rfl

end MainM

namespace Services

open MainM

/-- The parameter is the connection to the system bus. The last factory looks at the options. -/
def initializeSingletonsOptions (bus : Except Exn Unit) : MainM Unit := do
  Singleton.init .Options (pure ())
  Singleton.init .MessageBus (plain bus)
  Singleton.init .IRunner (Singleton.get .Options)

/-- The service is that of the distribution. -/
def initializeSingletonsModel (cluster : Models.Cluster) : MainM Unit := do
  Singleton.init .Cluster (pure ())
  Singleton.init .RepoManager (Singleton.get .Cluster)
  Singleton.init .IOSService (do
    Singleton.get .Cluster
    let _ ← plain cluster.headnode.os.getDistro)

/-- Each factory gets only what is initialised before it. -/
theorem orderly_initializeSingletonsOptions (bus : Except Exn Unit) :
    Orderly ∅ (initializeSingletonsOptions bus) Singleton.first := by
  rw [← Singleton.insert_first]
  refine orderly_bind (orderly_fill (orderly_pure _)) fun _ _ _ _ => ?_
  refine orderly_bind (orderly_fill (orderly_plain bus)) fun _ _ _ _ => ?_
  exact orderly_fill (orderly_get (by simp))

theorem completes_initializeSingletonsOptions :
    Completes ∅ (initializeSingletonsOptions (.ok ())) () Singleton.first := by
  rw [← Singleton.insert_first]
  refine completes_bind (completes_fill (by simp) (completes_pure _)) ?_
  refine completes_bind (completes_fill (by simp) (completes_plain rfl)) ?_
  exact completes_fill (by simp) (completes_get (by simp))

theorem orderly_initializeSingletonsModel (cluster : Models.Cluster) :
    Orderly Singleton.first (initializeSingletonsModel cluster) Set.univ := by
  rw [← Singleton.insert_univ]
  refine orderly_bind (orderly_fill (orderly_pure _)) fun _ _ _ _ => ?_
  refine orderly_bind (orderly_fill (orderly_get (by simp)))
    fun _ _ _ _ => ?_
  refine orderly_fill ?_
  refine orderly_bind (orderly_get (by simp)) fun _ _ _ _ => ?_
  exact orderly_bind (orderly_plain _) fun _ _ _ _ => orderly_pure _

end Services

end Cloyster
