import Cloyster.Lib.Effect
import Cloyster.Lib.FileSystem

/-! What every part of the program shares: the exceptions it throws, with the
text each carries, and the command line options the modelled code reads. -/

namespace Cloyster

open Lib

/-- The C++ class of a thrown exception. `undefinedBehaviour` stands for a read
the language gives no meaning to, such as `->` on an empty optional. -/
inductive ExnType where
  | runtimeError | invalidArgument | outOfRange | lengthError | rangeError | logicError
  | systemError
  | filesystemError (code : Errc)
  | keyFileError | formatError | badOptionalAccess | badVariantAccess | answerfileValidation
  | undefinedBehaviour
  deriving DecidableEq, Repr

structure Exn where
  type : ExnType
  what : String
  deriving DecidableEq, Repr

def Exn.runtimeError (msg : String) : Exn := ⟨.runtimeError, msg⟩

def Exn.filesystem (code : Errc) (what : String) : Exn := ⟨.filesystemError code, what⟩

/-- What the standard conversions throw. -/
def Exn.ofNumError (fn : String) : Text.NumError → Exn
  | .invalidArgument => ⟨.invalidArgument, fn⟩
  | .outOfRange => ⟨.outOfRange, fn⟩

/-- A program over the file system. -/
abbrev FsM := EStateM Exn FS

/-- `std::optional::value`. -/
def optionValue {α : Type} : Option α → Except Exn α
  | some a => .ok a
  | none => .error ⟨.badOptionalAccess, "bad optional access"⟩

@[simp] theorem optionValue_ok_iff {α : Type} {o : Option α} {a : α} :
    optionValue o = .ok a ↔ o = some a := by
  cases o <;> simp [optionValue]

/-- The options the modelled code reads. -/
structure Options where
  dryRun : Bool := false
  disableMirrors : Bool := false
  mirrorBaseUrl : String := "https://mirror.versatushpc.com.br"
  beegfsVersion : String := "beegfs_7.3.3"
  zabbixVersion : String := "6.4"
  xcatVersion : String := "latest"
  answerfile : String := ""
  skipSteps : List String := []
  forceSteps : List String := []
  deriving DecidableEq

def Options.shouldSkip (opts : Options) (step : String) : Bool := step ∈ opts.skipSteps

def Options.shouldForce (opts : Options) (step : String) : Bool := step ∈ opts.forceSteps

/-- Lift a result that needs no state. -/
def liftExcept {σ α : Type} : Except Exn α → EStateM Exn σ α
  | .ok a => pure a
  | .error e => throw e

@[simp] theorem liftExcept_ok_iff {σ α : Type} {x : Except Exn α} {s t : σ} {a : α} :
    liftExcept x s = .ok a t ↔ x = .ok a ∧ t = s := by
  cases x <;> simp [liftExcept, eq_comm]

theorem unchanged_liftExcept {σ α : Type} (x : Except Exn α) (s : σ) :
    Unchanged (liftExcept x) s := by
  cases x <;> rfl

theorem keeps_liftExcept {σ α β : Type} {f : σ → β} (x : Except Exn α) :
    Keeps f (liftExcept x : EStateM Exn σ α) := by
  intro s a t h
  rw [(liftExcept_ok_iff.mp h).2]

theorem returns_liftExcept_bind {σ α β : Type} {x : Except Exn α} {a : α}
    {f : α → EStateM Exn σ β} (h : x = .ok a) (hf : Returns (f a)) :
    Returns (liftExcept x >>= f) := by
  rw [h]
  exact hf

/-- Throw when the condition holds. -/
def throwIf (p : Prop) [Decidable p] (e : Exn) : Except Exn Unit := if p then .error e else .ok ()

@[simp] theorem throwIf_ok_iff {p : Prop} [Decidable p] {e : Exn} {u : Unit} :
    throwIf p e = .ok u ↔ ¬ p := by
  unfold throwIf
  split_ifs with h <;> simp [h]

theorem runOn_refuseIf {σ : Type} (p : Prop) [Decidable p] (e : Exn) (s : σ) :
    runOn (refuseIf p e) s = (fun u => (u, s)) <$> throwIf p e := by
  unfold refuseIf throwIf
  split_ifs <;> rfl

theorem runOn_liftExcept {σ α : Type} (x : Except Exn α) (s : σ) :
    runOn (liftExcept x) s = (fun a => (a, s)) <$> x := by
  cases x <;> rfl

theorem isOk_iff {ε α : Type} {x : Except ε α} : x.isOk ↔ ∃ a, x = .ok a := by
  cases x <;> simp [Except.toBool]

/-- A sequence of throwing computations returns exactly when each does. -/
theorem except_bind_ok_iff {α β : Type} {x : Except Exn α} {f : α → Except Exn β} {b : β} :
    (x >>= f) = .ok b ↔ ∃ a, x = .ok a ∧ f a = .ok b := by
  cases x with
  | ok a => simp [bind, Except.bind]
  | error e => simp [bind, Except.bind]

theorem except_ok_bind {α β : Type} (a : α) (f : α → Except Exn β) :
    (Except.ok a >>= f) = f a := rfl

theorem except_error_bind {α β : Type} (e : Exn) (f : α → Except Exn β) :
    (Except.error e >>= f) = .error e := rfl

/-- What is done twice in a row may as well be done once. -/
theorem except_bind_bind_self {α β : Type} (x : Except Exn α) (f : α → Except Exn β) :
    (x >>= fun _ => x >>= f) = x >>= f := by
  cases x <;> rfl

@[simp] theorem except_pure_ok_iff {α : Type} {a b : α} :
    (pure a : Except Exn α) = .ok b ↔ a = b := by
  simp [pure, Except.pure]

@[simp] theorem except_map_ok_iff {α β : Type} {x : Except Exn α} {f : α → β} {b : β} :
    (f <$> x) = .ok b ↔ ∃ a, x = .ok a ∧ f a = b := by
  cases x <;> simp [Functor.map, Except.map]

/-- A computation on every entry of a list returns exactly when each does. -/
theorem mapM_ok_iff {α β : Type} {f : α → Except Exn β} {l : List α} {r : List β} :
    l.mapM f = .ok r ↔ List.Forall₂ (fun a b => f a = .ok b) l r := by
  induction l generalizing r with
  | nil => rw [List.mapM_nil, except_pure_ok_iff, List.forall₂_nil_left_iff, eq_comm]
  | cons a l ih =>
    simp only [List.mapM_cons, except_bind_ok_iff, except_pure_ok_iff, ih,
      List.forall₂_cons_left_iff]
    constructor
    · rintro ⟨b, hb, bs, hbs, rfl⟩
      exact ⟨b, bs, hb, hbs, rfl⟩
    · rintro ⟨b, bs, hb, hbs, rfl⟩
      exact ⟨b, hb, bs, hbs, rfl⟩

/-- The first refusal ends the list. -/
theorem mapM_set_error {α β : Type} {f : α → Except Exn β} {l : List α} {r : List β} {i : ℕ}
    {a : α} {e : Exn} (h : l.mapM f = .ok r) (hi : i < l.length) (he : f a = .error e) :
    (l.set i a).mapM f = .error e := by
  induction l generalizing i r with
  | nil => exact absurd hi (by simp)
  | cons b l ih =>
    simp only [List.mapM_cons, except_bind_ok_iff] at h
    obtain ⟨d, hd, ds, hds, -⟩ := h
    cases i with
    | zero =>
      rw [List.set_cons_zero, List.mapM_cons, he]
      rfl
    | succ i =>
      rw [List.set_cons_succ, List.mapM_cons, hd, ih hds (by simpa using hi)]
      rfl

theorem mapM_set_ok {α β : Type} {f : α → Except Exn β} {l : List α} {r : List β} {i : ℕ}
    {a : α} {b : β} (h : l.mapM f = .ok r) (ha : f a = .ok b) :
    (l.set i a).mapM f = .ok (r.set i b) := by
  rw [mapM_ok_iff] at h ⊢
  induction h generalizing i with
  | nil => exact .nil
  | cons hfirst hrest ih =>
    cases i with
    | zero => exact .cons ha hrest
    | succ i => exact .cons hfirst ih

@[simp] theorem mapError_ok_iff {ε α : Type} {x : Except ε α} {f : ε → Exn} {a : α} :
    x.mapError f = .ok a ↔ x = .ok a := by
  cases x <;> simp [Except.mapError]

end Cloyster
