import Cloyster.Lib.EventLog

/-! Programs in stages. At the end of a stage is a point with a name, and a run that is told the
name leaves there. Such a run does the stages up to the point and no more, so what it has logged
is the beginning of what any run logs that leaves later or not at all. -/

namespace Cloyster.Lib.Stages

open EventLog

variable {ε σ ι ν : Type}

/-- A part of the program and the name of the point at its end. -/
structure Stage (ε σ ν : Type) where
  run : EStateM ε σ PUnit
  name : ν

/-- The stages up to a point. -/
def upTo (stages : List (Stage ε σ ν)) : EStateM ε σ PUnit := stages.forM (·.run)

variable {stage : Stage ε σ ν} {stages l r : List (Stage ε σ ν)}

theorem upTo_cons : upTo (stage :: stages) = stage.run >>= fun _ => upTo stages := rfl

theorem upTo_append (l r : List (Stage ε σ ν)) : upTo (l ++ r) = upTo l >>= fun _ => upTo r := by
  funext s
  exact forM_append_apply l r _ s

section

variable [DecidableEq ν] (exit : ε) (stop : ν) (last : EStateM ε σ PUnit)

/-- Leave when the point is the one to stop at. -/
def point (name : ν) : EStateM ε σ PUnit := refuseIf (stop = name) exit

/-- The stages, each followed by its point, and what comes after the last of them. -/
def run : List (Stage ε σ ν) → EStateM ε σ PUnit
  | [] => last
  | stage :: stages => do
    stage.run
    point exit stop stage.name
    run stages

variable {exit stop last}

theorem run_cons_of_ne (h : stop ≠ stage.name) :
    run exit stop last (stage :: stages) = stage.run >>= fun _ => run exit stop last stages := by
  rw [run, point, refuseIf, if_neg h]
  rfl

theorem run_cons_self :
    run exit stage.name last (stage :: stages) = stage.run >>= fun _ => throw exit := by
  rw [run, point, refuseIf, if_pos rfl]
  rfl

/-- A name that no point has changes nothing. -/
theorem run_of_notMem (h : stop ∉ stages.map (·.name)) :
    run exit stop last stages = upTo stages >>= fun _ => last := by
  induction stages with
  | nil => rfl
  | cons stage stages ih =>
    rw [List.map_cons, List.mem_cons, not_or] at h
    rw [run_cons_of_ne h.1, upTo_cons, ih h.2, bind_assoc]

/-- The run leaves at the first point of the name. -/
theorem run_of_mem (h : stage.name ∉ l.map (·.name)) :
    run exit stage.name last (l ++ stage :: r) =
      upTo (l ++ [stage]) >>= fun _ => throw exit := by
  induction l with
  | nil =>
    rw [List.nil_append, run_cons_self, List.nil_append, upTo_cons, bind_assoc]
    rfl
  | cons first l ih =>
    rw [List.map_cons, List.mem_cons, not_or] at h
    rw [List.cons_append, run_cons_of_ne h.1, ih h.2, List.cons_append, upTo_cons, bind_assoc]

theorem run_getElem (hnodup : (stages.map (·.name)).Nodup) {i : ℕ} (hi : i < stages.length) :
    run exit stages[i].name last stages = upTo (stages.take (i + 1)) >>= fun _ => throw exit := by
  have hsplit : stages = stages.take i ++ stages[i] :: stages.drop (i + 1) := by
    rw [List.getElem_cons_drop, List.take_append_drop]
  have hfirst : stages[i].name ∉ (stages.take i).map (·.name) := by
    intro hmem
    rw [hsplit, List.map_append, List.nodup_append] at hnodup
    exact hnodup.2.2 _ hmem _ (List.mem_cons_self ..) rfl
  have hrun : run exit stages[i].name last (stages.take i ++ stages[i] :: stages.drop (i + 1)) =
      upTo (stages.take i ++ [stages[i]]) >>= fun _ => throw exit := run_of_mem hfirst
  rw [← hsplit] at hrun
  rw [hrun, List.take_succ_eq_append_getElem hi]

end

/-! ### What has been logged by then -/

section

variable {view : σ → List ι} {exit : ε} {last : EStateM ε σ PUnit}

theorem finalState_bind_throw {α : Type} (x : EStateM ε σ α) (s : σ) :
    finalState ((x >>= fun _ => (throw exit : EStateM ε σ PUnit)) s) = finalState (x s) := by
  rw [bind_apply]
  cases x s <;> rfl

theorem prefix_bind {α β : Type} (x : EStateM ε σ α) {f : α → EStateM ε σ β}
    (hf : ∀ a, Grows view (f a)) (s : σ) :
    view (finalState (x s)) <+: view (finalState ((x >>= f) s)) := by
  rw [bind_apply]
  cases x s with
  | ok a t => exact (hf a t).isPrefix
  | error e t => exact List.prefix_rfl

theorem upTo_prefix (h : ∀ stage ∈ stages, Grows view stage.run) {i j : ℕ} (hij : i ≤ j) (s : σ) :
    view (finalState (upTo (stages.take i) s)) <+: view (finalState (upTo (stages.take j) s)) := by
  rw [← List.take_append_drop i (stages.take j), upTo_append, List.take_take, min_eq_left hij]
  refine prefix_bind _ (fun _ => moves_forM fun stage hstage => h stage ?_) s
  exact List.mem_of_mem_take (List.mem_of_mem_drop hstage)

end

end Cloyster.Lib.Stages
