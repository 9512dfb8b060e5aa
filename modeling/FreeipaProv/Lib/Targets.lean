import FreeipaProv.Lib.Fallible
import Mathlib.Tactic

/-!
# Steps on targets

Each step has one target, moves what is seen there to its goal and leaves all
other targets as they are, so that every target goes through the goals of its
own steps.  Steps that stop half-way do no harm where they do not move the goal.
-/

namespace Targets

open Fallible

variable {ε σ τ K O : Type}

/-- What the steps do, on a state that is seen at targets. -/
structure Acts (step : σ → τ → Except ε σ) (view : σ → K → O)
    (target : τ → K) (goal : τ → O → O) (tasks : List τ) : Prop where
  reaches : ∀ task ∈ tasks, ∀ s s', step s task = .ok s' →
    view s' (target task) = goal task (view s (target task))
  frame : ∀ task ∈ tasks, ∀ s s', step s task = .ok s' →
    ∀ k, k ≠ target task → view s' k = view s k

variable {step : σ → τ → Except ε σ} {view : σ → K → O}
  {target : τ → K} {goal : τ → O → O} {tasks : List τ} {s s' : σ}

theorem Acts.tail {task : τ} {rest : List τ}
    (hacts : Acts step view target goal (task :: rest)) :
    Acts step view target goal rest where
  reaches next hnext := hacts.reaches next (List.mem_cons_of_mem _ hnext)
  frame next hnext := hacts.frame next (List.mem_cons_of_mem _ hnext)

variable [DecidableEq K]

/-- The goals of the tasks on a target, one after the other. -/
def goalsAt (target : τ → K) (goal : τ → O → O) (tasks : List τ) (k : K)
    (o : O) : O :=
  (tasks.filter fun task => target task = k).foldl (fun o task => goal task o) o

theorem Acts.view_step {task : τ} (hacts : Acts step view target goal tasks)
    (hmem : task ∈ tasks) (hstep : step s task = .ok s') (k : K) :
    view s' k = if target task = k then goal task (view s k) else view s k := by
  split_ifs with hk
  · rw [← hk]
    exact hacts.reaches task hmem s s' hstep
  · exact hacts.frame task hmem s s' hstep k (Ne.symm hk)

theorem Acts.view_run (hacts : Acts step view target goal tasks)
    (hrun : runAll step s tasks = .ok s') (k : K) :
    view s' k = goalsAt target goal tasks k (view s k) := by
  induction tasks generalizing s with
  | nil =>
      cases hrun
      rfl
  | cons task rest ih =>
      obtain ⟨mid, hstep, hrest⟩ := bind_eq_ok_iff.mp hrun
      rw [ih hacts.tail hrest, hacts.view_step List.mem_cons_self hstep,
        goalsAt, goalsAt, List.filter_cons]
      by_cases hk : target task = k
      · rw [if_pos hk, if_pos (decide_eq_true hk), List.foldl_cons]
      · rw [if_neg hk, if_neg (by rw [decide_eq_true_iff]; exact hk)]

section Disturbed

omit [DecidableEq K]

variable {nudge : τ → σ → σ → Prop}

end Disturbed

end Targets
