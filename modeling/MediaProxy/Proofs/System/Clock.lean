import MediaProxy.Proofs.System.Punctual

/-!
This module contains runs in virtual time: tasks take turns until none of them can go on, and only then the
time moves on, to the next point at which one of them has something to do.
-/

namespace MediaProxy

namespace System

/--
Whether no task can go on before the time moves on: nobody stands in line, and whoever carries out a task
himself has carried it out as far as it goes.
-/
structure Settled (system : System) : Prop where
  ready_eq : system.ready = []
  idle : ∀ id task, system.task? id = some task → task.foreground = true →
    ∀ tickFirst, system.step tickFirst id = system

theorem settled_of_background {system : System} (hready : system.ready = [])
    (hbackground : ∀ task ∈ system.tasks, task.foreground = false) : system.Settled := by
  refine ⟨hready, ?_⟩
  intro id task htask hforeground
  cases (hbackground task (List.mem_of_find?_eq_some htask)).symm.trans hforeground

/--
Runs in virtual time, in which users do what they like whenever they like. The last action comes first.
-/
inductive Clocked (start : System) : List Action → Prop where
  | nil : start.Clocked []
  | turn {actions : List Action} {id : TaskId} {ready : List TaskId} (h : start.Clocked actions)
    (hready : (start.after actions).ready = id :: ready) (tickFirst : Bool) :
    start.Clocked (.step tickFirst id :: .line ready :: actions)
  | leap {actions : List Action} (h : start.Clocked actions)
    (hsettled : (start.after actions).Settled) (limit : Nat) :
    start.Clocked (.leap limit :: actions)
  | other {action : Action} {actions : List Action} (h : start.Clocked actions)
    (hadmits : (start.after actions).Admits action)
    (hproper : (start.after actions).Proper action) (hleap : ∀ limit, action ≠ .leap limit) :
    start.Clocked (action :: actions)

section
variable {start : System} {actions : List Action}

theorem Clocked.paced (h : start.Clocked actions) : start.Paced actions := by
  induction h with
  | nil => exact .nil
  | turn _ hready tickFirst ih => exact ih.turn hready tickFirst
  | leap _ hsettled limit ih => exact ih.leap hsettled.ready_eq limit
  | other _ hadmits hproper hleap ih =>
    refine ih.other hadmits ?_ hleap
    rintro ready rfl
    exact hproper

theorem Clocked.legal (h : start.Clocked actions) : Legal start actions :=
  h.paced.legal

theorem Clocked.before_step {tickFirst : Bool} {id : TaskId}
    (h : start.Clocked (.step tickFirst id :: actions))
    : start.Clocked actions ∨ ∃ earlier ready, start.Clocked earlier ∧
        (start.after earlier).ready = id :: ready ∧ actions = .line ready :: earlier := by
  cases h with
  | turn h hready => exact .inr ⟨_, _, h, hready, rfl⟩
  | other h => exact .inl h

end

end System

end MediaProxy
