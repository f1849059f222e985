import MediaProxy.Proofs.Object.Growth
import MediaProxy.Proofs.Pool.Move
import MediaProxy.System.Blocking
import MediaProxy.System.Run

/-!
This module contains everything that can happen to a system, in any order: steps of tasks, what users
and servers do, and the passing of time.
-/

namespace MediaProxy

namespace System

/--
What happens at once. An operation that blocks is carried out from its beginning to its end, or others
interrupt it: then it acquires, calls and gives its lease back by actions of their own, and concludes
with what came of its call.
-/
inductive Action where
  | step (tickFirst : Bool) (id : TaskId)
  | line (ready : List TaskId)
  | leap (limit : Nat)
  | spawn (job : Job) (continuation : Continuation) (name : String)
  | attend (job : Job)
  | drop (id : TaskId)
  | ignore (id : TaskId)
  | collect (id : TaskId)
  | stop (id : TaskId)
  | shutdown
  | operateBlocking (o : ObjectId) (operation : Operation)
  | concludeBlocking (o : ObjectId) (operation : Operation) (outcome : Except RpcError Reply)
  | acquireBlocking (c : Nat)
  | call (c : Nat) (flavor : Flavor) (lease : Ticket) (target : Reference) (request : Request)
  | markBroken (c : Nat) (flavor : Flavor) (lease : Ticket)
  | giveBack (c : Nat) (flavor : Flavor) (lease : Ticket)
  | serve (c : Nat) (script : List ScriptEntry) (openings : List Opening)
  | share (move : Store.Move)
  | build (builder : ContextBuilder)

def act (system : System) : Action → System
  | .step tickFirst id => system.step tickFirst id
  | .line ready => { system with ready }
  | .leap limit => system.leap limit
  | .spawn job continuation name => (system.spawn job continuation name).2
  | .attend job => (system.attend job).2
  | .drop id => system.dropTask id
  | .ignore id => system.ignore id
  | .collect id => ((system.collect? id).map (·.2)).getD system
  | .stop id => system.stop id
  | .shutdown => system.shutdown
  | .operateBlocking o operation => (system.operateBlocking o operation).2
  | .concludeBlocking o operation outcome =>
    { system with store := (system.store.conclude o operation outcome).2 }
  | .acquireBlocking c => (system.acquireBlocking c).2
  | .call c flavor lease target request => (system.ask c flavor lease target request).2.2
  | .markBroken c flavor lease =>
    system.setSlots c flavor ((system.slots c flavor).markBroken lease)
  | .giveBack c flavor lease => system.stepSlots c flavor (·.giveBack lease)
  | .serve c script openings =>
    system.setServer c { (system.link c).server with script, openings }
  | .share move => { system with store := system.store.perform move }
  | .build builder => (system.build builder).2

/--
Whether an action can happen. Only schedulers are told to stop. A lease that a task holds is nobody
else's.
-/
def Admits (system : System) : Action → Prop
  | .stop id => ∀ task, system.task? id = some task → ∃ c period, task.job = .schedule c period
  | .markBroken _ _ lease => system.task? lease = none
  | .giveBack _ _ lease => system.task? lease = none
  | .share move => system.store.Admits move
  | _ => True

theorem Action.step_or_ne (action : Action) (id : TaskId)
    : (∃ tickFirst, action = .step tickFirst id) ∨ ∀ tickFirst, action ≠ .step tickFirst id := by
  by_cases h : ∃ tickFirst, action = .step tickFirst id
  . exact .inl h
  . exact .inr fun tickFirst heq => h ⟨tickFirst, heq⟩

/--
What becomes of a system by actions, the last one first.
-/
def after (start : System) : List Action → System
  | [] => start
  | action :: actions => (after start actions).act action

def Legal (start : System) : List Action → Prop
  | [] => True
  | action :: actions => Legal start actions ∧ (after start actions).Admits action

theorem suffix_induction {motive : List Action → Prop} {first actions : List Action}
    (hsuffix : first <:+ actions) (now : motive first)
    (step : ∀ action earlier, first <:+ earlier → action :: earlier <:+ actions →
      motive earlier → motive (action :: earlier))
    : motive actions := by
  obtain ⟨later, rfl⟩ := hsuffix
  induction later with
  | nil => exact now
  | cons action later ih =>
    apply step action _ (List.suffix_append _ _) List.suffix_rfl
    apply ih
    exact fun action' earlier hearlier hsuffix => step action' earlier hearlier
      (hsuffix.trans (List.suffix_cons _ _))

/-!
## Fields
-/

section
variable (system : System)

theorem setServer_slots (c : Nat) (server : Server) (d : Nat) (flavor : Flavor)
    : (system.setServer c server).slots d flavor = system.slots d flavor := by
  unfold setServer slots link
  dsimp only
  rw [getD_modify]
  split <;> rfl

theorem slots_setSlots (c : Nat) (flavor : Flavor) (slots : Slots) (d : Nat) (other : Flavor)
    : (system.setSlots c flavor slots).slots d other =
        if c = d ∧ flavor = other ∧ c < system.links.length then slots
        else system.slots d other := by
  unfold setSlots System.slots link
  dsimp only
  rw [getD_modify]
  by_cases hflavor : flavor = other
  . subst hflavor
    by_cases h : c = d ∧ c < system.links.length
    . rw [if_pos h, if_pos ⟨h.1, rfl, h.2⟩, Pool.slots_setSlots_self]
    . rw [if_neg h, if_neg fun h' => h ⟨h'.1, h'.2.2⟩]
  . have hnot : ¬(c = d ∧ flavor = other ∧ c < system.links.length) := fun h => hflavor h.2.1
    rw [if_neg hnot]
    split
    . rw [Pool.slots_setSlots_of_ne _ _ hflavor]
    . rfl

theorem slots_setSlots_self {c : Nat} (flavor : Flavor) (slots : Slots)
    (h : c < system.links.length)
    : (system.setSlots c flavor slots).slots c flavor = slots := by
  rw [slots_setSlots, if_pos ⟨rfl, rfl, h⟩]

end

/-!
## Finding tasks
-/

theorem task?_id {system : System} {id : TaskId} {task : Task} (h : system.task? id = some task)
    : task.id = id := by
  have hid := List.find?_some h
  simpa using hid

theorem task?_map {change : Task → Task} (h : ∀ task, (change task).id = task.id)
    (system : System) (id : TaskId)
    : { system with tasks := system.tasks.map change }.task? id = (system.task? id).map change := by
  unfold task?
  dsimp only
  rw [List.find?_map]
  congr 2
  funext task
  rw [Function.comp_apply, h]

theorem task?_setTask (system : System) (task : Task) (id : TaskId)
    : (system.setTask task).task? id =
        (system.task? id).map fun other => if other.id = task.id then task else other := by
  apply task?_map
  intro other
  split
  . next h => exact h.symm
  . rfl

theorem task?_setTask_of_ne (system : System) {task : Task} {id : TaskId} (h : task.id ≠ id)
    : (system.setTask task).task? id = system.task? id := by
  rw [task?_setTask]
  cases hfound : system.task? id with
  | none => rfl
  | some other =>
    rw [Option.map_some, if_neg]
    rw [task?_id hfound]
    exact Ne.symm h

theorem task?_setTask_cases {system : System} {id : TaskId} {task next : Task}
    (h : (system.setTask next).task? id = some task)
    : next.id = id ∧ task = next ∨ next.id ≠ id ∧ system.task? id = some task := by
  by_cases hid : next.id = id
  . rw [task?_setTask, Option.map_eq_some_iff] at h
    obtain ⟨old, hold, heq⟩ := h
    rw [if_pos ((task?_id hold).trans hid.symm)] at heq
    exact .inl ⟨hid, heq.symm⟩
  . rw [task?_setTask_of_ne system hid] at h
    exact .inr ⟨hid, h⟩

theorem task?_setTask_stage {system : System} {task : Task} (h : system.task? task.id = some task)
    (stage : Stage)
    : (system.setTask { task with stage }).task? task.id = some { task with stage } := by
  rw [task?_setTask, h, Option.map_some, if_pos rfl]

theorem task?_removeTask_self (system : System) (id : TaskId)
    : (system.removeTask id).task? id = none := by
  unfold removeTask task?
  rw [List.find?_eq_none]
  intro task htask
  have hid := (List.mem_filter.1 htask).2
  simpa using hid

theorem task?_removeTask_of_ne (system : System) {id other : TaskId} (h : id ≠ other)
    : (system.removeTask id).task? other = system.task? other := by
  unfold removeTask task?
  dsimp only
  induction system.tasks with
  | nil => rfl
  | cons task tasks ih =>
    by_cases hid : task.id = id
    . have hother : task.id ≠ other := by
        rw [hid]
        exact h
      rw [List.filter_cons_of_neg (by simpa using hid),
        List.find?_cons_of_neg (by simpa using hother), ih]
    . rw [List.filter_cons_of_pos (by simpa using hid), List.find?_cons, List.find?_cons, ih]

end System

end MediaProxy
