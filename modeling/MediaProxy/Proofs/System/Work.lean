import MediaProxy.Proofs.System.Course
import MediaProxy.Proofs.System.Told

/-!
This module contains the work that the task of an operation does in a step, apart from telling its
result. A step is this work, and then the continuation is told what came of it.
-/

namespace MediaProxy

def Stage.isPassing : Stage → Bool
  | .waiting _ => true
  | .opening .. => true
  | .calling .. => true
  | _ => false

def Task.Fits (task : Task) : Prop :=
  match task.job with
  | .operate .. => task.stage = .fresh ∨ task.stage.isPassing
  | .ownPipeline _ => task.stage = .fresh
  | _ => True

theorem Task.fits_of_core_eq {first second : Task} (h : second.core = first.core)
    (hfits : first.Fits) : second.Fits := by
  have hjob : second.job = first.job := congrArg Prod.fst h
  have hstage : second.stage = first.stage := congrArg Prod.snd h
  unfold Task.Fits at *
  rw [hjob, hstage]
  exact hfits

theorem Task.fits_of_fresh {task : Task} (h : task.stage = .fresh) : task.Fits := by
  unfold Task.Fits
  rw [h]
  split <;> simp

theorem Task.Fits.fresh_or_passing {task : Task} (h : task.Fits) (hjob : task.job.isOperation)
    : task.stage = .fresh ∨ task.stage.isPassing := by
  unfold Task.Fits at h
  rcases Job.isOperation_cases hjob with ⟨o, operation, hkind⟩ | ⟨o, hkind⟩
  . rw [hkind] at h
    exact h
  . rw [hkind] at h
    exact .inl h

theorem Task.Fits.stage_ne_gathering {task : Task} (h : task.Fits) (hjob : task.job.isOperation)
    {pending : List TaskId} {report : Report} {next : Nat}
    : task.stage ≠ .gathering pending report next := by
  intro hstage
  rcases h.fresh_or_passing hjob with hfresh | hpassing
  . cases hfresh.symm.trans hstage
  . rw [hstage] at hpassing
    cases hpassing

theorem Stage.endless_of_passing {stage : Stage} (h : stage.isPassing) (hdue : stage.due? = none)
    : (∃ error, stage = .opening error none) ∨ ∃ reply, stage = .calling reply none := by
  cases stage with
  | waiting deadline => cases hdue
  | opening error due =>
    obtain rfl : due = none := hdue
    exact .inl ⟨error, rfl⟩
  | calling reply due =>
    obtain rfl : due = none := hdue
    exact .inr ⟨reply, rfl⟩
  | _ => cases h

inductive Store.Effect (before : Store) : Job → Except Error Value → Store → Prop where
  | answered {o : ObjectId} {operation : Operation} {result : Except Error Value} {after : Store}
    (h : before.start o operation = (.answered result, after)) :
    before.Effect (.operate o operation) result after
  | failed (o : ObjectId) (operation : Operation) (error : Error) :
    before.Effect (.operate o operation) (.error error) before
  | concluded (o : ObjectId) (operation : Operation) (outcome : Except RpcError Reply) :
    before.Effect (.operate o operation) (before.conclude o operation outcome).1
      (before.conclude o operation outcome).2
  | owned (o : ObjectId) :
    before.Effect (.ownPipeline o) (before.ownPipeline o).1 ((before.ownPipeline o).2.letGo o)

namespace System

abbrev Progress := Option (Except Error Value) × System

def Progress.told (task : Task) : Progress → System
  | (some result, system) => system.finish task (result.map .value)
  | (none, system) => system

section
variable (system : System) (task : Task) (o : ObjectId) (operation : Operation)

def workEnding (reply : Except RpcError Reply) : Progress :=
  let (result, system) := system.conclude .nonBlocking task.id o operation reply
  (some result, system)

def workCalling : Progress :=
  let object := system.store.object o
  let request := operation.request (system.store.context object.context).config
  let (reply, pace, system) :=
    system.ask object.context .nonBlocking task.id object.reference request
  let due := pace.due? system.now
  if system.reached due then system.workEnding task o operation reply
  else (none, system.park task (.calling reply due))

def workOpened (error : Option RpcError) : Progress :=
  let c := (system.store.object o).context
  match error with
  | none => (system.connect c .nonBlocking task.id).workCalling task o operation
  | some error =>
    (some (.error (.ofRpc error)), system.stepSlots c .nonBlocking (·.cancelOpening task.id))

def workOpening : Progress :=
  let c := (system.store.object o).context
  let (opening, server) := (system.link c).server.nextOpening
  let system := system.setServer c server
  let due := opening.pace.due? system.now
  if system.reached due then system.workOpened task o operation opening.error
  else (none, system.park task (.opening opening.error due))

def workRefused : Progress :=
  let c := (system.store.object o).context
  (some (.error ((system.link c).pool.exhausted .nonBlocking)),
    system.stepSlots c .nonBlocking (·.withdraw task.id))

def workGranted (deadline : Nat) : Grant → Progress
  | .lease => system.workCalling task o operation
  | .opening => system.workOpening task o operation
  | .full =>
    if deadline ≤ system.now then system.workRefused task o
    else (none, system.park task (.waiting deadline))

def workAsking (deadline : Nat) (ask : Slots → Grant × Slots) : Progress :=
  let c := (system.store.object o).context
  let (grant, slots) := ask (system.slots c .nonBlocking)
  (system.setSlots c .nonBlocking slots).workGranted task o operation deadline grant

def workOn : Progress :=
  let c := (system.store.object o).context
  match task.stage with
  | .fresh =>
    match system.store.start o operation with
    | (.answered result, store) => (some result, { system with store })
    | (.asks _, _) =>
      system.workAsking task o operation (system.now + (system.link c).pool.timeout)
        (·.ask task.id)
  | .waiting deadline =>
    if task.id ∈ (system.slots c .nonBlocking).woken then
      system.workAsking task o operation deadline (·.resume task.id)
    else if deadline ≤ system.now then system.workRefused task o
    else (none, system)
  | .opening error due =>
    if system.reached due then system.workOpened task o operation error else (none, system)
  | .calling reply due =>
    if system.reached due then system.workEnding task o operation reply else (none, system)
  | _ => (none, system)

end

def work (system : System) (task : Task) : Progress :=
  match task.job with
  | .operate o operation => system.workOn task o operation
  | .ownPipeline o =>
    let (result, store) := system.store.ownPipeline o
    (some result, { system with store := store.letGo o })
  | _ => (none, system)

/-!
## Steps
-/

section
variable {system : System} {task : Task} {o : ObjectId} {operation : Operation}

theorem complete_eq (h : task.job = .operate o operation) (reply : Except RpcError Reply)
    : system.complete task reply = (system.workEnding task o operation reply).told task := by
  unfold complete
  rw [h]
  rfl

theorem leased_eq (h : task.job = .operate o operation)
    : system.leased task = (system.workCalling task o operation).told task := by
  unfold leased workCalling
  rw [h]
  dsimp only
  unfold call
  rw [h]
  dsimp only [contextOf]
  split
  . rw [complete_eq h]
  . rfl

theorem opened_eq (h : task.job = .operate o operation) (error : Option RpcError)
    : system.opened task error = (system.workOpened task o operation error).told task := by
  unfold opened workOpened
  rw [h]
  dsimp only [contextOf]
  cases error with
  | none => rw [leased_eq h]
  | some error => rfl

theorem openConnection_eq (h : task.job = .operate o operation)
    : system.openConnection task = (system.workOpening task o operation).told task := by
  unfold openConnection workOpening
  rw [h]
  dsimp only [contextOf]
  split
  . rw [opened_eq h]
  . rfl

theorem refuse_eq (h : task.job = .operate o operation)
    : system.refuse task = (system.workRefused task o).told task := by
  unfold refuse workRefused
  rw [h]
  rfl

theorem granted_eq (h : task.job = .operate o operation) (deadline : Nat) (grant : Grant)
    : system.granted task deadline grant =
        (system.workGranted task o operation deadline grant).told task := by
  cases grant with
  | lease => exact leased_eq h
  | opening => exact openConnection_eq h
  | full =>
    unfold granted workGranted
    dsimp only
    split
    . exact refuse_eq h
    . rfl

theorem acquire_eq (h : task.job = .operate o operation)
    : system.acquire task =
        (system.workAsking task o operation
          (system.now + (system.link (system.store.object o).context).pool.timeout)
          (·.ask task.id)).told task := by
  unfold acquire workAsking
  rw [h]
  exact granted_eq h _ _

theorem acquireAgain_eq (h : task.job = .operate o operation) (deadline : Nat)
    : system.acquireAgain task deadline =
        (system.workAsking task o operation deadline (·.resume task.id)).told task := by
  unfold acquireAgain workAsking
  rw [h]
  exact granted_eq h _ _

theorem step_eq (tickFirst : Bool) (htask : system.task? task.id = some task)
    (hjob : task.job.isOperation) (hfits : task.Fits)
    : system.step tickFirst task.id = (system.work task).told task := by
  unfold step
  rw [htask]
  dsimp only
  unfold Task.Fits at hfits
  cases hkind : task.job with
  | operate o operation =>
    have hcontext : system.contextOf (.operate o operation) = (system.store.object o).context :=
      rfl
    rw [hcontext]
    rw [hkind] at hfits
    unfold work
    rw [hkind]
    unfold workOn
    dsimp only
    cases hstage : task.stage with
    | fresh =>
      unfold start
      rw [hkind]
      dsimp only
      generalize hstart : system.store.start o operation = began
      obtain ⟨result | request, store⟩ := began
      . rfl
      . dsimp only
        rw [(Store.start_asks hstart).1]
        exact acquire_eq hkind
    | waiting deadline =>
      dsimp only
      by_cases hwoken : task.id ∈ (system.slots (system.store.object o).context .nonBlocking).woken
      . rw [if_pos hwoken, if_pos hwoken]
        exact acquireAgain_eq hkind deadline
      . rw [if_neg hwoken, if_neg hwoken]
        split
        . exact refuse_eq hkind
        . rfl
    | opening error due =>
      dsimp only
      split
      . exact opened_eq hkind error
      . rfl
    | calling reply due =>
      dsimp only
      split
      . exact complete_eq hkind reply
      . rfl
    | _ =>
      rw [hstage] at hfits
      rcases hfits with hfresh | hpassing
      . cases hfresh
      . cases hpassing
  | ownPipeline o =>
    rw [hkind] at hfits
    rw [hfits]
    unfold start work
    rw [hkind]
    rfl
  | _ =>
    rw [hkind] at hjob
    cases hjob

end

/-!
## What work comes to
-/

inductive Works (before : System) (task : Task) : Progress → Prop where
  | idle (h : task.job.isOperation → task.stage ≠ .fresh) : before.Works task (none, before)
  | parked {middle : System} {o : ObjectId} {operation : Operation} (stage : Stage)
    (hjob : task.job = .operate o operation) (h : before.Untold middle)
    (hstore : middle.store = before.store) (hstage : stage.isPassing) :
    before.Works task (none, middle.park task stage)
  | ended {result : Except Error Value} {middle : System} (h : before.Untold middle)
    (heffect : before.store.Effect task.job result middle.store) :
    before.Works task (some result, middle)

section
variable {before system : System} {task : Task} {o : ObjectId} {operation : Operation}

theorem effect_conclude (hstore : system.store = before.store) (flavor : Flavor)
    (lease : Ticket) (reply : Except RpcError Reply)
    : before.store.Effect (.operate o operation)
        (system.conclude flavor lease o operation reply).1
        (system.conclude flavor lease o operation reply).2.store := by
  unfold conclude
  dsimp only
  rw [store_stepSlots, store_judge, hstore]
  apply Store.Effect.concluded

theorem works_ending (hjob : task.job = .operate o operation) (h : before.Untold system)
    (hstore : system.store = before.store) (reply : Except RpcError Reply)
    : before.Works task (system.workEnding task o operation reply) := by
  apply Works.ended (h.trans (system.untold_conclude _ _ _ _ _))
  rw [hjob]
  apply effect_conclude hstore

theorem works_calling (hjob : task.job = .operate o operation) (h : before.Untold system)
    (hstore : system.store = before.store)
    : before.Works task (system.workCalling task o operation) := by
  unfold workCalling
  dsimp only
  split
  . apply works_ending hjob (h.trans (system.untold_ask _ _ _ _ _)) hstore
  . exact .parked _ hjob (h.trans (system.untold_ask _ _ _ _ _)) hstore rfl

theorem works_opened (hjob : task.job = .operate o operation) (h : before.Untold system)
    (hstore : system.store = before.store) (error : Option RpcError)
    : before.Works task (system.workOpened task o operation error) := by
  cases error with
  | none => exact works_calling hjob (h.trans (system.untold_connect _ _ _)) hstore
  | some error =>
    apply Works.ended (h.trans (system.untold_stepSlots _ _ _))
    rw [hjob, store_stepSlots, hstore]
    apply Store.Effect.failed

theorem works_opening (hjob : task.job = .operate o operation) (h : before.Untold system)
    (hstore : system.store = before.store)
    : before.Works task (system.workOpening task o operation) := by
  unfold workOpening
  dsimp only
  split
  . apply works_opened hjob (h.trans (system.untold_setServer _ _)) hstore
  . exact .parked _ hjob (h.trans (system.untold_setServer _ _)) hstore rfl

theorem works_refused (hjob : task.job = .operate o operation) (h : before.Untold system)
    (hstore : system.store = before.store)
    : before.Works task (system.workRefused task o) := by
  apply Works.ended (h.trans (system.untold_stepSlots _ _ _))
  rw [hjob, store_stepSlots, hstore]
  apply Store.Effect.failed

theorem works_granted (hjob : task.job = .operate o operation) (h : before.Untold system)
    (hstore : system.store = before.store) (deadline : Nat) (grant : Grant)
    : before.Works task (system.workGranted task o operation deadline grant) := by
  cases grant with
  | lease => exact works_calling hjob h hstore
  | opening => exact works_opening hjob h hstore
  | full =>
    unfold workGranted
    dsimp only
    split
    . apply works_refused hjob h hstore
    . exact .parked _ hjob h hstore rfl

theorem works_asking (hjob : task.job = .operate o operation) (deadline : Nat)
    (ask : Slots → Grant × Slots)
    : before.Works task (before.workAsking task o operation deadline ask) :=
  works_granted hjob (before.untold_setSlots _ _ _) rfl _ _

theorem works_on (hjob : task.job = .operate o operation)
    : before.Works task (before.workOn task o operation) := by
  unfold workOn
  dsimp only
  split
  . split
    . next heq =>
      refine .ended ⟨rfl, rfl, rfl, rfl⟩ ?_
      rw [hjob]
      exact .answered heq
    . apply works_asking hjob
  . next hstage =>
    split
    . apply works_asking hjob
    . split
      . exact works_refused hjob (.refl before) rfl
      . exact .idle (by simp [hstage])
  . next hstage =>
    split
    . exact works_opened hjob (.refl before) rfl _
    . exact .idle (by simp [hstage])
  . next hstage =>
    split
    . exact works_ending hjob (.refl before) rfl _
    . exact .idle (by simp [hstage])
  . next hfresh _ _ _ => exact .idle fun _ => hfresh

theorem works_work (system : System) (task : Task) : system.Works task (system.work task) := by
  unfold work
  split
  . next hjob => exact works_on hjob
  . next hjob =>
    dsimp only
    refine .ended ⟨rfl, rfl, rfl, rfl⟩ ?_
    rw [hjob]
    apply Store.Effect.owned
  . next hoperate hown =>
    refine .idle fun hjob => ?_
    rcases Job.isOperation_cases hjob with ⟨o, operation, hkind⟩ | ⟨o, hkind⟩
    . exact absurd hkind (hoperate o operation)
    . exact absurd hkind (hown o)

theorem effect_operateBlocking (system : System) (o : ObjectId) (operation : Operation)
    : system.store.Effect (.operate o operation) (system.operateBlocking o operation).1
        (system.operateBlocking o operation).2.store := by
  unfold operateBlocking
  split
  . next heq => exact .answered heq
  . next heq =>
    obtain ⟨rfl, _⟩ := Store.start_asks heq
    dsimp only
    have hstore := system.store_acquireBlocking (system.store.object o).context
    generalize hacquire : system.acquireBlocking _ = acquired at hstore
    obtain ⟨error | lease, after⟩ := acquired
    . dsimp only at hstore ⊢
      rw [hstore]
      apply Store.Effect.failed
    . apply effect_conclude
      exact hstore

end

/-!
## Stages of operations
-/

section
variable {system after : System} {task next : Task}

theorem task?_park (h : system.task? task.id = some task) (stage : Stage)
    : (system.park task stage).task? task.id =
        some { task with stage, place := system.nextPlace } := by
  change (system.setTask { task with stage, place := system.nextPlace }).task? task.id = _
  rw [task?_setTask, h, Option.map_some, if_pos rfl]

theorem stage_of_park {stage : Stage} (h : (system.park task stage).task? task.id = some next)
    : next.stage = stage := by
  change (system.setTask { task with stage, place := system.nextPlace }).task? task.id = some next
    at h
  rcases task?_setTask_cases h with ⟨_, rfl⟩ | ⟨hne, _⟩
  . rfl
  . exact absurd rfl hne

inductive Steps (before : System) (task : Task) : System → Prop where
  | idle (hwork : (before.work task).1 = none) (h : task.job.isOperation → task.stage ≠ .fresh) :
    before.Steps task before
  | parked {middle : System} {o : ObjectId} {operation : Operation} (stage : Stage)
    (hwork : (before.work task).1 = none) (hjob : task.job = .operate o operation)
    (h : before.Untold middle) (hstore : middle.store = before.store) (hstage : stage.isPassing) :
    before.Steps task (middle.park task stage)
  | ended {result : Except Error Value} {middle : System}
    (hwork : (before.work task).1 = some result) (h : before.Untold middle)
    (heffect : before.store.Effect task.job result middle.store) :
    before.Steps task (middle.finish task (result.map .value))

theorem steps_told (system : System) (task : Task)
    : system.Steps task ((system.work task).told task) := by
  have hworks := system.works_work task
  generalize hprogress : system.work task = progress at hworks
  cases hworks with
  | idle h => exact .idle (congrArg Prod.fst hprogress) h
  | parked stage hjob h hstore hstage =>
    exact .parked stage (congrArg Prod.fst hprogress) hjob h hstore hstage
  | ended h heffect => exact .ended (congrArg Prod.fst hprogress) h heffect

theorem task?_steps (htask : system.task? task.id = some task) (h : system.Steps task after)
    (hnext : after.task? task.id = some next)
    : next = task ∧ (task.job.isOperation → task.stage ≠ .fresh) ∨
      ∃ o operation stage place, task.job = .operate o operation ∧ stage.isPassing ∧
        next = { task with stage, place } := by
  cases h with
  | idle _ hstage => exact .inl ⟨Option.some.inj (hnext.symm.trans htask), hstage⟩
  | @parked middle o operation stage _ hjob huntold _ hstage =>
    rw [task?_park (by rw [huntold.task?_eq]; exact htask)] at hnext
    exact .inr ⟨o, operation, stage, _, hjob, hstage, (Option.some.inj hnext).symm⟩
  | ended =>
    rw [task?_finish] at hnext
    cases hnext

def Fitting (system : System) : Prop :=
  ∀ id task, system.task? id = some task → task.Fits

theorem Fitting.step_eq (h : system.Fitting) {id : TaskId} {task : Task}
    (htask : system.task? id = some task) (hjob : task.job.isOperation) (tickFirst : Bool)
    : system.step tickFirst id = (system.work task).told task := by
  have hid := task?_id htask
  subst hid
  exact System.step_eq tickFirst htask hjob (h _ task htask)

theorem Fitting.steps (h : system.Fitting) {id : TaskId} {task : Task}
    (htask : system.task? id = some task) (hjob : task.job.isOperation) (tickFirst : Bool)
    : system.Steps task (system.step tickFirst id) := by
  rw [h.step_eq htask hjob tickFirst]
  apply steps_told

theorem fits_of_step (htask : system.task? task.id = some task) (hjob : task.job.isOperation)
    (hfits : task.Fits) (tickFirst : Bool)
    (hnext : (system.step tickFirst task.id).task? task.id = some next) : next.Fits := by
  rw [step_eq tickFirst htask hjob hfits] at hnext
  rcases task?_steps htask (system.steps_told task) hnext with
    ⟨rfl, _⟩ | ⟨o, operation, stage, place, hkind, hstage, rfl⟩
  . exact hfits
  . unfold Task.Fits
    dsimp only
    rw [hkind]
    exact .inr hstage

theorem fits_act {action : Action} (h : system.Admits action) {id : TaskId}
    (hfits : ∀ task, system.task? id = some task → task.Fits)
    (hnext : (system.act action).task? id = some next) : next.Fits := by
  rcases (changes_act h).origin hnext with
    ⟨old, hold, hcore⟩ | ⟨htasks, hjobs⟩ | ⟨_, hfresh⟩
  . exact Task.fits_of_core_eq hcore (hfits old hold)
  . -- The task went on with its job, and only by a step of its own can it be held up.
    cases action with
    | step tickFirst other =>
      have hid : id = other := htasks.1
      subst hid
      obtain ⟨task, htask, hjob⟩ := hjobs
      have heq := task?_id htask
      subst heq
      by_cases hop : task.job.isOperation
      . exact fits_of_step htask hop (hfits task htask) tickFirst hnext
      . unfold Task.Fits
        rw [← hjob]
        cases hkind : task.job <;> rw [hkind] at hop <;> trivial
    | stop other =>
      have hid : id = other := htasks.1
      subst hid
      obtain ⟨task, htask, hjob⟩ := hjobs
      obtain ⟨c, period, hschedule⟩ := h task htask
      unfold Task.Fits
      rw [← hjob, hschedule]
      trivial
    | drop => cases hjobs
    | shutdown => cases hjobs
    | line => cases hjobs
    | _ => cases htasks
  . exact Task.fits_of_fresh hfresh

theorem job_act {action : Action} (h : system.Admits action) {id : TaskId}
    (hid : id < system.nextTask) (hnext : (system.act action).task? id = some next)
    : ∃ task, system.task? id = some task ∧ next.job = task.job := by
  rcases (changes_act h).origin hnext with
    ⟨old, hold, hcore⟩ | ⟨htasks, hjobs⟩ | ⟨hle, _⟩
  . exact ⟨old, hold, congrArg Prod.fst hcore⟩
  . cases action with
    | step tickFirst other =>
      obtain ⟨task, htask, hjob⟩ := hjobs
      have heq : id = other := htasks.1
      rw [← heq] at htask
      exact ⟨task, htask, hjob.symm⟩
    | stop other =>
      obtain ⟨task, htask, hjob⟩ := hjobs
      have heq : id = other := htasks.1
      rw [← heq] at htask
      exact ⟨task, htask, hjob.symm⟩
    | drop => cases hjobs
    | shutdown => cases hjobs
    | line => cases hjobs
    | _ => cases htasks
  . exact absurd hid (Nat.not_lt_of_le hle)

theorem Fitting.act (h : system.Fitting) {action : Action} (hadmits : system.Admits action)
    : (system.act action).Fitting :=
  fun id _ hnext => fits_act hadmits (h id) hnext

end

theorem Fitting.after {start : System} {actions : List Action} (h : start.Fitting)
    (hlegal : Legal start actions) : (start.after actions).Fitting := by
  induction actions with
  | nil => exact h
  | cons action actions ih => exact (ih hlegal.1).act hlegal.2

/-!
## Runs
-/

structure Enlisted (system : System) (id : TaskId) (job : Job) : Prop where
  id_lt : id < system.nextTask
  task : ∀ task, system.task? id = some task → task.job = job ∧ task.Fits

theorem Enlisted.act {system : System} {id : TaskId} {job : Job} (h : system.Enlisted id job)
    {action : Action} (hadmits : system.Admits action) : (system.act action).Enlisted id job := by
  refine ⟨Nat.lt_of_lt_of_le h.id_lt (changes_act hadmits).grows.nextTask_le, ?_⟩
  intro next hnext
  obtain ⟨task, htask, hjob⟩ := job_act hadmits h.id_lt hnext
  rw [hjob]
  exact ⟨(h.task task htask).1, fits_act hadmits (fun task htask => (h.task task htask).2) hnext⟩

theorem Enlisted.after {start : System} {id : TaskId} {job : Job} (h : start.Enlisted id job)
    {actions : List Action} (hlegal : Legal start actions)
    : (start.after actions).Enlisted id job := by
  induction actions with
  | nil => exact h
  | cons action actions ih => exact (ih hlegal.1).act hlegal.2

theorem Sound.enlisted {system start : System} {job : Job} {continuation : Continuation}
    {name : String} {id : TaskId} (h : system.Sound)
    (hspawn : system.spawn job continuation name = (id, start)) : start.Enlisted id job := by
  have hid := system.fst_spawn job continuation name
  have hnext := system.nextTask_spawn job continuation name
  have htask := task?_spawn h job continuation name
  rw [hspawn] at hid hnext htask
  dsimp only at hid hnext htask
  refine ⟨by rw [hid, hnext]; apply Nat.lt_succ_self, ?_⟩
  intro task hfound
  rw [hfound] at htask
  split at htask
  . cases htask
    exact ⟨rfl, Task.fits_of_fresh rfl⟩
  . cases htask

inductive Ends (start : System) (id : TaskId) : List Action → Except Error Value → Prop where
  | ran {tickFirst : Bool} {earlier : List Action} {task : Task} {result : Except Error Value}
    (htask : (start.after earlier).task? id = some task)
    (h : ((start.after earlier).work task).1 = some result) :
    start.Ends id (.step tickFirst id :: earlier) result
  | dropped {earlier : List Action} {task : Task}
    (htask : (start.after earlier).task? id = some task) :
    start.Ends id (.drop id :: earlier) (.error .abandoned)
  | shutDown {earlier : List Action} {task : Task}
    (htask : (start.after earlier).task? id = some task) :
    start.Ends id (.shutdown :: earlier) (.error .abandoned)

theorem Ends.alive {start : System} {id : TaskId} {action : Action} {earlier : List Action}
    {result : Except Error Value} (h : start.Ends id (action :: earlier) result)
    : ∃ task, (start.after earlier).task? id = some task := by
  cases h with
  | ran htask => exact ⟨_, htask⟩
  | dropped htask => exact ⟨_, htask⟩
  | shutDown htask => exact ⟨_, htask⟩

theorem Enlisted.step_eq {system : System} {id : TaskId} {job : Job} (h : system.Enlisted id job)
    (hjob : job.isOperation) {task : Task} (htask : system.task? id = some task) (tickFirst : Bool)
    : system.step tickFirst id = (system.work task).told task := by
  have hid := task?_id htask
  subst hid
  obtain ⟨rfl, hfits⟩ := h.task task htask
  exact System.step_eq tickFirst htask hjob hfits

theorem Enlisted.steps {system : System} {id : TaskId} {job : Job} (h : system.Enlisted id job)
    (hjob : job.isOperation) {task : Task} (htask : system.task? id = some task) (tickFirst : Bool)
    : system.Steps task (system.step tickFirst id) := by
  rw [h.step_eq hjob htask tickFirst]
  apply steps_told

theorem Ends.gone {start : System} {id : TaskId} {job : Job} {actions : List Action}
    {result : Except Error Value} (h : start.Enlisted id job) (hjob : job.isOperation)
    (hlegal : Legal start actions) (hends : start.Ends id actions result)
    : (start.after actions).task? id = none := by
  cases hends with
  | dropped => exact task?_dropTask _ id
  | shutDown => exact task?_shutdown _ id (h.after hlegal.1).id_lt
  | @ran tickFirst earlier task _ htask hwork =>
    have hsteps := (h.after hlegal.1).steps hjob htask tickFirst
    have hid := task?_id htask
    change ((start.after earlier).step tickFirst id).task? id = none
    generalize (start.after earlier).step tickFirst id = after at hsteps
    cases hsteps with
    | idle hnone => cases hnone.symm.trans hwork
    | parked _ hnone => cases hnone.symm.trans hwork
    | @ended _ middle =>
      rw [← hid]
      apply task?_finish middle task

end System

end MediaProxy
