import MediaProxy.Proofs.System.Failure

/-!
This module contains what becomes of the continuation of an operation: it takes the result that the task
of the operation came to, or a cancellation if the task is dropped, and takes it once.
-/

namespace MediaProxy

namespace Handler

def notes (result : Except Error Outcome) : Handler → List (Except Error Outcome)
  | .channel _ => []
  | _ => [result]

def letters (result : Except Error Outcome) : Handler → List (Except Error Outcome)
  | .channel true => [result]
  | _ => []

end Handler

namespace System

section
variable (system : System) (id : TaskId)

theorem resolve_kept (name : String) (result : Except Error Outcome)
    : ∃ ready, system.resolve id name { handler := .channel true } result =
        { system with inbox := system.inbox ++ [(id, result)], ready } := by
  unfold resolve
  dsimp only [Continuation.resolve, Handler.react]
  rw [if_neg (by decide)]
  dsimp only
  rw [if_pos rfl]
  dsimp only
  split
  . exact ⟨system.ready, rfl⟩
  . next waiter _ =>
    obtain ⟨ready, hwake, _⟩ := wake_eq { system with inbox := system.inbox ++ [(id, result)] }
      waiter.id
    exact ⟨ready, hwake⟩

theorem noted_resolve (name : String) (handler : Handler) (result : Except Error Outcome)
    : (system.resolve id name { handler } result).noted id =
        handler.notes result ++ system.noted id := by
  have hnoted := (system.noted_note system.now id name result id).trans (if_pos rfl)
  cases handler with
  | callback => exact hnoted
  | parts => cases result <;> exact hnoted
  | channel kept =>
    cases kept with
    | false => rfl
    | true =>
      obtain ⟨ready, hresolve⟩ := system.resolve_kept id name result
      rw [hresolve]
      rfl

theorem letters_resolve (name : String) (handler : Handler) (result : Except Error Outcome)
    : (system.resolve id name { handler } result).letters id =
        system.letters id ++ handler.letters result := by
  cases handler with
  | callback => exact (List.append_nil _).symm
  | parts => cases result <;> exact (List.append_nil _).symm
  | channel kept =>
    cases kept with
    | false => exact (List.append_nil _).symm
    | true =>
      obtain ⟨ready, hresolve⟩ := system.resolve_kept id name result
      rw [hresolve]
      exact (system.letters_append id result id).trans (if_pos rfl)

/-!
## Those who listen
-/

theorem noted_ignore (other : TaskId) : (system.ignore id).noted other = system.noted other := by
  unfold ignore
  dsimp only
  split <;> rfl

theorem letters_ignore (other : TaskId)
    : (system.ignore id).letters other = if id = other then [] else system.letters other := by
  have hhead := system.head?_letters id
  unfold ignore
  dsimp only
  split
  . next hnone =>
    rw [hnone, List.head?_eq_none_iff] at hhead
    split
    . next heq =>
      rw [← heq]
      exact hhead
    . rfl
  . exact system.letters_filter id other

theorem task?_ignore (other : TaskId)
    : (system.ignore id).task? other =
        (system.task? other).map fun task => if task.id = id then task.unheard else task := by
  have hunheard := system.task?_unheard id other
  unfold ignore
  dsimp only
  split <;> exact hunheard

theorem letters_collect (other : TaskId)
    : (system.act (.collect id)).letters other =
        if id = other then [] else system.letters other := by
  have hhead := system.head?_letters id
  unfold act collect?
  dsimp only
  cases hlookup : system.inbox.lookup id with
  | none =>
    rw [hlookup, List.head?_eq_none_iff] at hhead
    rw [Option.map_none, Option.map_none, Option.getD_none]
    split
    . next heq =>
      rw [← heq]
      exact hhead
    . rfl
  | some result => exact system.letters_filter id other

theorem act_collect
    : ∃ inbox, system.act (.collect id) = { system with inbox } := by
  unfold act collect?
  dsimp only
  cases system.inbox.lookup id with
  | none => exact ⟨system.inbox, rfl⟩
  | some result => exact ⟨_, rfl⟩

end

/-!
## Results that are nobody else's business
-/

def Private (system : System) (id : TaskId) : Prop :=
  ∀ task ∈ system.tasks, id ∉ task.stage.pending

section
variable {scope : Scope} {id : TaskId} {system before after : System}

theorem Private.not_pending (h : system.Private id) {other : TaskId} {task : Task}
    (htask : system.task? other = some task) : id ∉ task.stage.pending :=
  h task (List.mem_of_find?_eq_some htask)

theorem private_map {change : Task → Task}
    (hchange : ∀ task ∈ before.tasks, id ∉ (change task).stage.pending)
    : { before with tasks := before.tasks.map change }.Private id := by
  intro task htask
  obtain ⟨old, hold, rfl⟩ := List.mem_map.1 htask
  exact hchange old hold

theorem Private.change (h : before.Private id) (hchange : before.Change scope after)
    (hleaves : ¬before.Leaves scope id) : after.Private id := by
  cases hchange with
  | setTask task _ hpending =>
    apply private_map
    intro other hother
    split
    . exact fun hid => hleaves (hpending id hid)
    . exact h other hother
  | unheard other =>
    apply private_map
    intro task htask
    split <;> exact h task htask
  | removeTask other => exact fun task htask => h task (List.mem_filter.1 htask).1
  | start task ready _ hstage =>
    intro other hother
    rcases List.mem_append.1 hother with hold | hnew
    . exact h other hold
    . rw [List.mem_singleton.1 hnew, hstage]
      exact List.not_mem_nil
  | number hsaid =>
    unfold Private
    rw [hsaid.same.tasks_eq]
    exact h
  | tell other _ _ hsaid =>
    unfold Private
    rw [hsaid.same.tasks_eq]
    exact h
  | _ => exact h

theorem Private.changes (h : before.Private id) (hchanges : before.Changes scope after)
    (hresults : ¬scope.results id) (hid : id < scope.first ∨ after.nextTask ≤ id)
    : after.Private id := by
  induction hchanges with
  | refl => exact h
  | @step middle after hearlier hchange ih =>
    have hmiddle := hid.imp_right (Nat.le_trans hchange.grows.nextTask_le)
    exact (ih hmiddle).change hchange (not_leaves hresults hmiddle)

theorem private_ignore (h : system.Private id) (other : TaskId)
    : (system.ignore other).Private id := by
  have hunheard : { system with
      tasks := system.tasks.map fun task : Task =>
        if task.id = other then task.unheard else task }.Private id := by
    apply private_map
    intro task htask
    split <;> exact h task htask
  unfold ignore
  dsimp only
  split <;> exact hunheard

theorem private_collect (h : system.Private id) (other : TaskId)
    : (system.act (.collect other)).Private id := by
  obtain ⟨inbox, hcollect⟩ := system.act_collect other
  rw [hcollect]
  exact h

theorem private_dropTask (h : system.Private id) (hid : id < system.nextTask) (other : TaskId)
    : (system.dropTask other).Private id := by
  apply h.changes (system.changes_drop other) _ (.inl hid)
  rintro ⟨task, htask, hpending⟩
  exact h.not_pending htask hpending

theorem private_act (h : system.Private id) (hid : id < system.nextTask) {action : Action}
    (hadmits : system.Admits action) : (system.act action).Private id := by
  have hchanges := changes_act hadmits
  cases action with
  | shutdown =>
    have hall : id < system.shutdown.nextTask ∧ system.shutdown.Private id := by
      apply shutdown_induction (motive := fun middle => id < middle.nextTask ∧ middle.Private id)
      . exact ⟨hid, h⟩
      . intro other middle ⟨hlt, hmiddle⟩
        exact ⟨Nat.lt_of_lt_of_le hlt (middle.changes_drop other).grows.nextTask_le,
          private_dropTask hmiddle hlt other⟩
      . exact fun _ hmiddle => hmiddle
    exact hall.2
  | ignore other => exact private_ignore h other
  | collect other => exact private_collect h other
  | step tickFirst other =>
    apply h.changes hchanges _ (.inl hid)
    rintro ⟨task, htask, hpending⟩
    exact h.not_pending htask hpending
  | drop other => exact private_dropTask h hid other
  | stop other =>
    apply h.changes hchanges _ (.inl hid)
    rintro ⟨task, htask, hpending⟩
    exact h.not_pending htask hpending
  | _ => exact h.changes hchanges not_false (.inl hid)

structure Untouched (system : System) (id : TaskId) : Prop where
  noted_eq : system.noted id = []
  letters_eq : system.letters id = []
  isPrivate : system.Private id

def Numbered (system : System) : Prop :=
  ∀ id, system.nextTask ≤ id → system.Untouched id

theorem Numbered.pending_lt (h : system.Numbered) {other : TaskId} {task : Task}
    (htask : system.task? other = some task) (hpending : id ∈ task.stage.pending)
    : id < system.nextTask := by
  apply Nat.lt_of_not_le
  intro hle
  exact (h id hle).isPrivate.not_pending htask hpending

theorem Numbered.changes (h : before.Numbered) (hchanges : before.Changes scope after)
    (htasks : ∀ id, scope.tasks id → id < before.nextTask)
    (hresults : ∀ id, scope.results id → id < before.nextTask) : after.Numbered := by
  intro id hid
  have hle := Nat.le_trans hchanges.grows.nextTask_le hid
  have hresults : ¬scope.results id := fun hresult => Nat.not_le_of_lt (hresults id hresult) hle
  have hunmoved := hchanges.unmoved (fun htask => Nat.not_le_of_lt (htasks id htask) hle) hresults
    (.inr hid)
  obtain ⟨hnoted, hletters, hprivate⟩ := h id hle
  exact ⟨hunmoved.noted_eq.trans hnoted, hunmoved.letters_eq.trans hletters,
    hprivate.changes hchanges hresults (.inr hid)⟩

theorem Numbered.setReady (h : system.Numbered) (running : Bool) (ready : List TaskId)
    : { system with running, ready }.Numbered :=
  fun id hid => ⟨(h id hid).noted_eq, (h id hid).letters_eq, (h id hid).isPrivate⟩

theorem Numbered.dropTask (h : system.Numbered) (hsound : system.Sound) (other : TaskId)
    : (system.dropTask other).Numbered := by
  apply h.changes (system.changes_drop other)
  . rintro id ⟨rfl, task, htask⟩
    exact hsound.lt_of_task? htask
  . rintro id ⟨task, htask, hpending⟩
    exact h.pending_lt htask hpending

theorem Numbered.act (h : system.Numbered) (hsound : system.Sound) {action : Action}
    (hadmits : system.Admits action) (hshutdown : action ≠ .shutdown)
    : (system.act action).Numbered := by
  have hchanges := changes_act hadmits
  cases action with
  | shutdown => exact absurd rfl hshutdown
  | line => exact h.setReady _ _
  | ignore other =>
    intro id hid
    have hle := Nat.le_trans hchanges.grows.nextTask_le hid
    refine ⟨(system.noted_ignore other id).trans (h id hle).noted_eq, ?_,
      private_ignore (h id hle).isPrivate other⟩
    change (system.ignore other).letters id = []
    rw [letters_ignore, (h id hle).letters_eq, ite_self]
  | collect other =>
    intro id hid
    have hle := Nat.le_trans hchanges.grows.nextTask_le hid
    obtain ⟨inbox, hcollect⟩ := system.act_collect other
    refine ⟨?_, ?_, private_collect (h id hle).isPrivate other⟩
    . rw [hcollect]
      exact (h id hle).noted_eq
    . rw [letters_collect, (h id hle).letters_eq, ite_self]
  | drop other => exact h.dropTask hsound other
  | step tickFirst other =>
    apply h.changes hchanges
    . rintro id ⟨rfl, task, htask⟩
      exact hsound.lt_of_task? htask
    . rintro id ⟨task, htask, hpending⟩
      exact h.pending_lt htask hpending
  | stop other =>
    apply h.changes hchanges
    . rintro id ⟨rfl, task, htask⟩
      exact hsound.lt_of_task? htask
    . rintro id ⟨task, htask, hpending⟩
      exact h.pending_lt htask hpending
  | _ => exact h.changes hchanges (fun _ => False.elim) (fun _ => False.elim)

end

/-!
## Telling a result
-/

structure Expects (system : System) (id : TaskId) (handler : Handler) (task : Task) : Prop where
  task?_eq : system.task? id = some task
  background : task.foreground = false
  continuation_eq : task.continuation = { handler }
  noted_eq : system.noted id = []
  letters_eq : system.letters id = []

structure Heard (system : System) (id : TaskId) (handler : Handler)
    (result : Except Error Outcome) : Prop where
  task?_eq : system.task? id = none
  noted_eq : system.noted id = handler.notes result
  letters_eq : system.letters id = handler.letters result

section
variable {system before after : System} {id : TaskId} {handler : Handler} {task : Task}
  {result : Except Error Outcome}

theorem Expects.unmoved (h : before.Expects id handler task) (hunmoved : Unmoved id before after)
    : after.Expects id handler task :=
  ⟨hunmoved.task?_eq.trans h.task?_eq, h.background, h.continuation_eq,
    hunmoved.noted_eq.trans h.noted_eq, hunmoved.letters_eq.trans h.letters_eq⟩

theorem Heard.unmoved (h : before.Heard id handler result) (hunmoved : Unmoved id before after)
    : after.Heard id handler result :=
  ⟨hunmoved.task?_eq.trans h.task?_eq, hunmoved.noted_eq.trans h.noted_eq,
    hunmoved.letters_eq.trans h.letters_eq⟩

theorem heard_resolve (hnone : system.task? id = none) (hnoted : system.noted id = [])
    (hletters : system.letters id = []) (name : String) (handler : Handler)
    (result : Except Error Outcome)
    : (system.resolve id name { handler } result).Heard id handler result := by
  refine ⟨(system.task?_resolve _ _ _ _ id).trans hnone, ?_, ?_⟩
  . rw [noted_resolve, hnoted, List.append_nil]
  . rw [letters_resolve, hletters, List.nil_append]

theorem Expects.finish (h : system.Expects id handler task) (result : Except Error Outcome)
    : (system.finish task result).Heard id handler result := by
  obtain ⟨htask, _, hcontinuation, hnoted, hletters⟩ := h
  have hid := task?_id htask
  subst hid
  unfold System.finish
  rw [hcontinuation]
  exact heard_resolve (system.task?_removeTask_self task.id) hnoted hletters _ _ _

theorem Untold.unmoved (h : before.Untold after) (id : TaskId) : Unmoved id before after :=
  ⟨h.task?_eq id, by rw [h.noted_eq], h.letters_eq id⟩

theorem Expects.step {job : Job} (h : system.Expects id handler task)
    (henlisted : system.Enlisted id job) (hjob : job.isOperation) (tickFirst : Bool)
    : (∃ next, (system.step tickFirst id).Expects id handler next) ∨
      ∃ result, (system.work task).1 = some result ∧
        (system.step tickFirst id).Heard id handler (result.map .value) := by
  have hsteps := henlisted.steps hjob h.task?_eq tickFirst
  generalize system.step tickFirst id = after at hsteps
  cases hsteps with
  | idle => exact .inl ⟨task, h⟩
  | @parked middle o operation stage _ _ huntold =>
    have hmiddle := h.unmoved (huntold.unmoved id)
    have hid := task?_id h.task?_eq
    subst hid
    exact .inl ⟨_, task?_park hmiddle.task?_eq stage, h.background, h.continuation_eq,
      hmiddle.noted_eq, hmiddle.letters_eq⟩
  | @ended result middle hwork huntold =>
    exact .inr ⟨result, hwork, (h.unmoved (huntold.unmoved id)).finish (result.map .value)⟩

theorem Expects.dropTask (h : system.Expects id handler task) (hjob : task.job.isOperation)
    (hpending : id ∉ task.stage.pending) (hid : id < system.nextTask)
    : (system.dropTask id).Heard id handler (.error .abandoned) := by
  -- What the task holds is given back before its continuation is told.
  have hgiveUp : system.Changes
      { tickets := fun _ => True
        queues := fun _ => True
        results := (· ∈ task.stage.pending)
        first := system.nextTask } (system.giveUp task) :=
    system.changes_giveUp trivial (fun _ _ => trivial) fun _ hpending => hpending
  have hunmoved := hgiveUp.unmoved not_false hpending (.inl ⟨hid, hid⟩)
  obtain ⟨_, _, hcontinuation, hnoted, hletters⟩ := h.unmoved hunmoved
  have hresolve := heard_resolve ((system.giveUp task).task?_removeTask_self id) hnoted hletters
    task.name handler (.error .abandoned)
  unfold System.dropTask
  rw [h.task?_eq]
  dsimp only
  rw [hcontinuation]
  rcases Job.isOperation_cases hjob with ⟨o, operation, hkind⟩ | ⟨o, hkind⟩
  . rw [hkind]
    exact hresolve
  . rw [hkind]
    exact hresolve

theorem unmoved_dropTask (hprivate : system.Private id) (hid : id < system.nextTask)
    {other : TaskId} (h : id ≠ other ∨ system.task? id = none)
    : Unmoved id system (system.dropTask other) := by
  apply (system.changes_drop other).unmoved _ _ (.inl ⟨hid, hid⟩)
  . rintro ⟨rfl, task, htask⟩
    cases (h.resolve_left fun hne => hne rfl).symm.trans htask
  . rintro ⟨task, htask, hpending⟩
    exact hprivate.not_pending htask hpending

theorem unmoved_shutdown (hprivate : system.Private id) (hid : id < system.nextTask)
    (h : system.task? id = none) : Unmoved id system system.shutdown := by
  have hall : id < system.shutdown.nextTask ∧ system.shutdown.Private id ∧
      Unmoved id system system.shutdown := by
    apply shutdown_induction (motive := fun middle =>
      id < middle.nextTask ∧ middle.Private id ∧ Unmoved id system middle)
    . exact ⟨hid, hprivate, rfl, rfl, rfl⟩
    . intro other middle ⟨hlt, hprivate, hmiddle⟩
      have hnone := hmiddle.task?_eq.trans h
      exact ⟨Nat.lt_of_lt_of_le hlt (middle.changes_drop other).grows.nextTask_le,
        private_dropTask hprivate hlt other,
        hmiddle.trans (unmoved_dropTask hprivate hlt (.inr hnone))⟩
    . exact fun _ ⟨hlt, hprivate, hmiddle⟩ =>
        ⟨hlt, hprivate, hmiddle.trans ⟨rfl, rfl, rfl⟩⟩
  exact hall.2.2

theorem Expects.shutdown (h : system.Expects id handler task) (hjob : task.job.isOperation)
    (hprivate : system.Private id) (hid : id < system.nextTask)
    : system.shutdown.Heard id handler (.error .abandoned) := by
  -- The task is there until its turn comes to be dropped, and gone ever since.
  have hall : id < system.shutdown.nextTask ∧ system.shutdown.Private id ∧
      (system.shutdown.Expects id handler task ∨
        system.shutdown.Heard id handler (.error .abandoned)) := by
    apply shutdown_induction (motive := fun middle =>
      id < middle.nextTask ∧ middle.Private id ∧
        (middle.Expects id handler task ∨ middle.Heard id handler (.error .abandoned)))
    . exact ⟨hid, hprivate, .inl (h.unmoved ⟨rfl, rfl, rfl⟩)⟩
    . intro other middle ⟨hlt, hprivate, hmiddle⟩
      refine ⟨Nat.lt_of_lt_of_le hlt (middle.changes_drop other).grows.nextTask_le,
        private_dropTask hprivate hlt other, ?_⟩
      rcases hmiddle with hexpects | hheard
      . by_cases hother : id = other
        . subst hother
          exact .inr (hexpects.dropTask hjob (hprivate.not_pending hexpects.task?_eq) hlt)
        . exact .inl (hexpects.unmoved (unmoved_dropTask hprivate hlt (.inl hother)))
      . exact .inr (hheard.unmoved (unmoved_dropTask hprivate hlt (.inr hheard.task?_eq)))
    . exact fun _ ⟨hlt, hprivate, hmiddle⟩ =>
        ⟨hlt, hprivate, hmiddle.imp (·.unmoved ⟨rfl, rfl, rfl⟩) (·.unmoved ⟨rfl, rfl, rfl⟩)⟩
  apply hall.2.2.resolve_left
  intro hexpects
  cases hexpects.task?_eq.symm.trans (system.task?_shutdown id hid)

theorem unmoved_act {action : Action} (hadmits : system.Admits action)
    (hprivate : system.Private id) (hid : id < system.nextTask)
    (hjob : ∀ task, system.task? id = some task → task.job.isOperation)
    (hconcerns : action.concerns id → system.task? id = none) (hignore : action ≠ .ignore id)
    (hcollect : action ≠ .collect id) : Unmoved id system (system.act action) := by
  have hchanges := changes_act hadmits
  cases action with
  | step tickFirst other =>
    apply hchanges.unmoved _ _ (.inl ⟨hid, hid⟩)
    . rintro ⟨rfl, task, htask⟩
      cases (hconcerns rfl).symm.trans htask
    . rintro ⟨task, htask, hpending⟩
      exact hprivate.not_pending htask hpending
  | drop other =>
    apply unmoved_dropTask hprivate hid
    by_cases hother : id = other
    . exact .inr (hconcerns hother.symm)
    . exact .inl hother
  | stop other =>
    apply hchanges.unmoved _ _ (.inl ⟨hid, hid⟩)
    . rintro ⟨rfl, task, htask⟩
      obtain ⟨c, period, hschedule⟩ := hadmits task htask
      have hoperation := hjob task htask
      rw [hschedule] at hoperation
      cases hoperation
    . rintro ⟨task, htask, hpending⟩
      exact hprivate.not_pending htask hpending
  | shutdown => exact unmoved_shutdown hprivate hid (hconcerns trivial)
  | line => exact ⟨rfl, rfl, rfl⟩
  | ignore other =>
    refine hchanges.unmoved not_false ?_ (.inl ⟨hid, hid⟩)
    intro heq
    obtain rfl : id = other := heq
    exact hignore rfl
  | collect other =>
    refine hchanges.unmoved not_false ?_ (.inl ⟨hid, hid⟩)
    intro heq
    obtain rfl : id = other := heq
    exact hcollect rfl
  | _ => exact hchanges.unmoved not_false not_false (.inl ⟨hid, hid⟩)

end

/-!
## Runs
-/

def Action.ignores (id : TaskId) : Action → Bool
  | .ignore other => other = id
  | _ => false

def ignored (id : TaskId) (actions : List Action) : Bool :=
  actions.any (·.ignores id)

def received (start : System) (id : TaskId) : List Action → List (Except Error Outcome)
  | [] => []
  | .collect other :: actions =>
    if other = id then
      start.received id actions ++ ((start.after actions).collect? id).toList.map (·.1)
    else start.received id actions
  | _ :: actions => start.received id actions

inductive Comes (start : System) (id : TaskId) (actions : List Action) :
    Except Error Value → Prop where
  | ended {past : List Action} {result : Except Error Value} (hsuffix : past <:+ actions)
    (h : start.Ends id past result) :
    start.Comes id actions result
  | never (h : start.task? id = none) : start.Comes id actions (.error .abandoned)

structure Answered (start : System) (id : TaskId) (handler : Handler) (actions : List Action)
    (result : Except Error Value) : Prop where
  comes : start.Comes id actions result
  task?_eq : (start.after actions).task? id = none
  noted_eq : (start.after actions).noted id = handler.notes (result.map .value)
  letters_sublist : (start.received id actions ++ (start.after actions).letters id).Sublist
    (handler.letters (result.map .value))
  letters_eq : ignored id actions = false →
    start.received id actions ++ (start.after actions).letters id =
      handler.letters (result.map .value)

inductive Post (start : System) (id : TaskId) (handler : Handler) (actions : List Action) : Prop where
  | expecting (task : Task)
    (h : (start.after actions).Expects id (if ignored id actions then .channel false else handler)
      task)
    (hreceived : start.received id actions = []) :
    start.Post id handler actions
  | answered (result : Except Error Value) (h : start.Answered id handler actions result) :
    start.Post id handler actions

structure Issues (system : System) (job : Job) (continuation : Continuation) (id : TaskId)
    (start : System) : Prop where
  isOperation : job.isOperation
  resolved_eq : continuation.resolved = false
  spawn_eq : ∃ name, system.spawn job continuation name = (id, start)

section
variable {start : System} {id : TaskId} {handler : Handler} {action : Action}
  {actions : List Action}

theorem ignored_cons (h : action ≠ .ignore id)
    : ignored id (action :: actions) = ignored id actions := by
  cases action with
  | ignore other =>
    have hother : other ≠ id := fun heq => h (heq ▸ rfl)
    simp [ignored, Action.ignores, hother]
  | _ => rfl

theorem ignored_ignore : ignored id (.ignore id :: actions) = true := by
  simp [ignored, Action.ignores]

theorem received_cons (h : action ≠ .collect id)
    : start.received id (action :: actions) = start.received id actions := by
  cases action with
  | collect other =>
    have hother : other ≠ id := fun heq => h (heq ▸ rfl)
    exact if_neg hother
  | _ => rfl

theorem received_collect
    : start.received id (.collect id :: actions) =
        start.received id actions ++ ((start.after actions).letters id).head?.toList := by
  rw [head?_letters]
  apply (if_pos rfl).trans
  unfold collect?
  cases (start.after actions).inbox.lookup id <;> rfl

theorem Comes.cons {result : Except Error Value} (h : start.Comes id actions result)
    (action : Action) : start.Comes id (action :: actions) result := by
  cases h with
  | ended hsuffix hends => exact .ended (hsuffix.trans (List.suffix_cons action actions)) hends
  | never hnone => exact .never hnone

theorem Post.of_heard {result : Except Error Value} (hcomes : start.Comes id actions result)
    (h : (start.after actions).Heard id (if ignored id actions then .channel false else handler)
      (result.map .value))
    (hreceived : start.received id actions = [])
    (hchannel : (∃ kept, handler = .channel kept) ∨ ignored id actions = false)
    : start.Post id handler actions := by
  obtain ⟨hnone, hnoted, hletters⟩ := h
  cases hignored : ignored id actions with
  | true =>
    rw [hignored, if_pos rfl] at hnoted hletters
    obtain ⟨kept, rfl⟩ := hchannel.resolve_right (by simp [hignored])
    refine .answered result ⟨hcomes, hnone, hnoted, ?_, by simp [hignored]⟩
    rw [hreceived, hletters]
    apply List.nil_sublist
  | false =>
    rw [hignored, if_neg Bool.false_ne_true] at hnoted hletters
    have hall : start.received id actions ++ (start.after actions).letters id =
        handler.letters (result.map .value) := by
      rw [hreceived, hletters, List.nil_append]
    exact .answered result ⟨hcomes, hnone, hnoted, hall ▸ List.Sublist.refl _, fun _ => hall⟩

theorem Post.ignore (h : start.Post id handler actions)
    : start.Post id handler (.ignore id :: actions) := by
  have hnoted := (start.after actions).noted_ignore id id
  have hletters := ((start.after actions).letters_ignore id id).trans (if_pos rfl)
  have htask := (start.after actions).task?_ignore id id
  cases h with
  | expecting task hexpects hreceived =>
    refine .expecting task.unheard ?_ hreceived
    rw [hexpects.task?_eq, Option.map_some, if_pos (task?_id hexpects.task?_eq)] at htask
    rw [ignored_ignore, if_pos rfl]
    refine ⟨htask, hexpects.background, ?_, hnoted.trans hexpects.noted_eq, hletters⟩
    unfold Task.unheard
    rw [hexpects.continuation_eq]
  | answered result hanswered =>
    obtain ⟨hcomes, hnone, hnoted', hreceived, _⟩ := hanswered
    rw [hnone] at htask
    refine .answered result ⟨hcomes.cons _, htask, hnoted.trans hnoted', ?_, ?_⟩
    . change (start.received id actions ++ ((start.after actions).ignore id).letters id).Sublist _
      rw [hletters, List.append_nil]
      exact (List.sublist_append_left _ _).trans hreceived
    . intro hignored
      cases ignored_ignore.symm.trans hignored

theorem Post.collect (h : start.Post id handler actions)
    : start.Post id handler (.collect id :: actions) := by
  have hletters := ((start.after actions).letters_collect id id).trans (if_pos rfl)
  obtain ⟨inbox, hcollect⟩ := (start.after actions).act_collect id
  cases h with
  | expecting task hexpects hreceived =>
    refine .expecting task ⟨?_, hexpects.background, hexpects.continuation_eq, ?_, hletters⟩ ?_
    . unfold after
      rw [hcollect]
      exact hexpects.task?_eq
    . unfold after
      rw [hcollect]
      exact hexpects.noted_eq
    . rw [received_collect, hreceived, hexpects.letters_eq]
      rfl
  | answered result hanswered =>
    obtain ⟨hcomes, hnone, hnoted, hreceived, hkept⟩ := hanswered
    -- At most one result lies ready, so it is the one that is taken.
    have htaken : start.received id (.collect id :: actions) ++
        (start.after (.collect id :: actions)).letters id =
          start.received id actions ++ (start.after actions).letters id := by
      have hlength : ((start.after actions).letters id).length ≤ 1 := by
        have hle := hreceived.length_le
        have hone : (handler.letters (result.map .value)).length ≤ 1 := by
          unfold Handler.letters
          split <;> simp
        rw [List.length_append] at hle
        omega
      have hafter : (start.after (.collect id :: actions)).letters id = [] := hletters
      rw [hafter, received_collect, List.append_nil]
      congr 1
      match (start.after actions).letters id, hlength with
      | [], _ => rfl
      | [_], _ => rfl
    refine .answered result ⟨hcomes.cons _, ?_, ?_, ?_, ?_⟩
    . unfold after
      rw [hcollect]
      exact hnone
    . unfold after
      rw [hcollect]
      exact hnoted
    . rw [htaken]
      exact hreceived
    . intro hignored
      rw [htaken]
      exact hkept hignored

theorem Post.cons {job : Job} (h : start.Post id handler actions)
    (hlegal : Legal start (action :: actions)) (henlisted : (start.after actions).Enlisted id job)
    (hjob : job.isOperation) (hprivate : (start.after actions).Private id)
    (hchannel : (∃ kept, handler = .channel kept) ∨ ignored id (action :: actions) = false)
    : start.Post id handler (action :: actions) := by
  have hid := henlisted.id_lt
  by_cases hignore : action = .ignore id
  . subst hignore
    exact h.ignore
  by_cases hcollect : action = .collect id
  . subst hcollect
    exact h.collect
  have hignored : ignored id (action :: actions) = _ := ignored_cons hignore
  have hreceived : start.received id (action :: actions) = _ := received_cons hcollect
  cases h with
  | answered result hanswered =>
    obtain ⟨hcomes, hnone, hnoted, hsublist, hkept⟩ := hanswered
    have hunmoved : Unmoved id _ (start.after (action :: actions)) :=
      unmoved_act hlegal.2 hprivate hid (fun task htask => by cases hnone.symm.trans htask)
        (fun _ => hnone) hignore hcollect
    refine .answered result ⟨hcomes.cons action, hunmoved.task?_eq.trans hnone,
      hunmoved.noted_eq.trans hnoted, ?_, ?_⟩
    . rw [hreceived, hunmoved.letters_eq]
      exact hsublist
    . rw [hignored, hreceived, hunmoved.letters_eq]
      exact hkept
  | expecting task hexpects hnothing =>
    have hoperation : ∀ task, (start.after actions).task? id = some task → task.job.isOperation := by
      intro task htask
      rw [(henlisted.task task htask).1]
      exact hjob
    have hop := hoperation task hexpects.task?_eq
    have hnothing := hreceived.trans hnothing
    rw [← hignored] at hexpects
    -- As long as the task is there, only its own steps and what ends it matter to its result.
    by_cases hconcerns : action.concerns id
    . cases action with
      | step tickFirst other =>
        obtain rfl : other = id := hconcerns
        rcases hexpects.step henlisted hjob tickFirst with ⟨next, hnext⟩ | ⟨result, hwork, hheard⟩
        . exact .expecting next hnext hnothing
        . exact .of_heard (.ended List.suffix_rfl (.ran hexpects.task?_eq hwork)) hheard hnothing
            hchannel
      | drop other =>
        obtain rfl : other = id := hconcerns
        exact .of_heard (.ended List.suffix_rfl (.dropped hexpects.task?_eq))
          (hexpects.dropTask hop (hprivate.not_pending hexpects.task?_eq) hid) hnothing hchannel
      | shutdown =>
        exact .of_heard (.ended List.suffix_rfl (.shutDown hexpects.task?_eq))
          (hexpects.shutdown hop hprivate hid) hnothing hchannel
      | _ => cases hconcerns
    . have hunmoved := unmoved_act hlegal.2 hprivate hid hoperation
        (fun hyes => absurd hyes hconcerns) hignore hcollect
      exact .expecting task (hexpects.unmoved hunmoved) hnothing

theorem Numbered.post {system : System} {job : Job} {continuation : Continuation} {name : String}
    (h : system.Numbered) (hsound : system.Sound)
    (hspawn : system.spawn job continuation name = (id, start))
    (hfresh : continuation.resolved = false)
    : start.Post id continuation.handler [] ∧ start.Private id := by
  obtain ⟨handler, resolved⟩ := continuation
  obtain rfl : resolved = false := hfresh
  have hid := system.fst_spawn job { handler } name
  have hnext := system.nextTask_spawn job { handler } name
  have htask := task?_spawn hsound job { handler } name
  have hchanges : system.Changes { births := fun _ => True, first := system.nextTask + 1 } _ :=
    system.changes_spawn job { handler } name (.inl trivial)
  rw [hspawn] at hid hnext htask hchanges
  dsimp only at hid hnext htask hchanges
  subst hid
  obtain ⟨hnoted, hletters, hprivate⟩ := h system.nextTask (Nat.le_refl _)
  refine ⟨?_, hprivate.changes hchanges not_false (.inl (Nat.lt_succ_self _))⟩
  unfold spawn at hspawn
  dsimp only at hspawn
  split at hspawn
  . next hrunning =>
    rw [if_pos hrunning] at htask
    obtain ⟨_, rfl⟩ := Prod.mk.inj hspawn
    exact .expecting _ ⟨htask, rfl, rfl, hnoted, hletters⟩ rfl
  . next hrunning =>
    rw [if_neg hrunning] at htask
    have hheard : start.Heard system.nextTask handler (.error .abandoned) := by
      obtain ⟨_, rfl⟩ := Prod.mk.inj hspawn
      split
      . next o =>
        have hnone : ({ system with nextTask := system.nextTask + 1 }.letGo [o]).task?
            system.nextTask = none :=
          hsound.task?_nextTask
        exact heard_resolve hnone hnoted hletters _ _ _
      . have hnone : { system with nextTask := system.nextTask + 1 }.task? system.nextTask = none :=
          hsound.task?_nextTask
        exact heard_resolve hnone hnoted hletters _ _ _
    exact .of_heard (.never htask) hheard rfl (.inr rfl)

theorem Post.of_legal {job : Job} (hlegal : Legal start actions) (henlisted : start.Enlisted id job)
    (hjob : job.isOperation) (hprivate : start.Private id) (hstart : start.Post id handler [])
    (hchannel : (∃ kept, handler = .channel kept) ∨ ignored id actions = false)
    : start.Post id handler actions ∧ (start.after actions).Private id := by
  induction actions with
  | nil => exact ⟨hstart, hprivate⟩
  | cons action actions ih =>
    have hearlier : (∃ kept, handler = .channel kept) ∨ ignored id actions = false := by
      apply hchannel.imp_right
      intro hignored
      exact (Bool.or_eq_false_iff.1 hignored).2
    obtain ⟨hpost, hprivate⟩ := ih hlegal.1 hearlier
    have henlisted := henlisted.after hlegal.1
    exact ⟨hpost.cons hlegal henlisted hjob hprivate hchannel,
      private_act hprivate henlisted.id_lt hlegal.2⟩

end

theorem numbered_furnished : furnished.Numbered := by
  intro id _
  refine ⟨rfl, rfl, ?_⟩
  intro task htask
  cases htask

end System

end MediaProxy
