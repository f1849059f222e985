import MediaProxy.Proofs.System.Clock

/-!
This module contains the steps in which tasks ask for connections: what they get, when they are refused, and
that nobody else is told that resources are exhausted.
-/

namespace MediaProxy

def Sated (result : Except Error α) : Prop :=
  ∀ detail, result ≠ .error (.resourceExhausted detail)

def Stage.isServed : Stage → Bool
  | .fresh => false
  | .waiting _ => false
  | _ => true

theorem Sated.ok (value : α) : Sated (.ok value) := by
  intro detail h
  cases h

theorem sated_ofRpc (error : RpcError) : Sated (.error (.ofRpc error) : Except Error α) := by
  intro detail h
  cases error <;> cases h

theorem Sated.map {result : Except Error α} (h : Sated result) (f : α → β) : Sated (result.map f) := by
  intro detail heq
  cases result with
  | ok value => cases heq
  | error error =>
    cases heq
    exact h detail rfl

theorem Local.sated {result : Except Error α} (h : Local result) : Sated result := by
  intro detail heq
  cases h _ heq

theorem DecoderTable.sated_decode (table : DecoderTable) (type : String) (bytes : Bytes)
    : Sated (table.decode type bytes) := by
  unfold DecoderTable.decode
  split
  . intro detail h
    cases h
  . next decoder _ =>
    apply Sated.map
    apply Sated.map
    exact decoder.read_ne_exhausted bytes

namespace Store

theorem sated_finish (store : Store) (o : ObjectId) (operation : Operation) (reply : Reply)
    : Sated (store.finish o operation reply).1 := by
  unfold finish
  split
  . exact .ok _
  . exact .ok _
  . exact .ok _
  . exact .ok _
  . exact (DecoderTable.sated_decode _ _ _).map _
  . exact (store.local_finishParent o _).sated
  . exact (store.local_finishPipeline o _).sated
  . apply sated_ofRpc

theorem sated_conclude (store : Store) (o : ObjectId) (operation : Operation)
    (outcome : Except RpcError Reply) : Sated (store.conclude o operation outcome).1 := by
  cases outcome with
  | error error => apply sated_ofRpc
  | ok reply => exact store.sated_finish o operation reply

end Store

namespace System

/-!
## Asking
-/

def Seeks (system : System) : Job → Prop
  | .acquire _ => True
  | .operate o operation => ∃ request, (system.store.start o operation).1 = .asks request
  | _ => False

def patience (system : System) (job : Job) : Nat :=
  (system.link (system.contextOf job)).pool.timeout

def slotsFor (system : System) (job : Job) : Slots :=
  system.slots (system.contextOf job) .nonBlocking

inductive Bids (system : System) (task : Task) : (deadline : Nat) → Grant → Slots → Prop where
  | first (hstage : task.stage = .fresh) (hseeks : system.Seeks task.job) :
    system.Bids task (system.now + system.patience task.job)
      ((system.slotsFor task.job).ask task.id).1 ((system.slotsFor task.job).ask task.id).2
  | again {deadline : Nat} (hstage : task.stage = .waiting deadline)
    (hwoken : task.id ∈ (system.slotsFor task.job).woken) :
    system.Bids task deadline
      ((system.slotsFor task.job).resume task.id).1 ((system.slotsFor task.job).resume task.id).2

/--
Whether a task is refused in its next step: it asks in vain when its time is over, or its time is over
before it was woken.
-/
inductive Refuses (system : System) (task : Task) : Prop where
  | full {deadline : Nat} {slots : Slots} (h : system.Bids task deadline .full slots)
    (hdue : deadline ≤ system.now)
  | late {deadline : Nat} (hstage : task.stage = .waiting deadline)
    (hwoken : task.id ∉ (system.slotsFor task.job).woken) (hdue : deadline ≤ system.now)

section
variable {system : System} {task : Task} {deadline : Nat} {grant : Grant} {slots : Slots}

theorem step_of_bids (htask : system.task? task.id = some task)
    (h : system.Bids task deadline grant slots) (tickFirst : Bool)
    : system.step tickFirst task.id =
        (system.setSlots (system.contextOf task.job) .nonBlocking slots).granted task deadline
          grant := by
  unfold step
  rw [htask]
  dsimp only
  cases h with
  | first hstage hseeks =>
    rw [hstage]
    dsimp only
    unfold start
    cases hjob : task.job with
    | acquire c =>
      dsimp only
      unfold acquire slotsFor patience
      rw [hjob]
    | operate o operation =>
      rw [hjob] at hseeks
      obtain ⟨request, hasks⟩ := hseeks
      have hstart : system.store.start o operation =
          (.asks request, (system.store.start o operation).2) := Prod.ext hasks rfl
      dsimp only
      rw [hstart]
      dsimp only
      rw [(Store.start_asks hstart).1]
      unfold acquire slotsFor patience
      rw [hjob]
    | _ =>
      rw [hjob] at hseeks
      cases hseeks
  | again hstage hwoken =>
    rw [hstage]
    exact if_pos hwoken

theorem step_of_late (htask : system.task? task.id = some task) (hstage : task.stage = .waiting deadline)
    (hwoken : task.id ∉ (system.slotsFor task.job).woken) (tickFirst : Bool)
    : system.step tickFirst task.id = if deadline ≤ system.now then system.refuse task else system := by
  unfold step
  rw [htask]
  dsimp only
  rw [hstage]
  exact if_neg hwoken

theorem step_of_refuses (htask : system.task? task.id = some task) (h : system.Refuses task)
    (tickFirst : Bool)
    : ∃ middle detail, system.Untold middle ∧
        system.step tickFirst task.id = middle.finish task (.error (.resourceExhausted detail)) := by
  have hrefuse (system : System) : ∃ middle detail, system.Untold middle ∧
      system.refuse task = middle.finish task (.error (.resourceExhausted detail)) :=
    ⟨_, _, system.untold_stepSlots _ _ _, rfl⟩
  cases h with
  | @full deadline slots hbids hdue =>
    obtain ⟨middle, detail, huntold, heq⟩ :=
      hrefuse (system.setSlots (system.contextOf task.job) .nonBlocking slots)
    refine ⟨middle, detail, (system.untold_setSlots _ _ _).trans huntold, ?_⟩
    rw [step_of_bids htask hbids, ← heq]
    exact if_pos hdue
  | late hstage hwoken hdue =>
    rw [step_of_late htask hstage hwoken, if_pos hdue]
    exact hrefuse system

inductive Approaches (tickFirst : Bool) (system : System) (task : Task) : Prop where
  | answered {result : Except Error Value} {store : Store} (hsated : Sated result)
    (h : system.step tickFirst task.id =
      { system with store }.finish task (result.map .value))
  | asks {deadline : Nat} {grant : Grant} {slots : Slots} (hbids : system.Bids task deadline grant slots)
  | late {deadline : Nat} (hstage : task.stage = .waiting deadline)
    (hwoken : task.id ∉ (system.slotsFor task.job).woken)

theorem approaches_of_fresh (htask : system.task? task.id = some task) (hstage : task.stage = .fresh)
    (hacquires : task.job.acquires) (tickFirst : Bool) : system.Approaches tickFirst task := by
  cases hjob : task.job with
  | acquire c => exact .asks (.first hstage (by rw [hjob]; trivial))
  | operate o operation =>
    cases hbegins : system.store.start o operation with
    | mk beginning store =>
      cases beginning with
      | answered result =>
        have hstep : system.step tickFirst task.id =
            { system with store }.finish task (result.map .value) := by
          unfold step
          rw [htask]
          dsimp only
          rw [hstage]
          dsimp only
          unfold start
          rw [hjob]
          dsimp only
          rw [hbegins]
        exact .answered (Store.local_start hbegins).sated hstep
      | asks request =>
        have hseeks : system.Seeks (.operate o operation) := ⟨request, congrArg Prod.fst hbegins⟩
        exact .asks (.first hstage (by rw [hjob]; exact hseeks))
  | _ =>
    rw [hjob] at hacquires
    cases hacquires

theorem approaches_of_waiting (hstage : task.stage = .waiting deadline) (tickFirst : Bool)
    : system.Approaches tickFirst task := by
  by_cases hwoken : task.id ∈ (system.slotsFor task.job).woken
  . exact .asks (.again hstage hwoken)
  . exact .late hstage hwoken

end

/-!
## Results
-/

def outcomes (system : System) (id : TaskId) : List (Except Error Outcome) :=
  system.noted id ++ system.letters id

def Exhausted (system : System) (id : TaskId) : Prop :=
  ∃ detail, .error (.resourceExhausted detail) ∈ system.outcomes id

theorem Exhausted.of_subset {before after : System} {id : TaskId} (h : after.Exhausted id)
    (hnoted : after.noted id ⊆ before.noted id) (hletters : after.letters id ⊆ before.letters id)
    : before.Exhausted id := by
  obtain ⟨detail, hmem⟩ := h
  refine ⟨detail, ?_⟩
  rcases List.mem_append.1 hmem with hmem | hmem
  . exact List.mem_append_left _ (hnoted hmem)
  . exact List.mem_append_right _ (hletters hmem)

theorem Exhausted.resolve {system : System} {id : TaskId} {name : String}
    {continuation : Continuation} {result : Except Error Outcome} (hsated : Sated result)
    (h : (system.resolve id name continuation result).Exhausted id) : system.Exhausted id := by
  obtain ⟨handler, resolved⟩ := continuation
  cases resolved with
  | true => exact h
  | false =>
    have hnotes : ∀ detail, .error (.resourceExhausted detail) ∉ handler.notes result := by
      intro detail hmem
      cases handler with
      | channel => cases hmem
      | _ => exact hsated detail (List.mem_singleton.1 hmem).symm
    have hfound : ∀ detail, .error (.resourceExhausted detail) ∉ handler.letters result := by
      intro detail hmem
      cases handler with
      | channel kept =>
        cases kept with
        | false => cases hmem
        | true => exact hsated detail (List.mem_singleton.1 hmem).symm
      | _ => cases hmem
    obtain ⟨detail, hmem⟩ := h
    refine ⟨detail, ?_⟩
    unfold outcomes at hmem ⊢
    rw [noted_resolve, letters_resolve] at hmem
    rcases List.mem_append.1 hmem with hmem | hmem
    . exact List.mem_append_left _ ((List.mem_append.1 hmem).resolve_left (hnotes detail))
    . exact List.mem_append_right _ ((List.mem_append.1 hmem).resolve_right (hfound detail))

structure Onward (task : Task) (before after : System) : Prop where
  exhausted : after.Exhausted task.id → before.Exhausted task.id
  served : ∀ next, after.task? task.id = some next → next.stage.isServed

section
variable {system before middle after : System} {task : Task}

theorem Onward.of_untold (h : Onward task middle after) (huntold : before.Untold middle)
    : Onward task before after := by
  refine ⟨fun hafter => (h.exhausted hafter).of_subset ?_ ?_, h.served⟩
  . rw [huntold.noted_eq]
    exact List.Subset.refl _
  . rw [huntold.letters_eq]
    exact List.Subset.refl _

theorem onward_finish (system : System) (task : Task) {result : Except Error Outcome}
    (hsated : Sated result) : Onward task system (system.finish task result) := by
  refine ⟨fun hafter => ?_, ?_⟩
  . have hremoved : (system.removeTask task.id).Exhausted task.id := hafter.resolve hsated
    exact hremoved
  . intro next hnext
    cases (system.task?_finish task result).symm.trans hnext

theorem onward_park (system : System) (task : Task) {stage : Stage} (h : stage.isServed)
    : Onward task system (system.park task stage) := by
  refine ⟨id, ?_⟩
  intro next hnext
  rw [stage_of_park hnext]
  exact h

theorem onward_complete (system : System) (task : Task) (reply : Except RpcError Reply)
    : Onward task system (system.complete task reply) := by
  unfold complete
  split
  . next o operation _ =>
    have hsated : Sated (system.conclude .nonBlocking task.id o operation reply).1 :=
      Store.sated_conclude _ _ _ _
    exact (onward_finish _ task (hsated.map .value)).of_untold (system.untold_conclude _ _ _ _ _)
  . exact onward_finish system task (.ok _)

theorem onward_call (system : System) (task : Task) (lease : Ticket) (target : Reference)
    (request : Request) : Onward task system (system.call task lease target request) := by
  unfold call
  dsimp only
  split
  . exact (onward_complete _ task _).of_untold (system.untold_ask _ _ _ _ _)
  . exact (onward_park _ task rfl).of_untold (system.untold_ask _ _ _ _ _)

theorem onward_leased (system : System) (task : Task) : Onward task system (system.leased task) := by
  unfold leased
  split
  . exact onward_call system task _ _ _
  . exact onward_finish system task (.ok _)

theorem onward_opened (system : System) (task : Task) (error : Option RpcError)
    : Onward task system (system.opened task error) := by
  unfold opened
  dsimp only
  split
  . exact (onward_leased _ task).of_untold (system.untold_connect _ _ _)
  . exact (onward_finish _ task (sated_ofRpc _)).of_untold (system.untold_stepSlots _ _ _)

theorem onward_openConnection (system : System) (task : Task)
    : Onward task system (system.openConnection task) := by
  unfold openConnection
  dsimp only
  split
  . exact (onward_opened _ task _).of_untold (system.untold_setServer _ _)
  . exact (onward_park _ task rfl).of_untold (system.untold_setServer _ _)

theorem onward_granted (system : System) (task : Task) (deadline : Nat) {grant : Grant}
    (hgrant : grant ≠ .full) : Onward task system (system.granted task deadline grant) := by
  cases grant with
  | lease => exact onward_leased system task
  | opening => exact onward_openConnection system task
  | full => exact absurd rfl hgrant

end

section
variable {scope : Scope} {system before after : System} {id : TaskId} {task : Task}

theorem Change.letters_subset (h : before.Change scope after) (htasks : ¬scope.tasks id)
    (hid : Apart id before after) : after.letters id ⊆ before.letters id := by
  by_cases hleaves : before.Leaves scope id
  . cases h with
    | take other =>
      rw [letters_filter]
      split
      . exact List.nil_subset _
      . exact List.Subset.refl _
    | number hsaid =>
      rw [hsaid.letters_eq (hid.ne_of_succ hsaid.same.nextTask_eq)]
      exact List.Subset.refl _
    | tell other htell _ hsaid =>
      have hne : other ≠ id := by
        rintro rfl
        exact htasks htell
      rw [hsaid.letters_eq hne]
      exact List.Subset.refl _
    | _ => exact List.Subset.refl _
  . rw [h.letters_eq htasks hleaves hid]
    exact List.Subset.refl _

theorem Changes.exhausted (h : before.Changes scope after) (htasks : ¬scope.tasks id)
    (hid : id < before.nextTask) (hafter : after.Exhausted id) : before.Exhausted id := by
  induction h with
  | refl => exact hafter
  | @step middle after hearlier hchange ih =>
    have hapart : Apart id middle after := .inl (Nat.lt_of_lt_of_le hid hearlier.grows.nextTask_le)
    apply ih
    apply hafter.of_subset
    . rw [hchange.noted_eq htasks hapart]
      exact List.Subset.refl _
    . exact hchange.letters_subset htasks hapart

theorem onward_gather (hid : task.id < system.nextTask) (hacquires : task.job.acquires)
    (tickFirst : Bool) (pending : List TaskId) (report : Report) (next : Nat)
    : Onward task system (system.gather tickFirst task pending report next) := by
  let scope : Scope := { results := fun _ => True, first := 0 }
  have hcollects : system.Changes scope (system.collect pending report).2.2 :=
    (system.collect_spec pending report fun _ _ => .inl trivial).1
  have hexhausted : (system.collect pending report).2.2.Exhausted task.id →
      system.Exhausted task.id :=
    hcollects.exhausted not_false hid
  unfold gather
  split
  . next report collected hcollect =>
    rw [hcollect] at hexhausted
    split
    . next c period hjob =>
      rw [hjob] at hacquires
      cases hacquires
    . have hsated : Sated (.ok (.report report) : Except Error Outcome) := .ok _
      have hfinish := onward_finish collected task hsated
      exact ⟨fun h => hexhausted (hfinish.exhausted h), hfinish.served⟩
  . next pending report collected _ hcollect =>
    rw [hcollect] at hexhausted
    refine ⟨hexhausted, ?_⟩
    intro found hfound
    rcases task?_setTask_cases hfound with ⟨_, rfl⟩ | ⟨hne, _⟩
    . rfl
    . exact absurd rfl hne

theorem onward_step (hid : task.id < system.nextTask) (htask : system.task? task.id = some task)
    (hacquires : task.job.acquires) (hserved : task.stage.isServed) (tickFirst : Bool)
    : Onward task system (system.step tickFirst task.id) := by
  have hidle : Onward task system system := by
    refine ⟨fun h => h, fun next hnext => ?_⟩
    obtain rfl := Option.some.inj (htask.symm.trans hnext)
    exact hserved
  unfold step
  rw [htask]
  dsimp only
  split
  . next hstage =>
    rw [hstage] at hserved
    cases hserved
  . next hstage =>
    rw [hstage] at hserved
    cases hserved
  . split
    . exact onward_opened system task _
    . exact hidle
  . split
    . exact onward_complete system task _
    . exact hidle
  . split
    . next c period hjob =>
      rw [hjob] at hacquires
      cases hacquires
    . exact hidle
  . exact onward_gather hid hacquires tickFirst _ _ _

theorem refuses_of_exhausted (hid : task.id < system.nextTask)
    (htask : system.task? task.id = some task) (hacquires : task.job.acquires) (tickFirst : Bool)
    (hbefore : ¬system.Exhausted task.id)
    (hafter : (system.step tickFirst task.id).Exhausted task.id) : system.Refuses task := by
  have happroaches : system.Approaches tickFirst task → system.Refuses task := by
    intro h
    cases h with
    | @answered result store hsated hstep =>
      rw [hstep] at hafter
      have honward := onward_finish { system with store } task (hsated.map .value)
      exact absurd (honward.exhausted hafter) hbefore
    | @asks deadline grant slots hbids =>
      rw [step_of_bids htask hbids] at hafter
      have huntold := system.untold_setSlots (system.contextOf task.job) .nonBlocking slots
      by_cases hgrant : grant = .full
      . subst hgrant
        unfold granted at hafter
        dsimp only at hafter
        split at hafter
        . next hdue => exact .full hbids hdue
        . exact absurd hafter hbefore
      . have honward := (onward_granted _ task deadline hgrant).of_untold huntold
        exact absurd (honward.exhausted hafter) hbefore
    | late hstage hwoken =>
      rw [step_of_late htask hstage hwoken] at hafter
      split at hafter
      . next hdue => exact .late hstage hwoken hdue
      . exact absurd hafter hbefore
  cases hstage : task.stage with
  | fresh => exact happroaches (approaches_of_fresh htask hstage hacquires tickFirst)
  | waiting deadline => exact happroaches (approaches_of_waiting hstage tickFirst)
  | _ =>
    have honward := onward_step hid htask hacquires (by rw [hstage]; rfl) tickFirst
    exact absurd (honward.exhausted hafter) hbefore

/-!
## What others do
-/

theorem exhausted_dropTask (hid : id < system.nextTask) (other : TaskId)
    (h : (system.dropTask other).Exhausted id) : system.Exhausted id := by
  by_cases hother : id = other
  . subst hother
    unfold dropTask at h
    cases htask : system.task? id with
    | none =>
      rw [htask] at h
      exact h
    | some task =>
      rw [htask] at h
      have hsame := task?_id htask
      subst hsame
      let scope : Scope :=
        { tickets := fun _ => True, queues := fun _ => True, results := fun _ => True, first := 0 }
      have hgiveUp : system.Changes scope (system.giveUp task) :=
        system.changes_giveUp trivial (fun _ _ => trivial) fun _ _ => trivial
      apply hgiveUp.exhausted not_false hid
      have habandoned : Sated (.error .abandoned : Except Error Outcome) := by
        intro detail heq
        cases heq
      have hremoved (h : ((system.giveUp task).removeTask task.id).Exhausted task.id)
          : (system.giveUp task).Exhausted task.id := h
      dsimp only at h
      split at h
      . exact hremoved (h.resolve habandoned)
      . exact hremoved (h.resolve habandoned)
      . exact hremoved h
  . exact (system.changes_drop other).exhausted (hother ·.1) hid h

theorem exhausted_shutdown (hid : id < system.nextTask) (h : system.shutdown.Exhausted id)
    : system.Exhausted id := by
  have hall : system.nextTask ≤ system.shutdown.nextTask ∧
      (system.shutdown.Exhausted id → system.Exhausted id) := by
    apply shutdown_induction (motive := fun middle =>
      system.nextTask ≤ middle.nextTask ∧ (middle.Exhausted id → system.Exhausted id))
    . exact ⟨Nat.le_refl _, fun h => h⟩
    . intro other middle ⟨hle, hmiddle⟩
      exact ⟨Nat.le_trans hle (middle.changes_drop other).grows.nextTask_le,
        fun h => hmiddle (exhausted_dropTask (Nat.lt_of_lt_of_le hid hle) other h)⟩
    . exact fun _ hmiddle => hmiddle
  exact hall.2 h

theorem exhausted_stop (other : TaskId) (h : (system.stop other).Exhausted id)
    : system.Exhausted id := by
  unfold stop at h
  split at h
  . exact h
  . next task _ =>
    dsimp only at h
    split at h
    . obtain ⟨ready, hwake, _⟩ := (system.setTask { task with stopping := true }).wake_eq other
      rw [hwake] at h
      exact h
    . exact h

theorem exhausted_act {action : Action} (hadmits : system.Admits action) (hid : id < system.nextTask)
    (hother : ∀ tickFirst, action ≠ .step tickFirst id) (h : (system.act action).Exhausted id)
    : system.Exhausted id := by
  have hchanges := changes_act hadmits
  cases action with
  | step tickFirst other =>
    apply hchanges.exhausted _ hid h
    rintro ⟨rfl, _⟩
    exact hother tickFirst rfl
  | drop other => exact exhausted_dropTask hid other h
  | shutdown => exact exhausted_shutdown hid h
  | stop other => exact exhausted_stop other h
  | line ready => exact h
  | _ => exact hchanges.exhausted not_false hid h

theorem exists_refuses {action : Action} (hadmits : system.Admits action)
    (hsound : system.Sound) (htask : system.task? id = some task) (hacquires : task.job.acquires)
    (hbefore : ¬system.Exhausted id) (hafter : (system.act action).Exhausted id)
    : (∃ tickFirst, action = .step tickFirst id) ∧ system.Refuses task := by
  have hid := hsound.lt_of_task? htask
  rcases action.step_or_ne id with ⟨tickFirst, rfl⟩ | hother
  . have hsame := task?_id htask
    subst hsame
    exact ⟨⟨tickFirst, rfl⟩, refuses_of_exhausted hid htask hacquires tickFirst hbefore hafter⟩
  . exact absurd (exhausted_act hadmits hid hother hafter) hbefore

end

/-!
## Those who were served
-/

structure Served (system : System) (id : TaskId) : Prop where
  id_lt : id < system.nextTask
  task : ∀ task, system.task? id = some task → task.job.acquires ∧ task.stage.isServed

section
variable {system : System} {id : TaskId} {task : Task} {deadline : Nat} {grant : Grant} {slots : Slots}

theorem Served.act (h : system.Served id) {action : Action} (hadmits : system.Admits action)
    : (system.act action).Served id := by
  have hchanges := changes_act hadmits
  refine ⟨Nat.lt_of_lt_of_le h.id_lt hchanges.grows.nextTask_le, ?_⟩
  intro next hnext
  obtain ⟨task, htask, hjob⟩ := job_act hadmits h.id_lt hnext
  obtain ⟨hacquires, hserved⟩ := h.task task htask
  refine ⟨by rw [hjob]; exact hacquires, ?_⟩
  rcases hchanges.origin hnext with ⟨old, hold, hcore⟩ | ⟨htasks, _⟩ | ⟨hle, _⟩
  . obtain rfl := Option.some.inj (htask.symm.trans hold)
    have hstage : next.stage = task.stage := congrArg Prod.snd hcore
    rw [hstage]
    exact hserved
  . have hsame := task?_id htask
    subst hsame
    cases action with
    | step tickFirst other =>
      have hother : task.id = other := htasks.1
      subst hother
      exact (onward_step h.id_lt htask hacquires hserved tickFirst).served next hnext
    | stop other =>
      have hother : task.id = other := htasks.1
      subst hother
      have heq := (system.task?_stop task.id).symm.trans hnext
      rw [htask] at heq
      cases heq
      exact hserved
    | drop other =>
      have hother : task.id = other := htasks.1
      subst hother
      cases (system.task?_dropTask task.id).symm.trans hnext
    | shutdown => cases (system.task?_shutdown task.id h.id_lt).symm.trans hnext
    | line =>
      obtain rfl := Option.some.inj (htask.symm.trans hnext)
      exact hserved
    | _ => cases htasks
  . exact absurd h.id_lt (Nat.not_lt_of_le hle)

theorem Served.after {start : System} {earlier later : List Action}
    (h : (start.after earlier).Served id) (hlegal : Legal start (later ++ earlier))
    : (start.after (later ++ earlier)).Served id := by
  induction later with
  | nil => exact h
  | cons action later ih => exact (ih hlegal.1).act hlegal.2

theorem Bids.not_served (h : system.Bids task deadline grant slots) : task.stage.isServed = false := by
  cases h with
  | first hstage => rw [hstage]; rfl
  | again hstage => rw [hstage]; rfl

theorem Refuses.not_served (h : system.Refuses task) : task.stage.isServed = false := by
  cases h with
  | full hbids => exact hbids.not_served
  | late hstage => rw [hstage]; rfl

theorem Served.not_refuses (h : system.Served id) (htask : system.task? id = some task)
    : ¬system.Refuses task := by
  intro hrefuses
  cases hrefuses.not_served.symm.trans (h.task task htask).2

theorem served_of_bids (hsound : system.Sound) (htask : system.task? task.id = some task)
    (hacquires : task.job.acquires) (hbids : system.Bids task deadline grant slots)
    (hgrant : grant ≠ .full) (tickFirst : Bool)
    : (system.step tickFirst task.id).Served task.id := by
  have hid := hsound.lt_of_task? htask
  have hadmits : system.Admits (.step tickFirst task.id) := trivial
  refine ⟨Nat.lt_of_lt_of_le hid (changes_act hadmits).grows.nextTask_le, ?_⟩
  intro next hnext
  obtain ⟨old, hold, hjob⟩ := job_act hadmits hid hnext
  obtain rfl := Option.some.inj (htask.symm.trans hold)
  refine ⟨by rw [hjob]; exact hacquires, ?_⟩
  rw [step_of_bids htask hbids] at hnext
  exact (onward_granted _ task deadline hgrant).served next hnext

end

end System

end MediaProxy
