import MediaProxy.Proofs.System.Course

/-!
This module contains the steps of tasks that carry out operations: what each of them begins and uses,
and what becomes of the task.
-/

namespace MediaProxy

namespace System

def Told (system : System) (task : Task) (result : Except Error Outcome) : Prop :=
  task.continuation.resolved = false →
    match task.continuation.handler with
    | .callback => system.history.head? = some (.resolved system.now task.id task.name result)
    | .parts => system.history.head? = some (.resolved system.now task.id task.name result)
    | .channel true => (task.id, result) ∈ system.inbox
    | .channel false => True

theorem told_finish (system : System) (task : Task) (result : Except Error Outcome)
    : (system.finish task result).Told task result := by
  intro hresolved
  unfold finish resolve Continuation.resolve
  rw [if_neg (by simp [hresolved])]
  unfold Handler.react
  cases task.continuation.handler with
  | callback => rfl
  | parts => cases result <;> rfl
  | channel kept =>
    cases kept with
    | false => trivial
    | true =>
      dsimp only
      rw [if_pos rfl]
      dsimp only
      split
      . simp
      . next waiter _ =>
        obtain ⟨ready, hwake, _⟩ := wake_eq _ waiter.id
        rw [hwake]
        simp

inductive Reached (system : System) (errand : Errand) (id : TaskId) :
    List (CallRecord × Except RpcError Reply) → Spending → Stage → Prop where
  | fresh : system.Reached errand id [] .nothing .fresh
  | waiting (deadline : Nat) : system.Reached errand id [] .nothing (.waiting deadline)
  | opening (error : Option RpcError) (due : Option Nat)
    (h : id ∈ (system.slots errand.context .nonBlocking).opening) :
    system.Reached errand id [] .nothing (.opening error due)
  | calling {record : CallRecord} (reply : Except RpcError Reply) (due : Option Nat)
    (hrecord : errand.Asks .nonBlocking record)
    (h : (system.slots errand.context .nonBlocking).Holds id) :
    system.Reached errand id [(record, reply)] (.only errand.context .nonBlocking ⟨1, 0, 0⟩)
      (.calling reply due)

theorem Reached.keeps {before after : System} {errand : Errand} {id : TaskId}
    {calls : List (CallRecord × Except RpcError Reply)} {spending : Spending} {stage : Stage}
    (h : before.Reached errand id calls spending stage) (hkeeps : Keeps id before after)
    : after.Reached errand id calls spending stage := by
  cases h with
  | fresh => exact .fresh
  | waiting deadline => exact .waiting deadline
  | opening error due hopening =>
    exact .opening error due ((hkeeps.mem_opening_iff _ _).2 hopening)
  | calling reply due hrecord hlease =>
    refine .calling reply due hrecord ?_
    unfold Slots.Holds
    rw [hkeeps.lease?_eq]
    exact hlease

inductive Fate (faithful : Prop) (errand : Errand) (task : Task) (after : System)
    (calls : List (CallRecord × Except RpcError Reply)) (spending : Spending) : Prop where
  | parked (next : Task) (htask : after.task? task.id = some next) (hjob : next.job = task.job)
    (h : after.Reached errand task.id calls spending next.stage)
  | ended (result : Except Error Value) (htask : after.task? task.id = none)
    (htold : after.Told task (result.map .value))
    (h : faithful → errand.Course .nonBlocking calls spending result)

def Leads (faithful : Prop) (errand : Errand) (task : Task) (before : System)
    (calls : List (CallRecord × Except RpcError Reply)) (spending : Spending) (after : System) :
    Prop :=
  ∃ records spent, before.Passes after records spent ∧
    Fate faithful errand task after
      (calls ++ records.reverse.map fun record => (record, before.answerTo record))
      (spending.add spent)

def Rests (faithful : Prop) (errand : Errand) (task : Task) (before : System)
    (calls : List (CallRecord × Except RpcError Reply)) (spending : Spending) (after : System) :
    Prop :=
  ∃ spent, before.Passes after [] spent ∧
    Fate faithful errand task after calls (spending.add spent)

section
variable {faithful : Prop} {errand : Errand} {task : Task} {before middle after : System}
  {calls : List (CallRecord × Except RpcError Reply)} {spending spent : Spending}

theorem Rests.leads (h : Rests faithful errand task before calls spending after)
    : Leads faithful errand task before calls spending after := by
  obtain ⟨spent, hpasses, hfate⟩ := h
  refine ⟨[], spent, hpasses, ?_⟩
  rw [List.reverse_nil, List.map_nil, List.append_nil]
  exact hfate

theorem Rests.of_passes (hpasses : before.Passes middle [] spent)
    (h : Rests faithful errand task middle calls (spending.add spent) after)
    : Rests faithful errand task before calls spending after := by
  obtain ⟨later, hlater, hfate⟩ := h
  rw [Spending.add_assoc] at hfate
  exact ⟨_, hpasses.trans hlater, hfate⟩

theorem Leads.of_passes (hpasses : before.Passes middle [] spent)
    (h : Leads faithful errand task middle calls (spending.add spent) after)
    : Leads faithful errand task before calls spending after := by
  obtain ⟨records, later, hlater, hfate⟩ := h
  rw [Spending.add_assoc, hpasses.answerTo_eq rfl] at hfate
  refine ⟨records ++ [], _, hpasses.trans hlater, ?_⟩
  rw [List.append_nil]
  exact hfate

theorem Leads.of_call {record : CallRecord} (hpasses : before.Passes middle [record] spent)
    (h : Rests faithful errand task middle (calls ++ [(record, before.answerTo record)])
      (spending.add spent) after)
    : Leads faithful errand task before calls spending after := by
  obtain ⟨later, hlater, hfate⟩ := h
  rw [Spending.add_assoc] at hfate
  exact ⟨[record], _, hpasses.trans hlater, hfate⟩

theorem Leads.fate (h : Leads faithful errand task before calls spending after)
    : Fate faithful errand task after (calls ++ before.begun after)
        (spending.add (before.spent after)) := by
  obtain ⟨records, spent, hpasses, hfate⟩ := h
  rw [hpasses.begun_eq, hpasses.spent_eq]
  exact hfate

theorem Leads.quiet (hpasses : before.Passes middle [] .nothing)
    (h : Leads faithful errand task middle calls spending after)
    : Leads faithful errand task before calls spending after := by
  apply Leads.of_passes hpasses
  rw [Spending.add_nothing]
  exact h

end

structure Underway (system : System) (errand : Errand) (task : Task) : Prop where
  knows : system.Knows errand
  task_eq : system.task? task.id = some task
  job_eq : task.job = .operate errand.object errand.operation

section
variable {faithful : Prop} {errand : Errand} {task : Task} {system : System}
  {calls : List (CallRecord × Except RpcError Reply)} {spending : Spending}

theorem Underway.contextOf (h : system.Underway errand task)
    : system.contextOf task.job = errand.context := by
  rw [h.job_eq]
  exact h.knows.context_eq

theorem Underway.setSlots (h : system.Underway errand task) (c : Nat) (flavor : Flavor)
    (slots : Slots) : (system.setSlots c flavor slots).Underway errand task :=
  ⟨h.knows.setSlots c flavor slots, h.task_eq, h.job_eq⟩

theorem Underway.setServer (h : system.Underway errand task) (c : Nat) (server : Server)
    : (system.setServer c server).Underway errand task :=
  ⟨h.knows.setServer c server, h.task_eq, h.job_eq⟩

theorem rests_finish (result : Except Error Value)
    (h : faithful → errand.Course .nonBlocking calls spending result)
    : Rests faithful errand task system calls spending
        (system.finish task (result.map .value)) := by
  refine ⟨.nothing, passes_finish _ _ _, ?_⟩
  rw [Spending.add_nothing]
  exact .ended result (task?_finish _ _ _) (told_finish _ _ _) h

theorem rests_park (h : system.Underway errand task) {stage : Stage}
    (hstage : (system.park task stage).Reached errand task.id calls spending stage)
    : Rests faithful errand task system calls spending (system.park task stage) := by
  refine ⟨.nothing, passes_park _ _ _, ?_⟩
  rw [Spending.add_nothing]
  have htask : (system.park task stage).task? task.id =
      some { task with stage, place := system.nextPlace } := by
    change (system.setTask { task with stage, place := system.nextPlace }).task? task.id = _
    rw [task?_setTask, h.task_eq, Option.map_some, if_pos rfl]
  exact .parked _ htask rfl hstage

theorem rests_complete (h : system.Underway errand task) {record : CallRecord}
    (hrecord : errand.Asks .nonBlocking record)
    (hlease : (system.slots errand.context .nonBlocking).Holds task.id)
    (reply : Except RpcError Reply)
    (hfaithful : faithful → (system.store.decoders errand.context).Faithful)
    : Rests faithful errand task system [(record, reply)]
        (.only errand.context .nonBlocking ⟨1, 0, 0⟩) (system.complete task reply) := by
  unfold complete
  rw [h.job_eq]
  dsimp only
  apply Rests.of_passes (passes_conclude h.knows hlease reply)
  rw [Spending.only_add_only, Usage.lease_add_return]
  apply rests_finish
  intro hyp
  exact .called hrecord (reported_conclude h.knows .nonBlocking task.id reply (hfaithful hyp))

theorem leads_call (h : system.Underway errand task)
    (hlease : (system.slots errand.context .nonBlocking).Holds task.id)
    (hfaithful : faithful → (system.store.decoders errand.context).Faithful)
    : Leads faithful errand task system [] (.only errand.context .nonBlocking ⟨1, 0, 0⟩)
        (system.call task task.id errand.reference errand.request) := by
  unfold call
  rw [h.contextOf]
  dsimp only
  obtain ⟨record, hrecord, hanswer, hpasses⟩ := system.passes_ask errand .nonBlocking task.id
  apply Leads.of_call hpasses
  rw [List.nil_append, Spending.add_nothing, hanswer]
  -- A call changes the server alone, so the lease is still held after it.
  rw [← system.slots_ask errand.context .nonBlocking task.id errand.reference
    errand.request] at hlease
  have hask : (system.ask errand.context .nonBlocking task.id errand.reference
      errand.request).2.2.Underway errand task :=
    ⟨h.knows.ask _ _, h.task_eq, h.job_eq⟩
  split
  . apply rests_complete hask hrecord hlease _ hfaithful
  . apply rests_park hask
    exact .calling _ _ hrecord hlease

theorem leads_leased (h : system.Underway errand task)
    (hlease : (system.slots errand.context .nonBlocking).Holds task.id)
    (hfaithful : faithful → (system.store.decoders errand.context).Faithful)
    : Leads faithful errand task system [] (.only errand.context .nonBlocking ⟨1, 0, 0⟩)
        (system.leased task) := by
  unfold leased
  rw [h.job_eq]
  dsimp only
  rw [h.knows.context_eq, h.knows.reference_eq, h.knows.config_eq, errand.request_eq]
  apply leads_call h hlease hfaithful

theorem leads_opened (h : system.Underway errand task) (error : Option RpcError)
    (hopening : task.id ∈ (system.slots errand.context .nonBlocking).opening)
    (hfaithful : faithful → (system.store.decoders errand.context).Faithful)
    : Leads faithful errand task system [] .nothing (system.opened task error) := by
  unfold opened
  rw [h.contextOf]
  dsimp only
  split
  . apply Leads.of_passes (passes_connect h.knows.link_lt hopening)
    rw [Spending.nothing_add]
    apply leads_leased
    . unfold connect
      exact (h.setServer _ _).setSlots _ _ _
    . exact holds_connect h.knows.link_lt hopening
    . exact hfaithful
  . next error =>
    apply Leads.quiet (passes_cancelOpening system h.knows.link_lt .nonBlocking task.id)
    apply Rests.leads
    apply rests_finish (.error (.ofRpc error)) fun _ => .unopened error

theorem leads_openConnection (h : system.Underway errand task)
    (hopening : task.id ∈ (system.slots errand.context .nonBlocking).opening)
    (hfaithful : faithful → (system.store.decoders errand.context).Faithful)
    : Leads faithful errand task system [] .nothing (system.openConnection task) := by
  unfold openConnection
  rw [h.contextOf]
  dsimp only
  apply Leads.quiet (passes_nextOpening system errand.context)
  have hunderway := h.setServer errand.context (system.link errand.context).server.nextOpening.2
  have hmem := hopening
  rw [← system.setServer_slots errand.context
    (system.link errand.context).server.nextOpening.2] at hmem
  split
  . apply leads_opened hunderway _ hmem hfaithful
  . apply Rests.leads
    apply rests_park hunderway
    exact .opening _ _ hmem

theorem rests_refuse (h : system.Underway errand task)
    : Rests faithful errand task system [] .nothing (system.refuse task) := by
  unfold refuse
  rw [h.contextOf]
  dsimp only
  apply Rests.of_passes (passes_withdraw system h.knows.link_lt .nonBlocking task.id)
  rw [Spending.add_nothing]
  exact rests_finish (.error ((system.link errand.context).pool.exhausted .nonBlocking))
    fun _ => .refused _

theorem leads_granted (h : system.Underway errand task) (deadline : Nat) {grant : Grant}
    (hgranted : (system.slots errand.context .nonBlocking).Granted task.id grant)
    (hfaithful : faithful → (system.store.decoders errand.context).Faithful)
    : Leads faithful errand task system [] (.only errand.context .nonBlocking grant.usage)
        (system.granted task deadline grant) := by
  cases grant with
  | lease => apply leads_leased h hgranted hfaithful
  | opening =>
    change Leads _ _ _ _ _ (.only errand.context .nonBlocking 0) _
    rw [Spending.only_zero]
    apply leads_openConnection h hgranted hfaithful
  | full =>
    change Leads _ _ _ _ _ (.only errand.context .nonBlocking 0) _
    rw [Spending.only_zero]
    unfold granted
    dsimp only
    split
    . exact (rests_refuse h).leads
    . exact (rests_park h (.waiting deadline)).leads

theorem leads_acquire (h : system.Underway errand task)
    (hfaithful : faithful → (system.store.decoders errand.context).Faithful)
    : Leads faithful errand task system [] .nothing (system.acquire task) := by
  unfold acquire
  rw [h.contextOf]
  dsimp only
  apply Leads.of_passes (system.passes_setSlots .nonBlocking h.knows.link_lt (Slots.usage_ask _ _))
  rw [Spending.nothing_add]
  apply leads_granted (h.setSlots _ _ _) _ _ hfaithful
  rw [slots_setSlots_self _ _ _ h.knows.link_lt]
  apply Slots.granted_ask

theorem leads_acquireAgain (h : system.Underway errand task) (deadline : Nat)
    (hfaithful : faithful → (system.store.decoders errand.context).Faithful)
    : Leads faithful errand task system [] .nothing (system.acquireAgain task deadline) := by
  unfold acquireAgain
  rw [h.contextOf]
  dsimp only
  apply Leads.of_passes (system.passes_setSlots .nonBlocking h.knows.link_lt (Slots.usage_resume _ _))
  rw [Spending.nothing_add]
  apply leads_granted (h.setSlots _ _ _) _ _ hfaithful
  rw [slots_setSlots_self _ _ _ h.knows.link_lt]
  apply Slots.granted_resume

theorem leads_start (tickFirst : Bool) (h : system.Underway errand task)
    (hfaithful : faithful → (system.store.decoders errand.context).Faithful)
    : Leads faithful errand task system [] .nothing (system.start tickFirst task) := by
  unfold start
  rw [h.job_eq]
  dsimp only
  split
  . next result store heq =>
    have hshare : system.Passes { system with store } [] .nothing := .of_links_eq rfl rfl
    apply Leads.quiet hshare
    apply Rests.leads
    apply rests_finish result fun _ => .answered (Store.local_start heq)
  . next request store heq =>
    rw [(Store.start_asks heq).1]
    apply leads_acquire h hfaithful

theorem rests_refl (h : system.Underway errand task)
    (hreached : system.Reached errand task.id calls spending task.stage)
    : Rests faithful errand task system calls spending system := by
  refine ⟨.nothing, .refl system, ?_⟩
  rw [Spending.add_nothing]
  exact .parked task h.task_eq rfl hreached

theorem leads_step (tickFirst : Bool) (h : system.Underway errand task)
    (hreached : system.Reached errand task.id calls spending task.stage)
    (hfaithful : faithful → (system.store.decoders errand.context).Faithful)
    : Leads faithful errand task system calls spending (system.step tickFirst task.id) := by
  unfold step
  rw [h.task_eq]
  dsimp only
  rw [h.contextOf]
  have hstay := hreached
  generalize hstage : task.stage = stage at hreached
  -- Where nothing is due yet, the task stays as it is, and so does its account.
  cases hreached with
  | fresh => apply leads_start tickFirst h hfaithful
  | waiting deadline =>
    dsimp only
    split
    . apply leads_acquireAgain h deadline hfaithful
    . split
      . exact (rests_refuse h).leads
      . exact (rests_refl h hstay).leads
  | opening error due hopening =>
    dsimp only
    split
    . apply leads_opened h error hopening hfaithful
    . exact (rests_refl h hstay).leads
  | calling reply due hrecord hlease =>
    dsimp only
    split
    . exact (rests_complete h hrecord hlease reply hfaithful).leads
    . exact (rests_refl h hstay).leads

end

end System

end MediaProxy
