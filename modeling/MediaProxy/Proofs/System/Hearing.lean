import MediaProxy.Proofs.System.Affect
import MediaProxy.Proofs.System.Seat

/-!
This module contains where operations have the replies from that they end with: each was given by the
server to a call of the operation, in the same step or in an earlier one.
-/

namespace MediaProxy

def Operation.isConfirmed : Operation → Bool
  | .release | .keepAlive | .removeListener _ => true
  | _ => false

namespace System

structure Mute (before after : System) : Prop where
  calls_eq : after.calls = before.calls
  answerTo_eq : after.answerTo = before.answerTo
  store_eq : after.store = before.store

def Asked (before after : System) (target : Reference) (request : Request)
    (reply : Except RpcError Reply) : Prop :=
  ∃ record, after.calls = record :: before.calls ∧ record.target = target ∧
    record.request = request ∧ before.answerTo record = reply

def requestOf (system : System) (o : ObjectId) (operation : Operation) : Request :=
  operation.request (system.store.context (system.store.object o).context).config

def AsksFor (before after : System) (o : ObjectId) (operation : Operation)
    (reply : Except RpcError Reply) : Prop :=
  before.Asked after (before.store.object o).reference (before.requestOf o operation) reply

inductive Receives (before after : System) (task : Task) (o : ObjectId) (operation : Operation)
    (reply : Except RpcError Reply) : Prop where
  | earlier {due : Option Nat} (hstage : task.stage = .calling reply due)
    (hdue : before.reached due = true) (hcalls : after.calls = before.calls)
  | now (h : before.AsksFor after o operation reply)

inductive Hears (before : System) (task : Task) (o : ObjectId) (operation : Operation) :
    Progress → Prop where
  | idle : before.Hears task o operation (none, before)
  | parked {middle : System} (stage : Stage)
    (h : ∀ reply due, stage = .calling reply due → before.AsksFor middle o operation reply) :
    before.Hears task o operation (none, middle.park task stage)
  | failed {middle : System} (error : Error) (hcalls : middle.calls = before.calls) :
    before.Hears task o operation (some (.error error), middle)
  | answered {result : Except Error Value} {store : Store} {middle : System}
    (h : before.store.start o operation = (.answered result, store))
    (hcalls : middle.calls = before.calls) :
    before.Hears task o operation (some result, middle)
  | concluded {middle : System} (reply : Except RpcError Reply)
    (h : before.Receives middle task o operation reply) :
    before.Hears task o operation
      (some (before.store.conclude o operation
        (reply.bind (operation.expect (before.requestOf o operation)))).1, middle)

inductive EndsAtOnce (before : System) (o : ObjectId) (operation : Operation) :
    Except Error Value × System → Prop where
  | failed {after : System} (error : Error) (hcalls : after.calls = before.calls) :
    before.EndsAtOnce o operation (.error error, after)
  | answered {result : Except Error Value} {store : Store} {after : System}
    (h : before.store.start o operation = (.answered result, store))
    (hcalls : after.calls = before.calls) :
    before.EndsAtOnce o operation (result, after)
  | concluded {after : System} (reply : Except RpcError Reply)
    (h : before.AsksFor after o operation reply) :
    before.EndsAtOnce o operation
      ((before.store.conclude o operation
        (reply.bind (operation.expect (before.requestOf o operation)))).1, after)

/-!
## Steps without a call
-/

namespace Mute

theorem refl (system : System) : system.Mute system :=
  ⟨rfl, rfl, rfl⟩

theorem trans {first second third : System} (h : first.Mute second) (h' : second.Mute third)
    : first.Mute third :=
  ⟨h'.calls_eq.trans h.calls_eq, h'.answerTo_eq.trans h.answerTo_eq, h'.store_eq.trans h.store_eq⟩

end Mute

section
variable (system : System)

theorem mute_setServer (c : Nat) {server : Server}
    (hscript : server.script = (system.link c).server.script)
    (htokens : server.tokens = (system.link c).server.tokens)
    : system.Mute (system.setServer c server) :=
  ⟨rfl, (system.passes_setServer c hscript htokens).answerTo_eq rfl, rfl⟩

theorem mute_setSlots (c : Nat) (flavor : Flavor) (slots : Slots)
    : system.Mute (system.setSlots c flavor slots) := by
  refine ⟨rfl, ?_, rfl⟩
  funext record
  unfold answerTo
  rw [server_setSlots]

theorem mute_connect (c : Nat) (flavor : Flavor) (ticket : Ticket)
    : system.Mute (system.connect c flavor ticket) := by
  have hserver : system.Mute (system.setServer c (system.link c).server.connected.2) :=
    system.mute_setServer c rfl rfl
  exact hserver.trans (mute_setSlots _ _ _ _)

theorem mute_nextOpening (c : Nat)
    : system.Mute (system.setServer c (system.link c).server.nextOpening.2) :=
  ⟨rfl, (system.passes_nextOpening c).answerTo_eq rfl, rfl⟩

theorem mute_stepSlots (c : Nat) (flavor : Flavor) (step : Slots → Option Ticket × Slots)
    : system.Mute (system.stepSlots c flavor step) := by
  have hslots := system.mute_setSlots c flavor (step (system.slots c flavor)).2
  unfold stepSlots
  dsimp only
  split
  . exact hslots
  . exact hslots.trans
      ⟨(passes_wake _ _).calls_eq, (passes_wake _ _).answerTo_eq rfl, store_wake _ _⟩

theorem mute_openBlocking (c : Nat) (ticket : Ticket)
    : system.Mute (system.openBlocking c ticket).2 := by
  have hopening := system.mute_nextOpening c
  unfold openBlocking
  dsimp only
  split
  . exact hopening.trans (mute_connect _ _ _ _)
  . dsimp only
    exact hopening.trans (mute_stepSlots _ _ _ _)

theorem mute_acquireBlocking (c : Nat) : system.Mute (system.acquireBlocking c).2 := by
  have hnumber : system.Mute { system with nextTask := system.nextTask + 1 } := ⟨rfl, rfl, rfl⟩
  rw [acquireBlocking_eq]
  dsimp only
  split
  . exact hnumber.trans (mute_setSlots _ _ _ _)
  . exact (hnumber.trans (mute_setSlots _ _ _ _)).trans (mute_openBlocking _ _ _)
  . exact hnumber

theorem calls_conclude (flavor : Flavor) (lease : Ticket) (o : ObjectId) (operation : Operation)
    (reply : Except RpcError Reply)
    : (system.conclude flavor lease o operation reply).2.calls = system.calls := by
  unfold conclude judge
  dsimp only
  split
  . exact (system.mute_stepSlots _ _ _).calls_eq
  . split <;> exact (mute_stepSlots _ _ _ _).calls_eq

end

section
variable {before system : System} {task : Task} {o : ObjectId} {operation : Operation}

theorem asked_ask (h : before.Mute system) (c : Nat) (flavor : Flavor) (lease : Ticket)
    (target : Reference) (request : Request)
    : before.Asked (system.ask c flavor lease target request).2.2 target request
        (system.ask c flavor lease target request).1 := by
  have hcalls : (system.ask c flavor lease target request).2.2.calls = _ :: system.calls := rfl
  rw [h.calls_eq] at hcalls
  refine ⟨_, hcalls, rfl, rfl, ?_⟩
  rw [← h.answerTo_eq]
  rfl

theorem fst_conclude (flavor : Flavor) (lease : Ticket) (o : ObjectId) (operation : Operation)
    (reply : Except RpcError Reply)
    : (system.conclude flavor lease o operation reply).1 =
        (system.store.conclude o operation
          (reply.bind (operation.expect (system.requestOf o operation)))).1 := by
  unfold conclude requestOf
  dsimp only
  rw [store_stepSlots, store_judge]

/-!
## The work of a task
-/

theorem Asked.of_calls_eq {middle after : System} {target : Reference} {request : Request}
    {reply : Except RpcError Reply} (h : before.Asked middle target request reply)
    (hcalls : after.calls = middle.calls) : before.Asked after target request reply := by
  obtain ⟨record, hasked, hrecord⟩ := h
  exact ⟨record, hcalls.trans hasked, hrecord⟩

theorem Receives.of_calls_eq {middle after : System} {reply : Except RpcError Reply}
    (h : before.Receives middle task o operation reply) (hcalls : after.calls = middle.calls)
    : before.Receives after task o operation reply := by
  cases h with
  | earlier hstage hdue hsame => exact .earlier hstage hdue (hcalls.trans hsame)
  | now hasks => exact .now (hasks.of_calls_eq hcalls)

theorem hears_ending (reply : Except RpcError Reply) (hstore : system.store = before.store)
    (h : before.Receives system task o operation reply)
    : before.Hears task o operation (system.workEnding task o operation reply) := by
  have hresult := system.fst_conclude .nonBlocking task.id o operation reply
  have hcalls := system.calls_conclude .nonBlocking task.id o operation reply
  unfold workEnding
  generalize system.conclude .nonBlocking task.id o operation reply = concluded at hresult hcalls ⊢
  obtain ⟨result, after⟩ := concluded
  dsimp only at hresult hcalls ⊢
  rw [hresult]
  unfold requestOf
  rw [hstore]
  exact .concluded reply (h.of_calls_eq hcalls)

theorem hears_calling (h : before.Mute system)
    : before.Hears task o operation (system.workCalling task o operation) := by
  have hasked := asked_ask h (system.store.object o).context .nonBlocking task.id
    (system.store.object o).reference
    (operation.request (system.store.context (system.store.object o).context).config)
  have hstore := system.store_ask (system.store.object o).context .nonBlocking task.id
    (system.store.object o).reference
    (operation.request (system.store.context (system.store.object o).context).config)
  rw [h.store_eq] at hasked hstore
  unfold workCalling
  dsimp only
  rw [h.store_eq]
  generalize system.ask _ _ _ _ _ = asked at hasked hstore ⊢
  split
  . exact hears_ending _ hstore (.now hasked)
  . apply Hears.parked
    intro reply due heq
    cases heq
    exact hasked

theorem hears_opened (h : before.Mute system) (error : Option RpcError)
    : before.Hears task o operation (system.workOpened task o operation error) := by
  cases error with
  | none => exact hears_calling (h.trans (system.mute_connect _ _ _))
  | some error => exact .failed _ (h.trans (system.mute_stepSlots _ _ _)).calls_eq

theorem hears_opening (h : before.Mute system)
    : before.Hears task o operation (system.workOpening task o operation) := by
  unfold workOpening
  dsimp only
  split
  . apply hears_opened (h.trans (system.mute_nextOpening _))
  . exact .parked _ nofun

theorem hears_granted (h : before.Mute system) (deadline : Nat) (grant : Grant)
    : before.Hears task o operation (system.workGranted task o operation deadline grant) := by
  cases grant with
  | lease => exact hears_calling h
  | opening => exact hears_opening h
  | full =>
    unfold workGranted
    dsimp only
    split
    . exact .failed _ (h.trans (system.mute_stepSlots _ _ _)).calls_eq
    . exact .parked _ nofun

theorem hears_on (system : System) (task : Task) (o : ObjectId) (operation : Operation)
    : system.Hears task o operation (system.workOn task o operation) := by
  unfold workOn
  dsimp only
  split
  . split
    . next heq => exact .answered heq rfl
    . exact hears_granted (system.mute_setSlots _ _ _) _ _
  . split
    . exact hears_granted (system.mute_setSlots _ _ _) _ _
    . split
      . exact .failed _ (system.mute_stepSlots _ _ _).calls_eq
      . exact .idle
  . split
    . exact hears_opened (.refl system) _
    . exact .idle
  . next reply due hstage =>
    split
    . next hdue => exact hears_ending reply rfl (.earlier hstage hdue rfl)
    . exact .idle
  . exact .idle

theorem hears_work (system : System) (hjob : task.job = .operate o operation)
    : system.Hears task o operation (system.work task) := by
  unfold work
  rw [hjob]
  apply hears_on

theorem not_alters_of_start {value : Value} {store : Store}
    (h : system.store.start o operation = (.answered (.ok value), store))
    : operation.alters = false := by
  have hstarted := system.store.started_start o operation
  rw [h] at hstarted
  generalize hend : (Beginning.answered (.ok value), store) = started at hstarted
  cases hstarted with
  | refused => cases hend
  | own _ hfetch =>
    rw [hfetch]
    rfl
  | known _ _ _ hknown => exact Store.alters_of_known hknown
  | asks => cases hend

theorem endsAtOnce_operateBlocking (system : System) (o : ObjectId) (operation : Operation)
    : system.EndsAtOnce o operation (system.operateBlocking o operation) := by
  unfold operateBlocking
  split
  . next heq => exact .answered heq rfl
  . next heq =>
    obtain ⟨rfl, rfl⟩ := Store.start_asks heq
    dsimp only
    have hmute := system.mute_acquireBlocking (system.store.object o).context
    generalize System.acquireBlocking _ _ = acquired at hmute ⊢
    obtain ⟨error | lease, after⟩ := acquired
    . exact .failed error hmute.calls_eq
    . dsimp only at hmute ⊢
      have hasked := asked_ask hmute (system.store.object o).context .blocking lease
        (system.store.object o).reference (system.requestOf o operation)
      have hstore := after.store_ask (system.store.object o).context .blocking lease
        (system.store.object o).reference (system.requestOf o operation)
      unfold requestOf at hasked hstore
      generalize System.ask _ _ _ _ _ _ = asked at hasked hstore ⊢
      obtain ⟨reply, pace, asked⟩ := asked
      have hresult := asked.fst_conclude .blocking lease o operation reply
      have hcalls := asked.calls_conclude .blocking lease o operation reply
      rw [hmute.store_eq] at hstore
      unfold requestOf at hresult
      rw [hstore] at hresult
      generalize asked.conclude .blocking lease o operation reply = concluded at hresult hcalls ⊢
      obtain ⟨result, after⟩ := concluded
      dsimp only at hresult
      rw [hresult]
      exact .concluded reply (hasked.of_calls_eq hcalls)

theorem hears_operateBlocking (halters : operation.alters) {value : Value}
    (h : (system.operateBlocking o operation).1 = .ok value)
    : ∃ reply, system.AsksFor (system.operateBlocking o operation).2 o operation reply ∧
        (system.store.conclude o operation
          (reply.bind (operation.expect (system.requestOf o operation)))).1 = .ok value := by
  have hends := system.endsAtOnce_operateBlocking o operation
  generalize system.operateBlocking o operation = ended at h hends ⊢
  cases hends with
  | answered hstart =>
    dsimp only at h
    subst h
    cases halters.symm.trans (not_alters_of_start hstart)
  | failed => cases h
  | concluded reply hasks => exact ⟨reply, hasks, h⟩

end

/-!
## Runs
-/

def Replied (start : System) (actions : List Action) (target : Reference) (request : Request)
    (reply : Except RpcError Reply) : Prop :=
  ∃ action earlier record, action :: earlier <:+ actions ∧
    (record, reply) ∈ (start.after earlier).begun (start.after (action :: earlier)) ∧
    record.target = target ∧ record.request = request

def Heeds (start : System) (actions : List Action) : Prop :=
  ∀ o operation reply earlier, .concludeBlocking o operation (.ok reply) :: earlier <:+ actions →
    ∃ answer,
      start.Replied earlier ((start.after earlier).store.object o).reference
        ((start.after earlier).requestOf o operation) answer ∧
      answer.bind (operation.expect ((start.after earlier).requestOf o operation)) = .ok reply

def Traced (start : System) (actions : List Action) : Prop :=
  ∀ id task o operation reply due, (start.after actions).task? id = some task →
    task.job = .operate o operation → task.stage = .calling reply due →
    start.Replied actions ((start.after actions).store.object o).reference
      ((start.after actions).requestOf o operation) reply

section
variable {start : System} {action : Action} {actions earlier : List Action} {target : Reference}
  {request : Request} {reply : Except RpcError Reply} {o : ObjectId} {operation : Operation}

theorem Replied.mono (h : start.Replied earlier target request reply) (hsuffix : earlier <:+ actions)
    : start.Replied actions target request reply := by
  obtain ⟨action, before, record, hbefore, hrecord⟩ := h
  exact ⟨action, before, record, hbefore.trans hsuffix, hrecord⟩

theorem begun_of_calls_eq {before after : System} {record : CallRecord}
    (h : after.calls = record :: before.calls)
    : before.begun after = [(record, before.answerTo record)] := by
  unfold begun
  rw [h, List.length_cons, Nat.add_sub_cancel_left]
  rfl

theorem Asked.replied (action : Action)
    (h : (start.after actions).Asked (start.after (action :: actions)) target request reply)
    : start.Replied (action :: actions) target request reply := by
  obtain ⟨record, hcalls, htarget, hrequest, hanswer⟩ := h
  refine ⟨action, actions, record, List.suffix_rfl, ?_, htarget, hrequest⟩
  rw [begun_of_calls_eq hcalls, hanswer]
  apply List.mem_singleton_self

theorem Grows.requestOf_eq {before after : System} (h : before.Grows after) (hsound : before.Sound)
    (ho : o < before.store.objects.length) (operation : Operation)
    : after.requestOf o operation = before.requestOf o operation := by
  unfold requestOf
  rw [(h.ages o ho).context_eq, h.context_eq _ (hsound.store.object_context_lt o)]

theorem Traced.step (h : start.Traced actions) (hfitting : (start.after actions).Fitting)
    {tickFirst : Bool} {id : TaskId} {task next : Task}
    (htask : (start.after actions).task? id = some task) (hjob : task.job = .operate o operation)
    (hnext : (start.after (.step tickFirst id :: actions)).task? id = some next)
    {due : Option Nat} (hstage : next.stage = .calling reply due)
    : start.Replied (.step tickFirst id :: actions)
        ((start.after actions).store.object o).reference
        ((start.after actions).requestOf o operation) reply := by
  have hstep : start.after (.step tickFirst id :: actions) =
      ((start.after actions).work task).told task :=
    hfitting.step_eq htask (by rw [hjob]; rfl) tickFirst
  have hhears := (start.after actions).hears_work hjob
  have hid := task?_id htask
  have hreplied {middle : System} {stage : Stage}
      (hafter : start.after (.step tickFirst id :: actions) = middle.park task stage)
      (hasks : (start.after actions).AsksFor middle o operation reply) :=
    Asked.replied (.step tickFirst id) (hasks.of_calls_eq (by rw [hafter]; rfl))
  generalize (start.after actions).work task = progress at hstep hhears
  cases hhears with
  | idle =>
    change start.after (.step tickFirst id :: actions) = start.after actions at hstep
    rw [hstep] at hnext
    exact (h id next o operation reply due hnext
      (by rw [Option.some.inj (hnext.symm.trans htask)]; exact hjob) hstage).mono
      (List.suffix_cons _ _)
  | @parked middle stage hasks =>
    change start.after (.step tickFirst id :: actions) = middle.park task stage at hstep
    apply hreplied hstep
    apply hasks reply due
    rw [← hstage]
    rw [hstep, ← hid] at hnext
    exact (stage_of_park hnext).symm
  | _ =>
    change start.after (.step tickFirst id :: actions) = System.finish _ task _ at hstep
    rw [hstep, ← hid, task?_finish] at hnext
    cases hnext

theorem Traced.cons (h : start.Traced actions) (hsound : (start.after actions).Sound)
    (hfitting : (start.after actions).Fitting) (hhoused : (start.after actions).Housed)
    (hadmits : (start.after actions).Admits action) : start.Traced (action :: actions) := by
  intro id task o operation reply due htask hjob hstage
  have hchanges := changes_act hadmits
  have hreplied (ho : o < (start.after actions).store.objects.length)
      (hbefore : start.Replied (action :: actions)
        ((start.after actions).store.object o).reference
        ((start.after actions).requestOf o operation) reply)
      : start.Replied (action :: actions)
          ((start.after (action :: actions)).store.object o).reference
          ((start.after (action :: actions)).requestOf o operation) reply := by
    have hreference := (hchanges.grows.ages o ho).reference_eq
    have hrequest := hchanges.grows.requestOf_eq hsound ho operation
    change start.Replied _ (((start.after actions).act action).store.object o).reference
      (((start.after actions).act action).requestOf o operation) reply
    rw [hreference, hrequest]
    exact hbefore
  -- A call went on before, was begun by this step of its task, or would be that of a new task.
  rcases hchanges.origin htask with ⟨old, hold, hcore⟩ | ⟨htasks, hjobs⟩ | ⟨_, hfresh⟩
  . have holdJob : old.job = .operate o operation := (congrArg Prod.fst hcore).symm.trans hjob
    have holdStage : old.stage = .calling reply due := (congrArg Prod.snd hcore).symm.trans hstage
    have ho := hhoused id old hold
    rw [holdJob] at ho
    exact hreplied ho ((h id old o operation reply due hold holdJob holdStage).mono
      (List.suffix_cons _ _))
  . cases action with
    | step tickFirst other =>
      obtain ⟨rfl, _⟩ := htasks
      obtain ⟨old, hold, holdJob⟩ := hjobs
      rw [hjob] at holdJob
      have ho := hhoused id old hold
      rw [holdJob] at ho
      exact hreplied ho (h.step hfitting hold holdJob htask hstage)
    | stop other =>
      obtain ⟨old, hold, holdJob⟩ := hjobs
      obtain ⟨c, period, hschedule⟩ := hadmits old hold
      cases hjob.symm.trans (holdJob.symm.trans hschedule)
    | drop => cases hjobs
    | shutdown => cases hjobs
    | line => cases hjobs
    | _ => cases htasks
  . cases hfresh.symm.trans hstage

theorem Returns.replied (h : start.Traced actions) (hfitting : (start.after actions).Fitting)
    (hheeds : start.Heeds (action :: actions)) (halters : operation.alters) {value : Value}
    (hreturns : (start.after actions).Returns o operation action (.ok value))
    : ∃ reply,
        start.Replied (action :: actions) ((start.after actions).store.object o).reference
          ((start.after actions).requestOf o operation) reply ∧
        ((start.after actions).store.conclude o operation
          (reply.bind (operation.expect ((start.after actions).requestOf o operation)))).1 =
            .ok value := by
  generalize hresult : (Except.ok value : Except Error Value) = result at hreturns
  cases hreturns with
  | blocking =>
    obtain ⟨reply, hasks, hconclude⟩ := hears_operateBlocking halters hresult.symm
    exact ⟨reply, Asked.replied (.operateBlocking o operation) hasks,
      hconclude.trans hresult⟩
  | interrupted outcome =>
    cases outcome with
    | error error => cases hresult
    | ok reply =>
      obtain ⟨answer, hanswer, hfits⟩ := hheeds o operation reply actions List.suffix_rfl
      exact ⟨answer, hanswer.mono (List.suffix_cons _ _), by rw [hfits]⟩
  | @nonBlocking tickFirst id task _ htask hjob hwork =>
    have hstep : start.after (.step tickFirst id :: actions) =
        ((start.after actions).work task).told task :=
      hfitting.step_eq htask (by rw [hjob]; rfl) tickFirst
    have hhears := (start.after actions).hears_work hjob
    generalize (start.after actions).work task = progress at hstep hhears hwork
    cases hhears with
    | idle => cases hwork
    | parked => cases hwork
    | failed => cases hwork.trans (congrArg some hresult.symm)
    | answered hstart =>
      obtain rfl := Option.some.inj hwork
      rw [← hresult] at hstart
      cases halters.symm.trans (not_alters_of_start hstart)
    | @concluded middle reply hreceives =>
      obtain rfl := Option.some.inj hwork
      refine ⟨reply, ?_, rfl⟩
      cases hreceives with
      | @earlier due hstage =>
        exact (h id task o operation reply due htask hjob hstage).mono (List.suffix_cons _ _)
      | now hasks =>
        apply Asked.replied (.step tickFirst id)
        apply hasks.of_calls_eq
        rw [hstep]
        exact (passes_finish middle task _).calls_eq

end

theorem token_of_conclude {store : Store} {o : ObjectId} {listener : Listener} {request : Request}
    {reply : Except RpcError Reply} {subscription : Subscription}
    (h : (store.conclude o (.addListener listener)
      (reply.bind ((Operation.addListener listener).expect request))).1 =
        .ok (.subscription subscription))
    : reply = .ok (.token subscription.token) ∧
        subscription.object = (store.object o).reference := by
  cases reply with
  | error error => cases h
  | ok reply =>
    cases reply with
    | token token =>
      cases h
      exact ⟨rfl, rfl⟩
    | _ => cases h

theorem done_iff_of_conclude {store : Store} {o : ObjectId} {operation : Operation} {request : Request}
    {reply : Except RpcError Reply} (h : operation.isConfirmed)
    : (store.conclude o operation (reply.bind (operation.expect request))).1 = .ok .done ↔
        reply = .ok .unit := by
  cases reply with
  | error error =>
    constructor
    . exact nofun
    . exact nofun
  | ok reply =>
    cases operation with
    | release | keepAlive | removeListener =>
      cases reply <;>
        simp [Except.bind, Except.map, Operation.expect, Reply.toUnit, Store.conclude, Store.finish]
    | _ => cases h

end System

end MediaProxy
