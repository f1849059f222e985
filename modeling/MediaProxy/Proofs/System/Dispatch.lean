import MediaProxy.Proofs.System.Task

/-!
This module contains the way of operations from their beginning to their end: each begins at most one
call and gives back whatever it takes, in whatever order the steps of a system follow each other.
-/

namespace MediaProxy

namespace System

/-!
## Runs
-/

def Action.isStepOf (id : TaskId) : Action → Bool
  | .step _ other => other = id
  | _ => false

theorem Action.isStepOf_step (tickFirst : Bool) (id : TaskId)
    : Action.isStepOf id (.step tickFirst id) = true :=
  decide_eq_true rfl

theorem Action.isStepOf_of_ne {action : Action} {id : TaskId}
    (h : ∀ tickFirst, action ≠ .step tickFirst id) : action.isStepOf id = false := by
  cases action with
  | step tickFirst other =>
    apply decide_eq_false
    rintro rfl
    exact h tickFirst rfl
  | _ => rfl

def begunBy (start : System) (id : TaskId) :
    List Action → List (CallRecord × Except RpcError Reply)
  | [] => []
  | action :: actions =>
    if action.isStepOf id then
      start.begunBy id actions ++ (start.after actions).begun (start.after (action :: actions))
    else start.begunBy id actions

def spentBy (start : System) (id : TaskId) : List Action → Spending
  | [] => .nothing
  | action :: actions =>
    if action.isStepOf id then
      (start.spentBy id actions).add
        ((start.after actions).spent (start.after (action :: actions)))
    else start.spentBy id actions

section
variable {errand : Errand} {id : TaskId} {start : System}

structure Starts (start : System) (errand : Errand) (id : TaskId) : Prop where
  knows : start.Knows errand
  id_lt : id < start.nextTask
  task_eq : ∃ task, start.task? id = some task ∧
    task.job = .operate errand.object errand.operation ∧ task.stage = .fresh

theorem Starts.reached (h : start.Starts errand id) {actions : List Action}
    (hlegal : Legal start actions) {task : Task} (htask : (start.after actions).task? id = some task)
    : task.job = .operate errand.object errand.operation ∧
      (start.after actions).Reached errand id (start.begunBy id actions)
        (start.spentBy id actions) task.stage := by
  induction actions generalizing task with
  | nil =>
    obtain ⟨first, hfirst, hjob, hstage⟩ := h.task_eq
    have heq : task = first := Option.some.inj (htask.symm.trans hfirst)
    rw [heq, hstage]
    exact ⟨hjob, .fresh⟩
  | cons action actions ih =>
    have hgrows := hlegal.1.grows
    have hid := Nat.lt_of_lt_of_le h.id_lt hgrows.nextTask_le
    cases hbefore : (start.after actions).task? id with
    | none =>
      -- A task that has ended does not come back.
      have hnone := (changes_act hlegal.2).grows.ended id hid hbefore
      have hsome : ((start.after actions).act action).task? id = some task := htask
      rw [hnone] at hsome
      cases hsome
    | some old =>
      obtain ⟨hjob, hreached⟩ := ih hlegal.1 hbefore
      have hold := task?_id hbefore
      rcases action.step_or_ne id with ⟨tickFirst, rfl⟩ | hother
      -- Its own step adds to the account what the step does.
      . have hunderway : (start.after actions).Underway errand old :=
          ⟨h.knows.grows hgrows, by rw [hold]; exact hbefore, hjob⟩
        rw [← hold] at hreached
        have hleads : Leads False _ _ _ _ _ _ :=
          leads_step tickFirst hunderway hreached False.elim
        rw [hold] at hleads
        unfold begunBy spentBy
        have hown := Action.isStepOf_step tickFirst id
        rw [if_pos hown, if_pos hown]
        cases hleads.fate with
        | parked next hnext hnextJob hnextReached =>
          rw [hold] at hnext hnextReached
          have heq : task = next := Option.some.inj (htask.symm.trans hnext)
          rw [heq, hnextJob]
          exact ⟨hjob, hnextReached⟩
        | ended result hnone =>
          rw [hold] at hnone
          have hsome := htask.symm.trans hnone
          cases hsome
      . unfold begunBy spentBy
        rw [Action.isStepOf_of_ne hother]
        -- Whatever somebody else does is not on the account and takes nothing from the task.
        rcases keeps_act hlegal.2 hid hbefore (by rw [hjob]; rfl) hother with hkeeps | rfl | rfl
        . have hcore := hkeeps.core_eq
          change ((start.after (action :: actions)).task? id).map Task.core = _ at hcore
          rw [htask, hbefore] at hcore
          have hpair : task.core = old.core := Option.some.inj hcore
          unfold Task.core at hpair
          simp only [Prod.mk.injEq] at hpair
          rw [hpair.1, hpair.2]
          exact ⟨hjob, hreached.keeps hkeeps⟩
        . cases htask.symm.trans (task?_dropTask _ id)
        . cases htask.symm.trans (task?_shutdown _ id hid)

theorem Starts.ended (h : start.Starts errand id) {actions : List Action} {tickFirst : Bool}
    (hlegal : Legal start (.step tickFirst id :: actions)) {task : Task}
    (htask : (start.after actions).task? id = some task)
    (hend : (start.after (.step tickFirst id :: actions)).task? id = none)
    (hfaithful : ((start.after actions).store.decoders errand.context).Faithful)
    : ∃ result,
        errand.Course .nonBlocking (start.begunBy id (.step tickFirst id :: actions))
          (start.spentBy id (.step tickFirst id :: actions)) result ∧
        (start.after (.step tickFirst id :: actions)).Told task (result.map .value) := by
  obtain ⟨hjob, hreached⟩ := h.reached hlegal.1 htask
  have hid := task?_id htask
  have hunderway : (start.after actions).Underway errand task :=
    ⟨h.knows.grows hlegal.1.grows, by rw [hid]; exact htask, hjob⟩
  rw [← hid] at hreached
  have hleads : Leads True _ _ _ _ _ _ :=
    leads_step tickFirst hunderway hreached fun _ => hfaithful
  rw [hid] at hleads
  unfold begunBy spentBy
  have hown := Action.isStepOf_step tickFirst id
  rw [if_pos hown, if_pos hown]
  cases hleads.fate with
  | parked next hnext =>
    rw [hid] at hnext
    have hsome := hnext.symm.trans hend
    cases hsome
  | ended result _ htold hcourse => exact ⟨result, hcourse trivial, htold⟩

end

theorem Sound.starts {system : System} (h : system.Sound) (hrunning : system.running)
    {o : ObjectId} (ho : o < system.store.objects.length) (operation : Operation)
    (continuation : Continuation) (name : String)
    : (system.spawn (.operate o operation) continuation name).2.Starts (system.errand o operation)
        (system.spawn (.operate o operation) continuation name).1 := by
  have hchanges : system.Changes { births := fun _ => True, first := 0 } _ :=
    system.changes_spawn (.operate o operation) continuation name (.inl trivial)
  have hgrows := hchanges.grows
  refine ⟨(h.knows ho operation).grows hgrows, ?_, ?_⟩
  . rw [fst_spawn, nextTask_spawn]
    apply Nat.lt_succ_self
  . have htask := task?_spawn h (.operate o operation) continuation name
    rw [if_pos hrunning] at htask
    exact ⟨_, htask, rfl, rfl⟩

/-!
## Operations that block
-/

section
variable {errand : Errand} {system after : System}

theorem openBlocking_error {ticket : Ticket} {error : Error} {c : Nat}
    (hc : c < system.links.length) (h : system.openBlocking c ticket = (.error error, after))
    : system.Passes after [] .nothing ∧ ∃ cause, error = .ofRpc cause := by
  have hopening := passes_nextOpening system c
  unfold openBlocking at h
  dsimp only at h
  split at h
  . cases h
  . next cause _ =>
    cases h
    refine ⟨hopening.quiet_trans ?_, cause, rfl⟩
    apply passes_cancelOpening
    rw [length_setServer]
    exact hc

theorem openBlocking_ok {ticket lease : Ticket} {c : Nat} (hc : c < system.links.length)
    (hmem : ticket ∈ (system.slots c .blocking).opening)
    (h : system.openBlocking c ticket = (.ok lease, after))
    : system.Passes after [] (.only c .blocking ⟨1, 0, 0⟩) ∧
      (after.slots c .blocking).Holds lease := by
  have hopening := passes_nextOpening system c
  unfold openBlocking at h
  dsimp only at h
  split at h
  . cases h
    rw [← system.setServer_slots c (system.link c).server.nextOpening.2] at hmem
    have hlength : c < (system.setServer c (system.link c).server.nextOpening.2).links.length := by
      rw [length_setServer]
      exact hc
    exact ⟨hopening.quiet_trans (passes_connect hlength hmem), holds_connect hlength hmem⟩
  . cases h

theorem acquireBlocking_error {error : Error} {c : Nat} (hc : c < system.links.length)
    (h : system.acquireBlocking c = (.error error, after))
    : system.Passes after [] .nothing ∧
      ((∃ detail, error = .resourceExhausted detail) ∨ ∃ cause, error = .ofRpc cause) := by
  have hnumber : system.Passes { system with nextTask := system.nextTask + 1 } [] .nothing :=
    .of_links_eq rfl rfl
  have htake := hnumber.quiet_trans
    (passes_setSlots _ .blocking hc (Slots.usage_take _ system.nextTask))
  rw [acquireBlocking_eq] at h
  dsimp only at h
  split at h
  . cases h
  . next slots heq =>
    rw [heq] at htake
    change system.Passes _ [] (.only c .blocking 0) at htake
    rw [Spending.only_zero] at htake
    obtain ⟨hpasses, hcause⟩ := openBlocking_error (by rw [length_setSlots]; exact hc) h
    exact ⟨htake.quiet_trans hpasses, .inr hcause⟩
  . cases h
    exact ⟨hnumber, .inl ⟨_, rfl⟩⟩

theorem acquireBlocking_ok {lease : Ticket} {c : Nat} (hc : c < system.links.length)
    (h : system.acquireBlocking c = (.ok lease, after))
    : system.Passes after [] (.only c .blocking ⟨1, 0, 0⟩) ∧
      (after.slots c .blocking).Holds lease := by
  have hnumber : system.Passes { system with nextTask := system.nextTask + 1 } [] .nothing :=
    .of_links_eq rfl rfl
  have htake := hnumber.quiet_trans
    (passes_setSlots _ .blocking hc (Slots.usage_take _ system.nextTask))
  have hgranted := Slots.granted_take
    ({ system with nextTask := system.nextTask + 1 }.slots c .blocking) system.nextTask
  have hslots (slots : Slots)
      : ({ system with nextTask := system.nextTask + 1 }.setSlots c .blocking slots).slots c
          .blocking = slots :=
    slots_setSlots_self _ _ _ hc
  rw [acquireBlocking_eq] at h
  dsimp only at h
  split at h
  . next slots heq =>
    rw [heq] at htake hgranted
    cases h
    refine ⟨htake, ?_⟩
    rw [hslots]
    exact hgranted
  . next slots heq =>
    rw [heq] at htake hgranted
    change system.Passes _ [] (.only c .blocking 0) at htake
    rw [Spending.only_zero] at htake
    have hopened := openBlocking_ok (by rw [length_setSlots]; exact hc)
      (by rw [hslots]; exact hgranted) h
    exact ⟨htake.quiet_trans hopened.1, hopened.2⟩
  . cases h

theorem course_operateBlocking (h : system.Knows errand)
    (hfaithful : (system.store.decoders errand.context).Faithful)
    : errand.Course .blocking
        (system.begun (system.operateBlocking errand.object errand.operation).2)
        (system.spent (system.operateBlocking errand.object errand.operation).2)
        (system.operateBlocking errand.object errand.operation).1 := by
  unfold operateBlocking
  split
  . next result store heq =>
    have hpasses : system.Passes { system with store } [] .nothing := .of_links_eq rfl rfl
    rw [hpasses.begun_eq, hpasses.spent_eq]
    exact .answered (Store.local_start heq)
  . next request store heq =>
    obtain ⟨rfl, rfl⟩ := Store.start_asks heq
    dsimp only
    rw [h.context_eq, h.reference_eq, h.config_eq]
    split
    . next error after hacquire =>
      obtain ⟨hpasses, herror⟩ := acquireBlocking_error h.link_lt hacquire
      rw [hpasses.begun_eq, hpasses.spent_eq]
      rcases herror with ⟨detail, rfl⟩ | ⟨cause, rfl⟩
      . exact .refused detail
      . exact .unopened cause
    . next lease after hacquire =>
      obtain ⟨hpasses, hlease⟩ := acquireBlocking_ok h.link_lt hacquire
      have hstore := system.store_acquireBlocking errand.context
      have hchanges : system.Changes (.everything 0) _ :=
        system.changes_acquireBlocking errand.context trivial
      rw [hacquire] at hstore hchanges
      dsimp only at hstore hchanges
      have hknows := h.grows hchanges.grows
      rw [errand.request_eq]
      generalize hask :
        after.ask errand.context .blocking lease errand.reference errand.request = asked
      obtain ⟨reply, pace, asked⟩ := asked
      dsimp only
      obtain ⟨record, hrecord, hanswer, hcall, hreported⟩ :=
        passes_ask_conclude hknows hlease (by rw [hstore]; exact hfaithful) hask
      have hall := hpasses.trans hcall
      rw [List.append_nil, Spending.only_add_only, Usage.lease_add_return] at hall
      rw [hall.begun_eq, hall.spent_eq, List.reverse_singleton, List.map_singleton,
        ← hpasses.answerTo_eq rfl, hanswer]
      exact .called hrecord hreported

end

/-!
## Both forms
-/

/--
What an operation on an object promises. One that blocks is carried out at once. One that does not is
carried out by a task, and anything may happen between the steps of the task until it ends.
-/
structure Dispatched (system : System) (o : ObjectId) (operation : Operation) : Prop where
  blocking :
    (system.store.decoders (system.store.object o).context).Faithful →
    (system.errand o operation).Course .blocking
      (system.begun (system.operateBlocking o operation).2)
      (system.spent (system.operateBlocking o operation).2)
      (system.operateBlocking o operation).1
  nonBlocking : system.running → ∀ continuation name id start,
    system.spawn (.operate o operation) continuation name = (id, start) →
    ∀ tickFirst actions, Legal start (.step tickFirst id :: actions) →
    ∀ task, (start.after actions).task? id = some task →
    (start.after (.step tickFirst id :: actions)).task? id = none →
    ((start.after actions).store.decoders (system.store.object o).context).Faithful →
    ∃ result,
      (system.errand o operation).Course .nonBlocking
        (start.begunBy id (.step tickFirst id :: actions))
        (start.spentBy id (.step tickFirst id :: actions)) result ∧
      (start.after (.step tickFirst id :: actions)).Told task (result.map .value)

theorem dispatched_of_sound (system : System) (h : system.Sound) (o : ObjectId)
    (ho : o < system.store.objects.length) (operation : Operation)
    : system.Dispatched o operation := by
  constructor
  . intro hfaithful
    apply course_operateBlocking (h.knows ho operation) hfaithful
  . intro hrunning continuation name id start hspawn tickFirst actions hlegal task htask hend
      hfaithful
    have hstarts := h.starts hrunning ho operation continuation name
    rw [hspawn] at hstarts
    exact hstarts.ended hlegal htask hend hfaithful

-- A system with one context and the proxy of a pipeline in it.
def furnished : System :=
  (({} : System).build {}).2.after [.share (.resolve 0 0 (.pipeline "p"))]

theorem sound_furnished : furnished.Sound := by
  apply Sound.after
  . refine ⟨⟨by decide, ?_⟩, rfl, ?_⟩
    . intro object hobject
      cases hobject
    . intro task htask
      cases htask
  . exact ⟨trivial, Nat.one_pos⟩

theorem dispatched_furnished
    : furnished.Sound ∧ 0 < furnished.store.objects.length ∧ furnished.Dispatched 0 .getParent :=
  ⟨sound_furnished, by decide, dispatched_of_sound furnished sound_furnished 0 (by decide) .getParent⟩

example : let start := (furnished.spawn (.operate 0 .getParent) { handler := .callback } "").2
    (start.after [.step false 0]).task? 0 = none ∧
      start.spentBy 0 [.step false 0] 0 .nonBlocking = ⟨1, 1, 0⟩ :=
  ⟨rfl, rfl⟩

end System

end MediaProxy
