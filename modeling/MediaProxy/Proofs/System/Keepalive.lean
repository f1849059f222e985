import MediaProxy.Proofs.System.Gathering
import MediaProxy.Proofs.System.Release

/-!
This module contains the keepalives of a round: with which of them it begins, what becomes of each of them,
and that neither they nor the round touch anything else.
-/

namespace MediaProxy

theorem filter_key_eq_singleton {α β : Type} [DecidableEq β] (key : α → β) {as : List α} {a : α}
    (hnodup : (as.map key).Nodup) (ha : a ∈ as) : as.filter (key · = key a) = [a] := by
  induction as with
  | nil => cases ha
  | cons first as ih =>
    obtain ⟨hnotMem, hnodup⟩ := List.nodup_cons.1 hnodup
    rcases List.mem_cons.1 ha with rfl | hrest
    . rw [List.filter_cons_of_pos (by simp), List.filter_eq_nil_iff.2]
      intro other hother
      simp only [decide_eq_true_eq]
      exact fun heq => hnotMem (heq ▸ List.mem_map_of_mem hother)
    . have hne : key first ≠ key a := fun heq => hnotMem (heq ▸ List.mem_map_of_mem hrest)
      rw [List.filter_cons_of_neg (by simpa using hne), ih hnodup hrest]

namespace System

section
variable {system : System} {c : Nat} {keepAlive : ObjectId × TaskId}

theorem Sound.task?_of_le (h : system.Sound) {id : TaskId} (hle : system.nextTask ≤ id)
    : system.task? id = none := by
  rw [Option.eq_none_iff_forall_ne_some]
  intro task htask
  exact Nat.not_lt_of_le hle (h.lt_of_task? htask)

theorem task?_append_keepAlives (hsound : system.Sound) (h : keepAlive ∈ system.keepAlives c)
    : (system.tasks ++ (system.keepAlives c).map keepAliveTask).find? (·.id = keepAlive.2) =
        some (keepAliveTask keepAlive) := by
  have hold : system.tasks.find? (·.id = keepAlive.2) = none :=
    hsound.task?_of_le (lt_of_mem_keepAlives h).1
  have hnew : (system.keepAlives c).filter (·.2 = keepAlive.2) = [keepAlive] :=
    filter_key_eq_singleton (·.2) (system.nodup_keepAlives c) h
  rw [List.find?_append, hold, Option.none_or, List.find?_map]
  change ((system.keepAlives c).find? (·.2 = keepAlive.2)).map keepAliveTask = _
  rw [← List.head?_filter, hnew]
  rfl

theorem letters_abandoned {inbox : List (TaskId × Except Error Outcome)} {after : System}
    (hinbox : after.inbox = system.inbox ++ inbox)
    (heq : inbox = (system.keepAlives c).map fun entry => (entry.2, .error .abandoned))
    (hnone : system.letters keepAlive.2 = []) (h : keepAlive ∈ system.keepAlives c)
    : after.letters keepAlive.2 = [.error .abandoned] := by
  have hnew : (system.keepAlives c).filter (·.2 = keepAlive.2) = [keepAlive] :=
    filter_key_eq_singleton (·.2) (system.nodup_keepAlives c) h
  unfold letters at hnone ⊢
  rw [hinbox, heq, List.filter_append, List.map_append, hnone, List.nil_append, List.filter_map,
    List.map_map]
  change ((system.keepAlives c).filter (·.2 = keepAlive.2)).map _ = _
  rw [hnew]
  rfl

end

/-!
## The first step
-/

theorem task?_finish_of_ne (system : System) {task : Task} (result : Except Error Outcome) {id : TaskId}
    (h : task.id ≠ id) : (system.finish task result).task? id = system.task? id := by
  unfold finish
  rw [task?_resolve, task?_removeTask_of_ne _ h]

section
variable {system middle : System} {id : TaskId} {c : Nat} {ids : List TaskId} {report : Report}
  {keepAlive : ObjectId × TaskId}

theorem Opens.eqs (h : system.Opens id c (ids, report, middle))
    : ids = (system.keepAlives c).map (·.2) ∧ report = .of (system.dead c).length [] ∧
        middle.store = (system.store.sweep (system.store.context c).factory).2 ∧
        middle.nextTask = system.nextTask + (system.upheld c).length ∧
        middle.calls = system.calls := by
  cases h <;> exact ⟨rfl, rfl, rfl, rfl, rfl⟩

theorem Opens.length_upheld (h : system.Opens id c (ids, report, middle))
    : (system.upheld c).length = ids.length := by
  rw [h.eqs.1, List.length_map, length_keepAlives]

theorem Opens.task?_keepAlive (h : system.Opens id c (ids, report, middle)) (hsound : system.Sound)
    (hmem : keepAlive ∈ system.keepAlives c)
    : middle.task? keepAlive.2 =
        if system.running then some (keepAliveTask keepAlive) else none := by
  cases h with
  | running hrunning =>
    rw [if_pos hrunning]
    exact task?_append_keepAlives hsound hmem
  | stopped hstopped =>
    rw [if_neg (by simp [hstopped])]
    exact hsound.task?_of_le (lt_of_mem_keepAlives hmem).1

theorem Opens.letters_keepAlive (h : system.Opens id c (ids, report, middle))
    (hnone : system.letters keepAlive.2 = []) (hmem : keepAlive ∈ system.keepAlives c)
    : middle.letters keepAlive.2 = if system.running then [] else [.error .abandoned] := by
  cases h with
  | running hrunning =>
    rw [if_pos hrunning]
    exact hnone
  | stopped hstopped =>
    rw [if_neg (by simp [hstopped])]
    exact letters_abandoned rfl rfl hnone hmem

theorem Opens.task?_eq (h : system.Opens id c (ids, report, middle)) {other : TaskId} {task : Task}
    (htask : system.task? other = some task) : middle.task? other = some task := by
  cases h with
  | stopped => exact htask
  | running =>
    unfold task? at htask ⊢
    rw [List.find?_append, htask]
    rfl

theorem Opens.letters_of_running (h : system.Opens id c (ids, report, middle))
    (hrunning : system.running = true)
    (hnone : ∀ keepAlive ∈ system.keepAlives c, system.letters keepAlive.2 = [])
    : ∀ id ∈ ids, middle.letters id = [] := by
  obtain ⟨rfl, _⟩ := h.eqs
  intro id hid
  obtain ⟨keepAlive, hmem, rfl⟩ := List.mem_map.1 hid
  rw [h.letters_keepAlive (hnone keepAlive hmem) hmem, if_pos hrunning]

theorem Opens.letters_of_stopped (h : system.Opens id c (ids, report, middle))
    (hstopped : system.running = false)
    (hnone : ∀ keepAlive ∈ system.keepAlives c, system.letters keepAlive.2 = [])
    : ∀ id ∈ ids, middle.letters id = [.error .abandoned] := by
  obtain ⟨rfl, _⟩ := h.eqs
  intro id hid
  obtain ⟨keepAlive, hmem, rfl⟩ := List.mem_map.1 hid
  rw [h.letters_keepAlive (hnone keepAlive hmem) hmem, if_neg (by simp [hstopped])]

theorem Opens.noted_eq (h : system.Opens id c (ids, report, middle)) (other : TaskId)
    : middle.noted other = system.noted other := by
  cases h <;> rfl

end

/--
A round whose task takes its first step next. Nobody waits for it but users.
-/
structure Imminent (system : System) (round : Task) (c : Nat) : Prop where
  consistent : system.Consistent
  line : ∀ id, system.InLine id
  task?_eq : system.task? round.id = some round
  job_eq : round.job = .round c
  stage_eq : round.stage = .fresh
  isPrivate : system.Private round.id

inductive Begun (system : System) (round : Task) (c : Nat) : System → Prop where
  | waits {ids : List TaskId} {report : Report} {middle : System}
    (h : system.Opens round.id c (ids, report, middle)) (hrunning : system.running = true)
    (hsome : ids ≠ []) :
    system.Begun round c (middle.setTask { round with stage := .gathering ids report 0 })
  | ended {ids : List TaskId} {report : Report} {middle : System}
    (h : system.Opens round.id c (ids, report, middle))
    (hnone : system.running = false ∨ ids = [])
    (inbox : List (TaskId × Except Error Outcome)) :
    system.Begun round c
      ({ middle with inbox }.finish round
        (.ok (.report (.of (system.dead c).length
          (ids.map fun _ => (.error .abandoned : Except Error Value))))))

section
variable {system next : System} {round : Task} {c : Nat} {keepAlive : ObjectId × TaskId}

theorem Imminent.letters_eq (h : system.Imminent round c)
    (hmem : keepAlive ∈ system.keepAlives c) : system.letters keepAlive.2 = [] :=
  (h.consistent.numbered _ (lt_of_mem_keepAlives hmem).1).letters_eq

theorem Imminent.begun (h : system.Imminent round c) (tickFirst : Bool)
    : system.Begun round c (system.step tickFirst round.id) := by
  have hopens := system.opens_beginRound round.id c
  have hnone : ∀ keepAlive ∈ system.keepAlives c, system.letters keepAlive.2 = [] :=
    fun _ => h.letters_eq
  rw [step_round h.task?_eq h.job_eq h.stage_eq]
  generalize system.beginRound round.id c = opened at hopens ⊢
  obtain ⟨ids, report, middle⟩ := opened
  dsimp only
  cases hrunning : system.running with
  | true =>
    have hwaits := hopens.letters_of_running hrunning hnone
    have hcollect := collect_of_waits (fun id hid => hwaits id (List.mem_of_mem_head? hid)) report
    have hgather : middle.gather tickFirst round ids report 0 = _ :=
      gather_round h.job_eq hcollect tickFirst round.stage 0
    rw [hgather]
    split
    . next hnil =>
      obtain ⟨_, rfl, _⟩ := hopens.eqs
      subst hnil
      exact .ended hopens (.inr rfl) middle.inbox
    . next hsome => exact .waits hopens hrunning hsome
  | false =>
    have hready := hopens.letters_of_stopped hrunning hnone
    obtain ⟨rfl, rfl, _⟩ := hopens.eqs
    obtain ⟨inbox, hcollect⟩ := middle.collect_of_ready (system.dead c).length
      (system.nodup_keepAlives c) (.error .abandoned) hready
    have hgather : middle.gather tickFirst round _ _ 0 = _ :=
      gather_round h.job_eq hcollect tickFirst round.stage 0
    rw [hgather, if_pos rfl]
    exact .ended hopens (.inl hrunning) inbox

theorem Begun.eqs (h : system.Begun round c next)
    : next.store = (system.store.sweep (system.store.context c).factory).2 ∧
        next.nextTask = system.nextTask + (system.upheld c).length ∧ next.calls = system.calls := by
  cases h with
  | waits hopens => exact hopens.eqs.2.2
  | @ended _ _ middle hopens _ inbox =>
    obtain ⟨_, _, hstore, hnext, hcalls⟩ := hopens.eqs
    refine ⟨?_, ?_, (passes_finish _ round _).calls_eq.trans hcalls⟩
    . unfold System.finish
      rw [store_resolve_of_heldBy]
      . exact hstore
      . rfl
    . unfold System.finish
      rw [nextTask_resolve]
      exact hnext

theorem Begun.task?_keepAlive (h : system.Begun round c next) (hround : system.Imminent round c)
    (hmem : keepAlive ∈ system.keepAlives c)
    : next.task? keepAlive.2 = if system.running then some (keepAliveTask keepAlive) else none := by
  have hne : round.id ≠ keepAlive.2 := by
    have hlt := hround.consistent.sound.lt_of_task? hround.task?_eq
    exact Nat.ne_of_lt (Nat.lt_of_lt_of_le hlt (lt_of_mem_keepAlives hmem).1)
  cases h with
  | waits hopens =>
    rw [task?_setTask_of_ne]
    . exact hopens.task?_keepAlive hround.consistent.sound hmem
    . exact hne
  | ended hopens =>
    rw [task?_finish_of_ne _ _ hne]
    exact hopens.task?_keepAlive hround.consistent.sound hmem

theorem Imminent.rounds (h : system.Imminent round c) (tickFirst : Bool)
    : (system.step tickFirst round.id).Rounds round ((system.keepAlives c).map (·.2))
        (system.dead c).length [] := by
  have hbegun := h.begun tickFirst
  have htask (keepAlive : ObjectId × TaskId) (hmem : keepAlive ∈ system.keepAlives c) :=
    hbegun.task?_keepAlive h hmem
  generalize system.step tickFirst round.id = next at hbegun htask ⊢
  cases hbegun with
  | @waits ids report middle hopens hrunning hsome =>
    have hnone := hopens.letters_of_running hrunning fun _ => h.letters_eq
    obtain ⟨rfl, rfl, _⟩ := hopens.eqs
    have hround : middle.task? round.id = some round := hopens.task?_eq h.task?_eq
    have hall : ([] : List (TaskId × Except Error Value)).map (·.1) ++
        (system.keepAlives c).map (·.2) = (system.keepAlives c).map (·.2) := rfl
    refine .gathers ⟨hall, hsome, ⟨0, task?_setTask_stage hround _⟩, nofun, ?_⟩
    intro id hid
    obtain ⟨keepAlive, hmem, rfl⟩ := List.mem_map.1 hid
    have hfound := htask keepAlive hmem
    rw [if_pos hrunning] at hfound
    refine .expecting (keepAliveTask keepAlive) ⟨hfound, rfl, rfl, ?_, hnone _ hid⟩
    have hnoted := (h.consistent.numbered _ (lt_of_mem_keepAlives hmem).1).noted_eq
    exact (hopens.noted_eq keepAlive.2).trans hnoted
  | @ended ids report middle hopens hnone inbox =>
    -- There are no objects, or no tasks are carried out and every keepalive was abandoned at once.
    obtain ⟨rfl, rfl, _⟩ := hopens.eqs
    refine .reports _ ⟨task?_finish _ round _, ⟨[], List.suffix_rfl, task?_finish _ round _,
      told_finish _ round _⟩,
      ((system.keepAlives c).map (·.2)).map fun id => (id, .error .abandoned), ?_, ?_, ?_⟩
    . rw [List.map_map]
      exact List.map_id _
    . intro entry hentry
      obtain ⟨id, hid, rfl⟩ := List.mem_map.1 hentry
      obtain ⟨keepAlive, hmem, rfl⟩ := List.mem_map.1 hid
      rcases hnone with hstopped | hnil
      . apply Comes.never
        have hfound := htask keepAlive hmem
        rw [hstopped, if_neg Bool.false_ne_true] at hfound
        exact hfound
      . rw [hnil] at hid
        cases hid
    . simp only [List.map_map, Function.comp_def]

theorem Imminent.enlisted (h : system.Imminent round c) (hmem : keepAlive ∈ system.keepAlives c)
    (tickFirst : Bool)
    : (system.step tickFirst round.id).Enlisted keepAlive.2 (.operate keepAlive.1 .keepAlive) := by
  have hbegun := h.begun tickFirst
  refine ⟨?_, ?_⟩
  . rw [hbegun.eqs.2.1]
    exact (lt_of_mem_keepAlives hmem).2
  . intro task htask
    rw [hbegun.task?_keepAlive h hmem] at htask
    split at htask
    . cases htask
      exact ⟨rfl, Task.fits_of_fresh rfl⟩
    . cases htask

theorem Imminent.convened (h : system.Imminent round c) (tickFirst : Bool)
    : (system.step tickFirst round.id).Convened round c ((system.keepAlives c).map (·.2)) := by
  have hlt := h.consistent.sound.lt_of_task? h.task?_eq
  have hadmits : system.Admits (.step tickFirst round.id) := trivial
  refine ⟨h.job_eq, ?_, private_act h.isPrivate hlt hadmits, system.nodup_keepAlives c, ?_, ?_⟩
  . rw [(h.begun tickFirst).eqs.2.1]
    exact Nat.lt_add_right _ hlt
  . intro hmem
    obtain ⟨keepAlive, hmem, heq⟩ := List.mem_map.1 hmem
    exact Nat.not_lt_of_le (lt_of_mem_keepAlives hmem).1 (heq ▸ hlt)
  . intro id hid
    obtain ⟨keepAlive, hmem, rfl⟩ := List.mem_map.1 hid
    refine ⟨⟨.operate keepAlive.1 .keepAlive, rfl, h.enlisted hmem tickFirst⟩, ?_⟩
    have hprivate := (h.consistent.numbered _ (lt_of_mem_keepAlives hmem).1).isPrivate
    apply (hprivate.onlyFor round.id).changes (changes_act hadmits)
    exact .inr fun task hserves => hserves.tasks.1

end

end System

/-!
## What becomes of a keepalive
-/

theorem Store.refused_of_start {store after : Store} {o : ObjectId} {operation : Operation}
    {result : Except Error Value} (h : operation.isConfirmed)
    (hstart : store.start o operation = (.answered result, after))
    : result = .error (releasedError (store.object o)) ∧ after = store := by
  unfold start at hstart
  cases operation with
  | release | keepAlive | removeListener =>
    dsimp only at hstart
    split at hstart
    . cases hstart
      exact ⟨rfl, rfl⟩
    . cases hstart
  | _ => cases h

theorem Store.Effect.of_keepAlive {before after : Store} {o : ObjectId} {result : Except Error Value}
    (h : before.Effect (.operate o .keepAlive) result after)
    : after = before ∧ heldBy (result.map .value) = [] := by
  generalize hjob : Job.operate o .keepAlive = job at h
  cases h with
  | answered hstart =>
    cases hjob
    obtain ⟨rfl, rfl⟩ := refused_of_start rfl hstart
    exact ⟨rfl, rfl⟩
  | failed => exact ⟨rfl, rfl⟩
  | concluded _ _ outcome =>
    cases hjob
    obtain _ | reply := outcome
    . exact ⟨rfl, rfl⟩
    . cases reply <;> exact ⟨rfl, rfl⟩
  | owned => cases hjob

theorem Operation.bind_expect_iff {operation : Operation} (request : Request)
    {reply : Except RpcError Reply} (h : operation.isConfirmed)
    : (∃ answer, reply.bind (operation.expect request) = .ok answer) ↔ reply = .ok .unit := by
  cases reply with
  | error error => simp [Except.bind]
  | ok reply =>
    cases operation with
    | release | keepAlive | removeListener =>
      cases reply <;> simp [Except.bind, Except.map, expect, Reply.toUnit]
    | _ => cases h

namespace Errand

structure Names (errand : Errand) (record : CallRecord) : Prop where
  target_eq : record.target = errand.reference
  request_eq : record.request = errand.request

inductive Fares (errand : Errand) :
    List (CallRecord × Except RpcError Reply) → Except Error Value → Prop where
  | confirmed {record : CallRecord} (hrecord : errand.Names record) :
    errand.Fares [(record, .ok .unit)] (.ok .done)
  | denied {record : CallRecord} {reply : Except RpcError Reply} {error : RpcError}
    (hrecord : errand.Names record)
    (h : reply.bind (errand.operation.expect errand.request) = .error error) :
    errand.Fares [(record, reply)] (.error (.ofRpc error))
  | unasked (error : Error) : errand.Fares [] (.error error)

def Limits (errand : Errand) (calls : List (CallRecord × Except RpcError Reply)) : Prop :=
  calls = [] ∨ ∃ record reply, calls = [(record, reply)] ∧ errand.Names record

variable {errand : Errand} {calls : List (CallRecord × Except RpcError Reply)}
  {result : Except Error Value}

theorem Fares.limits (h : errand.Fares calls result) : errand.Limits calls := by
  cases h with
  | confirmed hrecord => exact .inr ⟨_, _, rfl, hrecord⟩
  | denied hrecord => exact .inr ⟨_, _, rfl, hrecord⟩
  | unasked => exact .inl rfl

theorem Asks.names {flavor : Flavor} {record : CallRecord} (h : errand.Asks flavor record)
    : errand.Names record :=
  ⟨h.target_eq, h.request_eq⟩

theorem Fares.isOk_iff (h : errand.Fares calls result) (hconfirmed : errand.operation.isConfirmed)
    : result.isOk = true ↔ ∃ record, calls = [(record, .ok .unit)] := by
  cases h with
  | confirmed => exact ⟨fun _ => ⟨_, rfl⟩, fun _ => rfl⟩
  | unasked error => exact ⟨nofun, nofun⟩
  | denied _ herror =>
    refine ⟨nofun, ?_⟩
    rintro ⟨_, heq⟩
    cases heq
    obtain ⟨answer, hanswer⟩ := (Operation.bind_expect_iff errand.request hconfirmed).2 rfl
    cases hanswer.symm.trans herror

end Errand

namespace System

section
variable {start system : System} {errand : Errand} {id : TaskId} {task : Task} {actions past : List Action}
  {result : Except Error Value}

theorem Knows.requestOf_eq (h : system.Knows errand)
    : system.requestOf errand.object errand.operation = errand.request := by
  unfold requestOf
  rw [h.context_eq, h.config_eq]
  rfl

theorem fares_conclude {record : CallRecord} {reply : Except RpcError Reply} (h : system.Knows errand)
    (hrecord : errand.Names record) (hconfirmed : errand.operation.isConfirmed)
    : errand.Fares [(record, reply)]
        (system.store.conclude errand.object errand.operation
          (reply.bind (errand.operation.expect
            (system.requestOf errand.object errand.operation)))).1 := by
  rw [h.requestOf_eq]
  cases hanswer : reply.bind (errand.operation.expect errand.request) with
  | error error => exact .denied hrecord hanswer
  | ok answer =>
    obtain rfl := (Operation.bind_expect_iff errand.request hconfirmed).1 ⟨answer, hanswer⟩
    rw [← hanswer, (done_iff_of_conclude hconfirmed).2 rfl]
    exact .confirmed hrecord

theorem work_of_calling_of_not_reached {o : ObjectId} {operation : Operation}
    {reply : Except RpcError Reply} {due : Option Nat} (hjob : task.job = .operate o operation)
    (hstage : task.stage = .calling reply due) (hdue : ¬system.reached due = true)
    : system.work task = (none, system) := by
  unfold work workOn
  rw [hjob]
  dsimp only
  rw [hstage]
  dsimp only
  rw [if_neg hdue]

theorem Reached.calls_eq {calls : List (CallRecord × Except RpcError Reply)} {spending : Spending}
    {stage : Stage} (h : system.Reached errand id calls spending stage)
    : (calls = [] ∧ ∀ reply due, stage ≠ .calling reply due) ∨
        ∃ record reply due, stage = .calling reply due ∧ calls = [(record, reply)] ∧
          errand.Names record := by
  cases h with
  | calling reply due hrecord => exact .inr ⟨_, reply, due, rfl, rfl, hrecord.names⟩
  | _ => exact .inl ⟨rfl, nofun⟩

theorem Starts.enlisted (h : start.Starts errand id)
    : start.Enlisted id (.operate errand.object errand.operation) := by
  obtain ⟨first, hfirst, hjob, hstage⟩ := h.task_eq
  refine ⟨h.id_lt, ?_⟩
  intro task htask
  obtain rfl := Option.some.inj (hfirst.symm.trans htask)
  exact ⟨hjob, Task.fits_of_fresh hstage⟩

theorem begun_of_same_calls {before after : System} (h : after.calls = before.calls)
    : before.begun after = [] := by
  unfold begun
  rw [h, Nat.sub_self]
  rfl

theorem begun_congr {before after after' : System} (h : after.calls = after'.calls)
    : before.begun after = before.begun after' := by
  unfold begun
  rw [h]

theorem calls_told (task : Task) (progress : Progress)
    : (progress.told task).calls = progress.2.calls := by
  obtain ⟨_ | result, middle⟩ := progress
  . rfl
  . exact (passes_finish middle task _).calls_eq

theorem Starts.limits (h : start.Starts errand id) (hlegal : Legal start actions)
    (htask : (start.after actions).task? id = some task)
    : errand.Limits (start.begunBy id actions) := by
  rcases (h.reached hlegal htask).2.calls_eq with ⟨hnone, _⟩ | ⟨record, reply, _, _, hcalls, hrecord⟩
  . exact .inl hnone
  . exact .inr ⟨record, reply, hcalls, hrecord⟩

theorem Hears.fares {progress : Progress}
    (h : system.Hears task errand.object errand.operation progress) (hknows : system.Knows errand)
    (hconfirmed : errand.operation.isConfirmed) (hstage : ∀ reply due, task.stage ≠ .calling reply due)
    (hwork : progress.1 = some result) : errand.Fares (system.begun progress.2) result := by
  cases h with
  | idle => cases hwork
  | parked => cases hwork
  | failed error hcalls =>
    obtain rfl := Option.some.inj hwork
    rw [begun_of_same_calls hcalls]
    exact .unasked error
  | answered hstart hcalls =>
    obtain rfl := Option.some.inj hwork
    rw [begun_of_same_calls hcalls, (Store.refused_of_start hconfirmed hstart).1]
    exact .unasked _
  | concluded reply hreceives =>
    obtain rfl := Option.some.inj hwork
    cases hreceives with
    | earlier hcalling => exact absurd hcalling (hstage _ _)
    | now hasks =>
      obtain ⟨record, hcalls, htarget, hrequest, hanswer⟩ := hasks
      rw [begun_of_calls_eq hcalls, hanswer]
      exact fares_conclude hknows
        ⟨htarget.trans hknows.reference_eq, hrequest.trans hknows.requestOf_eq⟩ hconfirmed

theorem fares_work_calling {reply : Except RpcError Reply} {due : Option Nat} {record : CallRecord}
    (hjob : task.job = .operate errand.object errand.operation) (hstage : task.stage = .calling reply due)
    (hknows : system.Knows errand) (hrecord : errand.Names record)
    (hconfirmed : errand.operation.isConfirmed) (hwork : (system.work task).1 = some result)
    : errand.Fares ([(record, reply)] ++ system.begun (system.work task).2) result := by
  by_cases hdue : system.reached due = true
  . rw [work_of_calling hjob hstage hdue] at hwork ⊢
    have hresult : (system.conclude .nonBlocking task.id errand.object errand.operation reply).1 = result :=
      Option.some.inj hwork
    rw [fst_conclude] at hresult
    subst hresult
    have hcalls : (system.workEnding task errand.object errand.operation reply).2.calls = system.calls :=
      calls_conclude _ _ _ _ _ _
    rw [begun_of_same_calls hcalls, List.append_nil]
    exact fares_conclude hknows hrecord hconfirmed
  . rw [work_of_calling_of_not_reached hjob hstage hdue] at hwork
    cases hwork

theorem Starts.fares (h : start.Starts errand id) (hconfirmed : errand.operation.isConfirmed)
    {tickFirst : Bool} (hlegal : Legal start (.step tickFirst id :: actions))
    (htask : (start.after actions).task? id = some task)
    (hwork : ((start.after actions).work task).1 = some result)
    : errand.Fares (start.begunBy id (.step tickFirst id :: actions)) result := by
  obtain ⟨hjob, hreached⟩ := h.reached hlegal.1 htask
  have hknows := h.knows.grows hlegal.1.grows
  have hstep : (start.after (.step tickFirst id :: actions)).calls =
      ((start.after actions).work task).2.calls := by
    have hstep := (h.enlisted.after hlegal.1).step_eq rfl htask tickFirst
    exact (congrArg calls hstep).trans (calls_told task _)
  rw [begunBy, if_pos (Action.isStepOf_step tickFirst id), begun_congr hstep]
  rcases hreached.calls_eq with ⟨hnone, hstage⟩ | ⟨record, reply, due, hstage, hcalls, hrecord⟩
  . rw [hnone, List.nil_append]
    exact ((start.after actions).hears_work hjob).fares hknows hconfirmed hstage hwork
  . rw [hcalls]
    exact fares_work_calling hjob hstage hknows hrecord hconfirmed hwork

theorem begunBy_of_gone (hlegal : Legal start actions) (hsuffix : past <:+ actions)
    (hid : id < start.nextTask) (hnone : (start.after past).task? id = none)
    : start.begunBy id actions = start.begunBy id past := by
  have hboth : (start.after actions).task? id = none ∧
      start.begunBy id actions = start.begunBy id past := by
    apply suffix_induction (motive := fun later =>
      (start.after later).task? id = none ∧ start.begunBy id later = start.begunBy id past) hsuffix
    . exact ⟨hnone, rfl⟩
    . intro action earlier _ hearlier ⟨hgone, hsame⟩
      have hnow := hlegal.of_suffix hearlier
      have hlt := Nat.lt_of_lt_of_le hid hnow.1.grows.nextTask_le
      refine ⟨(changes_act hnow.2).grows.ended id hlt hgone, ?_⟩
      rw [begunBy]
      split
      . next hstep =>
        rcases action.step_or_ne id with ⟨tickFirst, rfl⟩ | hother
        . have hstill : start.after (.step tickFirst id :: earlier) = start.after earlier :=
            step_of_none hgone tickFirst
          rw [begun_of_same_calls (congrArg calls hstill), List.append_nil]
          exact hsame
        . rw [Action.isStepOf_of_ne hother] at hstep
          cases hstep
      . exact hsame
  exact hboth.2

theorem Starts.fares_of_comes (h : start.Starts errand id) (hconfirmed : errand.operation.isConfirmed)
    (hlegal : Legal start actions) (hdrop : ∀ earlier, ¬.drop id :: earlier <:+ actions)
    (hshutdown : ∀ earlier, ¬.shutdown :: earlier <:+ actions)
    (hcomes : start.Comes id actions result) : errand.Fares (start.begunBy id actions) result := by
  cases hcomes with
  | never hnone =>
    obtain ⟨task, htask, _⟩ := h.task_eq
    cases hnone.symm.trans htask
  | @ended past _ hsuffix hends =>
    have hpast := hlegal.of_suffix hsuffix
    rw [begunBy_of_gone hlegal hsuffix h.id_lt (hends.gone h.enlisted rfl hpast)]
    cases hends with
    | ran htask hwork => exact h.fares hconfirmed hpast htask hwork
    | dropped => exact absurd hsuffix (hdrop _)
    | shutDown => exact absurd hsuffix (hshutdown _)

end

/-!
## What a round leaves alone
-/

structure Modest (before after : System) : Prop where
  store_eq : after.store = before.store
  nextTask_eq : after.nextTask = before.nextTask

section
variable {start system : System} {round : Task} {c : Nat} {keepAlives : List TaskId} {swept : Nat}
  {id : TaskId} {o : ObjectId} {actions : List Action} {done : List (TaskId × Except Error Value)}
  {pending : List TaskId}

theorem modest_finish (system : System) (task : Task) (result : Except Error Outcome)
    (h : heldBy result = []) : system.Modest (system.finish task result) :=
  ⟨store_resolve_of_heldBy _ _ _ _ h, nextTask_resolve _ _ _ _ _⟩

theorem Modest.of_none (h : system.task? id = none) (tickFirst : Bool)
    : system.Modest (system.step tickFirst id) := by
  rw [step_of_none h]
  exact ⟨rfl, rfl⟩

theorem Enlisted.modest_step (h : system.Enlisted id (.operate o .keepAlive)) (tickFirst : Bool)
    : system.Modest (system.step tickFirst id) := by
  cases htask : system.task? id with
  | none => exact .of_none htask tickFirst
  | some task =>
    have hsteps := h.steps rfl htask tickFirst
    have hjob := (h.task task htask).1
    generalize system.step tickFirst id = after at hsteps
    cases hsteps with
    | idle => exact ⟨rfl, rfl⟩
    | parked _ _ _ huntold hstore => exact ⟨hstore, huntold.nextTask_eq⟩
    | @ended result middle _ huntold heffect =>
      rw [hjob] at heffect
      obtain ⟨hstore, hheld⟩ := heffect.of_keepAlive
      have hfinish := modest_finish middle task _ hheld
      exact ⟨hfinish.store_eq.trans hstore, hfinish.nextTask_eq.trans huntold.nextTask_eq⟩

theorem Rounds.modest_step (h : start.Rounds round keepAlives swept actions)
    (hjob : round.job = .round c) (tickFirst : Bool)
    : (start.after actions).Modest (start.after (.step tickFirst round.id :: actions)) ∧
        (start.after (.step tickFirst round.id :: actions)).calls = (start.after actions).calls := by
  change Modest _ ((start.after actions).step tickFirst round.id) ∧
    ((start.after actions).step tickFirst round.id).calls = _
  cases h with
  | reports report hreports =>
    rw [step_of_none hreports.task?_eq]
    exact ⟨⟨rfl, rfl⟩, rfl⟩
  | @gathers done pending hgathers =>
    obtain ⟨next, htask⟩ := hgathers.task?_eq
    obtain ⟨inbox, hinbox⟩ := (start.after actions).collect_eq pending (.of swept (done.map (·.2)))
    generalize hcollect :
      (start.after actions).collect pending (.of swept (done.map (·.2))) = collected at hinbox
    obtain ⟨rest, report, after⟩ := collected
    obtain rfl := hinbox
    rw [step_gathering htask, gather_round hjob hcollect tickFirst _ next]
    split
    . have hfinish := modest_finish { start.after actions with inbox } round (.ok (.report report)) rfl
      exact ⟨⟨hfinish.store_eq, hfinish.nextTask_eq⟩, (passes_finish _ round _).calls_eq⟩
    . exact ⟨⟨rfl, rfl⟩, rfl⟩

theorem begunBy_round (hrounds : start.Rounds round keepAlives swept [])
    (hconvened : start.Convened round c keepAlives)
    (hobeys : start.Obeys (fun _ => LeavesAlone round.id keepAlives) actions)
    : start.begunBy round.id actions = [] := by
  induction actions with
  | nil => rfl
  | cons action actions ih =>
    rw [begunBy, ih hobeys.tail]
    split
    . next hstep =>
      rcases action.step_or_ne round.id with ⟨tickFirst, rfl⟩ | hother
      . have hcalls := ((hrounds.after hconvened hobeys.tail).modest_step hconvened.job_eq tickFirst).2
        rw [begun_of_same_calls hcalls]
        rfl
      . rw [Action.isStepOf_of_ne hother] at hstep
        cases hstep
    . rfl

end

end System

end MediaProxy
