import MediaProxy.Proofs.System.Identity
import MediaProxy.Proofs.System.Round

/-!
This module contains rounds of keepalives: what a round begins with, and how its task waits for the
keepalives that it started, counting each of them once.
-/

namespace MediaProxy

def Report.of (swept : Nat) (results : List (Except Error Value)) : Report where
  sent := results.countP (·.isOk)
  failed := results.countP (!·.isOk)
  swept := swept

theorem Report.of_concat (swept : Nat) (results : List (Except Error Value))
    (result : Except Error Value)
    : Report.of swept (results ++ [result]) =
        { Report.of swept results with
          sent := (Report.of swept results).sent + if result.isOk then 1 else 0
          failed := (Report.of swept results).failed + if result.isOk then 0 else 1 } := by
  unfold Report.of
  rw [List.countP_append, List.countP_append, List.countP_singleton, List.countP_singleton]
  cases result <;> rfl

namespace System

def dead (system : System) (c : Nat) : List (Reference × ObjectId) :=
  (system.store.factory (system.store.context c).factory).tracked.filter (!system.store.alive ·.2)

/--
The objects that a round keeps alive: those that are not released and whose proxies live and are kept
track of.
-/
def upheld (system : System) (c : Nat) : List ObjectId :=
  (system.store.living (system.store.context c).factory).filter fun o => !(system.store.object o).released

def keepAlives (system : System) (c : Nat) : List (ObjectId × TaskId) :=
  (system.upheld c).zipIdx system.nextTask

def keepAliveTask (keepAlive : ObjectId × TaskId) : Task where
  id := keepAlive.2
  job := .operate keepAlive.1 .keepAlive
  continuation := { handler := .channel true }

section
variable {system : System} {c : Nat} {keepAlive : ObjectId × TaskId}

theorem map_fst_keepAlives (system : System) (c : Nat)
    : (system.keepAlives c).map (·.1) = system.upheld c :=
  List.zipIdx_map_fst _ _

theorem map_snd_keepAlives (system : System) (c : Nat)
    : (system.keepAlives c).map (·.2) =
        List.range' system.nextTask (system.upheld c).length :=
  List.zipIdx_map_snd _ _

theorem length_keepAlives (system : System) (c : Nat)
    : (system.keepAlives c).length = (system.upheld c).length :=
  List.length_zipIdx

theorem nodup_keepAlives (system : System) (c : Nat) : ((system.keepAlives c).map (·.2)).Nodup := by
  rw [map_snd_keepAlives]
  exact List.nodup_range'

theorem lt_of_mem_keepAlives (h : keepAlive ∈ system.keepAlives c)
    : system.nextTask ≤ keepAlive.2 ∧
        keepAlive.2 < system.nextTask + (system.upheld c).length := by
  have hmem : keepAlive.2 ∈ (system.keepAlives c).map (·.2) := List.mem_map_of_mem h
  rw [map_snd_keepAlives, List.mem_range'_1] at hmem
  exact hmem

theorem mem_upheld_of_mem_keepAlives (h : keepAlive ∈ system.keepAlives c)
    : keepAlive.1 ∈ system.upheld c := by
  have hmem : keepAlive.1 ∈ (system.keepAlives c).map (·.1) := List.mem_map_of_mem h
  rwa [map_fst_keepAlives] at hmem

end

/-!
## The beginning of a round
-/

theorem foldl_start_of_running (objects : List ObjectId) (started : List TaskId) (system : System)
    (h : system.running = true)
    : objects.foldl beginRound.start (started, system) =
        (started ++ (objects.zipIdx system.nextTask).map (·.2),
          { system with
            nextTask := system.nextTask + objects.length
            tasks := system.tasks ++ (objects.zipIdx system.nextTask).map keepAliveTask
            ready := system.ready ++ (objects.zipIdx system.nextTask).map (·.2) }) := by
  induction objects generalizing started system with
  | nil => simp
  | cons o objects ih =>
    have hstart : beginRound.start (started, system) o =
        (started ++ [system.nextTask],
          { system with
            nextTask := system.nextTask + 1
            tasks := system.tasks ++ [keepAliveTask (o, system.nextTask)]
            ready := system.ready ++ [system.nextTask] }) := by
      unfold beginRound.start spawn
      dsimp only
      rw [if_pos h]
      rfl
    have hrest := ih (started ++ [system.nextTask])
      { system with
        nextTask := system.nextTask + 1
        tasks := system.tasks ++ [keepAliveTask (o, system.nextTask)]
        ready := system.ready ++ [system.nextTask] } h
    rw [List.foldl_cons, hstart, hrest]
    simp [Nat.add_assoc, Nat.add_comm 1]

theorem foldl_start_of_stopped (objects : List ObjectId) (started : List TaskId) (system : System)
    (h : system.running = false)
    : ∃ ready, objects.foldl beginRound.start (started, system) =
        (started ++ (objects.zipIdx system.nextTask).map (·.2),
          { system with
            nextTask := system.nextTask + objects.length
            inbox := system.inbox ++
              (objects.zipIdx system.nextTask).map fun keepAlive => (keepAlive.2, .error .abandoned)
            ready }) := by
  induction objects generalizing started system with
  | nil => exact ⟨system.ready, by simp⟩
  | cons o objects ih =>
    obtain ⟨ready, hresolve⟩ := resolve_kept { system with nextTask := system.nextTask + 1 }
      system.nextTask "" (.error .abandoned)
    have hstart : beginRound.start (started, system) o =
        (started ++ [system.nextTask],
          { system with
            nextTask := system.nextTask + 1
            inbox := system.inbox ++ [(system.nextTask, .error .abandoned)]
            ready }) := by
      unfold beginRound.start spawn
      dsimp only
      rw [if_neg (by simp [h]), hresolve]
    obtain ⟨ready', hrest⟩ := ih (started ++ [system.nextTask])
      { system with
        nextTask := system.nextTask + 1
        inbox := system.inbox ++ [(system.nextTask, .error .abandoned)]
        ready } h
    refine ⟨ready', ?_⟩
    rw [List.foldl_cons, hstart, hrest]
    simp [Nat.add_assoc, Nat.add_comm 1]

inductive Opens (system : System) (id : TaskId) (c : Nat) : List TaskId × Report × System → Prop where
  | running (h : system.running = true) :
    system.Opens id c
      ((system.keepAlives c).map (·.2), .of (system.dead c).length [],
        { system.note (.round system.now id) with
          store := (system.store.sweep (system.store.context c).factory).2
          nextTask := system.nextTask + (system.upheld c).length
          tasks := system.tasks ++ (system.keepAlives c).map keepAliveTask
          ready := system.ready ++ (system.keepAlives c).map (·.2) })
  | stopped (h : system.running = false) (ready : List TaskId) :
    system.Opens id c
      ((system.keepAlives c).map (·.2), .of (system.dead c).length [],
        { system.note (.round system.now id) with
          store := (system.store.sweep (system.store.context c).factory).2
          nextTask := system.nextTask + (system.upheld c).length
          inbox := system.inbox ++
            (system.keepAlives c).map fun keepAlive => (keepAlive.2, .error .abandoned)
          ready })

theorem opens_beginRound (system : System) (id : TaskId) (c : Nat)
    : system.Opens id c (system.beginRound id c) := by
  let swept : System :=
    { system.note (.round system.now id) with
      store := (system.store.sweep (system.store.context c).factory).2 }
  have hobjects : (swept.store.living (system.store.context c).factory).filter
      (fun o => !(swept.store.object o).released) = system.upheld c :=
    congrArg (List.filter fun o => !(system.store.object o).released)
      (system.store.living_sweep (system.store.context c).factory)
  have hround : system.beginRound id c =
      (((system.upheld c).foldl beginRound.start ([], swept)).1, .of (system.dead c).length [],
        ((system.upheld c).foldl beginRound.start ([], swept)).2) := by
    rw [← hobjects]
    unfold dead
    rw [← Store.fst_sweep]
    rfl
  rw [hround]
  cases hrunning : system.running with
  | true =>
    rw [foldl_start_of_running _ _ swept hrunning]
    exact .running hrunning
  | false =>
    obtain ⟨ready, hstart⟩ := foldl_start_of_stopped (system.upheld c) [] swept hrunning
    rw [hstart]
    exact .stopped hrunning ready

theorem upheld_beginRound (system : System) (id : TaskId) (c : Nat)
    : (system.beginRound id c).2.2.upheld c = system.upheld c := by
  have hsweep := congrArg (List.filter fun o => !(system.store.object o).released)
    (system.store.living_sweep (system.store.context c).factory)
  have hopens := system.opens_beginRound id c
  generalize system.beginRound id c = opened at hopens ⊢
  cases hopens <;> exact hsweep

/-!
## Results that lie ready
-/

structure Collects (system : System) (comes : TaskId → Except Error Value → Prop)
    (pending : List TaskId) (done : List (TaskId × Except Error Value)) (rest : List TaskId)
    (after : System) : Prop where
  pending_eq : pending = done.map (·.1) ++ rest
  comes : ∀ entry ∈ done, comes entry.1 entry.2
  after_eq : ∃ inbox, after = { system with inbox }
  letters_eq : ∀ id, id ∉ done.map (·.1) → after.letters id = system.letters id
  waits : ∀ id ∈ rest.head?, system.letters id = []

theorem Collects.letters_rest {system after : System} {comes : TaskId → Except Error Value → Prop}
    {pending rest : List TaskId} {done : List (TaskId × Except Error Value)}
    (h : system.Collects comes pending done rest after) (hnodup : pending.Nodup) {id : TaskId}
    (hid : id ∈ rest) : after.letters id = system.letters id := by
  apply h.letters_eq
  rw [h.pending_eq] at hnodup
  exact fun hdone => (List.nodup_append.1 hnodup).2.2 id hdone id hid rfl

theorem collect_of_waits {system : System} {pending : List TaskId}
    (h : ∀ id ∈ pending.head?, system.letters id = []) (report : Report)
    : system.collect pending report = (pending, report, system) := by
  unfold collect
  cases pending with
  | nil => rfl
  | cons first rest =>
    dsimp only
    rw [collect?_of_nil (h first rfl)]

section
variable {system after : System} {comes : TaskId → Except Error Value → Prop} {pending rest : List TaskId}
  {done : List (TaskId × Except Error Value)} {id : TaskId}

theorem collects_nothing (h : ∀ id ∈ pending.head?, system.letters id = [])
    : system.Collects comes pending [] pending system :=
  ⟨rfl, nofun, ⟨system.inbox, rfl⟩, fun _ _ => rfl, h⟩

theorem letters_taken (system : System) {id other : TaskId} (h : id ≠ other)
    : { system with inbox := system.inbox.filter (·.1 ≠ id) }.letters other = system.letters other :=
  (system.letters_filter id other).trans (if_neg h)

theorem Collects.cons {result : Except Error Value}
    (h : Collects { system with inbox := system.inbox.filter (·.1 ≠ id) } comes pending done rest after)
    (hid : id ∉ pending) (hcomes : comes id result)
    : system.Collects comes (id :: pending) ((id, result) :: done) rest after := by
  obtain ⟨hpending, hdone, ⟨inbox, hafter⟩, hleft, hwaits⟩ := h
  refine ⟨congrArg (id :: ·) hpending, List.forall_mem_cons.2 ⟨hcomes, hdone⟩, ⟨inbox, hafter⟩,
    ?_, ?_⟩
  . intro other hother
    obtain ⟨hne, hother⟩ := not_or.1 (mt List.mem_cons.2 hother)
    exact (hleft other hother).trans (system.letters_taken (Ne.symm hne))
  . intro first hfirst
    have hmem : first ∈ pending := by
      rw [hpending]
      exact List.mem_append_right _ (List.mem_of_mem_head? hfirst)
    have hne : id ≠ first := fun heq => hid (heq ▸ hmem)
    exact (system.letters_taken hne).symm.trans (hwaits first hfirst)

theorem collects_collect (system : System) (swept : Nat) (past : List (Except Error Value))
    (hnodup : pending.Nodup)
    (h : ∀ id ∈ pending, system.letters id = [] ∨
      ∃ result, comes id result ∧ system.letters id = [result.map .value])
    : ∃ done rest after,
        system.collect pending (.of swept past) =
          (rest, .of swept (past ++ done.map (·.2)), after) ∧
        system.Collects comes pending done rest after := by
  have hwaits {system : System} {past : List (Except Error Value)} {pending : List TaskId}
      (hnone : ∀ id ∈ pending.head?, system.letters id = [])
      : system.collect pending (.of swept past) =
          (pending, .of swept (past ++ ([] : List (TaskId × Except Error Value)).map (·.2)), system) := by
    rw [collect_of_waits hnone, List.map_nil, List.append_nil]
  induction pending generalizing system past with
  | nil => exact ⟨[], [], system, hwaits nofun, collects_nothing nofun⟩
  | cons id pending ih =>
    obtain ⟨hnotMem, hnodup⟩ := List.nodup_cons.1 hnodup
    rcases h id List.mem_cons_self with hnone | ⟨result, hcomes, hletters⟩
    . have hfirst : ∀ first ∈ (id :: pending).head?, system.letters first = [] := by
        rintro first ⟨⟩
        exact hnone
      exact ⟨[], id :: pending, system, hwaits hfirst, collects_nothing hfirst⟩
    . have hrest : ∀ other ∈ pending,
          { system with inbox := system.inbox.filter (·.1 ≠ id) }.letters other =
            system.letters other :=
        fun other hother => system.letters_taken fun heq => hnotMem (heq ▸ hother)
      obtain ⟨done, rest, after, hcollect, hcollects⟩ :=
        ih { system with inbox := system.inbox.filter (·.1 ≠ id) } (past ++ [result]) hnodup
          fun other hother => hrest other hother ▸ h other (List.mem_cons_of_mem _ hother)
      refine ⟨(id, result) :: done, rest, after, ?_, hcollects.cons hnotMem hcomes⟩
      rw [Report.of_concat, List.append_assoc] at hcollect
      unfold collect
      rw [collect?_of_letters hletters]
      cases result <;> exact hcollect

theorem collect_of_ready (system : System) (swept : Nat) (hnodup : pending.Nodup)
    (result : Except Error Value) (h : ∀ id ∈ pending, system.letters id = [result.map .value])
    : ∃ inbox, system.collect pending (.of swept []) =
        ([], .of swept (pending.map fun _ => result), { system with inbox }) := by
  obtain ⟨done, rest, after, hcollect, hcollects⟩ :=
    system.collects_collect swept [] hnodup fun id hid => .inr ⟨result, rfl, h id hid⟩
  obtain ⟨rfl, hdone, ⟨inbox, rfl⟩, _, hwaits⟩ := hcollects
  cases rest with
  | cons first rest =>
    have hready := h first (List.mem_append_right _ List.mem_cons_self)
    cases (hwaits first rfl).symm.trans hready
  | nil =>
    have hall : (done.map (·.1)).map (fun _ => result) = done.map (·.2) := by
      rw [List.map_map]
      exact List.map_congr_left hdone
    rw [List.append_nil] at hcollect ⊢
    rw [hall]
    exact ⟨inbox, hcollect⟩

end

/-!
## Who waits for a result
-/

def OnlyFor (system : System) (waiter id : TaskId) : Prop :=
  ∀ task ∈ system.tasks, id ∈ task.stage.pending → task.id = waiter

section
variable {scope : Scope} {system before after : System} {waiter id : TaskId} {action : Action}

theorem Private.onlyFor (h : system.Private id) (waiter : TaskId) : system.OnlyFor waiter id :=
  fun task htask hpending => absurd hpending (h task htask)

theorem OnlyFor.not_pending (h : system.OnlyFor waiter id) {other : TaskId} {task : Task}
    (htask : system.task? other = some task) (hne : other ≠ waiter) : id ∉ task.stage.pending :=
  fun hpending => hne ((task?_id htask).symm.trans (h task (List.mem_of_find?_eq_some htask) hpending))

theorem OnlyFor.change (h : before.OnlyFor waiter id) (hchange : before.Change scope after)
    (hleaves : ¬before.Leaves scope id ∨ ∀ task, scope.Serves task → task.id = waiter)
    : after.OnlyFor waiter id := by
  cases hchange with
  | setTask task hserves hpending =>
    intro other hother hmem
    obtain ⟨old, hold, rfl⟩ := List.mem_map.1 hother
    by_cases hsame : old.id = task.id
    . rw [if_pos hsame] at hmem ⊢
      rcases hleaves with hleaves | hwaiter
      . exact absurd (hpending id hmem) hleaves
      . exact hwaiter task hserves
    . rw [if_neg hsame] at hmem ⊢
      exact h old hold hmem
  | unheard other =>
    intro task htask hmem
    obtain ⟨old, hold, rfl⟩ := List.mem_map.1 htask
    by_cases hsame : old.id = other
    . rw [if_pos hsame] at hmem ⊢
      exact h old hold hmem
    . rw [if_neg hsame] at hmem ⊢
      exact h old hold hmem
  | removeTask other => exact fun task htask => h task (List.mem_filter.1 htask).1
  | start task ready _ hstage =>
    intro other hother hmem
    rcases List.mem_append.1 hother with hold | hnew
    . exact h other hold hmem
    . rw [List.mem_singleton.1 hnew, hstage] at hmem
      cases hmem
  | number hsaid =>
    unfold OnlyFor
    rw [hsaid.same.tasks_eq]
    exact h
  | tell other _ _ hsaid =>
    unfold OnlyFor
    rw [hsaid.same.tasks_eq]
    exact h
  | _ => exact h

theorem OnlyFor.changes (h : before.OnlyFor waiter id) (hchanges : before.Changes scope after)
    (hscope : (id < scope.first ∧ ¬scope.results id) ∨
      ∀ task, scope.Serves task → task.id = waiter)
    : after.OnlyFor waiter id := by
  induction hchanges with
  | refl => exact h
  | step _ hchange ih =>
    exact ih.change hchange (hscope.imp_left fun ⟨hfirst, hresults⟩ =>
      not_leaves hresults (.inl hfirst))

theorem OnlyFor.act (h : system.OnlyFor waiter id) (hid : id < system.nextTask)
    (hadmits : system.Admits action) : (system.act action).OnlyFor waiter id := by
  have hchanges := changes_act hadmits
  have hstep (other : TaskId)
      : (id < (system.scopeOf other).first ∧ ¬(system.scopeOf other).results id) ∨
        ∀ task, (system.scopeOf other).Serves task → task.id = waiter := by
    by_cases hother : other = waiter
    . exact .inr fun task hserves => hserves.tasks.1.trans hother
    . exact .inl ⟨hid, fun ⟨_, htask, hpending⟩ => h.not_pending htask hother hpending⟩
  cases action with
  | step tickFirst other => exact h.changes hchanges (hstep other)
  | stop other => exact h.changes hchanges (hstep other)
  | drop other => exact h.changes hchanges (.inr fun _ hserves => hserves.jobs.elim)
  | shutdown => exact h.changes hchanges (.inr fun _ hserves => hserves.jobs.elim)
  | line => exact h.changes hchanges (.inr fun _ hserves => hserves.jobs.elim)
  | _ => exact h.changes hchanges (.inr fun _ hserves => hserves.tasks.elim)

theorem OnlyFor.unmoved_act (h : system.OnlyFor waiter id) (hadmits : system.Admits action)
    (hid : id < system.nextTask)
    (hjob : ∀ task, system.task? id = some task → task.job.isOperation)
    (hwaiter : ¬action.concerns waiter) (hstop : action ≠ .stop waiter)
    (hconcerns : action.concerns id → system.task? id = none) (hignore : action ≠ .ignore id)
    (hcollect : action ≠ .collect id) : Unmoved id system (system.act action) := by
  have hchanges := changes_act hadmits
  cases action with
  | step tickFirst other =>
    apply hchanges.unmoved _ _ (.inl ⟨hid, hid⟩)
    . rintro ⟨rfl, task, htask⟩
      cases (hconcerns rfl).symm.trans htask
    . rintro ⟨task, htask, hpending⟩
      exact h.not_pending htask hwaiter hpending
  | drop other =>
    apply hchanges.unmoved _ _ (.inl ⟨hid, hid⟩)
    . rintro ⟨rfl, task, htask⟩
      cases (hconcerns rfl).symm.trans htask
    . rintro ⟨task, htask, hpending⟩
      exact h.not_pending htask hwaiter hpending
  | stop other =>
    apply hchanges.unmoved _ _ (.inl ⟨hid, hid⟩)
    . rintro ⟨rfl, task, htask⟩
      obtain ⟨c, period, hschedule⟩ := hadmits task htask
      have hoperation := hjob task htask
      rw [hschedule] at hoperation
      cases hoperation
    . rintro ⟨task, htask, hpending⟩
      exact h.not_pending htask (fun heq => hstop (heq ▸ rfl)) hpending
  | shutdown => exact absurd trivial hwaiter
  | line => exact ⟨rfl, rfl, rfl⟩
  | ignore other =>
    refine hchanges.unmoved not_false ?_ (.inl ⟨hid, hid⟩)
    rintro (rfl : id = other)
    exact hignore rfl
  | collect other =>
    refine hchanges.unmoved not_false ?_ (.inl ⟨hid, hid⟩)
    rintro (rfl : id = other)
    exact hcollect rfl
  | _ => exact hchanges.unmoved not_false not_false (.inl ⟨hid, hid⟩)

end

/-!
## Keepalives of a round
-/

/--
Whether users leave a round to itself: nobody ends its task or one of its keepalives, or takes what is told
to it.
-/
def LeavesAlone (id : TaskId) (keepAlives : List TaskId) : Action → Prop
  | .drop other => other ≠ id ∧ other ∉ keepAlives
  | .shutdown => False
  | .ignore other => other ≠ id ∧ other ∉ keepAlives
  | .collect other => other ∉ keepAlives
  | _ => True

structure Convened (system : System) (round : Task) (c : Nat) (keepAlives : List TaskId) : Prop where
  job_eq : round.job = .round c
  id_lt : round.id < system.nextTask
  isPrivate : system.Private round.id
  nodup : keepAlives.Nodup
  not_mem : round.id ∉ keepAlives
  keepAlives : ∀ id ∈ keepAlives,
    (∃ job, job.isOperation ∧ system.Enlisted id job) ∧ system.OnlyFor round.id id

inductive Owed (start : System) (actions : List Action) (id : TaskId) : Prop where
  | expecting (task : Task) (h : (start.after actions).Expects id (.channel true) task) :
    start.Owed actions id
  | arrived (result : Except Error Value) (hcomes : start.Comes id actions result)
    (h : (start.after actions).Heard id (.channel true) (result.map .value)) :
    start.Owed actions id

section
variable {system start : System} {round : Task} {c : Nat} {keepAlives : List TaskId} {id : TaskId}
  {action : Action} {actions : List Action}

theorem Convened.act (h : system.Convened round c keepAlives) (hadmits : system.Admits action)
    : (system.act action).Convened round c keepAlives := by
  refine ⟨h.job_eq, Nat.lt_of_lt_of_le h.id_lt (changes_act hadmits).grows.nextTask_le,
    private_act h.isPrivate h.id_lt hadmits, h.nodup, h.not_mem, ?_⟩
  intro id hid
  obtain ⟨⟨job, hjob, henlisted⟩, honly⟩ := h.keepAlives id hid
  exact ⟨⟨job, hjob, henlisted.act hadmits⟩, honly.act henlisted.id_lt hadmits⟩

theorem Convened.after (h : start.Convened round c keepAlives) (hlegal : Legal start actions)
    : (start.after actions).Convened round c keepAlives := by
  induction actions with
  | nil => exact h
  | cons action actions ih => exact (ih hlegal.1).act hlegal.2

theorem LeavesAlone.not_tasks (h : LeavesAlone id keepAlives action) (hadmits : system.Admits action)
    (hround : ∀ task, system.task? id = some task → task.job = .round c)
    (hown : ∀ tickFirst, action ≠ .step tickFirst id) (hline : ∀ ready, action ≠ .line ready)
    : ¬(action.scope system).tasks id := by
  intro htasks
  cases action with
  | step tickFirst other => exact hown tickFirst (htasks.1 ▸ rfl)
  | drop other => exact h.1 htasks.1.symm
  | shutdown => exact h
  | line ready => exact hline ready rfl
  | stop other =>
    obtain ⟨rfl, task, htask⟩ := htasks
    obtain ⟨d, period, hschedule⟩ := hadmits task htask
    cases (hround task htask).symm.trans hschedule
  | _ => exact htasks

theorem Convened.task?_eq (h : system.Convened round c keepAlives) (hadmits : system.Admits action)
    (hround : ∀ task, system.task? round.id = some task → task.job = .round c)
    (hleaves : LeavesAlone round.id keepAlives action)
    (hown : ∀ tickFirst, action ≠ .step tickFirst round.id)
    : (system.act action).task? round.id = system.task? round.id := by
  have hlt := h.id_lt
  have hchanges := changes_act hadmits
  have hprivate (other : TaskId)
      : ¬∃ task, system.task? other = some task ∧ round.id ∈ task.stage.pending :=
    fun ⟨_, hother, hpending⟩ => h.isPrivate.not_pending hother hpending
  cases action with
  | line => rfl
  | collect other =>
    obtain ⟨inbox, hcollect⟩ := system.act_collect other
    rw [hcollect]
    rfl
  | shutdown => exact hleaves.elim
  | ignore other => exact hchanges.task?_eq not_false (fun heq => hleaves.1 heq.symm) hlt hlt
  | step | drop | stop =>
    exact hchanges.task?_eq (hleaves.not_tasks hadmits hround hown nofun) (hprivate _) hlt hlt
  | _ => exact hchanges.task?_eq not_false not_false hlt hlt

theorem Convened.unmoved (h : system.Convened round c keepAlives) (hid : id ∈ keepAlives)
    (hadmits : system.Admits action)
    (hround : ∃ task, system.task? round.id = some task ∧ task.job = .round c)
    (hleaves : LeavesAlone round.id keepAlives action)
    (hown : ∀ tickFirst, action ≠ .step tickFirst round.id)
    (hstep : ∀ tickFirst, action = .step tickFirst id → system.task? id = none)
    : Unmoved id system (system.act action) := by
  obtain ⟨⟨job, hjob, henlisted⟩, honly⟩ := h.keepAlives id hid
  obtain ⟨task, htask, hkind⟩ := hround
  apply honly.unmoved_act hadmits henlisted.id_lt
  . intro other hother
    rw [(henlisted.task other hother).1]
    exact hjob
  . intro hconcerns
    cases action with
    | step tickFirst other => exact hown tickFirst (congrArg _ hconcerns)
    | drop other => exact hleaves.1 hconcerns
    | shutdown => exact hleaves
    | _ => exact hconcerns
  . rintro rfl
    obtain ⟨d, period, hschedule⟩ := hadmits task htask
    cases hkind.symm.trans hschedule
  . intro hconcerns
    cases action with
    | step tickFirst other => exact hstep tickFirst (congrArg _ hconcerns)
    | drop other => exact absurd hid (hconcerns ▸ hleaves.2)
    | shutdown => exact hleaves.elim
    | _ => exact hconcerns.elim
  . rintro rfl
    exact hleaves.2 hid
  . rintro rfl
    exact hleaves hid

theorem Owed.letters_cases (h : start.Owed actions id)
    : (start.after actions).letters id = [] ∨ ∃ result, start.Comes id actions result ∧
        (start.after actions).letters id = [result.map .value] := by
  cases h with
  | expecting task hexpects => exact .inl hexpects.letters_eq
  | arrived result hcomes hheard => exact .inr ⟨result, hcomes, hheard.letters_eq⟩

theorem Owed.unmoved (h : start.Owed actions id)
    (hunmoved : Unmoved id (start.after actions) (start.after (action :: actions)))
    : start.Owed (action :: actions) id := by
  cases h with
  | expecting task hexpects => exact .expecting task (hexpects.unmoved hunmoved)
  | arrived result hcomes hheard => exact .arrived result (hcomes.cons action) (hheard.unmoved hunmoved)

theorem Owed.cons (h : start.Owed actions id) (hlegal : Legal start (action :: actions))
    (hconvened : (start.after actions).Convened round c keepAlives) (hid : id ∈ keepAlives)
    (hround : ∃ task, (start.after actions).task? round.id = some task ∧ task.job = .round c)
    (hleaves : LeavesAlone round.id keepAlives action)
    (hown : ∀ tickFirst, action ≠ .step tickFirst round.id)
    : start.Owed (action :: actions) id := by
  have hunmoved := hconvened.unmoved hid hlegal.2 hround hleaves hown
  cases h with
  | arrived result hcomes hheard =>
    exact (Owed.arrived result hcomes hheard).unmoved (hunmoved fun _ _ => hheard.task?_eq)
  | expecting task hexpects =>
    rcases action.step_or_ne id with ⟨tickFirst, rfl⟩ | hother
    . obtain ⟨⟨job, hjob, henlisted⟩, _⟩ := hconvened.keepAlives id hid
      rcases hexpects.step henlisted hjob tickFirst with ⟨next, hnext⟩ | ⟨result, hwork, hheard⟩
      . exact .expecting next hnext
      . exact .arrived result (.ended List.suffix_rfl (.ran hexpects.task?_eq hwork)) hheard
    . apply (Owed.expecting task hexpects).unmoved
      exact hunmoved fun tickFirst heq => absurd heq (hother tickFirst)

end

/-!
## Gathering
-/

structure Gathers (start : System) (round : Task) (keepAlives : List TaskId) (swept : Nat)
    (actions : List Action) (done : List (TaskId × Except Error Value)) (pending : List TaskId) :
    Prop where
  keepAlives_eq : done.map (·.1) ++ pending = keepAlives
  pending_ne : pending ≠ []
  task?_eq : ∃ next, (start.after actions).task? round.id =
    some { round with stage := .gathering pending (.of swept (done.map (·.2))) next }
  comes : ∀ entry ∈ done, start.Comes entry.1 actions entry.2
  owed : ∀ id ∈ pending, start.Owed actions id

structure Reports (start : System) (round : Task) (keepAlives : List TaskId) (swept : Nat)
    (actions : List Action) (report : Report) : Prop where
  task?_eq : (start.after actions).task? round.id = none
  told : ∃ past, past <:+ actions ∧ (start.after past).task? round.id = none ∧
    (start.after past).Told round (.ok (.report report))
  results : ∃ done : List (TaskId × Except Error Value), done.map (·.1) = keepAlives ∧
    (∀ entry ∈ done, start.Comes entry.1 actions entry.2) ∧ report = .of swept (done.map (·.2))

inductive Rounds (start : System) (round : Task) (keepAlives : List TaskId) (swept : Nat)
    (actions : List Action) : Prop where
  | gathers {done : List (TaskId × Except Error Value)} {pending : List TaskId}
    (h : start.Gathers round keepAlives swept actions done pending) :
    start.Rounds round keepAlives swept actions
  | reports (report : Report) (h : start.Reports round keepAlives swept actions report) :
    start.Rounds round keepAlives swept actions

section
variable {system start : System} {round : Task} {c : Nat} {keepAlives : List TaskId} {swept : Nat}
  {action : Action} {actions : List Action} {done : List (TaskId × Except Error Value)}
  {pending : List TaskId} {report : Report}

theorem gather_round {rest : List TaskId} {report' : Report} {after : System}
    (hjob : round.job = .round c) (hcollect : system.collect pending report = (rest, report', after))
    (tickFirst : Bool) (stage : Stage) (next : Nat)
    : system.gather tickFirst { round with stage } pending report next =
        if rest = [] then after.finish round (.ok (.report report'))
        else after.setTask { round with stage := .gathering rest report' next } := by
  unfold gather
  rw [hcollect]
  cases rest with
  | nil =>
    dsimp only
    rw [hjob]
    rfl
  | cons => rfl

theorem step_gathering {next : Nat}
    (htask : system.task? round.id = some { round with stage := .gathering pending report next })
    (tickFirst : Bool)
    : system.step tickFirst round.id =
        system.gather tickFirst { round with stage := .gathering pending report next } pending report
          next := by
  unfold step
  rw [htask]

theorem Gathers.job_eq (h : start.Gathers round keepAlives swept actions done pending)
    {task : Task} (htask : (start.after actions).task? round.id = some task)
    : task.job = round.job := by
  obtain ⟨next, hround⟩ := h.task?_eq
  rw [Option.some.inj (htask.symm.trans hround)]

theorem Gathers.nodup (h : start.Gathers round keepAlives swept actions done pending)
    (hconvened : (start.after actions).Convened round c keepAlives) : pending.Nodup :=
  (List.nodup_append.1 (h.keepAlives_eq ▸ hconvened.nodup)).2.1

theorem Gathers.collects (h : start.Gathers round keepAlives swept actions done pending)
    (hconvened : (start.after actions).Convened round c keepAlives)
    : ∃ more rest after,
        (start.after actions).collect pending (.of swept (done.map (·.2))) =
          (rest, .of swept ((done ++ more).map (·.2)), after) ∧
        (start.after actions).Collects (start.Comes · actions) pending more rest after := by
  obtain ⟨more, rest, after, hcollect, hcollects⟩ :=
    (start.after actions).collects_collect swept (done.map (·.2)) (h.nodup hconvened)
      fun id hid => (h.owed id hid).letters_cases
  rw [← List.map_append] at hcollect
  exact ⟨more, rest, after, hcollect, hcollects⟩

theorem Gathers.comes_append (h : start.Gathers round keepAlives swept actions done pending)
    {more : List (TaskId × Except Error Value)}
    (hmore : ∀ entry ∈ more, start.Comes entry.1 actions entry.2) (action : Action)
    : ∀ entry ∈ done ++ more, start.Comes entry.1 (action :: actions) entry.2 := by
  intro entry hentry
  rcases List.mem_append.1 hentry with hold | hnew
  . exact (h.comes entry hold).cons action
  . exact (hmore entry hnew).cons action

theorem Gathers.reports (h : start.Gathers round keepAlives swept actions done pending)
    {more : List (TaskId × Except Error Value)} {after : System}
    (hcollects : (start.after actions).Collects (start.Comes · actions) pending more [] after)
    (hstep : start.after (action :: actions) =
      after.finish round (.ok (.report (.of swept ((done ++ more).map (·.2))))))
    : start.Reports round keepAlives swept (action :: actions)
        (.of swept ((done ++ more).map (·.2))) := by
  have hgone : (start.after (action :: actions)).task? round.id = none := by
    rw [hstep]
    apply task?_finish
  refine ⟨hgone, ⟨_, List.suffix_rfl, hgone, ?_⟩, done ++ more, ?_,
    h.comes_append hcollects.comes action, rfl⟩
  . rw [hstep]
    apply told_finish
  . have hpending := hcollects.pending_eq
    rw [List.append_nil] at hpending
    rw [List.map_append, ← hpending]
    exact h.keepAlives_eq

theorem Gathers.goesOn (h : start.Gathers round keepAlives swept actions done pending)
    (hconvened : (start.after actions).Convened round c keepAlives)
    {more : List (TaskId × Except Error Value)} {rest : List TaskId} {after : System}
    (hcollects : (start.after actions).Collects (start.Comes · actions) pending more rest after)
    (hsome : rest ≠ []) {next : Nat}
    (hstep : start.after (action :: actions) = after.setTask
      { round with stage := .gathering rest (.of swept ((done ++ more).map (·.2))) next })
    : start.Gathers round keepAlives swept (action :: actions) (done ++ more) rest := by
  have hpending := hcollects.pending_eq
  refine ⟨?_, hsome, ⟨next, ?_⟩, h.comes_append hcollects.comes action, ?_⟩
  . rw [List.map_append, List.append_assoc, ← hpending]
    exact h.keepAlives_eq
  . obtain ⟨inbox, rfl⟩ := hcollects.after_eq
    obtain ⟨_, htask⟩ := h.task?_eq
    rw [hstep, task?_setTask]
    change ((start.after actions).task? round.id).map _ = _
    rw [htask, Option.map_some, if_pos rfl]
  . intro id hid
    have hmem : id ∈ pending := hpending ▸ List.mem_append_right _ hid
    have hne : round.id ≠ id := by
      rintro rfl
      exact hconvened.not_mem (h.keepAlives_eq ▸ List.mem_append_right _ hmem)
    have hletters := hcollects.letters_rest (h.nodup hconvened) hid
    obtain ⟨inbox, rfl⟩ := hcollects.after_eq
    apply (h.owed id hmem).unmoved
    rw [hstep]
    exact ⟨task?_setTask_of_ne _ hne, rfl, hletters⟩

theorem Gathers.step (h : start.Gathers round keepAlives swept actions done pending)
    (hconvened : (start.after actions).Convened round c keepAlives) (tickFirst : Bool)
    : (∃ report, start.Reports round keepAlives swept (.step tickFirst round.id :: actions) report) ∨
        ∃ more rest,
          start.Gathers round keepAlives swept (.step tickFirst round.id :: actions) (done ++ more)
            rest ∧
          pending = more.map (·.1) ++ rest ∧
          ∀ id ∈ rest.head?, (start.after (.step tickFirst round.id :: actions)).letters id = [] := by
  obtain ⟨next, htask⟩ := h.task?_eq
  obtain ⟨more, rest, after, hcollect, hcollects⟩ := h.collects hconvened
  have hstep : start.after (.step tickFirst round.id :: actions) = _ :=
    (step_gathering htask tickFirst).trans (gather_round hconvened.job_eq hcollect tickFirst _ next)
  by_cases hsome : rest = []
  . subst hsome
    rw [if_pos rfl] at hstep
    exact .inl ⟨_, h.reports hcollects hstep⟩
  . rw [if_neg hsome] at hstep
    refine .inr ⟨more, rest, h.goesOn hconvened hcollects hsome hstep, hcollects.pending_eq, ?_⟩
    intro id hid
    rw [hstep]
    have hletters := hcollects.letters_rest (h.nodup hconvened) (List.mem_of_mem_head? hid)
    exact hletters.trans (hcollects.waits id hid)

theorem Gathers.other (h : start.Gathers round keepAlives swept actions done pending)
    (hlegal : Legal start (action :: actions))
    (hconvened : (start.after actions).Convened round c keepAlives)
    (hleaves : LeavesAlone round.id keepAlives action)
    (hown : ∀ tickFirst, action ≠ .step tickFirst round.id)
    : start.Gathers round keepAlives swept (action :: actions) done pending := by
  have hround (task : Task) (htask : (start.after actions).task? round.id = some task)
      : task.job = .round c :=
    (h.job_eq htask).trans hconvened.job_eq
  obtain ⟨hall, hsome, ⟨next, htask⟩, hcomes, howed⟩ := h
  refine ⟨hall, hsome, ⟨next, ?_⟩, fun entry hentry => (hcomes entry hentry).cons action, ?_⟩
  . exact (hconvened.task?_eq hlegal.2 hround hleaves hown).trans htask
  . intro id hid
    have hmem : id ∈ keepAlives := hall ▸ List.mem_append_right _ hid
    exact (howed id hid).cons hlegal hconvened hmem ⟨_, htask, hround _ htask⟩ hleaves hown

theorem Reports.cons (h : start.Reports round keepAlives swept actions report)
    (hlegal : Legal start (action :: actions)) (hid : round.id < (start.after actions).nextTask)
    : start.Reports round keepAlives swept (action :: actions) report := by
  obtain ⟨hnone, ⟨past, hpast, htold⟩, done, hall, hcomes, hreport⟩ := h
  exact ⟨(changes_act hlegal.2).grows.ended _ hid hnone,
    ⟨past, hpast.trans (List.suffix_cons _ _), htold⟩, done, hall,
    fun entry hentry => (hcomes entry hentry).cons action, hreport⟩

theorem Rounds.cons (h : start.Rounds round keepAlives swept actions)
    (hlegal : Legal start (action :: actions))
    (hconvened : (start.after actions).Convened round c keepAlives)
    (hleaves : LeavesAlone round.id keepAlives action)
    : start.Rounds round keepAlives swept (action :: actions) := by
  cases h with
  | reports report hreports => exact .reports report (hreports.cons hlegal hconvened.id_lt)
  | gathers hgathers =>
    rcases action.step_or_ne round.id with ⟨tickFirst, rfl⟩ | hother
    . rcases hgathers.step hconvened tickFirst with ⟨report, hreports⟩ | ⟨_, _, hstill, _⟩
      . exact .reports report hreports
      . exact .gathers hstill
    . exact .gathers (hgathers.other hlegal hconvened hleaves hother)

theorem Rounds.after (h : start.Rounds round keepAlives swept [])
    (hconvened : start.Convened round c keepAlives)
    (hobeys : start.Obeys (fun _ => LeavesAlone round.id keepAlives) actions)
    : start.Rounds round keepAlives swept actions := by
  induction actions with
  | nil => exact h
  | cons action actions ih =>
    exact (ih hobeys.tail).cons hobeys.legal (hconvened.after hobeys.tail.legal) hobeys.head.2

end

end System

end MediaProxy
