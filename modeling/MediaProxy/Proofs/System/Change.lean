import MediaProxy.Proofs.Object.Holding
import MediaProxy.Proofs.System.Action

/-!
This module contains the small changes that every action is made of, and what they may touch: tasks,
leases, openings and waits, results that somebody will ask for, and objects.
-/

namespace MediaProxy

def Job.isOperation : Job → Bool
  | .operate .. => true
  | .ownPipeline _ => true
  | _ => false

theorem Job.isOperation_cases {job : Job} (h : job.isOperation)
    : (∃ o operation, job = .operate o operation) ∨ ∃ o, job = .ownPipeline o := by
  cases job with
  | operate o operation => exact .inl ⟨o, operation, rfl⟩
  | ownPipeline o => exact .inr ⟨o, rfl⟩
  | _ => cases h

def Job.IsOn (o : ObjectId) : Job → Prop
  | .operate p _ => p = o
  | .ownPipeline p => p = o
  | _ => False

theorem Job.IsOn.isOperation {o : ObjectId} {job : Job} (h : job.IsOn o) : job.isOperation := by
  cases job with
  | operate p operation => rfl
  | ownPipeline p => rfl
  | _ => cases h

def Job.acquires : Job → Bool
  | .acquire _ => true
  | .operate .. => true
  | _ => false

def Task.core (task : Task) : Job × Stage :=
  (task.job, task.stage)

def Task.unheard (task : Task) : Task :=
  { task with continuation.handler := .channel false }

def Task.queues (task : Task) : Bool :=
  match task.stage with
  | .fresh => task.job.acquires
  | .waiting _ => true
  | _ => false

def Stage.pending : Stage → List TaskId
  | .gathering pending .. => pending
  | _ => []

structure Scope where
  tasks : TaskId → Prop := fun _ => False
  tickets : Ticket → Prop := fun _ => False
  queues : Ticket → Prop := fun _ => False
  results : TaskId → Prop := fun _ => False
  jobs : Job → Prop := fun _ => False
  births : Job → Prop := fun _ => False
  shares : Prop := False
  moves : Prop := False
  first : TaskId

structure Scope.Serves (scope : Scope) (task : Task) : Prop where
  tasks : scope.tasks task.id
  tickets : scope.tickets task.id
  jobs : scope.jobs task.job

def Scope.Shares (scope : Scope) : Prop :=
  scope.shares ∨ ∃ job, scope.jobs job ∧ job.isOperation

theorem Scope.shares_of_job {scope : Scope} {job : Job} (h : scope.jobs job)
    (hjob : job.isOperation) : scope.Shares :=
  .inr ⟨job, h, hjob⟩

def Scope.everything (first : TaskId) : Scope where
  tasks _ := True
  tickets _ := True
  queues _ := True
  results _ := True
  moves := True
  first := first

namespace System

def Leaves (system : System) (scope : Scope) (id : TaskId) : Prop :=
  scope.results id ∨ scope.first ≤ id ∧ id < system.nextTask

def Cares (system : System) (job : Job) : Prop :=
  ∃ o, job = .operate o .keepAlive ∧ system.store.Minds o

inductive Says (system : System) (id : TaskId) : System → Prop where
  | nothing : system.Says id system
  | noted (name : String) (result : Except Error Outcome) :
    system.Says id (system.note (.resolved system.now id name result))
  | delivered (result : Except Error Outcome) :
    system.Says id { system with inbox := system.inbox ++ [(id, result)] }

/--
A small change that touches nothing outside its scope.
-/
inductive Change (scope : Scope) (before : System) : System → Prop where
  | share {store : Store} (h : before.store.Extends store)
    (hshares : scope.Shares ∨ before.store.Sheds store) :
    before.Change scope { before with store }
  | conclude (o : ObjectId) (operation : Operation) (outcome : Except RpcError Reply)
    (h : scope.jobs (.operate o operation)) :
    before.Change scope { before with store := (before.store.conclude o operation outcome).2 }
  | serve (c : Nat) (server : Server) : before.Change scope (before.setServer c server)
  | slots (c : Nat) (flavor : Flavor) (move : Slots.Move) (h : scope.tickets move.ticket)
    (hqueues : move.queues = true → scope.queues move.ticket) :
    before.Change scope (before.setSlots c flavor ((before.slots c flavor).perform move))
  | found {store : Store} (context : Context) (h : before.store.Extends store)
    (hfactory : context.factory < store.factories.length)
    (hvalid : context.config.fault? = none) (hshares : scope.shares) :
    before.Change scope
      { before with
        store := store.addContext context
        links := before.links ++ [{ pool := .ofConfig context.config }] }
  | setTask (task : Task) (h : scope.Serves task)
    (hpending : ∀ id ∈ task.stage.pending, before.Leaves scope id) :
    before.Change scope (before.setTask task)
  | unheard (id : TaskId) (h : before.Leaves scope id) :
    before.Change scope
      { before with
        tasks := before.tasks.map fun task => if task.id = id then task.unheard else task }
  | removeTask (id : TaskId) (h : scope.tasks id) : before.Change scope (before.removeTask id)
  | start (task : Task) (ready : List TaskId) (h : task.id = before.nextTask)
    (hstage : task.stage = .fresh) (hready : before.ready ⊆ ready)
    (hline : task.foreground = true ∨ task.id ∈ ready)
    (hborn : scope.births task.job ∨ before.Cares task.job) :
    before.Change scope
      { before with
        nextTask := before.nextTask + 1
        tasks := before.tasks ++ [task]
        ready }
  | number {after : System}
    (h : { before with nextTask := before.nextTask + 1 }.Says before.nextTask after) :
    before.Change scope after
  | line (ready : List TaskId)
    (h : ∀ id ∈ before.ready, id ∈ ready ∨ scope.tasks id ∨ before.task? id = none) :
    before.Change scope { before with ready }
  | tell (id : TaskId) {after : System} (h : scope.tasks id) (hnone : before.task? id = none)
    (hsaid : before.Says id after) :
    before.Change scope after
  | take (id : TaskId) (h : before.Leaves scope id) :
    before.Change scope { before with inbox := before.inbox.filter (·.1 ≠ id) }
  | note (happening : Happening)
    (h : ∀ time id name result, happening ≠ .resolved time id name result)
    (hround : ∀ time id, happening = .round time id → ∃ task, task.id = id ∧ scope.Serves task) :
    before.Change scope (before.note happening)
  | rest (now : Nat) (running : Bool) (nextPlace : Nat)
    (h : (now = before.now ∧ running = before.running) ∨ scope.moves) :
    before.Change scope { before with now, running, nextPlace }

inductive Changes (scope : Scope) (start : System) : System → Prop where
  | refl : start.Changes scope start
  | step {before after : System} (h : start.Changes scope before)
    (hchange : before.Change scope after) :
    start.Changes scope after

section
variable {scope : Scope}

namespace Changes

theorem single {before after : System} (h : before.Change scope after)
    : before.Changes scope after :=
  .step .refl h

theorem trans {first second third : System} (h : first.Changes scope second)
    (h' : second.Changes scope third) : first.Changes scope third := by
  induction h' with
  | refl => exact h
  | step _ hchange ih => exact ih.step hchange

theorem foldl {α : Type} {f : System → α → System} (as : List α)
    (h : ∀ (system : System), ∀ a ∈ as, system.Changes scope (f system a)) (system : System)
    : system.Changes scope (as.foldl f system) := by
  induction as generalizing system with
  | nil => exact .refl
  | cons a as ih =>
    apply (h system a List.mem_cons_self).trans
    exact ih (fun system a' ha => h system a' (List.mem_cons_of_mem a ha)) _

end Changes

variable (system : System)

theorem wake_eq (id : TaskId)
    : ∃ ready, system.wake id = { system with ready } ∧ system.ready ⊆ ready := by
  unfold wake
  split
  . exact ⟨system.ready, rfl, List.Subset.refl _⟩
  . split
    . exact ⟨system.ready, rfl, List.Subset.refl _⟩
    . exact ⟨_, rfl, List.subset_append_left _ _⟩

theorem foldl_wake (ids : List TaskId)
    : ∃ ready, ids.foldl wake system = { system with ready } := by
  induction ids generalizing system with
  | nil => exact ⟨system.ready, rfl⟩
  | cons id ids ih =>
    obtain ⟨ready, hwake, _⟩ := system.wake_eq id
    obtain ⟨ready', hrest⟩ := ih { system with ready }
    exact ⟨ready', by rw [List.foldl_cons, hwake, hrest]⟩

theorem changes_wake (id : TaskId) : system.Changes scope (system.wake id) := by
  obtain ⟨ready, hwake, hsubset⟩ := system.wake_eq id
  rw [hwake]
  exact .single (.line ready fun _ h => .inl (hsubset h))

theorem changes_setServer (c : Nat) (server : Server)
    : system.Changes scope (system.setServer c server) :=
  .single (.serve c server)

theorem changes_sheds {store : Store} (h : system.store.Sheds store)
    : system.Changes scope { system with store } :=
  .single (.share h.extending (.inr h))

theorem changes_letGo (proxies : List ObjectId) : system.Changes scope (system.letGo proxies) :=
  system.changes_sheds (Store.Sheds.refl.foldl_letGo proxies)

theorem resolve_cases (id : TaskId) (name : String) (continuation : Continuation)
    (result : Except Error Outcome)
    : (∃ said, system.Says id said ∧
        (system.resolve id name continuation result = said ∨
          ∃ waiter, system.resolve id name continuation result = said.wake waiter)) ∨
      ∃ proxies, system.resolve id name continuation result = system.letGo proxies := by
  unfold resolve
  split
  . exact .inl ⟨_, .noted name _, .inl rfl⟩
  . exact .inl ⟨_, .noted name _, .inl rfl⟩
  . exact .inl ⟨_, .noted name _, .inl rfl⟩
  . dsimp only
    split
    . exact .inl ⟨_, .delivered _, .inl rfl⟩
    . exact .inl ⟨_, .delivered _, .inr ⟨_, rfl⟩⟩
  . exact .inr ⟨_, rfl⟩
  . exact .inl ⟨_, .nothing, .inl rfl⟩

theorem changes_resolve {id : TaskId} (name : String) (continuation : Continuation)
    (result : Except Error Outcome) (h : scope.tasks id) (hnone : system.task? id = none)
    : system.Changes scope (system.resolve id name continuation result) := by
  rcases system.resolve_cases id name continuation result with
    ⟨said, hsaid, hresolve | ⟨waiter, hresolve⟩⟩ | ⟨proxies, hresolve⟩
  . rw [hresolve]
    exact .single (.tell id h hnone hsaid)
  . rw [hresolve]
    exact (Changes.single (.tell id h hnone hsaid)).trans (changes_wake _ _)
  . rw [hresolve]
    apply changes_letGo

theorem changes_answer (name : String) (continuation : Continuation)
    (result : Except Error Outcome)
    : system.Changes scope
        ({ system with nextTask := system.nextTask + 1 }.resolve system.nextTask name continuation
          result) := by
  rcases resolve_cases { system with nextTask := system.nextTask + 1 } system.nextTask name
      continuation result with
    ⟨said, hsaid, hresolve | ⟨waiter, hresolve⟩⟩ | ⟨proxies, hresolve⟩
  . rw [hresolve]
    exact .single (.number hsaid)
  . rw [hresolve]
    exact (Changes.single (.number hsaid)).trans (changes_wake _ _)
  . rw [hresolve]
    exact (Changes.single (.number .nothing)).trans (changes_letGo _ _)

theorem changes_setSlots (c : Nat) (flavor : Flavor) (move : Slots.Move)
    (h : scope.tickets move.ticket) (hqueues : move.queues = true → scope.queues move.ticket)
    : system.Changes scope (system.setSlots c flavor ((system.slots c flavor).perform move)) :=
  .single (.slots c flavor move h hqueues)

theorem changes_stepSlots (c : Nat) (flavor : Flavor) (move : Slots.Move)
    {step : Slots → Option Ticket × Slots} (hstep : ∀ slots, (step slots).2 = slots.perform move)
    (h : scope.tickets move.ticket) (hqueues : move.queues = true → scope.queues move.ticket)
    : system.Changes scope (system.stepSlots c flavor step) := by
  have hset := system.changes_setSlots c flavor move h hqueues
  rw [← hstep] at hset
  unfold stepSlots
  dsimp only
  split
  . exact hset
  . exact hset.trans (changes_wake _ _)

theorem changes_giveBack (c : Nat) (flavor : Flavor) {ticket : Ticket} (h : scope.tickets ticket)
    : system.Changes scope (system.stepSlots c flavor (·.giveBack ticket)) :=
  system.changes_stepSlots c flavor (.giveBack ticket) (fun _ => rfl) h nofun

theorem changes_withdraw (c : Nat) (flavor : Flavor) {ticket : Ticket} (h : scope.tickets ticket)
    (hqueues : scope.queues ticket)
    : system.Changes scope (system.stepSlots c flavor (·.withdraw ticket)) :=
  system.changes_stepSlots c flavor (.withdraw ticket) (fun _ => rfl) h fun _ => hqueues

theorem changes_cancelOpening (c : Nat) (flavor : Flavor) {ticket : Ticket}
    (h : scope.tickets ticket)
    : system.Changes scope (system.stepSlots c flavor (·.cancelOpening ticket)) :=
  system.changes_stepSlots c flavor (.cancelOpening ticket) (fun _ => rfl) h nofun

theorem changes_finish {task : Task} (result : Except Error Outcome) (h : scope.tasks task.id)
    : system.Changes scope (system.finish task result) :=
  (Changes.single (.removeTask task.id h)).trans
    (changes_resolve _ _ _ _ h (task?_removeTask_self _ _))

theorem changes_park {task : Task} {stage : Stage} (h : scope.Serves task)
    (hpending : stage.pending = [])
    : system.Changes scope (system.park task stage) := by
  have hset : system.Changes scope
      (system.setTask { task with stage, place := system.nextPlace }) := by
    apply Changes.single
    refine .setTask _ ⟨h.tasks, h.tickets, h.jobs⟩ ?_
    intro id hid
    rw [hpending] at hid
    cases hid
  exact hset.step (.rest _ _ _ (.inl ⟨rfl, rfl⟩))

/-!
## Starting and leaving tasks
-/

theorem changes_spawn (job : Job) (continuation : Continuation) (name : String)
    (hborn : scope.births job ∨ system.Cares job)
    : system.Changes scope (system.spawn job continuation name).2 := by
  unfold spawn
  dsimp only
  split
  . apply Changes.single
    apply Change.start { id := system.nextTask, job, continuation, name } _ rfl rfl
    . apply List.subset_append_left
    . simp
    . exact hborn
  . split
    . next o =>
      exact (changes_letGo _ _).trans (changes_answer (system.letGo [o]) name continuation _)
    . apply changes_answer

theorem changes_attend {job : Job} (hborn : scope.births job)
    : system.Changes scope (system.attend job).2 :=
  .single (.start _ _ rfl rfl (List.Subset.refl _) (.inl rfl) (.inl hborn))

theorem changes_ignore {id : TaskId} (h : system.Leaves scope id)
    : system.Changes scope (system.ignore id) := by
  have hunheard := Changes.single (Change.unheard id h)
  unfold ignore
  dsimp only
  split
  . exact hunheard
  . exact (hunheard.step (.take id h)).trans (changes_letGo _ _)

theorem changes_of_collect? {id : TaskId} {result : Except Error Outcome} {after : System}
    (hleaves : system.Leaves scope id) (h : system.collect? id = some (result, after))
    : system.Changes scope after := by
  unfold collect? at h
  rw [Option.map_eq_some_iff] at h
  obtain ⟨_, _, heq⟩ := h
  cases heq
  exact .single (.take id hleaves)

theorem nextTask_of_collect? {system after : System} {id : TaskId} {result : Except Error Outcome}
    (h : system.collect? id = some (result, after)) : after.nextTask = system.nextTask := by
  unfold collect? at h
  rw [Option.map_eq_some_iff] at h
  obtain ⟨_, _, heq⟩ := h
  cases heq
  rfl

/-!
## Calls and acquisitions
-/

theorem changes_ask (c : Nat) (flavor : Flavor) (lease : Ticket) (target : Reference)
    (request : Request)
    : system.Changes scope (system.ask c flavor lease target request).2.2 :=
  (changes_setServer _ _ _).step (.note _ (by simp) (by simp))

theorem changes_judge (c : Nat) (flavor : Flavor) {lease : Ticket}
    (outcome : Except RpcError Reply) (h : scope.tickets lease)
    : system.Changes scope (system.judge c flavor lease outcome) := by
  unfold judge
  split
  . exact .refl
  . split
    . exact .single (.slots c flavor (.markBroken lease) h nofun)
    . exact .refl

theorem changes_conclude (flavor : Flavor) {lease : Ticket} {o : ObjectId}
    {operation : Operation} (reply : Except RpcError Reply) (h : scope.tickets lease)
    (hjobs : scope.jobs (.operate o operation))
    : system.Changes scope (system.conclude flavor lease o operation reply).2 := by
  unfold conclude
  dsimp only
  apply (changes_judge _ _ _ _ h).trans
  apply (changes_giveBack _ _ _ h).trans
  exact .single (.conclude o operation _ hjobs)

theorem changes_complete {task : Task} (reply : Except RpcError Reply) (h : scope.Serves task)
    : system.Changes scope (system.complete task reply) := by
  unfold complete
  split
  . next hjob =>
    have hjobs := h.jobs
    rw [hjob] at hjobs
    exact (changes_conclude _ _ _ h.tickets hjobs).trans (changes_finish _ _ h.tasks)
  . apply changes_finish _ _ h.tasks

theorem changes_call {task : Task} (lease : Ticket) (target : Reference) (request : Request)
    (h : scope.Serves task)
    : system.Changes scope (system.call task lease target request) := by
  unfold call
  dsimp only
  split
  . exact (changes_ask _ _ _ _ _ _).trans (changes_complete _ _ h)
  . exact (changes_ask _ _ _ _ _ _).trans (changes_park _ h rfl)

theorem changes_connect (c : Nat) (flavor : Flavor) {ticket : Ticket} (h : scope.tickets ticket)
    : system.Changes scope (system.connect c flavor ticket) := by
  unfold connect
  dsimp only
  apply (changes_setServer _ _ _).trans
  rw [← system.setServer_slots c (system.link c).server.connected.2 c flavor]
  exact .single (.slots c flavor (.opened ticket _) h nofun)

theorem changes_leased {task : Task} (h : scope.Serves task)
    : system.Changes scope (system.leased task) := by
  unfold leased
  split
  . apply changes_call _ _ _ _ h
  . apply changes_finish _ _ h.tasks

theorem changes_opened {task : Task} (error : Option RpcError) (h : scope.Serves task)
    : system.Changes scope (system.opened task error) := by
  unfold opened
  dsimp only
  split
  . exact (changes_connect _ _ _ h.tickets).trans (changes_leased _ h)
  . exact (changes_cancelOpening _ _ _ h.tickets).trans (changes_finish _ _ h.tasks)

theorem changes_openConnection {task : Task} (h : scope.Serves task)
    : system.Changes scope (system.openConnection task) := by
  unfold openConnection
  dsimp only
  split
  . exact (changes_setServer _ _ _).trans (changes_opened _ _ h)
  . exact (changes_setServer _ _ _).trans (changes_park _ h rfl)

theorem changes_refuse {task : Task} (h : scope.Serves task) (hqueues : scope.queues task.id)
    : system.Changes scope (system.refuse task) :=
  (changes_withdraw _ _ _ h.tickets hqueues).trans (changes_finish _ _ h.tasks)

theorem changes_granted {task : Task} (deadline : Nat) (grant : Grant) (h : scope.Serves task)
    (hqueues : scope.queues task.id)
    : system.Changes scope (system.granted task deadline grant) := by
  unfold granted
  split
  . apply changes_leased _ h
  . apply changes_openConnection _ h
  . split
    . apply changes_refuse _ h hqueues
    . apply changes_park _ h rfl

theorem changes_acquire {task : Task} (h : scope.Serves task) (hqueues : scope.queues task.id)
    : system.Changes scope (system.acquire task) := by
  unfold acquire
  dsimp only
  apply Changes.trans _ (changes_granted _ _ _ h hqueues)
  exact .single (.slots _ _ (.ask task.id) h.tickets fun _ => hqueues)

theorem changes_acquireAgain {task : Task} (deadline : Nat) (h : scope.Serves task)
    (hqueues : scope.queues task.id)
    : system.Changes scope (system.acquireAgain task deadline) := by
  unfold acquireAgain
  dsimp only
  apply Changes.trans _ (changes_granted _ _ _ h hqueues)
  exact .single (.slots _ _ (.resume task.id) h.tickets fun _ => hqueues)

/-!
## Rounds of keepalives
-/

theorem nextTask_resolve (id : TaskId) (name : String) (continuation : Continuation)
    (result : Except Error Outcome)
    : (system.resolve id name continuation result).nextTask = system.nextTask := by
  rcases system.resolve_cases id name continuation result with
    ⟨said, hsaid, hresolve | ⟨waiter, hresolve⟩⟩ | ⟨proxies, hresolve⟩
  . rw [hresolve]
    cases hsaid <;> rfl
  . obtain ⟨ready, hwake, _⟩ := said.wake_eq waiter
    rw [hresolve, hwake]
    cases hsaid <;> rfl
  . rw [hresolve]
    rfl

theorem nextTask_spawn (job : Job) (continuation : Continuation) (name : String)
    : (system.spawn job continuation name).2.nextTask = system.nextTask + 1 := by
  unfold spawn
  dsimp only
  split
  . rfl
  . dsimp only
    rw [nextTask_resolve]
    split <;> rfl

theorem fst_spawn (job : Job) (continuation : Continuation) (name : String)
    : (system.spawn job continuation name).1 = system.nextTask := by
  unfold spawn
  dsimp only
  split <;> rfl

theorem store_resolve (id : TaskId) (name : String) (continuation : Continuation)
    (result : Except Error Outcome)
    : ∃ held, (system.resolve id name continuation result).store = { system.store with held } := by
  rcases system.resolve_cases id name continuation result with
    ⟨said, hsaid, hresolve | ⟨waiter, hresolve⟩⟩ | ⟨proxies, hresolve⟩
  . rw [hresolve]
    cases hsaid <;> exact ⟨_, rfl⟩
  . obtain ⟨ready, hwake, _⟩ := said.wake_eq waiter
    rw [hresolve, hwake]
    cases hsaid <;> exact ⟨_, rfl⟩
  . rw [hresolve]
    exact Store.foldl_letGo_eq _ _

theorem store_spawn (job : Job) (continuation : Continuation) (name : String)
    : ∃ held, (system.spawn job continuation name).2.store = { system.store with held } := by
  unfold spawn
  dsimp only
  split
  . exact ⟨_, rfl⟩
  . dsimp only
    split
    . exact store_resolve _ _ _ _ _
    . exact store_resolve _ _ _ _ _

theorem foldl_start_spec (scope : Scope) (objects : List ObjectId)
    (state : List TaskId × System) {first : TaskId}
    (h : ∀ id ∈ state.1, first ≤ id ∧ id < state.2.nextTask) (hfirst : first ≤ state.2.nextTask)
    (hminds : ∀ o ∈ objects, state.2.store.Minds o)
    : state.2.Changes scope (objects.foldl beginRound.start state).2 ∧
      state.2.nextTask ≤ (objects.foldl beginRound.start state).2.nextTask ∧
      ∀ id ∈ (objects.foldl beginRound.start state).1,
        first ≤ id ∧ id < (objects.foldl beginRound.start state).2.nextTask := by
  induction objects generalizing state with
  | nil => exact ⟨.refl, Nat.le_refl _, h⟩
  | cons o objects ih =>
    rw [List.foldl_cons]
    have hspawn : state.2.Changes scope (beginRound.start state o).2 :=
      changes_spawn state.2 (.operate o .keepAlive) _ _ (.inr ⟨o, rfl, hminds o List.mem_cons_self⟩)
    have hnext : (beginRound.start state o).2.nextTask = state.2.nextTask + 1 :=
      nextTask_spawn state.2 (.operate o .keepAlive) _ _
    have hids : ∀ id ∈ (beginRound.start state o).1,
        first ≤ id ∧ id < (beginRound.start state o).2.nextTask := by
      intro id hid
      have hmem : id ∈ state.1 ++
          [(state.2.spawn (.operate o .keepAlive) { handler := .channel true } "").1] := hid
      rw [fst_spawn] at hmem
      rw [hnext]
      rcases List.mem_append.1 hmem with hold | hnew
      . exact ⟨(h id hold).1, Nat.lt_succ_of_lt (h id hold).2⟩
      . rw [List.mem_singleton.1 hnew]
        exact ⟨hfirst, Nat.lt_succ_self _⟩
    have hle : state.2.nextTask ≤ (beginRound.start state o).2.nextTask := by
      rw [hnext]
      apply Nat.le_succ
    obtain ⟨held, hstore⟩ : ∃ held, (beginRound.start state o).2.store = { state.2.store with held } :=
      store_spawn state.2 (.operate o .keepAlive) _ _
    have hrest : ∀ other ∈ objects, (beginRound.start state o).2.store.Minds other := by
      intro other hother
      rw [hstore]
      exact hminds other (List.mem_cons_of_mem o hother)
    obtain ⟨hchanges, hlater, hstarted⟩ :=
      ih (beginRound.start state o) hids (Nat.le_trans hfirst hle) hrest
    exact ⟨hspawn.trans hchanges, Nat.le_trans hle hlater, hstarted⟩

theorem beginRound_spec {scope : Scope} {task : Task} (c : Nat) (h : scope.Serves task)
    : system.Changes scope (system.beginRound task.id c).2.2 ∧
      system.nextTask ≤ (system.beginRound task.id c).2.2.nextTask ∧
      ∀ other ∈ (system.beginRound task.id c).1,
        system.nextTask ≤ other ∧ other < (system.beginRound task.id c).2.2.nextTask := by
  have hround (time : Nat) (id : TaskId)
      (heq : Happening.round system.now task.id = .round time id)
      : ∃ task, task.id = id ∧ scope.Serves task := by
    cases heq
    exact ⟨task, rfl, h⟩
  have hnote : system.Changes scope (system.note (.round system.now task.id)) :=
    .single (.note _ (by simp) hround)
  have hsweep := hnote.trans
    (changes_sheds _ (Store.Sheds.refl.sweep (system.store.context c).factory))
  unfold beginRound
  dsimp only
  obtain ⟨hchanges, hle, hstarted⟩ := foldl_start_spec scope _ ([], _) nofun (Nat.le_refl _)
    fun o ho => Store.minds_of_mem_living ho
  exact ⟨hsweep.trans hchanges, hle, hstarted⟩

theorem Leaves.mono {before after : System} {id : TaskId} (h : before.Leaves scope id)
    (hle : before.nextTask ≤ after.nextTask) : after.Leaves scope id :=
  h.imp_right fun hnew => ⟨hnew.1, Nat.lt_of_lt_of_le hnew.2 hle⟩

theorem collect_eq (system : System) (pending : List TaskId) (report : Report)
    : ∃ inbox, (system.collect pending report).2.2 = { system with inbox } := by
  induction pending generalizing system report with
  | nil => exact ⟨_, rfl⟩
  | cons id pending ih =>
    have hrest {result : Except Error Outcome} {after : System}
        (h : system.collect? id = some (result, after)) (report : Report)
        : ∃ inbox, (after.collect pending report).2.2 = { system with inbox } := by
      unfold collect? at h
      obtain ⟨_, _, heq⟩ := Option.map_eq_some_iff.1 h
      cases heq
      apply ih
    unfold collect
    split
    . exact ⟨_, rfl⟩
    . next heq => exact hrest heq _
    . next heq => exact hrest heq _

theorem collect_spec (pending : List TaskId) (report : Report)
    (h : ∀ id ∈ pending, system.Leaves scope id)
    : system.Changes scope (system.collect pending report).2.2 ∧
      (system.collect pending report).2.2.nextTask = system.nextTask ∧
      (system.collect pending report).1 ⊆ pending := by
  induction pending generalizing system report with
  | nil => exact ⟨.refl, rfl, List.Subset.refl _⟩
  | cons id pending ih =>
    have hid := h id List.mem_cons_self
    have hrest : ∀ {after : System} {result : Except Error Outcome},
        system.collect? id = some (result, after) → ∀ other ∈ pending, after.Leaves scope other :=
      fun heq other hother => (h other (List.mem_cons_of_mem _ hother)).mono
        (Nat.le_of_eq (nextTask_of_collect? heq).symm)
    unfold collect
    split
    . exact ⟨.refl, rfl, List.Subset.refl _⟩
    . next heq =>
      obtain ⟨hchanges, hnext, hsubset⟩ := ih _ { report with sent := report.sent + 1 } (hrest heq)
      exact ⟨(changes_of_collect? _ hid heq).trans hchanges,
        hnext.trans (nextTask_of_collect? heq), List.subset_cons_of_subset _ hsubset⟩
    . next heq =>
      obtain ⟨hchanges, hnext, hsubset⟩ :=
        ih _ { report with failed := report.failed + 1 } (hrest heq)
      exact ⟨(changes_of_collect? _ hid heq).trans hchanges,
        hnext.trans (nextTask_of_collect? heq), List.subset_cons_of_subset _ hsubset⟩

theorem changes_tick (tickFirst : Bool) (system : System) {task : Task} (c period now due : Nat)
    (h : scope.Serves task) (hfirst : scope.first ≤ system.nextTask)
    : system.Changes scope (system.tick tickFirst task c period now due) := by
  unfold tick
  split
  . dsimp only
    obtain ⟨hround, hle, hstarted⟩ := system.beginRound_spec c h
    split
    . next heq =>
      rw [heq] at hround hle
      exact hround.trans (changes_tick _ _ _ _ _ _ h (Nat.le_trans hfirst hle))
    . next heq =>
      rw [heq] at hround hstarted
      apply hround.step
      refine .setTask _ ⟨h.tasks, h.tickets, h.jobs⟩ ?_
      intro id hid
      have hnew := hstarted id hid
      exact .inr ⟨Nat.le_trans hfirst hnew.1, hnew.2⟩
  . split
    . apply changes_finish _ _ h.tasks
    . apply changes_park _ h rfl
termination_by now + 1 - due
decreasing_by
  have := lt_nextTick period now due
  omega

theorem changes_gather (tickFirst : Bool) {task : Task} (pending : List TaskId) (report : Report)
    (next : Nat) (h : scope.Serves task) (hpending : ∀ id ∈ pending, system.Leaves scope id)
    (hfirst : scope.first ≤ system.nextTask)
    : system.Changes scope (system.gather tickFirst task pending report next) := by
  obtain ⟨hcollect, hnext, hsubset⟩ := collect_spec system pending report hpending
  unfold gather
  split
  . next heq =>
    rw [heq] at hcollect hnext
    split
    . apply hcollect.trans
      apply changes_tick _ _ _ _ _ _ h
      rw [hnext]
      exact hfirst
    . exact hcollect.trans (changes_finish _ _ h.tasks)
  . next heq =>
    rw [heq] at hcollect hnext hsubset
    apply hcollect.step
    refine .setTask _ ⟨h.tasks, h.tickets, h.jobs⟩ ?_
    intro id hid
    exact (hpending id (hsubset hid)).mono (Nat.le_of_eq hnext.symm)

/-!
## Steps
-/

theorem changes_start (tickFirst : Bool) {task : Task} (h : scope.Serves task)
    (hqueues : task.job.acquires = true → scope.queues task.id)
    (hfirst : scope.first ≤ system.nextTask)
    : system.Changes scope (system.start tickFirst task) := by
  unfold start
  split
  . next hjob =>
    rw [hjob] at hqueues
    apply changes_acquire _ h (hqueues rfl)
  . apply changes_call _ _ _ _ h
  . next o operation hjob =>
    rw [hjob] at hqueues
    have hstart := system.store.extends_start o operation
    have hshares := Scope.shares_of_job h.jobs (by rw [hjob]; rfl)
    split
    . next heq =>
      rw [heq] at hstart
      exact (Changes.single (.share hstart (.inl hshares))).trans (changes_finish _ _ h.tasks)
    . next heq =>
      rw [heq] at hstart
      exact (Changes.single (.share hstart (.inl hshares))).trans
        (changes_acquire _ h (hqueues rfl))
  . next o _ =>
    dsimp only
    apply Changes.trans _ (changes_finish _ _ h.tasks)
    exact changes_sheds _ (system.store.sheds_ownPipeline o)
  . next c _ =>
    obtain ⟨hround, hle, hstarted⟩ := system.beginRound_spec c h
    dsimp only
    apply hround.trans
    apply changes_gather _ _ _ _ _ h _ (Nat.le_trans hfirst hle)
    intro id hid
    have hnew := hstarted id hid
    exact .inr ⟨Nat.le_trans hfirst hnew.1, hnew.2⟩
  . apply changes_tick _ _ _ _ _ _ h hfirst

def scopeOf (system : System) (id : TaskId) : Scope where
  tasks other := other = id ∧ ∃ task, system.task? id = some task
  tickets ticket := ticket = id
  queues ticket := ticket = id ∧ ∃ task, system.task? id = some task ∧ task.queues = true
  results other := ∃ task, system.task? id = some task ∧ other ∈ task.stage.pending
  jobs job := ∃ task, system.task? id = some task ∧ task.job = job
  first := system.nextTask

theorem step_of_none {system : System} {id : TaskId} (h : system.task? id = none)
    (tickFirst : Bool) : system.step tickFirst id = system := by
  unfold step
  rw [h]

theorem changes_step (tickFirst : Bool) (id : TaskId)
    : system.Changes (system.scopeOf id) (system.step tickFirst id) := by
  unfold step
  split
  . exact .refl
  . next task htask =>
    have hid : task.id = id := task?_id htask
    have hserves : (system.scopeOf id).Serves task :=
      ⟨⟨hid, task, htask⟩, hid, task, htask, rfl⟩
    split
    . next hstage =>
      apply changes_start _ _ hserves _ (Nat.le_refl _)
      intro hacquires
      refine ⟨hid, task, htask, ?_⟩
      unfold Task.queues
      rw [hstage]
      exact hacquires
    . next hstage =>
      have hqueues : (system.scopeOf id).queues task.id := by
        refine ⟨hid, task, htask, ?_⟩
        unfold Task.queues
        rw [hstage]
      split
      . apply changes_acquireAgain _ _ hserves hqueues
      . split
        . apply changes_refuse _ hserves hqueues
        . exact .refl
    . split
      . apply changes_opened _ _ hserves
      . exact .refl
    . split
      . apply changes_complete _ _ hserves
      . exact .refl
    . dsimp only
      split
      . split
        . apply changes_tick _ _ _ _ _ _ hserves (Nat.le_refl _)
        . exact .refl
      . exact .refl
    . next hstage =>
      apply changes_gather _ _ _ _ _ hserves _ (Nat.le_refl _)
      intro other hother
      refine .inl ⟨task, htask, ?_⟩
      rw [hstage]
      exact hother

/-!
## What users do
-/

theorem changes_giveUp {task : Task} (h : scope.tickets task.id)
    (hqueues : ∀ deadline, task.stage = .waiting deadline → scope.queues task.id)
    (hresults : ∀ id ∈ task.stage.pending, scope.results id)
    : system.Changes scope (system.giveUp task) := by
  unfold giveUp
  dsimp only
  split
  . next deadline hstage =>
    apply changes_withdraw _ _ _ h (hqueues deadline hstage)
  . apply changes_cancelOpening _ _ _ h
  . apply changes_giveBack _ _ _ h
  . apply changes_letGo
  . next hstage =>
    apply Changes.foldl
    intro system id hid
    apply changes_ignore
    rw [hstage] at hresults
    exact .inl (hresults id hid)
  . exact .refl

theorem changes_dropTask {id : TaskId}
    (h : ∀ task, system.task? id = some task →
      scope.tasks id ∧ scope.tickets id ∧
        (∀ deadline, task.stage = .waiting deadline → scope.queues id) ∧
        ∀ other ∈ task.stage.pending, scope.results other)
    : system.Changes scope (system.dropTask id) := by
  unfold dropTask
  split
  . exact .refl
  . next task htask =>
    obtain ⟨htasks, htickets, hqueues, hresults⟩ := h task htask
    have hid := task?_id htask
    subst hid
    have hremoved := (changes_giveUp system htickets hqueues hresults).step (.removeTask task.id htasks)
    have hnone := task?_removeTask_self (system.giveUp task) task.id
    dsimp only
    split
    . exact hremoved.trans (changes_resolve _ _ _ _ htasks hnone)
    . exact hremoved.trans (changes_resolve _ _ _ _ htasks hnone)
    . exact hremoved

def scopeOfDrop (system : System) (id : TaskId) : Scope where
  tasks other := other = id ∧ ∃ task, system.task? id = some task
  tickets ticket := ticket = id
  queues ticket := ticket = id ∧
    ∃ task deadline, system.task? id = some task ∧ task.stage = .waiting deadline
  results other := ∃ task, system.task? id = some task ∧ other ∈ task.stage.pending
  first := system.nextTask

theorem changes_drop (id : TaskId)
    : system.Changes (system.scopeOfDrop id) (system.dropTask id) := by
  apply changes_dropTask
  intro task htask
  exact ⟨⟨rfl, task, htask⟩, rfl, fun deadline hstage => ⟨rfl, task, deadline, htask, hstage⟩,
    fun other hother => ⟨task, htask, hother⟩⟩

theorem changes_stop (id : TaskId)
    : system.Changes (system.scopeOf id) (system.stop id) := by
  unfold stop
  split
  . exact .refl
  . next task htask =>
    have hid : task.id = id := task?_id htask
    have hset : system.Changes (system.scopeOf id)
        (system.setTask { task with stopping := true }) := by
      apply Changes.single
      refine .setTask { task with stopping := true } ⟨⟨hid, task, htask⟩, hid, task, htask, rfl⟩ ?_
      exact fun other hother => .inl ⟨task, htask, hother⟩
    dsimp only
    split
    . exact hset.trans (changes_wake _ _)
    . exact hset

theorem shutdown_induction {motive : System → Prop} {system : System}
    (start : motive { system with running := false })
    (drop : ∀ id middle, motive middle → motive (middle.dropTask id))
    (stop : ∀ middle, motive middle → motive { middle with ready := [] })
    : motive system.shutdown := by
  have hdrops (ids : List TaskId) (middle : System) (h : motive middle)
      : motive (ids.foldl dropTask middle) := by
    induction ids generalizing middle with
    | nil => exact h
    | cons id ids ih => exact ih _ (drop id middle h)
  unfold shutdown
  apply stop
  apply hdrops
  exact start

theorem changes_shutdown
    : system.Changes (.everything system.nextTask) system.shutdown := by
  apply shutdown_induction (motive := fun middle => system.Changes (.everything _) middle)
  . exact .single (.rest _ _ _ (.inr trivial))
  . intro id middle h
    apply h.trans
    apply changes_dropTask
    exact fun _ _ => ⟨trivial, trivial, fun _ _ => trivial, fun _ _ => trivial⟩
  . exact fun middle h => h.step (.line _ fun _ _ => .inr (.inl trivial))

theorem leap_eq (limit : Nat)
    : ∃ now ready, system.now < now ∧ system.leap limit = { system with now, ready } := by
  unfold leap
  dsimp only
  obtain ⟨ready, hwake⟩ := foldl_wake _ _
  refine ⟨_, ready, ?_, hwake⟩
  apply Nat.lt_of_succ_le
  apply Nat.le_max_left

theorem changes_leap (limit : Nat) (h : scope.moves)
    : system.Changes scope (system.leap limit) := by
  have hnow : system.Changes scope { system with
      now := max (system.now + 1) ((system.tasks.filterMap (·.stage.due?)).foldl min limit) } :=
    .single (.rest _ _ _ (.inr h))
  unfold leap
  dsimp only
  apply hnow.trans
  apply Changes.foldl
  exact fun system id _ => system.changes_wake id

theorem changes_openBlocking (c : Nat) {ticket : Ticket} (h : scope.tickets ticket)
    : system.Changes scope (system.openBlocking c ticket).2 := by
  unfold openBlocking
  dsimp only
  split
  . exact (changes_setServer _ _ _).trans (changes_connect _ _ _ h)
  . exact (changes_setServer _ _ _).trans (changes_cancelOpening _ _ _ h)

theorem changes_acquireBlocking (c : Nat) (h : scope.tickets system.nextTask)
    : system.Changes scope (system.acquireBlocking c).2 := by
  have hnumber : system.Changes scope { system with nextTask := system.nextTask + 1 } :=
    .single (.number .nothing)
  have htake := hnumber.step (.slots c .blocking (.take system.nextTask) h nofun)
  unfold Slots.perform at htake
  rw [acquireBlocking_eq]
  dsimp only at htake ⊢
  split
  . next heq =>
    rw [heq] at htake
    exact htake
  . next heq =>
    rw [heq] at htake
    exact htake.trans (changes_openBlocking _ _ h)
  . exact hnumber

theorem eq_nextTask_of_acquireBlocking {system after : System} {c : Nat} {lease : Ticket}
    (h : system.acquireBlocking c = (.ok lease, after))
    : lease = system.nextTask := by
  rw [acquireBlocking_eq] at h
  unfold openBlocking at h
  dsimp only at h
  split at h
  . cases h
    rfl
  . split at h
    . cases h
      rfl
    . cases h
  . cases h

theorem changes_operateBlocking {o : ObjectId} {operation : Operation}
    (h : scope.tickets system.nextTask) (hjobs : scope.jobs (.operate o operation))
    : system.Changes scope (system.operateBlocking o operation).2 := by
  have hstart := system.store.extends_start o operation
  have hshares := Scope.shares_of_job hjobs rfl
  unfold operateBlocking
  split
  . next heq =>
    rw [heq] at hstart
    exact .single (.share hstart (.inl hshares))
  . next store heq =>
    rw [heq] at hstart
    have hshare : system.Changes scope { system with store } :=
      .single (.share hstart (.inl hshares))
    have hacquire := changes_acquireBlocking { system with store } (store.object o).context h
    dsimp only
    split
    . next hgot =>
      rw [hgot] at hacquire
      exact hshare.trans hacquire
    . next hgot =>
      rw [hgot] at hacquire
      have hlease := eq_nextTask_of_acquireBlocking hgot
      apply (hshare.trans hacquire).trans
      apply (changes_ask _ _ _ _ _ _).trans
      apply changes_conclude _ _ _ _ hjobs
      rw [hlease]
      exact h

theorem extends_givenOr (store : Store) (given : Option Nat) {add : Store → Nat × Store}
    (h : ∀ store : Store, store.Extends (add store).2)
    : store.Extends (givenOr given add store).2 := by
  unfold givenOr
  split
  . exact .refl store
  . exact h store

theorem fault?_of_error? {builder : ContextBuilder} (h : builder.error? = none)
    : builder.config.fault? = none := by
  unfold ContextBuilder.error? Config.validated at h
  cases hfault : builder.config.fault? with
  | none => rfl
  | some fault =>
    rw [hfault] at h
    cases h

theorem changes_build (builder : ContextBuilder) (hshares : scope.shares)
    : system.Changes scope (system.build builder).2 := by
  unfold build
  split
  . exact .refl
  . next hnone =>
    dsimp only
    have hvalid := fault?_of_error? hnone
    have hregistry := extends_givenOr system.store builder.registry Store.extends_addRegistry
    have hkinds := hregistry.trans
      (extends_givenOr _ builder.kinds fun store => store.extends_addKindTable .standard)
    have hdecoders := hkinds.trans (extends_givenOr _ builder.decoders Store.extends_addDecoders)
    apply Changes.single
    refine Change.found _ (hdecoders.trans (Store.extends_addFactory _ _)) ?_ hvalid hshares
    simp [Store.addFactory]

end

def Action.scope (system : System) : Action → Scope
  | .step _ id => system.scopeOf id
  | .drop id => system.scopeOfDrop id
  | .stop id => system.scopeOf id
  | .shutdown => .everything system.nextTask
  | .spawn job _ _ => { births := (· = job), first := system.nextTask }
  | .attend job => { births := (· = job), first := system.nextTask }
  | .line ready =>
    { tasks := fun id => id ∈ system.ready ∧ id ∉ ready, first := system.nextTask }
  | .ignore id => { results := (· = id), first := system.nextTask }
  | .collect id => { results := (· = id), first := system.nextTask }
  | .operateBlocking o operation =>
    { tickets := (· = system.nextTask)
      jobs := (· = .operate o operation)
      first := system.nextTask }
  | .concludeBlocking o operation _ =>
    { jobs := (· = .operate o operation), first := system.nextTask }
  | .acquireBlocking _ => { tickets := (· = system.nextTask), first := system.nextTask }
  | .markBroken _ _ lease => { tickets := (· = lease), first := system.nextTask }
  | .giveBack _ _ lease => { tickets := (· = lease), first := system.nextTask }
  | .leap _ => { moves := True, first := system.nextTask }
  | .share _ => { shares := True, first := system.nextTask }
  | .build _ => { shares := True, first := system.nextTask }
  | _ => { first := system.nextTask }

theorem changes_act {system : System} {action : Action}
    (h : system.Admits action)
    : system.Changes (action.scope system) (system.act action) := by
  cases action with
  | step tickFirst id => apply system.changes_step tickFirst id
  | line ready =>
    apply Changes.single
    apply Change.line ready
    intro id hid
    by_cases hready : id ∈ ready
    . exact .inl hready
    . exact .inr (.inl ⟨hid, hready⟩)
  | leap limit => exact system.changes_leap limit trivial
  | spawn job continuation name => exact system.changes_spawn job continuation name (.inl rfl)
  | attend job => exact system.changes_attend rfl
  | drop id => apply system.changes_drop id
  | ignore id => exact system.changes_ignore (.inl rfl)
  | collect id =>
    unfold act
    dsimp only
    cases hcollect : system.collect? id with
    | none => exact .refl
    | some result => exact system.changes_of_collect? (.inl rfl) hcollect
  | stop id => apply system.changes_stop id
  | shutdown => apply system.changes_shutdown
  | operateBlocking o operation => exact system.changes_operateBlocking rfl rfl
  | concludeBlocking o operation outcome => exact .single (.conclude o operation outcome rfl)
  | acquireBlocking c => exact system.changes_acquireBlocking c rfl
  | call c flavor lease target request => apply system.changes_ask c flavor lease target request
  | markBroken c flavor lease => exact system.changes_setSlots c flavor (.markBroken lease) rfl nofun
  | giveBack c flavor lease => exact system.changes_giveBack c flavor rfl
  | serve c => apply system.changes_setServer c
  | share move => exact .single (.share (Store.extends_perform h) (.inl (.inl trivial)))
  | build builder => exact system.changes_build builder trivial

end System

end MediaProxy
