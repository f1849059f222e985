import MediaProxy.Proofs.System.Gathering
import MediaProxy.Proofs.System.Punctual

/-!
This module contains the keepalives that a scheduler starts for one object. As long as no round is still
going on when the next one is due, they start at the same times whatever else happens. A keepalive that is
not answered keeps the scheduler from starting any others.
-/

namespace MediaProxy

namespace System

def Upheld (system : System) (c : Nat) (o : ObjectId) : Prop :=
  o ∈ system.store.living (system.store.context c).factory ∧
    (system.store.object o).released = false

instance (system : System) (c : Nat) (o : ObjectId) : Decidable (system.Upheld c o) :=
  inferInstanceAs (Decidable (_ ∧ _))

def startsKeepAlive (before after : System) (o : ObjectId) : Bool :=
  after.tasks.any fun task => before.nextTask ≤ task.id && task.job = .operate o .keepAlive

def keepAlivesOf (start : System) (id : TaskId) (o : ObjectId) : List Action → List Nat
  | [] => []
  | action :: actions =>
    let before := start.after actions
    if action.isStepOf id && startsKeepAlive before (before.act action) o then
      before.now :: start.keepAlivesOf id o actions
    else start.keepAlivesOf id o actions

section
variable {start system after : System} {id : TaskId} {task : Task} {c period now due : Nat}
  {tickFirst : Bool} {o : ObjectId} {actions : List Action}

theorem keepAlivesOf_step
    : start.keepAlivesOf id o (.step tickFirst id :: actions) =
        if startsKeepAlive (start.after actions) ((start.after actions).step tickFirst id) o then
          (start.after actions).now :: start.keepAlivesOf id o actions
        else start.keepAlivesOf id o actions := by
  rw [keepAlivesOf, Action.isStepOf_step, Bool.true_and]
  rfl

theorem keepAlivesOf_other {action : Action} (h : ∀ tickFirst, action ≠ .step tickFirst id)
    : start.keepAlivesOf id o (action :: actions) = start.keepAlivesOf id o actions := by
  rw [keepAlivesOf, Action.isStepOf_of_ne h]
  rfl

/-!
## Keepalives of a round
-/

theorem exists_beginRound (hrunning : system.running = true) (h : system.Upheld c o) (id : TaskId)
    : ∃ task ∈ (system.beginRound id c).2.2.tasks, system.nextTask ≤ task.id ∧
        task.job = .operate o .keepAlive ∧ task.id ∈ (system.beginRound id c).1 := by
  have hmem : o ∈ (system.keepAlives c).map (·.1) := by
    rw [map_fst_keepAlives]
    exact List.mem_filter.2 ⟨h.1, congrArg (!·) h.2⟩
  obtain ⟨keepAlive, hkeepAlive, rfl⟩ := List.mem_map.1 hmem
  have hopens := system.opens_beginRound id c
  generalize system.beginRound id c = opened at hopens ⊢
  cases hopens with
  | stopped hstopped => cases hrunning.symm.trans hstopped
  | running =>
    exact ⟨keepAliveTask keepAlive, List.mem_append_right _ (List.mem_map_of_mem hkeepAlive),
      (lt_of_mem_keepAlives hkeepAlive).1, rfl, List.mem_map_of_mem hkeepAlive⟩

theorem startsKeepAlive_of_sound (hsound : after.Sound) (hnext : after.nextTask = system.nextTask)
    (o : ObjectId) : startsKeepAlive system after o = false := by
  apply List.any_eq_false.2
  intro task htask
  have hlt := hsound.id_lt task htask
  rw [hnext] at hlt
  simp [Nat.not_le_of_lt hlt]

theorem Turns.keepAlive (h : Turns tickFirst task c period now system due after)
    (hid : task.id < system.nextTask) (hrunning : system.running = true)
    (hupheld : system.Upheld c o)
    : (after.nextTask = system.nextTask ∧ after.roundsOf task.id = system.roundsOf task.id) ∨
        (startsKeepAlive system after o = true ∧
          after.roundsOf task.id = system.now :: system.roundsOf task.id) := by
  obtain ⟨keepAlive, hmem, hlater, hjob, hstarted⟩ := exists_beginRound hrunning hupheld task.id
  have hrounds := system.roundsOf_beginRound task.id c
  cases h with
  | ended => exact .inl ⟨nextTask_resolve _ _ _ _ _, roundsOf_finish _ _ _ _⟩
  | parked => exact .inl ⟨rfl, rfl⟩
  | began _ _ h =>
    rw [h] at hmem hrounds
    refine .inr ⟨List.any_eq_true.2 ⟨keepAlive, ?_, ?_⟩, hrounds⟩
    . refine List.mem_map.2 ⟨keepAlive, hmem, if_neg ?_⟩
      exact Nat.ne_of_gt (Nat.lt_of_lt_of_le hid hlater)
    . simp [hlater, hjob]
  | passed _ _ h =>
    -- A round with a keepalive is not over at once.
    rw [h] at hstarted
    cases hstarted

theorem Scheduler.keepAlive (h : system.Scheduler id c period) (hsound : system.Sound)
    (hrunning : system.running = true) (hupheld : system.Upheld c o) (tickFirst : Bool)
    : (system.step tickFirst id).roundsOf id =
        if startsKeepAlive system (system.step tickFirst id) o then
          system.now :: system.roundsOf id
        else system.roundsOf id := by
  have hlegal : Legal system [.step tickFirst id] := ⟨trivial, trivial⟩
  have hafter : (system.step tickFirst id).Sound := hsound.after hlegal
  -- Without a new task there is no new keepalive.
  have hnone (hnext : (system.step tickFirst id).nextTask = system.nextTask)
      (hrounds : (system.step tickFirst id).roundsOf id = system.roundsOf id)
      : (system.step tickFirst id).roundsOf id =
          if startsKeepAlive system (system.step tickFirst id) o then
            system.now :: system.roundsOf id
          else system.roundsOf id := by
    rw [startsKeepAlive_of_sound hafter hnext]
    exact hrounds
  cases htask : system.task? id with
  | none =>
    have hstill := step_of_none htask tickFirst
    exact hnone (congrArg nextTask hstill) (congrArg (roundsOf · id) hstill)
  | some task =>
    have hshifts := h.shifts htask tickFirst
    obtain rfl := task?_id htask
    generalize system.step tickFirst task.id = after at hshifts hnone ⊢
    cases hshifts with
    | idle => exact hnone rfl rfl
    | waits => exact hnone rfl rfl
    | turns inbox hturns =>
      rcases hturns.keepAlive h.id_lt hrunning hupheld with ⟨hnext, hrounds⟩ | ⟨hstarts, hrounds⟩
      . exact hnone hnext hrounds
      . have hstarts' : startsKeepAlive system after o = true := hstarts
        rw [hstarts']
        exact hrounds

theorem Legal.keepAlivesOf_append (hlegal : Legal start actions) (hsound : start.Sound)
    (h : start.Scheduler id c period) (hrunning : start.Throughout (·.running = true) actions)
    (hupheld : start.Throughout (·.Upheld c o) actions)
    : start.keepAlivesOf id o actions ++ start.roundsOf id = (start.after actions).roundsOf id := by
  induction actions with
  | nil => rfl
  | cons action actions ih =>
    have hearlier := ih hlegal.1 hrunning.1 hupheld.1
    rcases action.step_or_ne id with ⟨tickFirst, rfl⟩ | hother
    . have hrounds := (h.after hlegal.1).keepAlive (hsound.after hlegal.1) hrunning.1.last
        hupheld.1.last tickFirst
      refine Eq.trans ?_ hrounds.symm
      rw [← hearlier, keepAlivesOf_step]
      split <;> rfl
    . refine Eq.trans ?_ (roundsOf_act hlegal.2 hother).symm
      rw [keepAlivesOf_other hother, hearlier]

/-!
## Keepalives without an answer
-/

def Awaits (system : System) (id first : TaskId) : Prop :=
  ∀ task, system.task? id = some task →
    ∃ rest report next, task.stage = .gathering (first :: rest) report next

theorem gather_of_none {first : TaskId} (h : system.collect? first = none) (tickFirst : Bool)
    (task : Task) (rest : List TaskId) (report : Report) (next : Nat)
    : system.gather tickFirst task (first :: rest) report next =
        system.setTask { task with stage := .gathering (first :: rest) report next } := by
  unfold gather collect
  rw [h]

theorem Awaits.step {first : TaskId} (h : system.Awaits id first)
    (hnone : system.collect? first = none) (tickFirst : Bool)
    : (system.step tickFirst id).Awaits id first ∧
        (system.step tickFirst id).nextTask = system.nextTask := by
  unfold System.step
  cases htask : system.task? id with
  | none => exact ⟨h, rfl⟩
  | some task =>
    obtain ⟨rest, report, next, hstage⟩ := h task htask
    dsimp only
    rw [hstage]
    dsimp only
    rw [gather_of_none hnone]
    refine ⟨?_, rfl⟩
    intro other hother
    obtain rfl := task?_id htask
    obtain rfl := Option.some.inj ((task?_setTask_stage htask _).symm.trans hother)
    exact ⟨rest, report, next, rfl⟩

theorem Awaits.act {first : TaskId} (h : system.Awaits id first)
    (hscheduler : system.Scheduler id c period) (hnone : system.collect? first = none)
    {action : Action} (hadmits : system.Admits action) : (system.act action).Awaits id first := by
  rcases action.step_or_ne id with ⟨tickFirst, rfl⟩ | hother
  . exact (h.step hnone tickFirst).1
  . intro task htask
    obtain ⟨earlier, hearlier, hstage⟩ := hscheduler.stage_act hadmits hother htask
    rw [hstage]
    exact h earlier hearlier

theorem Legal.keepAlivesOf_of_awaits {earlier : List Action} {first : TaskId}
    (hlegal : Legal start actions) (hsound : start.Sound) (h : start.Scheduler id c period)
    (hsuffix : earlier <:+ actions) (hawaits : (start.after earlier).Awaits id first)
    (hnone : ∀ later, earlier <:+ later → later <:+ actions →
      (start.after later).collect? first = none)
    (o : ObjectId) : start.keepAlivesOf id o actions = start.keepAlivesOf id o earlier := by
  have hall : (start.after actions).Awaits id first ∧
      start.keepAlivesOf id o actions = start.keepAlivesOf id o earlier := by
    apply suffix_induction (motive := fun actions => (start.after actions).Awaits id first ∧
      start.keepAlivesOf id o actions = start.keepAlivesOf id o earlier) hsuffix
    . exact ⟨hawaits, rfl⟩
    . intro action later hlater hmiddle ⟨hwaits, hsame⟩
      have hnow := hlegal.of_suffix hmiddle
      have hunanswered := hnone later hlater ((List.suffix_cons _ _).trans hmiddle)
      refine ⟨hwaits.act (h.after hnow.1) hunanswered hnow.2, ?_⟩
      rcases action.step_or_ne id with ⟨tickFirst, rfl⟩ | hother
      . have hafter : ((start.after later).step tickFirst id).Sound := hsound.after hnow
        have hnext := (hwaits.step hunanswered tickFirst).2
        rw [keepAlivesOf_step, startsKeepAlive_of_sound hafter hnext]
        exact hsame
      . rw [keepAlivesOf_other hother]
        exact hsame
  exact hall.2

/-!
## Promises
-/

structure Launched (start : System) (id : TaskId) (c period : Nat) : Prop where
  sound : start.Sound
  running : start.running = true
  task : ∃ task, start.task? id = some task ∧ task.job = .schedule c period ∧
    task.stage = .fresh ∧ task.stopping = false ∧ task.foreground = false
  ready : id ∈ start.ready
  rounds : start.roundsOf id = []

theorem launched_spawn (hsound : system.Sound) (hrunning : system.running = true)
    (hrounds : system.roundsOf system.nextTask = []) (c period : Nat)
    (continuation : Continuation) (name : String)
    : (system.spawn (.schedule c period) continuation name).2.Launched system.nextTask c period := by
  have hlegal : Legal system [.spawn (.schedule c period) continuation name] :=
    ⟨trivial, trivial⟩
  have hafter : (system.spawn (.schedule c period) continuation name).2.Sound :=
    hsound.after hlegal
  have htask := task?_spawn hsound (.schedule c period) continuation name
  rw [fst_spawn, if_pos hrunning] at htask
  have hspawned : (system.spawn (.schedule c period) continuation name).2.running = true ∧
      system.nextTask ∈ (system.spawn (.schedule c period) continuation name).2.ready ∧
      (system.spawn (.schedule c period) continuation name).2.roundsOf system.nextTask = [] := by
    unfold spawn
    dsimp only
    rw [if_pos hrunning]
    exact ⟨hrunning, List.mem_append_right _ List.mem_cons_self, hrounds⟩
  obtain ⟨hstill, hready, hnone⟩ := hspawned
  exact ⟨hafter, hstill, ⟨_, htask, rfl, rfl, rfl, rfl⟩, hready, hnone⟩

theorem Launched.scheduler (h : start.Launched id c period) : start.Scheduler id c period := by
  obtain ⟨task, htask, hjob, hstage, _, _⟩ := h.task
  refine ⟨h.sound.lt_of_task? htask, ?_⟩
  intro other hother
  obtain rfl := Option.some.inj (htask.symm.trans hother)
  rw [hstage]
  exact ⟨hjob, rfl⟩

theorem Launched.onTime (h : start.Launched id c period)
    : start.OnTime id start.now period 0 (id ∈ start.ready) := by
  obtain ⟨task, htask, _, hstage, _, hforeground⟩ := h.task
  refine .of_task htask hforeground ?_ h.rounds ?_
  . apply Nat.le_of_eq
    unfold beat
    rw [Nat.zero_mul, Nat.add_zero]
  . rw [hstage]
    exact .fresh rfl rfl h.ready

theorem Tolerates.running_eq {action : Action} (htolerates : Tolerates id action)
    (hadmits : system.Admits action) : (system.act action).running = system.running := by
  have hchanges := changes_act hadmits
  cases action with
  | leap => exact htolerates.elim
  | shutdown => exact htolerates.elim
  | _ => exact (hchanges.now_eq not_false).2

theorem Timely.running (h : start.Timely id actions) (hrunning : start.running = true)
    : start.Throughout (·.running = true) actions := by
  induction h with
  | nil => exact hrunning
  | @turn actions first ready _ _ tickFirst ih =>
    have hadmits : (start.after (.line ready :: actions)).Admits (.step tickFirst first) := trivial
    have htolerates : Tolerates id (.step tickFirst first) := trivial
    exact ⟨⟨ih, ih.last⟩, (htolerates.running_eq hadmits).trans ih.last⟩
  | @leap actions _ _ limit ih =>
    obtain ⟨now, ready, _, hleap⟩ := (start.after actions).leap_eq limit
    have hsame : ((start.after actions).leap limit).running = (start.after actions).running := by
      rw [hleap]
    exact ⟨ih, hsame.trans ih.last⟩
  | other _ hadmits htolerates ih => exact ⟨ih, (htolerates.running_eq hadmits).trans ih.last⟩

/--
What the schedulers of two systems promise of an object, whatever the servers do and whatever else
happens. As long as the object is upheld and no round is still going on when the next one is due, the
scheduler starts its keepalives when its ticks are due, one after every period. So they start at the same
times in both systems, however the servers answer. A round that is not over keeps the scheduler from
starting any more, for all objects: it waits for the answers to all keepalives of a round.
-/
structure KeepsBeat (start other : System) (id : TaskId) (c period : Nat) (o : ObjectId) : Prop where
  regular : ∀ actions, start.Timely id actions → start.Throughout (·.Swift id) actions →
    start.Throughout (·.Upheld c o) actions →
    ∃ count, start.keepAlivesOf id o actions = beats start.now period count ∧
      beat start.now period count ≤ (start.after actions).now * 1000000 ∧
      ((start.after actions).ready = [] →
        (start.after actions).now * 1000000 < beat start.now period (count + 1))
  independent : ∀ first second, start.Timely id first → other.Timely id second →
    start.Throughout (·.Swift id) first → other.Throughout (·.Swift id) second →
    start.Throughout (·.Upheld c o) first → other.Throughout (·.Upheld c o) second →
    (start.after first).ready = [] → (other.after second).ready = [] →
    (start.after first).now = (other.after second).now →
    start.keepAlivesOf id o first = other.keepAlivesOf id o second
  starved : ∀ actions earlier first, Legal start actions → earlier <:+ actions →
    (start.after earlier).Awaits id first →
    (∀ later, earlier <:+ later → later <:+ actions → (start.after later).collect? first = none) →
    start.keepAlivesOf id o actions = start.keepAlivesOf id o earlier

theorem Launched.keepAlivesOf_eq (h : start.Launched id c period) (htimely : start.Timely id actions)
    (hswift : start.Throughout (·.Swift id) actions)
    (hupheld : start.Throughout (·.Upheld c o) actions)
    : ∃ count, start.keepAlivesOf id o actions = beats start.now period count ∧
        beat start.now period count ≤ (start.after actions).now * 1000000 ∧
        ((start.after actions).ready = [] →
          (start.after actions).now * 1000000 < beat start.now period (count + 1)) := by
  have hrounds := htimely.legal.keepAlivesOf_append h.sound h.scheduler
    (htimely.running h.running) hupheld
  obtain ⟨first, hfirst, _, _, hstopping, _⟩ := h.task
  obtain ⟨task, htask, _⟩ := htimely.stays h.scheduler ⟨first, hfirst, hstopping⟩
  obtain ⟨count, honTime⟩ := htimely.paced.onTime h.scheduler h.onTime hswift
  refine ⟨count, ?_, honTime.begun, fun hready => honTime.lt_beat htask hready hswift.last⟩
  rwa [h.rounds, List.append_nil, honTime.rounds] at hrounds

theorem keepsBeat_of_launched (start other : System) (id : TaskId) (c period : Nat)
    (h : start.Launched id c period) (h' : other.Launched id c period)
    (hnow : other.now = start.now) (o : ObjectId) : start.KeepsBeat other id c period o := by
  refine ⟨fun _ => h.keepAlivesOf_eq, ?_, ?_⟩
  . intro first second hfirst hsecond hswift hswift' hupheld hupheld' hready hready' hsame
    obtain ⟨count, hbeats, hbegun, hlt⟩ := h.keepAlivesOf_eq hfirst hswift hupheld
    obtain ⟨count', hbeats', hbegun', hlt'⟩ := h'.keepAlivesOf_eq hsecond hswift' hupheld'
    rw [hnow] at hbeats' hbegun' hlt'
    rw [← hsame] at hbegun' hlt'
    rw [hbeats, hbeats', count_eq_of_beat hbegun (hlt hready) hbegun' (hlt' hready')]
  . intro actions earlier first hlegal hsuffix hawaits hnone
    exact hlegal.keepAlivesOf_of_awaits h.sound h.scheduler hsuffix hawaits hnone o

end

-- Two objects are held. The server answers the keepalives of the first one in its own time.
def preparing (pace : Pace) : List Action :=
  [.serve 0
      [{ request := some "keepAlive", target := some (.pipeline "p"), reply := .ok .unit, pace,
         times := none }]
      [],
    .share (.resolve 0 0 (.pipeline "q"))]

def answering (pace : Pace) : System :=
  furnished.after
    (.spawn (.schedule 0 1000000) { handler := .channel false } "" :: preparing pace)

theorem launched_answering (pace : Pace) : (answering pace).Launched 0 0 1000000 := by
  have hlegal : Legal furnished (preparing pace) := ⟨⟨trivial, Nat.one_pos⟩, trivial⟩
  exact launched_spawn (sound_furnished.after hlegal) rfl rfl 0 1000000 _ ""

-- Both objects are upheld, and there is a connection for either of them.
def Ample (system : System) : Prop :=
  system.Upheld 0 0 ∧ system.Upheld 0 1 ∧
    (system.slots 0 .nonBlocking).leased + 2 ≤ (system.slots 0 .nonBlocking).capacity

instance (system : System) : Decidable system.Ample :=
  inferInstanceAs (Decidable (_ ∧ _))

-- The keepalives of the first round are answered at once, and the second round begins and ends.
def answered : List Action :=
  [.step false 0, .line [], .step false 4, .line [0], .step false 3, .line [4], .step false 0,
    .line [], .leap 2, .step false 0, .line [], .step false 2, .line [0], .step false 1, .line [2],
    .step false 0, .line [], .leap 2, .step false 0, .line []]

theorem timely_answered : (answering .immediate).Timely 0 answered := by
  have hbegun : (answering .immediate).Timely 0 (answered.drop 15) :=
    .turn (.leap (.turn .nil (by decide +kernel) false) (by decide +kernel) 2) (by decide +kernel)
      false
  have hended : (answering .immediate).Timely 0 (answered.drop 9) :=
    .turn (.turn (.turn hbegun (by decide +kernel) false) (by decide +kernel) false)
      (by decide +kernel) false
  have hnext : (answering .immediate).Timely 0 (answered.drop 6) :=
    .turn (.leap hended (by decide +kernel) 2) (by decide +kernel) false
  exact .turn (.turn (.turn hnext (by decide +kernel) false) (by decide +kernel) false)
    (by decide +kernel) false

-- The first keepalive is never answered.
def unanswered : List Action :=
  [.leap 2, .step false 2, .line [], .step false 1, .line [2], .step false 0, .line [], .leap 2,
    .step false 0, .line []]

theorem timely_unanswered : (answering .never).Timely 0 unanswered := by
  have hbegun : (answering .never).Timely 0 (unanswered.drop 5) :=
    .turn (.leap (.turn .nil (by decide +kernel) false) (by decide +kernel) 2) (by decide +kernel)
      false
  exact .leap (.turn (.turn hbegun (by decide +kernel) false) (by decide +kernel) false)
    (by decide +kernel) 2

theorem keepsBeat_answering
    : (answering .immediate).Launched 0 0 1000000 ∧ (answering .never).Launched 0 0 1000000 ∧
      (answering .never).now = (answering .immediate).now ∧
      (answering .immediate).KeepsBeat (answering .never) 0 0 1000000 1 ∧
      (answering .immediate).Timely 0 answered ∧
      (answering .immediate).Throughout (·.Swift 0) answered ∧
      (answering .immediate).Throughout (·.Upheld 0 1) answered ∧
      (answering .immediate).keepAlivesOf 0 1 answered = [2, 1] :=
  ⟨launched_answering .immediate, launched_answering .never, rfl,
    keepsBeat_of_launched (answering .immediate) (answering .never) 0 0 1000000
      (launched_answering .immediate) (launched_answering .never) rfl 1,
    timely_answered, by decide +kernel, by decide +kernel, by decide +kernel⟩

/--
When keepalives of another object start depends on how those of the first one are answered.
-/
theorem stalled_unanswered
    : ¬∀ pace pace' first second, (answering pace).Timely 0 first →
        (answering pace').Timely 0 second → (answering pace).Throughout Ample first →
        (answering pace').Throughout Ample second → ((answering pace).after first).ready = [] →
        ((answering pace').after second).ready = [] →
        ((answering pace).after first).now = ((answering pace').after second).now →
        (answering pace).keepAlivesOf 0 1 first = (answering pace').keepAlivesOf 0 1 second := by
  intro h
  have hsame := h .immediate .never answered unanswered timely_answered timely_unanswered
    (by decide +kernel) (by decide +kernel) (by decide +kernel) (by decide +kernel)
    (by decide +kernel)
  revert hsame
  decide +kernel

end System

end MediaProxy
