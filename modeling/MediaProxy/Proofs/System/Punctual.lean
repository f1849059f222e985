import MediaProxy.Proofs.System.Round

/-!
This module contains runs in virtual time, and the times at which a scheduler begins its rounds in them as
long as no round is still going on when the next one is due.
-/

namespace MediaProxy

def Stage.next? : Stage → Option Nat
  | .gathering _ _ next => some next
  | _ => none

namespace System

/-!
## Virtual time
-/

def Tolerates (id : TaskId) : Action → Prop
  | .line _ => False
  | .leap _ => False
  | .shutdown => False
  | .stop other => other ≠ id
  | .drop other => other ≠ id
  | _ => True

/--
Runs in which tasks take turns, the time moves on when nobody has anything left to do, and users do what
they like, but leave a scheduler alone. The last action comes first.
-/
inductive Timely (start : System) (id : TaskId) : List Action → Prop where
  | nil : start.Timely id []
  | turn {actions : List Action} {first : TaskId} {ready : List TaskId} (h : start.Timely id actions)
    (hready : (start.after actions).ready = first :: ready) (tickFirst : Bool) :
    start.Timely id (.step tickFirst first :: .line ready :: actions)
  | leap {actions : List Action} (h : start.Timely id actions)
    (hready : (start.after actions).ready = []) (limit : Nat) :
    start.Timely id (.leap limit :: actions)
  | other {action : Action} {actions : List Action} (h : start.Timely id actions)
    (hadmits : (start.after actions).Admits action) (htolerates : Tolerates id action) :
    start.Timely id (action :: actions)

inductive Paced (start : System) : List Action → Prop where
  | nil : start.Paced []
  | turn {actions : List Action} {first : TaskId} {ready : List TaskId} (h : start.Paced actions)
    (hready : (start.after actions).ready = first :: ready) (tickFirst : Bool) :
    start.Paced (.step tickFirst first :: .line ready :: actions)
  | leap {actions : List Action} (h : start.Paced actions)
    (hready : (start.after actions).ready = []) (limit : Nat) :
    start.Paced (.leap limit :: actions)
  | other {action : Action} {actions : List Action} (h : start.Paced actions)
    (hadmits : (start.after actions).Admits action) (hline : ∀ ready, action ≠ .line ready)
    (hleap : ∀ limit, action ≠ .leap limit) :
    start.Paced (action :: actions)

def Throughout (start : System) (holds : System → Prop) : List Action → Prop
  | [] => holds start
  | action :: actions =>
    start.Throughout holds actions ∧ holds (start.after (action :: actions))

instance decidableThroughout (start : System) (holds : System → Prop) [DecidablePred holds]
    : (actions : List Action) → Decidable (start.Throughout holds actions)
  | [] => inferInstanceAs (Decidable (holds start))
  | _ :: actions =>
    have := start.decidableThroughout holds actions
    inferInstanceAs (Decidable (_ ∧ _))

def Swift (system : System) (id : TaskId) : Prop :=
  ∀ next ∈ (system.task? id).bind (·.stage.next?), system.now * 1000000 < next

instance (system : System) (id : TaskId) : Decidable (system.Swift id) :=
  inferInstanceAs (Decidable (∀ next ∈ (system.task? id).bind (·.stage.next?), _))

/--
When a tick of a scheduler is due that was started at a time and is never late, in nanoseconds.
-/
def beat (since period count : Nat) : Nat :=
  since * 1000000 + count * periodOf period

def beats (since period : Nat) : Nat → List Nat
  | 0 => []
  | count + 1 => (beat since period (count + 1) + 999999) / 1000000 :: beats since period count

theorem Swift.next? {system : System} {id : TaskId} {task : Task} (h : system.Swift id)
    (htask : system.task? id = some task)
    : ∀ next ∈ task.stage.next?, system.now * 1000000 < next := by
  unfold Swift at h
  rwa [htask] at h

theorem Throughout.last {start : System} {holds : System → Prop} {actions : List Action}
    (h : start.Throughout holds actions) : holds (start.after actions) := by
  cases actions with
  | nil => exact h
  | cons action actions => exact h.2

theorem Paced.legal {start : System} {actions : List Action} (h : start.Paced actions)
    : Legal start actions := by
  induction h with
  | nil => trivial
  | turn _ _ _ ih => exact ⟨⟨ih, trivial⟩, trivial⟩
  | leap _ _ _ ih => exact ⟨ih, trivial⟩
  | other _ hadmits _ _ ih => exact ⟨ih, hadmits⟩

theorem Timely.paced {start : System} {id : TaskId} {actions : List Action}
    (h : start.Timely id actions) : start.Paced actions := by
  induction h with
  | nil => exact .nil
  | turn _ hready tickFirst ih => exact ih.turn hready tickFirst
  | leap _ hready limit ih => exact ih.leap hready limit
  | other _ hadmits htolerates ih =>
    refine ih.other hadmits ?_ ?_
    . rintro ready rfl
      exact htolerates
    . rintro limit rfl
      exact htolerates

theorem Timely.legal {start : System} {id : TaskId} {actions : List Action}
    (h : start.Timely id actions) : Legal start actions :=
  h.paced.legal

/-!
## Standing in line
-/

section
variable {scope : Scope} {before after system : System} {id : TaskId}

theorem Change.mem_ready (h : before.Change scope after) (htasks : ¬scope.tasks id)
    (hsome : before.task? id ≠ none) (hmem : id ∈ before.ready) : id ∈ after.ready := by
  cases h with
  | removeTask other hother =>
    apply List.mem_filter.2
    refine ⟨hmem, ?_⟩
    simp only [ne_eq, decide_not, Bool.not_eq_true', decide_eq_false_iff_not]
    rintro rfl
    exact htasks hother
  | start task ready _ _ hready => exact hready hmem
  | line ready hready => exact (hready id hmem).resolve_right (not_or.2 ⟨htasks, hsome⟩)
  | number hsaid => cases hsaid <;> exact hmem
  | tell _ _ _ hsaid => cases hsaid <;> exact hmem
  | _ => exact hmem

theorem task?_ne_none_of_cases
    (h : after.task? id = before.task? id ∨ after.task? id = (before.task? id).map Task.unheard)
    (hsome : before.task? id ≠ none) : after.task? id ≠ none := by
  rcases h with heq | heq
  . rwa [heq]
  . rwa [heq, ne_eq, Option.map_eq_none_iff]

theorem Changes.mem_ready (h : before.Changes scope after) (htasks : ¬scope.tasks id)
    (hid : id < before.nextTask) (hsome : before.task? id ≠ none) (hmem : id ∈ before.ready)
    : id ∈ after.ready := by
  induction h with
  | refl => exact hmem
  | step hearlier hchange ih =>
    apply hchange.mem_ready htasks _ ih
    exact task?_ne_none_of_cases (hearlier.task?_cases htasks hid) hsome

theorem ready_wake_of_mem {other : TaskId} (h : other ∈ system.ready)
    : other ∈ (system.wake id).ready := by
  unfold wake
  split
  . exact h
  . split
    . exact h
    . exact List.mem_append_left _ h

theorem ready_stop_of_mem {other : TaskId} (h : other ∈ system.ready)
    : other ∈ (system.stop id).ready := by
  unfold System.stop
  split
  . exact h
  . dsimp only
    split
    . exact ready_wake_of_mem h
    . exact h

theorem mem_ready_wake {task : Task} (htask : system.task? id = some task)
    (hforeground : task.foreground = false) : id ∈ (system.wake id).ready := by
  unfold wake
  rw [htask]
  dsimp only
  rw [hforeground, Bool.false_or]
  split
  . next h => exact List.contains_iff_mem.1 h
  . exact List.mem_append_right _ List.mem_cons_self

theorem task?_wake (system : System) (id other : TaskId)
    : (system.wake id).task? other = system.task? other := by
  obtain ⟨ready, hwake, _⟩ := system.wake_eq id
  rw [hwake]
  rfl

theorem mem_ready_foldl_wake {ids : List TaskId} {task : Task}
    (htask : system.task? id = some task) (hforeground : task.foreground = false)
    (h : id ∈ ids ∨ id ∈ system.ready) : id ∈ (ids.foldl wake system).ready := by
  induction ids generalizing system with
  | nil => exact h.resolve_left List.not_mem_nil
  | cons first ids ih =>
    rw [List.foldl_cons]
    apply ih ((task?_wake system first id).trans htask)
    rcases h with hmem | hmem
    . rcases List.mem_cons.1 hmem with rfl | hrest
      . exact .inr (mem_ready_wake htask hforeground)
      . exact .inl hrest
    . exact .inr (ready_wake_of_mem hmem)

/-!
## Leaps
-/

theorem foldl_min_le {times : List Nat} {time : Nat} (limit : Nat) (h : time ∈ times)
    : times.foldl min limit ≤ time := by
  have hinit (times : List Nat) (limit : Nat) : times.foldl min limit ≤ limit := by
    induction times generalizing limit with
    | nil => exact Nat.le_refl _
    | cons first times ih => exact Nat.le_trans (ih _) (Nat.min_le_left _ _)
  induction times generalizing limit with
  | nil => cases h
  | cons first times ih =>
    rw [List.foldl_cons]
    rcases List.mem_cons.1 h with rfl | hrest
    . exact Nat.le_trans (hinit _ _) (Nat.min_le_right _ _)
    . exact ih _ hrest

theorem now_leap (system : System) (limit : Nat)
    : (system.leap limit).now =
        max (system.now + 1) ((system.tasks.filterMap (·.stage.due?)).foldl min limit) := by
  unfold leap
  dsimp only
  obtain ⟨ready, hwake⟩ := foldl_wake _ _
  rw [hwake]

theorem now_leap_le {task : Task} {due : Nat} (hmem : task ∈ system.tasks)
    (hdue : task.stage.due? = some due) (hlater : system.now < due) (limit : Nat)
    : (system.leap limit).now ≤ due := by
  rw [now_leap]
  exact Nat.max_le.2 ⟨hlater, foldl_min_le limit (List.mem_filterMap.2 ⟨task, hmem, hdue⟩)⟩

theorem lt_now_leap (system : System) (limit : Nat) : system.now < (system.leap limit).now := by
  obtain ⟨now, ready, hlt, hleap⟩ := system.leap_eq limit
  rw [hleap]
  exact hlt

theorem now_shutdown (system : System) : system.shutdown.now = system.now := by
  apply shutdown_induction (motive := fun middle => middle.now = system.now)
  . rfl
  . exact fun id middle h => ((middle.changes_drop id).now_eq not_false).1.trans h
  . exact fun _ h => h

theorem now_act (hadmits : system.Admits action) (h : ∀ limit, action ≠ .leap limit)
    : (system.act action).now = system.now := by
  have hchanges := changes_act hadmits
  cases action with
  | leap limit => exact absurd rfl (h limit)
  | shutdown => exact system.now_shutdown
  | _ => exact (hchanges.now_eq not_false).1

theorem now_le_act (hadmits : system.Admits action) : system.now ≤ (system.act action).now := by
  by_cases hleap : ∃ limit, action = .leap limit
  . obtain ⟨limit, rfl⟩ := hleap
    exact Nat.le_of_lt (system.lt_now_leap limit)
  . exact Nat.le_of_eq (now_act hadmits fun limit heq => hleap ⟨limit, heq⟩).symm

theorem mem_ready_leap {task : Task} {due : Nat} (htask : system.task? id = some task)
    (hforeground : task.foreground = false) (hdue : task.stage.due? = some due) (limit : Nat)
    (hcome : due ≤ (system.leap limit).now) : id ∈ (system.leap limit).ready := by
  have hmoved : { system with
      now := max (system.now + 1)
        ((system.tasks.filterMap fun task : Task => task.stage.due?).foldl min limit) }.task? id =
      some task :=
    htask
  rw [now_leap] at hcome
  unfold leap
  apply mem_ready_foldl_wake hmoved hforeground
  left
  apply List.mem_map.2
  refine ⟨task, List.mem_mergeSort.2 (List.mem_filter.2 ⟨List.mem_of_find?_eq_some htask, ?_⟩),
    task?_id htask⟩
  simp only [hforeground, Bool.not_false, Bool.true_and]
  unfold reached
  rw [hdue]
  exact decide_eq_true hcome

end

/-!
## Schedulers that are never late
-/

inductive Waits (now since period count : Nat) (line : Prop) : Stage → Prop where
  | fresh (hcount : count = 0) (hnow : now = since) (hline : line) :
    Waits now since period count line .fresh
  | ticking {due : Nat} (hdue : due = beat since period (count + 1))
    (h : now * 1000000 < due ∨ now * 1000000 < due + 1000000 ∧ line) :
    Waits now since period count line (.ticking due)
  | gathering (pending : List TaskId) (report : Report) {next : Nat}
    (hnext : next = beat since period (count + 1)) :
    Waits now since period count line (.gathering pending report next)

structure OnTime (system : System) (id : TaskId) (since period count : Nat) (line : Prop) : Prop where
  begun : beat since period count ≤ system.now * 1000000
  task : ∀ task, system.task? id = some task →
    task.foreground = false ∧ Waits system.now since period count line task.stage
  rounds : system.roundsOf id = beats since period count

theorem le_periodOf (period : Nat) : 1000000 ≤ periodOf period :=
  Nat.le_max_right _ _

theorem lt_millis {now due : Nat} (h : now * 1000000 < due) : now < (due + 999999) / 1000000 := by
  omega

theorem nanos_lt_of_lt {now due : Nat} (h : now < (due + 999999) / 1000000)
    : now * 1000000 < due := by
  omega

theorem nanos_lt_of_le {now due : Nat} (h : now ≤ (due + 999999) / 1000000)
    : now * 1000000 < due + 1000000 := by
  omega

theorem beat_succ (since period count : Nat)
    : beat since period (count + 1) = beat since period count + periodOf period := by
  unfold beat
  rw [Nat.succ_mul, Nat.add_assoc]

theorem nextTick_of_punctual {now due : Nat} (period : Nat) (h : now < due + 1000000)
    : nextTick period now due = due + periodOf period := by
  unfold nextTick
  rw [if_neg (by omega)]

theorem Waits.mono {now since period count : Nat} {line line' : Prop} {stage : Stage}
    (h : Waits now since period count line stage) (himp : line → line')
    : Waits now since period count line' stage := by
  cases h with
  | fresh hcount hnow hline => exact .fresh hcount hnow (himp hline)
  | ticking hdue h => exact .ticking hdue (h.imp_right (And.imp_right himp))
  | gathering pending report hnext => exact .gathering pending report hnext

theorem Waits.tick_eq {now since period count : Nat} {line : Prop} {stage : Stage}
    (h : Waits now since period count line stage)
    : stage.tick period (now * 1000000) = beat since period (count + 1) := by
  cases h with
  | fresh hcount hnow =>
    unfold Stage.tick beat
    rw [hcount, hnow, Nat.zero_add, Nat.one_mul]
  | ticking hdue => exact hdue
  | gathering pending report hnext => exact hnext

theorem Waits.lt_tick {now since period count : Nat} {line : Prop} {stage : Stage}
    (h : Waits now since period count line stage)
    (hswift : ∀ next ∈ stage.next?, now * 1000000 < next)
    : now * 1000000 < stage.tick period (now * 1000000) + 1000000 := by
  have hperiod := le_periodOf period
  cases h with
  | fresh => exact Nat.lt_add_right _ (Nat.lt_add_of_pos_right (by omega))
  | ticking _ h =>
    dsimp only [Stage.tick]
    omega
  | gathering pending report => exact Nat.lt_add_right _ (hswift _ rfl)

theorem OnTime.mono {system : System} {id : TaskId} {since period count : Nat} {line line' : Prop}
    (h : system.OnTime id since period count line) (himp : line → line')
    : system.OnTime id since period count line' :=
  ⟨h.begun, fun task htask => (h.task task htask).imp_right (·.mono himp), h.rounds⟩

theorem OnTime.setReady {system : System} {id : TaskId} {since period count : Nat} {line : Prop}
    (h : system.OnTime id since period count line) (ready : List TaskId)
    : { system with ready }.OnTime id since period count line :=
  ⟨h.begun, h.task, h.rounds⟩

section
variable {system after : System} {id : TaskId} {task : Task} {c period since count due : Nat}
  {tickFirst : Bool} {line : Prop}

theorem OnTime.of_none (hnone : system.task? id = none)
    (hbegun : beat since period count ≤ system.now * 1000000)
    (hrounds : system.roundsOf id = beats since period count)
    : system.OnTime id since period count line := by
  refine ⟨hbegun, ?_, hrounds⟩
  intro task htask
  cases hnone.symm.trans htask

theorem OnTime.of_task (htask : system.task? id = some task) (hforeground : task.foreground = false)
    (hbegun : beat since period count ≤ system.now * 1000000)
    (hrounds : system.roundsOf id = beats since period count)
    (hwaits : Waits system.now since period count line task.stage)
    : system.OnTime id since period count line := by
  refine ⟨hbegun, ?_, hrounds⟩
  intro other hother
  obtain rfl := Option.some.inj (htask.symm.trans hother)
  exact ⟨hforeground, hwaits⟩

theorem now_finish (system : System) (task : Task) (result : Except Error Outcome)
    : (system.finish task result).now = system.now := by
  have hfinish : system.Changes { tasks := (· = task.id), first := 0 } (system.finish task result) :=
    system.changes_finish result rfl
  exact (hfinish.now_eq not_false).1

theorem BeginsRound.onTime {now : Nat} {middle : System} (h : system.BeginsRound task middle)
    (hnanos : now = system.now * 1000000) (hrounds : system.roundsOf task.id = beats since period count)
    (hdue : due = beat since period (count + 1)) (hcome : due ≤ now) (hlate : now < due + 1000000)
    : middle.roundsOf task.id = beats since period (count + 1) := by
  have hbeat : (due + 999999) / 1000000 = system.now := by omega
  rw [h.rounds_eq, hrounds, beats, ← hdue, hbeat]

theorem Turns.onTime {now : Nat} (h : Turns tickFirst task c period now system due after)
    (hnanos : now = system.now * 1000000) (htask : system.task? task.id = some task)
    (hid : task.id < system.nextTask) (hforeground : task.foreground = false)
    (hbegun : beat since period count ≤ now)
    (hrounds : system.roundsOf task.id = beats since period count)
    (hdue : due = beat since period (count + 1)) (hlate : now < due + 1000000)
    (line : Prop) : ∃ count, after.OnTime task.id since period count line := by
  induction h generalizing count with
  | @ended system =>
    refine ⟨count, .of_none (system.task?_finish task _) ?_ ?_⟩
    . rw [now_finish, ← hnanos]
      exact hbegun
    . rw [roundsOf_finish]
      exact hrounds
  | parked _ hwaits =>
    refine ⟨count, .of_task (task?_park htask _) hforeground (hnanos ▸ hbegun) hrounds ?_⟩
    exact .ticking hdue (.inl (hnanos ▸ hwaits))
  | @began system middle due first rest report hcome _ h =>
    have hbegins := beginsRound h htask hid
    have hrounds' := hbegins.onTime hnanos hrounds hdue hcome hlate
    refine ⟨count + 1, .of_task (task?_setTask_stage hbegins.task?_eq _) hforeground ?_ hrounds' ?_⟩
    . rw [← hdue]
      exact Nat.le_trans hcome (Nat.le_of_eq (hnanos.trans (congrArg (· * 1000000) hbegins.now_eq.symm)))
    . rw [nextTick_of_punctual period hlate, hdue, ← beat_succ]
      exact .gathering _ report rfl
  | @passed system middle after due report hcome _ h _ ih =>
    have hbegins := beginsRound h htask hid
    have hrounds' := hbegins.onTime hnanos hrounds hdue hcome hlate
    have hperiod := le_periodOf period
    rw [nextTick_of_punctual period hlate] at ih
    refine ih (hnanos.trans (congrArg (· * 1000000) hbegins.now_eq.symm)) hbegins.task?_eq
      hbegins.id_lt ?_ hrounds' ?_ ?_
    . rw [← hdue]
      exact hcome
    . rw [hdue, ← beat_succ]
    . omega

theorem OnTime.step (h : system.OnTime id since period count line)
    (hscheduler : system.Scheduler id c period) (hswift : system.Swift id) (tickFirst : Bool)
    (line' : Prop)
    : ∃ count, (system.step tickFirst id).OnTime id since period count line' := by
  cases htask : system.task? id with
  | none =>
    rw [step_of_none htask]
    exact ⟨count, .of_none htask h.begun h.rounds⟩
  | some task =>
    obtain ⟨hforeground, hwaits⟩ := h.task task htask
    have hshifts := hscheduler.shifts htask tickFirst
    have hid := task?_id htask
    subst hid
    generalize system.step tickFirst task.id = after at hshifts ⊢
    cases hshifts with
    | idle hstage _ hidle =>
      refine ⟨count, .of_task htask hforeground h.begun h.rounds ?_⟩
      rw [hstage] at hwaits ⊢
      cases hwaits with
      | ticking hdue => exact .ticking hdue (.inl hidle)
    | @waits _ _ next hstage inbox first rest report =>
      rw [hstage] at hwaits
      cases hwaits with
      | gathering _ _ hnext =>
        exact ⟨count, .of_task (task?_setTask_inbox htask inbox _) hforeground h.begun h.rounds
          (.gathering (first :: rest) report hnext)⟩
    | turns inbox hturns =>
      exact hturns.onTime rfl htask hscheduler.id_lt hforeground h.begun h.rounds hwaits.tick_eq
        (hwaits.lt_tick (hswift.next? htask)) line'

theorem OnTime.other (h : system.OnTime id since period count (id ∈ system.ready))
    (hscheduler : system.Scheduler id c period) {action : Action} (hadmits : system.Admits action)
    (hline : ∀ ready, action ≠ .line ready) (hleap : ∀ limit, action ≠ .leap limit)
    (hstep : ∀ tickFirst, action ≠ .step tickFirst id)
    : (system.act action).OnTime id since period count (id ∈ (system.act action).ready) := by
  have hchanges := changes_act hadmits
  have hnow := now_act hadmits hleap
  refine ⟨hnow ▸ h.begun, ?_, (roundsOf_act hadmits hstep).trans h.rounds⟩
  intro next hnext
  by_cases htasks : (action.scope system).tasks id
  . cases action with
    | step tickFirst other => exact absurd (htasks.1 ▸ rfl) (hstep tickFirst)
    | drop other =>
      obtain ⟨rfl, _⟩ := htasks
      cases (task?_dropTask system id).symm.trans hnext
    | stop other =>
      obtain ⟨rfl, _⟩ := htasks
      obtain ⟨task, htask, rfl⟩ := Option.map_eq_some_iff.1 ((task?_stop system id).symm.trans hnext)
      obtain ⟨hforeground, hwaits⟩ := h.task task htask
      refine ⟨hforeground, ?_⟩
      rw [hnow]
      exact hwaits.mono ready_stop_of_mem
    | shutdown => cases (task?_shutdown system id hscheduler.id_lt).symm.trans hnext
    | line ready => exact absurd rfl (hline ready)
    | _ => cases htasks
  . have hfound (task : Task) (htask : system.task? id = some task)
        : task.foreground = false ∧ Waits (system.act action).now since period count
            (id ∈ (system.act action).ready) task.stage := by
      obtain ⟨hforeground, hwaits⟩ := h.task task htask
      refine ⟨hforeground, ?_⟩
      rw [hnow]
      apply hwaits.mono
      exact hchanges.mem_ready htasks hscheduler.id_lt (htask ▸ Option.some_ne_none task)
    rcases hchanges.task?_cases htasks hscheduler.id_lt with heq | heq
    . exact hfound next (heq.symm.trans hnext)
    . obtain ⟨task, htask, rfl⟩ := Option.map_eq_some_iff.1 (heq.symm.trans hnext)
      exact hfound task htask

theorem OnTime.leap (h : system.OnTime id since period count (id ∈ system.ready))
    (hready : system.ready = []) (limit : Nat)
    : (system.leap limit).OnTime id since period count (id ∈ (system.leap limit).ready) := by
  obtain ⟨now, ready, _, hleap⟩ := system.leap_eq limit
  have hlater := system.lt_now_leap limit
  have hrounds : (system.leap limit).roundsOf id = system.roundsOf id := by
    rw [hleap]
    rfl
  refine ⟨?_, ?_, hrounds.trans h.rounds⟩
  . exact Nat.le_trans h.begun (Nat.mul_le_mul_right _ (Nat.le_of_lt hlater))
  . intro task hfound
    have htask : system.task? id = some task := by
      rw [hleap] at hfound
      exact hfound
    obtain ⟨hforeground, hwaits⟩ := h.task task htask
    refine ⟨hforeground, ?_⟩
    have hnotReady : id ∉ system.ready := hready ▸ List.not_mem_nil
    generalize hstage : task.stage = stage at hwaits ⊢
    cases hwaits with
    | fresh _ _ hline => exact absurd hline hnotReady
    | @ticking due hdue h =>
      have hwaiting := h.resolve_right fun hlate => hnotReady hlate.2
      have hend : task.stage.due? = some ((due + 999999) / 1000000) := by
        rw [hstage]
        rfl
      have hle := now_leap_le (List.mem_of_find?_eq_some htask) hend (lt_millis hwaiting) limit
      refine .ticking hdue ?_
      by_cases hcome : (due + 999999) / 1000000 ≤ (system.leap limit).now
      . exact .inr ⟨nanos_lt_of_le hle, mem_ready_leap htask hforeground hend limit hcome⟩
      . exact .inl (nanos_lt_of_lt (Nat.lt_of_not_le hcome))
    | gathering pending report hnext => exact .gathering pending report hnext

theorem Paced.onTime {start : System} {actions : List Action} (h : start.Paced actions)
    (hscheduler : start.Scheduler id c period)
    (hstart : start.OnTime id since period 0 (id ∈ start.ready))
    (hswift : start.Throughout (·.Swift id) actions)
    : ∃ count, (start.after actions).OnTime id since period count
        (id ∈ (start.after actions).ready) := by
  -- Whose tick is due stands in line, so that no time passes before it is its turn.
  induction h with
  | nil => exact ⟨0, hstart⟩
  | @turn actions first ready hpaced hready tickFirst ih =>
    obtain ⟨⟨hearlier, hturn⟩, _⟩ := hswift
    obtain ⟨count, hnow⟩ := ih hearlier
    have hschedulerNow := hscheduler.after hpaced.legal
    have hschedulerTurn : (start.after (.line ready :: actions)).Scheduler id c period :=
      ⟨hschedulerNow.id_lt, hschedulerNow.task⟩
    by_cases hfirst : first = id
    . subst hfirst
      have honTime : (start.after (.line ready :: actions)).OnTime first since period count True :=
        (hnow.mono fun _ => trivial).setReady ready
      exact honTime.step hschedulerTurn hturn tickFirst _
    . have hline : id ∈ (start.after actions).ready → id ∈ ready := by
        rw [hready]
        exact fun hmem => (List.mem_cons.1 hmem).resolve_left fun heq => hfirst heq.symm
      have honTime : (start.after (.line ready :: actions)).OnTime id since period count
          (id ∈ (start.after (.line ready :: actions)).ready) :=
        (hnow.mono hline).setReady ready
      have hadmits : (start.after (.line ready :: actions)).Admits (.step tickFirst first) := trivial
      refine ⟨count, honTime.other hschedulerTurn hadmits nofun nofun ?_⟩
      rintro other heq
      cases heq
      exact hfirst rfl
  | leap _ hready limit ih =>
    obtain ⟨count, hnow⟩ := ih hswift.1
    exact ⟨count, hnow.leap hready limit⟩
  | @other action actions hpaced hadmits hline hleap ih =>
    obtain ⟨count, hnow⟩ := ih hswift.1
    have hschedulerNow := hscheduler.after hpaced.legal
    rcases action.step_or_ne id with ⟨tickFirst, rfl⟩ | hother
    . exact hnow.step hschedulerNow hswift.1.last tickFirst _
    . exact ⟨count, hnow.other hschedulerNow hadmits hline hleap hother⟩

theorem OnTime.lt_beat (h : system.OnTime id since period count (id ∈ system.ready))
    (htask : system.task? id = some task) (hready : system.ready = []) (hswift : system.Swift id)
    : system.now * 1000000 < beat since period (count + 1) := by
  obtain ⟨_, hwaits⟩ := h.task task htask
  have hnotReady : id ∉ system.ready := hready ▸ List.not_mem_nil
  have hnexts := hswift.next? htask
  generalize task.stage = stage at hwaits hnexts
  cases hwaits with
  | fresh _ _ hline => exact absurd hline hnotReady
  | ticking hdue h => exact hdue ▸ h.resolve_right fun hlate => hnotReady hlate.2
  | gathering _ _ hnext => exact hnext ▸ hnexts _ rfl

/-!
## Schedulers that are left alone
-/

theorem Turns.stays {now : Nat} (h : Turns tickFirst task c period now system due after)
    (htask : system.task? task.id = some task) (hid : task.id < system.nextTask)
    (hstopping : task.stopping = false) : ∃ next, after.task? task.id = some next := by
  induction h with
  | ended htold => cases hstopping.symm.trans htold
  | parked => exact ⟨_, task?_park htask _⟩
  | @began system middle _ _ _ _ _ _ h =>
    exact ⟨_, task?_setTask_stage (beginsRound h htask hid).task?_eq _⟩
  | @passed system middle _ _ _ _ _ h _ ih =>
    have hbegins := beginsRound h htask hid
    exact ih hbegins.task?_eq hbegins.id_lt

theorem Scheduler.stays (h : system.Scheduler id c period) (htask : system.task? id = some task)
    (hstopping : task.stopping = false) (tickFirst : Bool)
    : ∃ next, (system.step tickFirst id).task? id = some next := by
  have hshifts := h.shifts htask tickFirst
  obtain rfl := task?_id htask
  generalize system.step tickFirst task.id = after at hshifts ⊢
  cases hshifts with
  | idle => exact ⟨task, htask⟩
  | waits _ inbox =>
    exact ⟨_, task?_setTask_inbox htask inbox _⟩
  | turns inbox hturns => exact hturns.stays htask h.id_lt hstopping

theorem Scheduler.stays_act (h : system.Scheduler id c period) (htask : system.task? id = some task)
    (hstopping : task.stopping = false) {action : Action} (hadmits : system.Admits action)
    (hstop : action ≠ .stop id) (hdrop : action ≠ .drop id) (hshutdown : action ≠ .shutdown)
    : ∃ next, (system.act action).task? id = some next ∧ next.stopping = false := by
  have hstays : ∃ next, (system.act action).task? id = some next := by
    by_cases htasks : (action.scope system).tasks id
    . cases action with
      | step tickFirst other =>
        obtain ⟨rfl, _⟩ := htasks
        exact h.stays htask hstopping tickFirst
      | stop other => exact absurd (htasks.1 ▸ rfl) hstop
      | drop other => exact absurd (htasks.1 ▸ rfl) hdrop
      | shutdown => exact absurd rfl hshutdown
      | line => exact ⟨task, htask⟩
      | _ => cases htasks
    . have hcases := (changes_act hadmits).task?_cases htasks h.id_lt
      exact Option.ne_none_iff_exists'.1
        (task?_ne_none_of_cases hcases (htask ▸ Option.some_ne_none task))
  obtain ⟨next, hnext⟩ := hstays
  obtain ⟨earlier, hearlier, hgoes, _⟩ := h.goesOn_act hadmits hstop hnext
  obtain rfl := Option.some.inj (htask.symm.trans hearlier)
  exact ⟨next, hnext, hgoes.stopping_eq.trans hstopping⟩

theorem Timely.stays {start : System} {actions : List Action} (h : start.Timely id actions)
    (hscheduler : start.Scheduler id c period)
    (hstart : ∃ task, start.task? id = some task ∧ task.stopping = false)
    : ∃ task, (start.after actions).task? id = some task ∧ task.stopping = false := by
  induction h with
  | nil => exact hstart
  | @turn actions first ready htimely _ tickFirst ih =>
    obtain ⟨task, htask, hstopping⟩ := ih
    have hschedulerNow := hscheduler.after htimely.legal
    have hschedulerTurn : (start.after (.line ready :: actions)).Scheduler id c period :=
      ⟨hschedulerNow.id_lt, hschedulerNow.task⟩
    have hturn : (start.after (.line ready :: actions)).task? id = some task := htask
    have hadmits : (start.after (.line ready :: actions)).Admits (.step tickFirst first) := trivial
    exact hschedulerTurn.stays_act hturn hstopping hadmits nofun nofun nofun
  | @leap actions htimely _ limit ih =>
    obtain ⟨task, htask, hstopping⟩ := ih
    have hadmits : (start.after actions).Admits (.leap limit) := trivial
    exact (hscheduler.after htimely.legal).stays_act htask hstopping hadmits nofun nofun nofun
  | @other action actions htimely hadmits htolerates ih =>
    obtain ⟨task, htask, hstopping⟩ := ih
    apply (hscheduler.after htimely.legal).stays_act htask hstopping hadmits
    . rintro rfl
      exact htolerates rfl
    . rintro rfl
      exact htolerates rfl
    . rintro rfl
      exact htolerates

end

theorem beat_le_beat (since period : Nat) {count other : Nat} (h : count ≤ other)
    : beat since period count ≤ beat since period other :=
  Nat.add_le_add_left (Nat.mul_le_mul_right _ h) _

theorem count_eq_of_beat {since period count other now : Nat}
    (h : beat since period count ≤ now) (hlt : now < beat since period (count + 1))
    (h' : beat since period other ≤ now) (hlt' : now < beat since period (other + 1))
    : count = other := by
  have hle {first second : Nat} (hfirst : beat since period first ≤ now)
      (hsecond : now < beat since period (second + 1)) : first ≤ second := by
    apply Nat.le_of_not_lt
    intro hbeyond
    exact Nat.not_lt_of_le (Nat.le_trans (beat_le_beat since period hbeyond) hfirst) hsecond
  exact Nat.le_antisymm (hle h hlt') (hle h' hlt)

end System

end MediaProxy
