import MediaProxy.Proofs.System.Clock
import MediaProxy.Proofs.System.Keepalive
import MediaProxy.Proofs.System.Pulse

/-!
This module contains the rhythm of schedulers. However long rounds take, the next one begins after the last
one is over and not long before a period has passed. As long as no round takes too long, rounds begin exactly
one period after the other.
-/

namespace MediaProxy

namespace System

/-!
## Distances
-/

structure Distant (system : System) (id : TaskId) (since period : Nat) : Prop where
  early : ∀ time ∈ system.roundsOf id, since * 1000000 + periodOf period ≤ time * 1000000
  apart : (system.roundsOf id).Pairwise fun later earlier =>
    earlier * 1000000 + periodOf period ≤ later * 1000000 + 5000000

structure Clears (system : System) (id : TaskId) (since period due : Nat) : Prop where
  early : since * 1000000 + periodOf period ≤ due
  apart : ∀ time ∈ system.roundsOf id, time * 1000000 + periodOf period ≤ due + 5000000

structure Spaced (system : System) (id : TaskId) (since period : Nat) : Prop where
  distant : system.Distant id since period
  clears : ∀ task, system.task? id = some task →
    system.Clears id since period (task.stage.tick period (system.now * 1000000))

section
variable {system after start : System} {id : TaskId} {task : Task} {c period since due : Nat}
  {tickFirst : Bool} {actions : List Action}

theorem Distant.of_eq (h : system.Distant id since period)
    (hrounds : after.roundsOf id = system.roundsOf id) : after.Distant id since period where
  early := hrounds ▸ h.early
  apart := hrounds ▸ h.apart

theorem Clears.of_eq (h : system.Clears id since period due) {due' : Nat}
    (hrounds : after.roundsOf id = system.roundsOf id) (hdue : due ≤ due')
    : after.Clears id since period due' where
  early := Nat.le_trans h.early hdue
  apart time htime :=
    Nat.le_trans (h.apart time (hrounds ▸ htime)) (Nat.add_le_add_right hdue 5000000)

theorem Stage.tick_le (stage : Stage) (period : Nat) {now now' : Nat} (h : now ≤ now')
    : stage.tick period now ≤ stage.tick period now' := by
  cases stage <;> simp [Stage.tick, h]

theorem le_nextTick (period now due : Nat)
    : now + periodOf period ≤ nextTick period now due + 5000000 := by
  unfold nextTick
  split <;> omega

theorem BeginsRound.distant {middle : System} (h : system.BeginsRound task middle)
    (hdistant : system.Distant task.id since period) (hclears : system.Clears task.id since period due)
    (hcome : due ≤ system.now * 1000000)
    : middle.Distant task.id since period ∧
        middle.Clears task.id since period (nextTick period (system.now * 1000000) due) := by
  have hnext := le_nextTick period (system.now * 1000000) due
  have hlater := lt_nextTick period (system.now * 1000000) due
  refine ⟨⟨?_, ?_⟩, ⟨?_, ?_⟩⟩
  . rw [h.rounds_eq]
    exact List.forall_mem_cons.2 ⟨Nat.le_trans hclears.early hcome, hdistant.early⟩
  . rw [h.rounds_eq]
    refine List.pairwise_cons.2 ⟨?_, hdistant.apart⟩
    intro earlier hearlier
    exact Nat.le_trans (hclears.apart earlier hearlier) (Nat.add_le_add_right hcome 5000000)
  . exact Nat.le_trans hclears.early (Nat.le_of_lt hlater)
  . rw [h.rounds_eq]
    refine List.forall_mem_cons.2 ⟨hnext, ?_⟩
    intro time htime
    exact Nat.le_trans (hclears.apart time htime) (Nat.add_le_add_right (Nat.le_of_lt hlater) 5000000)

theorem Turns.spaced {now : Nat} (h : Turns tickFirst task c period now system due after)
    (hnanos : now = system.now * 1000000) (htask : system.task? task.id = some task)
    (hid : task.id < system.nextTask) (hdistant : system.Distant task.id since period)
    (hclears : system.Clears task.id since period due) : after.Spaced task.id since period := by
  induction h with
  | @ended system =>
    refine ⟨hdistant.of_eq (roundsOf_finish _ _ _ _), ?_⟩
    intro next hnext
    cases (system.task?_finish task _).symm.trans hnext
  | parked =>
    refine ⟨hdistant.of_eq rfl, ?_⟩
    intro next hnext
    obtain rfl := Option.some.inj ((task?_park htask _).symm.trans hnext)
    exact ⟨hclears.early, hclears.apart⟩
  | @began system middle due first rest report hcome _ h =>
    subst hnanos
    have hbegins := beginsRound h htask hid
    obtain ⟨hdistant', hclears'⟩ := hbegins.distant hdistant hclears hcome
    refine ⟨hdistant'.of_eq rfl, ?_⟩
    intro next hnext
    obtain rfl := Option.some.inj ((task?_setTask_stage hbegins.task?_eq _).symm.trans hnext)
    exact ⟨hclears'.early, hclears'.apart⟩
  | @passed system middle _ _ _ hcome _ h _ ih =>
    subst hnanos
    have hbegins := beginsRound h htask hid
    obtain ⟨hdistant', hclears'⟩ := hbegins.distant hdistant hclears hcome
    exact ih (congrArg (· * 1000000) hbegins.now_eq.symm) hbegins.task?_eq hbegins.id_lt hdistant' hclears'

theorem Spaced.step (h : system.Spaced id since period) (hscheduler : system.Scheduler id c period)
    (tickFirst : Bool) : (system.step tickFirst id).Spaced id since period := by
  cases htask : system.task? id with
  | none =>
    rw [step_of_none htask]
    exact h
  | some task =>
    have hclears := h.clears task htask
    have hshifts := hscheduler.shifts htask tickFirst
    obtain rfl := task?_id htask
    generalize system.step tickFirst task.id = after at hshifts ⊢
    cases hshifts with
    | idle => exact h
    | waits hstage inbox first rest report =>
      refine ⟨h.distant.of_eq rfl, ?_⟩
      intro next hnext
      obtain rfl := Option.some.inj ((task?_setTask_inbox htask inbox _).symm.trans hnext)
      rw [hstage] at hclears
      exact ⟨hclears.early, hclears.apart⟩
    | turns inbox hturns =>
      exact hturns.spaced rfl htask hscheduler.id_lt (h.distant.of_eq rfl)
        ⟨hclears.early, hclears.apart⟩

theorem Spaced.act (h : system.Spaced id since period) (hscheduler : system.Scheduler id c period)
    {action : Action} (hadmits : system.Admits action) : (system.act action).Spaced id since period := by
  rcases action.step_or_ne id with ⟨tickFirst, rfl⟩ | hother
  . exact h.step hscheduler tickFirst
  . have hrounds := roundsOf_act hadmits hother
    have hnow := now_le_act hadmits
    refine ⟨h.distant.of_eq hrounds, ?_⟩
    intro next hnext
    obtain ⟨task, htask, hstage⟩ := hscheduler.stage_act hadmits hother hnext
    rw [hstage]
    exact (h.clears task htask).of_eq hrounds (Stage.tick_le _ period (Nat.mul_le_mul_right _ hnow))

theorem Launched.spaced (h : start.Launched id c period) : start.Spaced id start.now period := by
  obtain ⟨first, hfirst, _, hstage, _, _⟩ := h.task
  have hnone (time : Nat) (htime : time ∈ start.roundsOf id) : False := by
    rw [h.rounds] at htime
    cases htime
  refine ⟨⟨fun time htime => (hnone time htime).elim, ?_⟩, ?_⟩
  . rw [h.rounds]
    exact .nil
  . intro task htask
    obtain rfl := Option.some.inj (hfirst.symm.trans htask)
    rw [hstage]
    exact ⟨Nat.le_refl _, fun time htime => (hnone time htime).elim⟩

theorem Launched.distant (h : start.Launched id c period) (hlegal : Legal start actions)
    : (start.after actions).Distant id start.now period := by
  suffices hspaced : (start.after actions).Spaced id start.now period from hspaced.distant
  induction actions with
  | nil => exact h.spaced
  | cons action actions ih => exact (ih hlegal.1).act (h.scheduler.after hlegal.1) hlegal.2

end

/-!
## Results of tasks that have ended
-/

def Delivered (system : System) (first : TaskId) : Prop :=
  ∀ id, first ≤ id → system.letters id ≠ [] → id < system.nextTask ∧ system.task? id = none

section
variable {scope : Scope} {system after : System} {id first : TaskId}

theorem Numbered.delivered (h : system.Numbered) : system.Delivered system.nextTask :=
  fun id hid hletters => absurd (h id hid).letters_eq hletters

theorem Change.letters_or (h : system.Change scope after) (hsound : system.Sound)
    (htasks : scope.tasks id → id < system.nextTask) (hletters : after.letters id ≠ [])
    : system.letters id ≠ [] ∨ id < after.nextTask ∧ after.task? id = none := by
  cases h with
  | number hsaid =>
    cases hsaid with
    | nothing => exact .inl hletters
    | noted => exact .inl hletters
    | delivered result =>
      rw [letters_append] at hletters
      by_cases hid : system.nextTask = id
      . subst hid
        exact .inr ⟨Nat.lt_succ_self _, hsound.task?_nextTask⟩
      . rw [if_neg hid] at hletters
        exact .inl hletters
  | tell other hother hnone hsaid =>
    cases hsaid with
    | nothing => exact .inl hletters
    | noted => exact .inl hletters
    | delivered result =>
      rw [letters_append] at hletters
      by_cases hid : other = id
      . subst hid
        exact .inr ⟨htasks hother, hnone⟩
      . rw [if_neg hid] at hletters
        exact .inl hletters
  | take other =>
    left
    intro hnil
    rw [letters_filter, hnil, ite_self] at hletters
    exact hletters rfl
  | _ => exact .inl hletters

theorem Delivered.changes (h : system.Delivered first)
    (hsound : system.Sound) (hchanges : system.Changes scope after)
    (htasks : ∀ id, scope.tasks id → id < system.nextTask) : after.Delivered first := by
  induction hchanges with
  | refl => exact h
  | @step middle after hearlier hchange ih =>
    intro id hid hletters
    have hle := hearlier.grows.nextTask_le
    have hor := hchange.letters_or (hsound.changes hearlier)
      (fun hscope => Nat.lt_of_lt_of_le (htasks id hscope) hle) hletters
    rcases hor with hbefore | hended
    . obtain ⟨hlt, hnone⟩ := ih id hid hbefore
      exact ⟨Nat.lt_of_lt_of_le hlt hchange.grows.nextTask_le, hchange.grows.ended id hlt hnone⟩
    . exact hended

theorem Delivered.dropTask (h : system.Delivered first) (hsound : system.Sound)
    (other : TaskId) : (system.dropTask other).Delivered first := by
  apply h.changes hsound (system.changes_drop other)
  rintro id ⟨rfl, task, htask⟩
  exact hsound.lt_of_task? htask

theorem Delivered.act (h : system.Delivered first) (hsound : system.Sound)
    {action : Action} (hadmits : system.Admits action) : (system.act action).Delivered first := by
  have hchanges := changes_act hadmits
  cases action with
  | shutdown =>
    have hall : system.shutdown.Sound ∧ system.shutdown.Delivered first := by
      apply shutdown_induction (motive := fun middle => middle.Sound ∧ middle.Delivered first)
      . exact ⟨hsound.of_same ⟨rfl, rfl, rfl, rfl⟩, h⟩
      . exact fun other middle ⟨hmiddle, hdelivered⟩ =>
          ⟨hmiddle.changes (middle.changes_drop other), hdelivered.dropTask hmiddle other⟩
      . exact fun _ ⟨hmiddle, hdelivered⟩ => ⟨hmiddle.of_same ⟨rfl, rfl, rfl, rfl⟩, hdelivered⟩
    exact hall.2
  | line => exact h
  | drop other => exact h.dropTask hsound other
  | step tickFirst other =>
    apply h.changes hsound hchanges
    rintro id ⟨rfl, task, htask⟩
    exact hsound.lt_of_task? htask
  | stop other =>
    apply h.changes hsound hchanges
    rintro id ⟨rfl, task, htask⟩
    exact hsound.lt_of_task? htask
  | _ => exact h.changes hsound hchanges fun _ => False.elim

end

theorem Delivered.after {start : System} {actions : List Action} {first : TaskId}
    (h : start.Delivered first) (hsound : start.Sound) (hlegal : Legal start actions)
    : (start.after actions).Delivered first := by
  induction actions with
  | nil => exact h
  | cons action actions ih => exact (ih hlegal.1).act (hsound.after hlegal.1) hlegal.2

/-!
## Rounds that are over
-/

def startedBy (start : System) (id : TaskId) : List Action → List TaskId
  | [] => []
  | action :: actions =>
    let before := start.after actions
    if action.isStepOf id then
      List.range' before.nextTask ((before.act action).nextTask - before.nextTask) ++
        start.startedBy id actions
    else start.startedBy id actions

structure Attends (system : System) (id first : TaskId) (started : List TaskId) : Prop where
  range : ∀ other ∈ started, first ≤ other ∧ other < system.nextTask
  waits : ∀ task, system.task? id = some task → ∀ other ∈ started,
    system.task? other = none ∨ other ∈ task.stage.pending

section
variable {system after start : System} {id first : TaskId} {task : Task} {c period now due : Nat}
  {tickFirst : Bool} {started : List TaskId} {actions : List Action}

theorem startedBy_step
    : start.startedBy id (.step tickFirst id :: actions) =
        List.range' (start.after actions).nextTask
          (((start.after actions).step tickFirst id).nextTask - (start.after actions).nextTask) ++
        start.startedBy id actions := by
  rw [startedBy, Action.isStepOf_step]
  rfl

theorem startedBy_other {action : Action} (h : ∀ tickFirst, action ≠ .step tickFirst id)
    : start.startedBy id (action :: actions) = start.startedBy id actions := by
  rw [startedBy, Action.isStepOf_of_ne h]
  rfl

theorem Turns.nextTask_eq (h : Turns tickFirst task c period now system due after)
    (hnone : system.upheld c = []) : after.nextTask = system.nextTask := by
  induction h with
  | ended => exact nextTask_resolve _ _ _ _ _
  | parked => rfl
  | @began system _ _ _ _ _ _ _ h =>
    have hopens := system.opens_beginRound task.id c
    rw [h] at hopens
    have hlength := hopens.length_upheld
    rw [hnone] at hlength
    cases hlength
  | @passed system middle _ _ _ _ _ h _ ih =>
    have hopens := system.opens_beginRound task.id c
    have hupheld := system.upheld_beginRound task.id c
    rw [h] at hopens hupheld
    rw [ih (hupheld.trans hnone), hopens.eqs.2.2.2.1, hnone]
    rfl

theorem Turns.starts (h : Turns tickFirst task c period now system due after)
    (htask : system.task? task.id = some task) (hid : task.id < system.nextTask)
    : after.nextTask = system.nextTask ∨
        after.roundsOf task.id = system.now :: system.roundsOf task.id ∧
          ∀ next, after.task? task.id = some next →
            ∀ other, system.nextTask ≤ other → other < after.nextTask →
              other ∈ next.stage.pending := by
  cases h with
  | ended => exact .inl (nextTask_resolve _ _ _ _ _)
  | parked => exact .inl rfl
  | began _ _ h =>
    have hbegins := beginsRound h htask hid
    have hopens := system.opens_beginRound task.id c
    rw [h] at hopens
    refine .inr ⟨hbegins.rounds_eq, ?_⟩
    intro next hnext other hle hlt
    obtain rfl := Option.some.inj ((task?_setTask_stage hbegins.task?_eq _).symm.trans hnext)
    obtain ⟨hstarted, _, _, hnumber, _⟩ := hopens.eqs
    change other ∈ _ :: _
    rw [hstarted, map_snd_keepAlives, List.mem_range'_1]
    exact ⟨hle, hnumber ▸ hlt⟩
  | passed _ _ h hrest =>
    -- The objects are the same in all rounds of the step: there are none.
    have hopens := system.opens_beginRound task.id c
    have hupheld := system.upheld_beginRound task.id c
    rw [h] at hopens hupheld
    have hnone : system.upheld c = [] := List.length_eq_zero_iff.1 hopens.length_upheld
    left
    rw [hrest.nextTask_eq (hupheld.trans hnone), hopens.eqs.2.2.2.1, hnone]
    rfl

theorem Scheduler.starts (h : system.Scheduler id c period) (tickFirst : Bool)
    : (system.step tickFirst id).nextTask = system.nextTask ∨
        (system.step tickFirst id).roundsOf id = system.now :: system.roundsOf id ∧
          ∀ next, (system.step tickFirst id).task? id = some next →
            ∀ other, system.nextTask ≤ other → other < (system.step tickFirst id).nextTask →
              other ∈ next.stage.pending := by
  cases htask : system.task? id with
  | none => exact .inl (congrArg nextTask (step_of_none htask tickFirst))
  | some task =>
    have hshifts := h.shifts htask tickFirst
    obtain rfl := task?_id htask
    generalize system.step tickFirst task.id = after at hshifts ⊢
    cases hshifts with
    | idle => exact .inl rfl
    | waits => exact .inl rfl
    | turns inbox hturns => exact hturns.starts htask h.id_lt

/-!
## Waiting for all of a round
-/

theorem Attends.keep (h : system.Attends id first started) (hgrows : system.Grows after)
    (hwaits : ∀ next, after.task? id = some next → ∀ other ∈ started,
      system.task? other = none ∨ other ∈ next.stage.pending)
    : after.Attends id first started where
  range other hother :=
    (h.range other hother).imp_right fun hlt => Nat.lt_of_lt_of_le hlt hgrows.nextTask_le
  waits next hnext other hother :=
    (hwaits next hnext other hother).imp_left (hgrows.ended other (h.range other hother).2)

theorem Attends.ended (h : system.Attends id first started) (hdelivered : system.Delivered first)
    (htask : system.task? id = some task) (htaken : ∀ id ∈ task.stage.pending, system.letters id ≠ [])
    : ∀ other ∈ started, system.task? other = none := by
  intro other hother
  rcases h.waits task htask other hother with hnone | hpending
  . exact hnone
  . exact (hdelivered other (h.range other hother).1 (htaken other hpending)).2

theorem Attends.ended_of_begins (h : system.Attends id first started)
    (hscheduler : system.Scheduler id c period) (hdelivered : system.Delivered first)
    (hbegins : (system.step tickFirst id).roundsOf id ≠ system.roundsOf id)
    : ∀ other ∈ started, system.task? other = none := by
  cases htask : system.task? id with
  | none => exact absurd (congrArg (roundsOf · id) (step_of_none htask tickFirst)) hbegins
  | some task =>
    have hshifts := hscheduler.shifts htask tickFirst
    obtain rfl := task?_id htask
    generalize system.step tickFirst task.id = after at hshifts hbegins
    cases hshifts with
    | idle => exact absurd rfl hbegins
    | waits => exact absurd rfl hbegins
    | turns _ _ htaken => exact h.ended hdelivered htask htaken

theorem Attends.waits_step (h : system.Attends id first started)
    (hscheduler : system.Scheduler id c period) (hdelivered : system.Delivered first)
    (hnext : (system.step tickFirst id).task? id = some next)
    : ∀ other ∈ started, system.task? other = none ∨ other ∈ next.stage.pending := by
  cases htask : system.task? id with
  | none =>
    rw [step_of_none htask, htask] at hnext
    cases hnext
  | some task =>
    have hshifts := hscheduler.shifts htask tickFirst
    obtain rfl := task?_id htask
    generalize system.step tickFirst task.id = after at hshifts hnext
    cases hshifts with
    | idle =>
      obtain rfl := Option.some.inj (htask.symm.trans hnext)
      exact h.waits task htask
    | waits hstage inbox _ _ _ htaken =>
      obtain rfl := Option.some.inj ((task?_setTask_inbox htask inbox _).symm.trans hnext)
      intro other hother
      rcases h.waits task htask other hother with hnone | hpending
      . exact .inl hnone
      . rw [hstage] at hpending
        rcases htaken other hpending with hstill | hletters
        . exact .inr hstill
        . exact .inl (hdelivered other (h.range other hother).1 hletters).2
    | turns _ _ htaken => exact fun other hother => .inl (h.ended hdelivered htask htaken other hother)

theorem Attends.step (h : system.Attends id first started)
    (hscheduler : system.Scheduler id c period) (hdelivered : system.Delivered first)
    (hfirst : first ≤ system.nextTask) (tickFirst : Bool)
    : (system.step tickFirst id).Attends id first
        (List.range' system.nextTask ((system.step tickFirst id).nextTask - system.nextTask) ++
          started) := by
  have hgrows := (system.changes_step tickFirst id).grows
  have hold := h.keep hgrows fun _ => h.waits_step hscheduler hdelivered
  have hnew {other : TaskId}
      (hother : other ∈ List.range' system.nextTask
        ((system.step tickFirst id).nextTask - system.nextTask))
      : system.nextTask ≤ other ∧ other < (system.step tickFirst id).nextTask := by
    rwa [List.mem_range'_1, Nat.add_sub_cancel' hgrows.nextTask_le] at hother
  constructor
  . intro other hother
    rcases List.mem_append.1 hother with hmem | hmem
    . exact (hnew hmem).imp_left (Nat.le_trans hfirst)
    . exact hold.range other hmem
  . intro next hnext other hother
    rcases List.mem_append.1 hother with hmem | hmem
    . obtain ⟨hle, hlt⟩ := hnew hmem
      rcases hscheduler.starts tickFirst with hsame | ⟨_, hpending⟩
      . exact absurd hle (Nat.not_le_of_lt (hsame ▸ hlt))
      . exact .inr (hpending next hnext other hle hlt)
    . exact hold.waits next hnext other hmem

theorem Attends.act (h : system.Attends id first started)
    (hscheduler : system.Scheduler id c period) {action : Action} (hadmits : system.Admits action)
    (hother : ∀ tickFirst, action ≠ .step tickFirst id)
    : (system.act action).Attends id first started := by
  apply h.keep (changes_act hadmits).grows
  intro next hnext
  obtain ⟨task, htask, hstage⟩ := hscheduler.stage_act hadmits hother hnext
  rw [hstage]
  exact h.waits task htask

theorem Legal.attends (hlegal : Legal start actions) (hsound : start.Sound)
    (hnumbered : start.Numbered) (hscheduler : start.Scheduler id c period)
    : (start.after actions).Attends id start.nextTask (start.startedBy id actions) := by
  induction actions with
  | nil => exact ⟨fun _ => (absurd · List.not_mem_nil), fun _ _ _ => (absurd · List.not_mem_nil)⟩
  | cons action actions ih =>
    have hattends := ih hlegal.1
    rcases action.step_or_ne id with ⟨tickFirst, rfl⟩ | hother
    . rw [startedBy_step]
      exact hattends.step (hscheduler.after hlegal.1)
        (hnumbered.delivered.after hsound hlegal.1) hlegal.1.grows.nextTask_le tickFirst
    . rw [startedBy_other hother]
      exact hattends.act (hscheduler.after hlegal.1) hlegal.2 hother

end

/-!
## Rounds on time
-/

section
variable {start : System} {id : TaskId} {c period millis : Nat} {actions : List Action}

theorem beat_of_millis (hmillis : periodOf period = millis * 1000000) (since count : Nat)
    : beat since period count = (since + count * millis) * 1000000 := by
  unfold beat
  rw [hmillis, Nat.add_mul, Nat.mul_assoc]

theorem reverse_beats (hmillis : periodOf period = millis * 1000000) (since count : Nat)
    : (beats since period count).reverse =
        (List.range' 1 count).map fun k => since + k * millis := by
  induction count with
  | zero => rfl
  | succ count ih =>
    have htime : (beat since period (count + 1) + 999999) / 1000000 = since + (count + 1) * millis := by
      rw [beat_of_millis hmillis]
      omega
    rw [beats, List.reverse_cons, ih, htime, List.range'_1_concat, List.map_append, Nat.add_comm 1]
    rfl

theorem Launched.regular (h : start.Launched id c period)
    (hmillis : periodOf period = millis * 1000000) (hclocked : start.Clocked actions)
    (hswift : start.Throughout (·.Swift id) actions)
    : ∃ count, ((start.after actions).roundsOf id).reverse =
        (List.range' 1 count).map (fun k => start.now + k * millis) ∧
        start.now + count * millis ≤ (start.after actions).now ∧
        ((start.after actions).ready = [] → (start.after actions).task? id ≠ none →
          (start.after actions).now < start.now + (count + 1) * millis) := by
  obtain ⟨count, honTime⟩ := hclocked.paced.onTime h.scheduler h.onTime hswift
  refine ⟨count, ?_, ?_, ?_⟩
  . rw [honTime.rounds, reverse_beats hmillis]
  . have hbegun := honTime.begun
    rw [beat_of_millis hmillis] at hbegun
    exact Nat.le_of_mul_le_mul_right hbegun (by decide)
  . intro hready hthere
    obtain ⟨task, htask⟩ := Option.ne_none_iff_exists'.1 hthere
    have hlt := honTime.lt_beat htask hready hswift.last
    rw [beat_of_millis hmillis] at hlt
    exact Nat.lt_of_mul_lt_mul_right hlt

end

/-!
## Promises
-/

/--
What a scheduler promises whose period is a number of milliseconds. Whatever happens, no round begins
before a period has passed, and rounds begin a period apart, but for the five milliseconds that a tick may
be late without delaying others. A round begins only when all keepalives of the rounds before have ended,
and it is the only one of its step if it has any. In virtual time, as long as no round is still going on
when the next one is due, rounds begin exactly one period after the other, and none is left out while the
scheduler is there.
-/
structure KeepsRhythm (start : System) (id : TaskId) (millis : Nat) : Prop where
  early : ∀ actions, Legal start actions →
    ∀ time ∈ (start.after actions).roundsOf id, start.now + millis ≤ time
  apart : ∀ actions, Legal start actions →
    ((start.after actions).roundsOf id).Pairwise fun later earlier => earlier + millis ≤ later + 5
  alone : ∀ action actions, Legal start (action :: actions) →
    (start.after (action :: actions)).roundsOf id ≠ (start.after actions).roundsOf id →
    ∀ other ∈ start.startedBy id actions, (start.after actions).task? other = none
  single : ∀ action actions, Legal start (action :: actions) →
    start.startedBy id (action :: actions) ≠ start.startedBy id actions →
    (start.after (action :: actions)).roundsOf id =
      (start.after actions).now :: (start.after actions).roundsOf id
  regular : ∀ actions, start.Clocked actions → start.Throughout (·.Swift id) actions →
    ∃ count, ((start.after actions).roundsOf id).reverse =
        (List.range' 1 count).map (fun k => start.now + k * millis) ∧
      start.now + count * millis ≤ (start.after actions).now ∧
      ((start.after actions).ready = [] → (start.after actions).task? id ≠ none →
        (start.after actions).now < start.now + (count + 1) * millis)

theorem keepsRhythm_of_launched (start : System) (id : TaskId) (c period millis : Nat)
    (h : start.Launched id c period) (hnumbered : start.Numbered)
    (hmillis : periodOf period = millis * 1000000) : start.KeepsRhythm id millis := by
  constructor
  . intro actions hlegal time htime
    have hearly := (h.distant hlegal).early time htime
    rw [hmillis] at hearly
    omega
  . intro actions hlegal
    apply (h.distant hlegal).apart.imp
    intro later earlier hapart
    rw [hmillis] at hapart
    omega
  . intro action actions hlegal hbegins
    rcases action.step_or_ne id with ⟨tickFirst, rfl⟩ | hother
    . have hattends := hlegal.1.attends h.sound hnumbered h.scheduler
      exact hattends.ended_of_begins (h.scheduler.after hlegal.1)
        (hnumbered.delivered.after h.sound hlegal.1) hbegins
    . exact absurd (roundsOf_act hlegal.2 hother) hbegins
  . intro action actions hlegal hstarts
    rcases action.step_or_ne id with ⟨tickFirst, rfl⟩ | hother
    . rcases (h.scheduler.after hlegal.1).starts tickFirst with hsame | ⟨hrounds, _⟩
      . rw [startedBy_step, hsame, Nat.sub_self] at hstarts
        exact absurd rfl hstarts
      . exact hrounds
    . exact absurd (startedBy_other hother) hstarts
  . exact fun _ => h.regular hmillis

-- A scheduler with a period of 20 ms and two objects. The keepalives are answered at once.
def rhythmic : System :=
  furnished.after
    (.spawn (.schedule 0 20000000) { handler := .channel false } "" :: preparing .immediate)

theorem launched_rhythmic : rhythmic.Launched 0 0 20000000 := by
  have hlegal : Legal furnished (preparing .immediate) := ⟨⟨trivial, Nat.one_pos⟩, trivial⟩
  exact launched_spawn (sound_furnished.after hlegal) rfl rfl 0 20000000 _ ""

theorem numbered_rhythmic : rhythmic.Numbered := by
  have hlegal : Legal furnished (preparing .immediate) := ⟨⟨trivial, Nat.one_pos⟩, trivial⟩
  have hresolved : (furnished.after ((preparing .immediate).drop 1)).Numbered :=
    numbered_furnished.act sound_furnished hlegal.1.2 nofun
  have hserved : (furnished.after (preparing .immediate)).Numbered :=
    hresolved.act (sound_furnished.after hlegal.1) hlegal.2 nofun
  exact hserved.act (sound_furnished.after hlegal) trivial nofun

-- The first round begins and ends, and the second one begins.
def paced : List Action :=
  [.step false 0, .line [], .leap 100, .step false 0, .line [], .step false 2, .line [0],
    .step false 1, .line [2], .step false 0, .line [], .leap 100, .step false 0, .line []]

theorem clocked_paced : rhythmic.Clocked paced := by
  have hwaits : rhythmic.Clocked (paced.drop 12) := .turn .nil (by decide +kernel) false
  have hbegun : rhythmic.Clocked (paced.drop 9) :=
    .turn (.leap hwaits (settled_of_background (by decide +kernel) (by decide +kernel)) 100)
      (by decide +kernel) false
  have hended : rhythmic.Clocked (paced.drop 3) :=
    .turn (.turn (.turn hbegun (by decide +kernel) false) (by decide +kernel) false)
      (by decide +kernel) false
  exact .turn (.leap hended (settled_of_background (by decide +kernel) (by decide +kernel)) 100)
    (by decide +kernel) false

theorem keepsRhythm_rhythmic
    : rhythmic.Launched 0 0 20000000 ∧ rhythmic.Numbered ∧ periodOf 20000000 = 20 * 1000000 ∧
      rhythmic.KeepsRhythm 0 20 ∧ rhythmic.Clocked paced ∧ rhythmic.Throughout (·.Swift 0) paced ∧
      (rhythmic.after paced).roundsOf 0 = [40, 20] ∧ rhythmic.startedBy 0 paced = [3, 4, 1, 2] := by
  refine ⟨launched_rhythmic, numbered_rhythmic, rfl,
    keepsRhythm_of_launched rhythmic 0 0 20000000 20 launched_rhythmic numbered_rhythmic rfl,
    clocked_paced, ?_, ?_, ?_⟩
  all_goals decide +kernel

end System

end MediaProxy
