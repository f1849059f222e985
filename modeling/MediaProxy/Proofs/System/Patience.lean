import MediaProxy.Proofs.Pool.Line
import MediaProxy.Proofs.System.Fairness
import MediaProxy.Proofs.System.Refusal
import MediaProxy.Proofs.System.Traffic

/-!
This module contains how long acquisitions wait: each of them up to one deadline, however often it is woken in
vain, and none of them while a connection is free for it.
-/

namespace MediaProxy

def Stage.isFresh : Stage → Bool
  | .fresh => true
  | _ => false

namespace System

/-!
## Pools
-/

structure Provided (system : System) : Prop where
  timeout_eq : ∀ c, c < system.store.contexts.length →
    (system.link c).pool.timeout = (system.store.context c).config.acquireTimeout.toNat
  promised : ∀ c flavor,
    (system.slots c flavor).line.Promised (system.slots c flavor).capacity 0

section
variable {scope : Scope} {system before after : System}

theorem timeout_setServer (system : System) (c : Nat) (server : Server) (d : Nat)
    : ((system.setServer c server).link d).pool.timeout = (system.link d).pool.timeout := by
  unfold setServer link
  dsimp only
  rw [getD_modify]
  split <;> rfl

theorem timeout_setSlots (system : System) (c : Nat) (flavor : Flavor) (slots : Slots) (d : Nat)
    : ((system.setSlots c flavor slots).link d).pool.timeout = (system.link d).pool.timeout := by
  unfold setSlots link
  dsimp only
  rw [getD_modify]
  split
  . cases flavor <;> rfl
  . rfl

theorem Change.timeout_eq (h : before.Change scope after) {c : Nat} (hc : c < before.links.length)
    : (after.link c).pool.timeout = (before.link c).pool.timeout := by
  cases h with
  | serve d server => apply timeout_setServer
  | slots d flavor move => apply timeout_setSlots
  | found context =>
    unfold link
    dsimp only
    rw [getD_concat, if_neg (Nat.ne_of_lt hc)]
  | number hsaid =>
    unfold link
    rw [hsaid.same.links_eq]
  | tell other _ _ hsaid =>
    unfold link
    rw [hsaid.same.links_eq]
  | _ => rfl

theorem Provided.change (h : before.Provided) (hsound : before.Sound)
    (hchange : before.Change scope after) : after.Provided := by
  have hsoundThen := hsound.change hchange
  have hgrows := hchange.grows
  have hold {c : Nat} (hc : c < before.store.contexts.length)
      : (after.link c).pool.timeout = (after.store.context c).config.acquireTimeout.toNat := by
    rw [hchange.timeout_eq (by rw [hsound.length_links]; exact hc), hgrows.context_eq c hc]
    exact h.timeout_eq c hc
  rcases hchange.slots_cases with ⟨hlength, hmoves⟩ | ⟨context, _, hlinks, hcontexts⟩
  . constructor
    . intro c hc
      apply hold
      rw [← hsound.length_links, ← hlength, hsoundThen.length_links]
      exact hc
    . intro c flavor
      obtain ⟨move, hmove⟩ := hmoves c flavor
      rw [hmove, Slots.capacity_perform]
      exact (h.promised c flavor).perform move
  . constructor
    . intro c hc
      rw [hcontexts, List.length_append, List.length_singleton] at hc
      rcases Nat.lt_or_eq_of_le (Nat.le_of_lt_succ hc) with hlt | rfl
      . exact hold hlt
      . unfold link Store.context
        rw [hlinks, hcontexts, getD_concat, getD_concat, if_pos hsound.length_links.symm, if_pos rfl]
        rfl
    . intro c flavor
      rcases slots_found hlinks c flavor with heq | ⟨_, heq⟩
      . rw [heq]
        exact h.promised c flavor
      . rw [heq, Pool.slots_ofConfig]
        exact fun hne => absurd rfl hne

theorem Provided.changes (h : before.Provided) (hsound : before.Sound)
    (hchanges : before.Changes scope after) : after.Provided := by
  induction hchanges with
  | refl => exact h
  | step hearlier hchange ih => exact ih.change (hsound.changes hearlier) hchange

end

/-!
## Deadlines
-/

def allowed (system : System) (job : Job) : Nat :=
  (system.store.context (system.contextOf job)).config.acquireTimeout.toNat

def askedBy (system : System) (id : TaskId) (asked : Option Nat) : Option Nat :=
  if (system.task? id).any (·.stage.isFresh) then some system.now else asked

def asked (start : System) (id : TaskId) : List Action → Option Nat
  | [] => none
  | action :: actions =>
    if action.isStepOf id then (start.after actions).askedBy id (start.asked id actions)
    else start.asked id actions

/--
What is true of a task that waits up to a deadline. `line` says whether it is to take a step.
-/
structure Lingers (system : System) (asked : Option Nat) (line : Prop) (task : Task)
    (deadline : Nat) : Prop where
  since : ∃ time, asked = some time ∧ deadline = time + system.allowed task.job
  queued : task.id ∈ (system.slotsFor task.job).queue
  inTime : system.now ≤ deadline
  stands : system.now < deadline ∨ line

def Patient (system : System) (id : TaskId) (asked : Option Nat) (line : Prop) : Prop :=
  ∀ task deadline, system.task? id = some task → task.job.acquires →
    task.stage = .waiting deadline → system.Lingers asked line task deadline

section
variable {scope : Scope} {system before after : System} {id : TaskId} {asked : Option Nat}
  {line line' : Prop} {task : Task} {deadline : Nat}

theorem Lingers.context_lt (h : system.Lingers asked line task deadline) (hsound : system.Sound)
    : system.contextOf task.job < system.store.contexts.length := by
  rw [← hsound.length_links]
  exact lt_of_mem_queue h.queued

theorem Changes.engaged (h : before.Changes scope after) (hsound : before.Sound)
    (htask : before.task? id = some task) (htasks : ¬scope.tasks id) (hengaged : before.Engaged id)
    : after.Engaged id := by
  have hid := hsound.lt_of_task? htask
  rcases hengaged with hmem | ⟨found, hfound, hforeground⟩
  . refine .inl (h.mem_ready htasks hid ?_ hmem)
    rw [htask]
    exact Option.some_ne_none task
  . right
    rcases h.task?_cases htasks hid with heq | heq
    . exact ⟨found, heq.trans hfound, hforeground⟩
    . rw [hfound] at heq
      exact ⟨found.unheard, heq, hforeground⟩

theorem Lingers.changes (h : before.Lingers asked (before.Engaged task.id) task deadline)
    (hsound : before.Sound) (hhoused : before.Housed) (htask : before.task? task.id = some task)
    (hchanges : before.Changes scope after) (htasks : ¬scope.tasks task.id)
    (hqueues : ¬scope.queues task.id) (hmoves : ¬scope.moves)
    : after.Lingers asked (after.Engaged task.id) task deadline := by
  have hgrows := hchanges.grows
  have hcontext := (hhoused task.id task htask).contextOf_eq hgrows
  have hnow := (hchanges.now_eq hmoves).1
  constructor
  . unfold allowed
    rw [hcontext, hgrows.context_eq _ (h.context_lt hsound)]
    exact h.since
  . unfold slotsFor
    rw [hcontext, ← List.count_pos_iff, hchanges.count_queue hqueues, List.count_pos_iff]
    exact h.queued
  . rw [hnow]
    exact h.inTime
  . rw [hnow]
    exact h.stands.imp_right (hchanges.engaged hsound htask htasks)

theorem Patient.changes (h : before.Patient id asked (before.Engaged id)) (hsound : before.Sound)
    (hhoused : before.Housed) (hchanges : before.Changes scope after) (htasks : ¬scope.tasks id)
    (hqueues : ¬scope.queues id) (hmoves : ¬scope.moves)
    : after.Patient id asked (after.Engaged id) := by
  intro next deadline hnext hacquires hwaits
  rcases hchanges.origin hnext with ⟨task, htask, hcore⟩ | ⟨hown, _⟩ | ⟨_, hfresh⟩
  . have hid := task?_id htask
    subst hid
    have hjob : next.job = task.job := congrArg Prod.fst hcore
    have hstage : next.stage = task.stage := congrArg Prod.snd hcore
    have hlingers := (h task deadline htask (hjob ▸ hacquires) (hstage.symm.trans hwaits)).changes
      hsound hhoused htask hchanges htasks hqueues hmoves
    rcases hchanges.task?_cases htasks (hsound.lt_of_task? htask) with heq | heq
    . rw [htask, hnext] at heq
      cases heq
      exact hlingers
    . rw [htask, hnext] at heq
      cases heq
      exact ⟨hlingers.since, hlingers.queued, hlingers.inTime, hlingers.stands⟩
  . exact absurd hown htasks
  . cases hfresh.symm.trans hwaits

theorem Patient.stop (h : system.Patient id asked (system.Engaged id))
    : (system.stop id).Patient id asked ((system.stop id).Engaged id) := by
  intro next deadline hnext hacquires hwaits
  obtain ⟨task, htask, rfl⟩ := Option.map_eq_some_iff.1 ((system.task?_stop id).symm.trans hnext)
  have hlingers := h task deadline htask hacquires hwaits
  have hstop : system.stop id = system.setTask { task with stopping := true } := by
    change task.stage = .waiting deadline at hwaits
    unfold System.stop
    rw [htask]
    dsimp only
    rw [hwaits]
  have hnow : (system.stop id).now = system.now := by
    rw [hstop]
    rfl
  have hready : (system.stop id).ready = system.ready := by
    rw [hstop]
    rfl
  refine ⟨?_, ?_, ?_, ?_⟩
  . rw [hstop]
    exact hlingers.since
  . rw [hstop]
    exact hlingers.queued
  . rw [hnow]
    exact hlingers.inTime
  . rw [hnow]
    apply hlingers.stands.imp_right (Or.imp _ _)
    . rw [hready]
      exact fun hmem => hmem
    . rintro ⟨found, hfound, hforeground⟩
      exact ⟨_, hnext, by rw [← hforeground, Option.some.inj (htask.symm.trans hfound)]⟩

theorem patient_of_none (h : system.task? id = none) : system.Patient id asked line := by
  intro task deadline htask
  cases h.symm.trans htask

theorem patient_of_served (h : ∀ next, system.task? id = some next → next.stage.isServed)
    : system.Patient id asked line := by
  intro next deadline hnext _ hwaits
  have hserved := h next hnext
  rw [hwaits] at hserved
  cases hserved

theorem Patient.mono (h : system.Patient id asked line) (himp : line → line')
    : system.Patient id asked line' := by
  intro task deadline htask hacquires hwaits
  obtain ⟨hsince, hqueued, hinTime, hstands⟩ := h task deadline htask hacquires hwaits
  exact ⟨hsince, hqueued, hinTime, hstands.imp_right himp⟩

theorem Patient.setReady (h : system.Patient id asked line) (ready : List TaskId)
    : { system with ready }.Patient id asked line := by
  intro task deadline htask hacquires hwaits
  obtain ⟨hsince, hqueued, hinTime, hstands⟩ := h task deadline htask hacquires hwaits
  exact ⟨hsince, hqueued, hinTime, hstands⟩

theorem Patient.act (h : system.Patient id asked (system.Engaged id))
    (hconsistent : system.Consistent) {action : Action} (hadmits : system.Admits action)
    (hproper : system.Proper action) (hleap : ∀ limit, action ≠ .leap limit)
    (hother : ∀ tickFirst, action ≠ .step tickFirst id)
    : (system.act action).Patient id asked ((system.act action).Engaged id) := by
  have hchanges := changes_act hadmits
  have hsound := hconsistent.sound
  have hhoused := hconsistent.housed
  cases action with
  | step tickFirst other =>
    have hne : id ≠ other := fun heq => hother tickFirst (by rw [heq])
    exact h.changes hsound hhoused hchanges (hne ·.1) (hne ·.1) not_false
  | line => cases hproper
  | leap limit => exact absurd rfl (hleap limit)
  | drop other =>
    by_cases hsame : id = other
    . subst hsame
      exact patient_of_none (system.task?_dropTask id)
    . exact h.changes hsound hhoused hchanges (hsame ·.1) (hsame ·.1) not_false
  | stop other =>
    by_cases hsame : id = other
    . subst hsame
      exact h.stop
    . exact h.changes hsound hhoused hchanges (hsame ·.1) (hsame ·.1) not_false
  | shutdown => exact patient_of_none (hsound.task?_of_shutdown id)
  | _ => exact h.changes hsound hhoused hchanges not_false not_false not_false

end

/-!
## Own steps
-/

section
variable {system : System} {id : TaskId} {asked : Option Nat} {line : Prop} {task next : Task}
  {deadline : Nat} {slots : Slots}

theorem Bids.slots_eq (h : system.Bids task deadline .full slots)
    : (system.slotsFor task.job).idle = [] ∧
        (system.slotsFor task.job).capacity ≤ (system.slotsFor task.job).leased ∧
        task.id ∈ slots.queue := by
  have hask (before : Slots) (heq : (before.ask task.id).1 = .full)
      : before.idle = [] ∧ before.capacity ≤ before.leased ∧
          task.id ∈ (before.ask task.id).2.queue := by
    rcases Slots.ask_cases before task.id with ⟨_, _, _, hask⟩ | ⟨_, _, hask⟩ | ⟨hidle, hfull, hask⟩
    . rw [hask] at heq
      cases heq
    . rw [hask] at heq
      cases heq
    . rw [hask]
      exact ⟨hidle, hfull, List.mem_append_left _ (List.mem_append_right _ List.mem_cons_self)⟩
  generalize hgrant : Grant.full = grant at h
  cases h with
  | first => exact hask _ hgrant.symm
  | again =>
    exact hask
      { system.slotsFor task.job with woken := (system.slotsFor task.job).woken.erase task.id }
      hgrant.symm

theorem Bids.context_lt (h : system.Bids task deadline .full slots) (hsound : system.Sound)
    : system.contextOf task.job < system.store.contexts.length := by
  rw [← hsound.length_links]
  apply Nat.lt_of_not_le
  intro hle
  have hfull := h.slots_eq.2.1
  unfold slotsFor at hfull
  rw [slots_of_le hle, Pool.slots_ofConfig] at hfull
  exact absurd hfull (Nat.not_le_of_lt (Nat.lt_of_lt_of_le Nat.one_pos (Nat.le_max_left _ _)))

theorem Bids.since (h : system.Bids task deadline .full slots) (hsound : system.Sound)
    (hprovided : system.Provided) (htask : system.task? task.id = some task)
    (hacquires : task.job.acquires) (hpatient : system.Patient task.id asked line)
    : ∃ time, system.askedBy task.id asked = some time ∧
        deadline = time + system.allowed task.job := by
  have hcontext := h.context_lt hsound
  unfold askedBy
  rw [htask, Option.any_some]
  generalize Grant.full = grant at h
  cases h with
  | first hstage =>
    refine ⟨system.now, by rw [hstage]; rfl, ?_⟩
    unfold patience allowed
    rw [hprovided.timeout_eq _ hcontext]
  | again hstage =>
    rw [hstage]
    exact (hpatient task deadline htask hacquires hstage).since

theorem Patient.parked (hsound : system.Sound) (hprovided : system.Provided)
    (htask : system.task? task.id = some task) (hacquires : task.job.acquires)
    (hpatient : system.Patient task.id asked line)
    (hbids : system.Bids task deadline .full slots) (hdue : system.now < deadline)
    : ((system.setSlots (system.contextOf task.job) .nonBlocking slots).park task
        (.waiting deadline)).Patient task.id (system.askedBy task.id asked) False := by
  intro next deadline' hnext _ hwaits
  have hset : (system.setSlots (system.contextOf task.job) .nonBlocking slots).task? task.id =
      some task := htask
  cases (task?_park hset (.waiting deadline)).symm.trans hnext
  cases hwaits
  refine ⟨hbids.since hsound hprovided htask hacquires hpatient, ?_, Nat.le_of_lt hdue, .inl hdue⟩
  change task.id ∈ ((system.setSlots (system.contextOf task.job) .nonBlocking slots).slots
    (system.contextOf task.job) .nonBlocking).queue
  rw [slots_setSlots_self _ _ _ (by rw [hsound.length_links]; exact hbids.context_lt hsound)]
  exact hbids.slots_eq.2.2

theorem Patient.step (h : system.Patient id asked line) (hsound : system.Sound)
    (hprovided : system.Provided) (tickFirst : Bool)
    : (system.step tickFirst id).Patient id (system.askedBy id asked) False := by
  cases hfound : system.task? id with
  | none =>
    apply patient_of_none
    rw [step_of_none hfound, hfound]
  | some task =>
    have hid := hsound.lt_of_task? hfound
    have hsame := task?_id hfound
    subst hsame
    -- Only a task that has no connection yet can come to wait.
    have happroaches (hacquires : task.job.acquires) (happroach : system.Approaches tickFirst task)
        : (system.step tickFirst task.id).Patient task.id (system.askedBy task.id asked) False := by
      cases happroach with
      | @answered result store _ hstep =>
        rw [hstep]
        exact patient_of_none ({ system with store }.task?_finish task _)
      | @asks deadline grant slots hbids =>
        rw [step_of_bids hfound hbids]
        by_cases hgrant : grant = .full
        . subst hgrant
          unfold granted
          dsimp only
          split
          . exact patient_of_none (task?_finish _ task _)
          . next hdue =>
            exact .parked hsound hprovided hfound hacquires h hbids (Nat.lt_of_not_le hdue)
        . exact patient_of_served (onward_granted _ task deadline hgrant).served
      | @late deadline hstage hwoken =>
        rw [step_of_late hfound hstage hwoken]
        split
        . exact patient_of_none (task?_finish _ task _)
        . next hdue =>
          have heq : system.askedBy task.id asked = asked := by
            unfold askedBy
            rw [hfound, Option.any_some, hstage]
            rfl
          rw [heq]
          intro next deadline' hnext hacquires hwaits
          obtain rfl := Option.some.inj (hfound.symm.trans hnext)
          cases hstage.symm.trans hwaits
          have hlingers := h task deadline hfound hacquires hstage
          exact ⟨hlingers.since, hlingers.queued, hlingers.inTime, .inl (Nat.lt_of_not_le hdue)⟩
    intro next deadline hnext hacquires hwaits
    have hadmits : system.Admits (.step tickFirst task.id) := trivial
    obtain ⟨old, hold, hjob⟩ := job_act hadmits hid hnext
    obtain rfl := Option.some.inj (hfound.symm.trans hold)
    rw [hjob] at hacquires
    have hnextJob : next.job.acquires := by
      rw [hjob]
      exact hacquires
    cases hstage : task.stage with
    | fresh =>
      exact happroaches hacquires (approaches_of_fresh hfound hstage hacquires tickFirst) next
        deadline hnext hnextJob hwaits
    | waiting =>
      exact happroaches hacquires (approaches_of_waiting hstage tickFirst) next deadline hnext
        hnextJob hwaits
    | _ =>
      have honward := onward_step hid hfound hacquires (by rw [hstage]; rfl) tickFirst
      exact patient_of_served honward.served next deadline hnext hnextJob hwaits

end

/-!
## Leaps
-/

section
variable {system : System} {id : TaskId} {asked : Option Nat} {task : Task} {deadline : Nat}

theorem Patient.lt_of_settled (h : system.Patient id asked (system.Engaged id))
    (hsettled : system.Settled) (hsound : system.Sound) (hprovided : system.Provided)
    (htask : system.task? id = some task) (hacquires : task.job.acquires)
    (hwaits : task.stage = .waiting deadline) : system.now < deadline := by
  rcases (h task deadline htask hacquires hwaits).stands with hlt | hmem | ⟨found, hfound, hforeground⟩
  . exact hlt
  . rw [hsettled.ready_eq] at hmem
    cases hmem
  . -- Another step changes nothing, and after a step of its own its time is not over.
    have hstep := h.step hsound hprovided false
    rw [hsettled.idle id found hfound hforeground] at hstep
    exact (hstep task deadline htask hacquires hwaits).stands.resolve_right not_false

theorem Patient.leap (h : system.Patient id asked (system.Engaged id)) (hsettled : system.Settled)
    (hsound : system.Sound) (hprovided : system.Provided) (limit : Nat)
    : (system.leap limit).Patient id asked ((system.leap limit).Engaged id) := by
  obtain ⟨now, ready, _, hleap⟩ := system.leap_eq limit
  intro task deadline hfound hacquires hwaits
  have htask : system.task? id = some task := by
    rw [hleap] at hfound
    exact hfound
  have hlt := h.lt_of_settled hsettled hsound hprovided htask hacquires hwaits
  have hlingers := h task deadline htask hacquires hwaits
  have hdue : task.stage.due? = some deadline := by
    rw [hwaits]
    rfl
  have hle := now_leap_le (List.mem_of_find?_eq_some htask) hdue hlt limit
  refine ⟨?_, ?_, hle, ?_⟩
  . rw [hleap]
    exact hlingers.since
  . rw [hleap]
    exact hlingers.queued
  . rcases Nat.lt_or_eq_of_le hle with hlt | heq
    . exact .inl hlt
    . right
      cases hforeground : task.foreground with
      | true => exact .inr ⟨task, hfound, hforeground⟩
      | false => exact .inl (mem_ready_leap htask hforeground hdue limit (Nat.le_of_eq heq.symm))

end

/-!
## Runs
-/

section
variable {start : System} {actions : List Action} {id : TaskId} {tickFirst : Bool}

theorem asked_of_ne {action : Action} (h : ∀ tickFirst, action ≠ .step tickFirst id)
    : start.asked id (action :: actions) = start.asked id actions := by
  conv => lhs; unfold asked
  rw [Action.isStepOf_of_ne h]
  rfl

theorem asked_step (start : System) (actions : List Action) (tickFirst : Bool) (id : TaskId)
    : start.asked id (.step tickFirst id :: actions) =
        (start.after actions).askedBy id (start.asked id actions) := by
  conv => lhs; unfold asked
  rw [Action.isStepOf_step, if_pos rfl]

structure Tranquil (start : System) (actions : List Action) : Prop where
  consistent : (start.after actions).Consistent
  provided : (start.after actions).Provided
  patient : ∀ id, (start.after actions).Patient id (start.asked id actions)
    ((start.after actions).Engaged id)

theorem Provided.act {system : System} (h : system.Provided) (hsound : system.Sound) {action : Action}
    (hadmits : system.Admits action) : (system.act action).Provided :=
  h.changes hsound (changes_act hadmits)

theorem Provided.setReady {system : System} (h : system.Provided) (ready : List TaskId)
    : { system with ready }.Provided :=
  ⟨h.timeout_eq, h.promised⟩

theorem Tranquil.step (hconsistent : (start.after actions).Consistent)
    (hprovided : (start.after actions).Provided) {first : TaskId}
    (hpatient : ∀ id, (start.after actions).Patient id (start.asked id actions)
      (id ≠ first → (start.after actions).Engaged id)) (tickFirst : Bool)
    : start.Tranquil (.step tickFirst first :: actions) := by
  have hadmits : (start.after actions).Admits (.step tickFirst first) := trivial
  refine ⟨hconsistent.act hadmits trivial, hprovided.act hconsistent.sound hadmits, ?_⟩
  intro id
  by_cases hid : id = first
  . subst hid
    rw [asked_step]
    exact ((hpatient id).step hconsistent.sound hprovided tickFirst).mono False.elim
  . have hother : ∀ tickFirst', Action.step tickFirst first ≠ .step tickFirst' id := by
      rintro tickFirst' heq
      cases heq
      exact hid rfl
    rw [asked_of_ne hother]
    exact ((hpatient id).mono fun h => h hid).act hconsistent hadmits trivial nofun hother

theorem Clocked.tranquil (h : start.Clocked actions) (hstart : start.Consistent)
    (hprovided : start.Provided) (htasks : start.tasks = []) : start.Tranquil actions := by
  induction h with
  | nil =>
    refine ⟨hstart, hprovided, fun id => patient_of_none ?_⟩
    change start.tasks.find? _ = none
    rw [htasks]
    rfl
  | @turn actions first ready _ hready tickFirst ih =>
    -- Who is taken out of line is engaged no more, but it is the one that takes the step.
    have hconsistent : (start.after (.line ready :: actions)).Consistent :=
      ih.consistent.setReady (start.after actions).running ready
    apply Tranquil.step hconsistent (ih.provided.setReady ready)
    intro id
    have hasked : start.asked id (.line ready :: actions) = start.asked id actions := rfl
    rw [hasked]
    apply ((ih.patient id).setReady ready).mono
    intro hengaged hother
    apply hengaged.imp_left
    intro hmem
    rw [hready] at hmem
    exact (List.mem_cons.1 hmem).resolve_left hother
  | @leap actions _ hsettled limit ih =>
    have hadmits : (start.after actions).Admits (.leap limit) := trivial
    refine ⟨ih.consistent.act hadmits trivial, ih.provided.act ih.consistent.sound hadmits, ?_⟩
    intro id
    have hasked : start.asked id (.leap limit :: actions) = start.asked id actions := rfl
    rw [hasked]
    exact (ih.patient id).leap hsettled ih.consistent.sound ih.provided limit
  | @other action actions _ hadmits hproper hleap ih =>
    by_cases hstep : ∃ tickFirst first, action = .step tickFirst first
    . obtain ⟨tickFirst, first, rfl⟩ := hstep
      exact .step ih.consistent ih.provided
        (fun id => (ih.patient id).mono fun hengaged _ => hengaged) tickFirst
    . refine ⟨ih.consistent.act hadmits hproper, ih.provided.act ih.consistent.sound hadmits, ?_⟩
      intro id
      have hother : ∀ tickFirst, action ≠ .step tickFirst id := by
        rintro tickFirst rfl
        exact hstep ⟨_, _, rfl⟩
      rw [asked_of_ne hother]
      exact (ih.patient id).act ih.consistent hadmits hproper hleap hother

theorem Clocked.before (h : start.Clocked (.step tickFirst id :: actions)) (hstart : start.Consistent)
    (hprovided : start.Provided) (htasks : start.tasks = [])
    : (start.after actions).Consistent ∧ (start.after actions).Provided ∧
        (start.after actions).Patient id (start.asked id actions) True := by
  rcases h.before_step with hearlier | ⟨earlier, ready, hearlier, _, rfl⟩
  . have htranquil := hearlier.tranquil hstart hprovided htasks
    exact ⟨htranquil.consistent, htranquil.provided,
      (htranquil.patient id).mono fun _ => trivial⟩
  . have htranquil := hearlier.tranquil hstart hprovided htasks
    exact ⟨htranquil.consistent.setReady (start.after earlier).running ready,
      htranquil.provided.setReady ready,
      ((htranquil.patient id).mono fun _ => trivial).setReady ready⟩

end

/-!
## Refusals
-/

section
variable {start system : System} {id : TaskId} {asked : Option Nat} {line : Prop} {task : Task}
  {deadline : Nat} {grant : Grant} {slots : Slots} {actions : List Action}

theorem Bids.now_le (h : system.Bids task deadline grant slots)
    (htask : system.task? task.id = some task) (hacquires : task.job.acquires)
    (hpatient : system.Patient task.id asked line) : system.now ≤ deadline := by
  cases h with
  | first => apply Nat.le_add_right
  | again hstage => exact (hpatient task deadline htask hacquires hstage).inTime

theorem Refuses.since (h : system.Refuses task) (hsound : system.Sound)
    (hprovided : system.Provided) (htask : system.task? task.id = some task)
    (hacquires : task.job.acquires) (hpatient : system.Patient task.id asked line)
    : ∃ time, system.askedBy task.id asked = some time ∧
        system.now = time + system.allowed task.job := by
  cases h with
  | full hbids hdue =>
    obtain ⟨time, hasked, hdeadline⟩ := hbids.since hsound hprovided htask hacquires hpatient
    refine ⟨time, hasked, ?_⟩
    rw [← hdeadline]
    exact Nat.le_antisymm (hbids.now_le htask hacquires hpatient) hdue
  | @late deadline hstage _ hdue =>
    have hlingers := hpatient task deadline htask hacquires hstage
    obtain ⟨time, hasked, hdeadline⟩ := hlingers.since
    refine ⟨time, ?_, ?_⟩
    . unfold askedBy
      rw [htask, Option.any_some, hstage]
      exact hasked
    . rw [← hdeadline]
      exact Nat.le_antisymm hlingers.inTime hdue

theorem Refuses.capacity_le (h : system.Refuses task) (hprovided : system.Provided)
    (htask : system.task? task.id = some task) (hacquires : task.job.acquires)
    (hpatient : system.Patient task.id asked line)
    : (system.slotsFor task.job).capacity ≤
        (system.slotsFor task.job).leased + ((system.slotsFor task.job).woken.erase task.id).length := by
  cases h with
  | full hbids => exact Nat.le_trans hbids.slots_eq.2.1 (Nat.le_add_right _ _)
  | @late deadline hstage hwoken =>
    have hqueued := (hpatient task deadline htask hacquires hstage).queued
    have hwaiting := (List.mem_append.1 hqueued).resolve_right hwoken
    rw [List.erase_of_not_mem hwoken]
    exact hprovided.promised _ _ (List.ne_nil_of_mem hwaiting)

theorem Consistent.waits_of_woken (h : system.Consistent) {other : TaskId} {job : Job}
    (hwoken : other ∈ (system.slotsFor job).woken)
    : ∃ task deadline, system.task? other = some task ∧ task.stage = .waiting deadline ∧
        system.contextOf task.job = system.contextOf job :=
  ((h.seated other).waits _ _ (List.mem_append_right _ hwoken)).2

theorem Bids.grant_ne_full (h : system.Bids task deadline grant slots)
    (hfree : (system.slotsFor task.job).idle ≠ [] ∨
      (system.slotsFor task.job).leased < (system.slotsFor task.job).capacity)
    : grant ≠ .full := by
  rintro rfl
  obtain ⟨hidle, hfull, _⟩ := h.slots_eq
  exact hfree.elim (· hidle) (Nat.not_lt_of_le hfull)

theorem Served.exhausted {earlier later : List Action} (h : (start.after earlier).Served id)
    (hsound : start.Sound) (hlegal : Legal start (later ++ earlier))
    (hafter : (start.after (later ++ earlier)).Exhausted id) : (start.after earlier).Exhausted id := by
  induction later with
  | nil => exact hafter
  | cons action later ih =>
    apply ih hlegal.1
    have hserved := h.after hlegal.1
    cases htask : (start.after (later ++ earlier)).task? id with
    | none =>
      rcases action.step_or_ne id with ⟨tickFirst, rfl⟩ | hother
      . exact (step_of_none htask tickFirst) ▸ hafter
      . exact exhausted_act hlegal.2 hserved.id_lt hother hafter
    | some task =>
      apply Classical.byContradiction
      intro hbefore
      have hacquires := (hserved.task task htask).1
      have hrefuses := exists_refuses hlegal.2 (hsound.after hlegal.1) htask hacquires hbefore hafter
      exact hserved.not_refuses htask hrefuses.2

/--
What is promised of a task that needs a connection, in a run in virtual time. It is refused when it has waited
as long as it may since it first asked, and only then, and all connections are in use or promised to tasks
that were woken and did not take a step yet. Whoever still waits when no task can go on asked later than that.
A task that finds a connection, or room for one, is not refused, then or later, however short a time it may
wait.

That a task is told that resources are exhausted is always the outcome of a step in which it is refused.
-/
structure RefusesInTime (start : System) : Prop where
  told : ∀ action actions, Legal start (action :: actions) →
    ∀ id task, (start.after actions).task? id = some task → task.job.acquires →
    ¬(start.after actions).Exhausted id → (start.after (action :: actions)).Exhausted id →
    (∃ tickFirst, action = .step tickFirst id) ∧ (start.after actions).Refuses task
  ends : ∀ tickFirst id actions task, (start.after actions).task? id = some task →
    (start.after actions).Refuses task →
    ∃ detail, (start.after (.step tickFirst id :: actions)).task? id = none ∧
      (start.after (.step tickFirst id :: actions)).Told task (.error (.resourceExhausted detail))
  due : ∀ tickFirst id actions, start.Clocked (.step tickFirst id :: actions) →
    ∀ task, (start.after actions).task? id = some task → task.job.acquires →
    (start.after actions).Refuses task →
    ∃ time, start.asked id (.step tickFirst id :: actions) = some time ∧
      (start.after actions).now = time + (start.after actions).allowed task.job
  crowded : ∀ tickFirst id actions, start.Clocked (.step tickFirst id :: actions) →
    ∀ task, (start.after actions).task? id = some task → task.job.acquires →
    (start.after actions).Refuses task →
    let slots := (start.after actions).slotsFor task.job
    slots.capacity ≤ slots.leased + (slots.woken.erase id).length ∧
      ∀ other ∈ slots.woken, ∃ waiter deadline,
        (start.after actions).task? other = some waiter ∧ waiter.stage = .waiting deadline ∧
        (start.after actions).contextOf waiter.job = (start.after actions).contextOf task.job
  waits : ∀ actions, start.Clocked actions → (start.after actions).Settled →
    ∀ id task deadline, (start.after actions).task? id = some task → task.job.acquires →
    task.stage = .waiting deadline →
    ∃ time, start.asked id actions = some time ∧
      (start.after actions).now < time + (start.after actions).allowed task.job
  found : ∀ tickFirst id actions, Legal start actions →
    ∀ task deadline grant slots, (start.after actions).task? id = some task → task.job.acquires →
    (start.after actions).Bids task deadline grant slots →
    ((start.after actions).slotsFor task.job).idle ≠ [] ∨
      ((start.after actions).slotsFor task.job).leased <
        ((start.after actions).slotsFor task.job).capacity →
    ¬(start.after actions).Refuses task ∧
      ∀ later, Legal start (later ++ .step tickFirst id :: actions) →
      (∀ next, (start.after (later ++ .step tickFirst id :: actions)).task? id = some next →
        ¬(start.after (later ++ .step tickFirst id :: actions)).Refuses next) ∧
      ((start.after (later ++ .step tickFirst id :: actions)).Exhausted id →
        (start.after actions).Exhausted id)

theorem Bids.not_refuses (h : system.Bids task deadline grant slots)
    (hfree : (system.slotsFor task.job).idle ≠ [] ∨
      (system.slotsFor task.job).leased < (system.slotsFor task.job).capacity)
    : ¬system.Refuses task := by
  intro hrefuses
  cases hrefuses with
  | full hbids => exact hbids.grant_ne_full hfree rfl
  | late hstage hwoken =>
    cases h with
    | first hfresh => cases hstage.symm.trans hfresh
    | again _ hmem => exact hwoken hmem

theorem refusesInTime_of_consistent (start : System) (h : start.Consistent)
    (hprovided : start.Provided) (htasks : start.tasks = []) : start.RefusesInTime := by
  constructor
  . intro action actions hlegal id task htask hacquires hbefore hafter
    exact exists_refuses hlegal.2 (h.sound.after hlegal.1) htask hacquires hbefore hafter
  . intro tickFirst id actions task htask hrefuses
    obtain rfl := task?_id htask
    obtain ⟨middle, detail, _, hstep⟩ := step_of_refuses htask hrefuses tickFirst
    refine ⟨detail, ?_⟩
    change ((start.after actions).step tickFirst task.id).task? task.id = none ∧
      ((start.after actions).step tickFirst task.id).Told task _
    rw [hstep]
    exact ⟨middle.task?_finish task _, told_finish middle task _⟩
  . intro tickFirst id actions hclocked task htask hacquires hrefuses
    obtain ⟨hconsistent, hprovided, hpatient⟩ := hclocked.before h hprovided htasks
    obtain rfl := task?_id htask
    rw [asked_step]
    exact hrefuses.since hconsistent.sound hprovided htask hacquires hpatient
  . intro tickFirst id actions hclocked task htask hacquires hrefuses
    obtain ⟨hconsistent, hprovided, hpatient⟩ := hclocked.before h hprovided htasks
    obtain rfl := task?_id htask
    exact ⟨hrefuses.capacity_le hprovided htask hacquires hpatient,
      fun _ => hconsistent.waits_of_woken⟩
  . intro actions hclocked hsettled id task deadline htask hacquires hwaits
    obtain ⟨hconsistent, hprovided, hpatient⟩ := hclocked.tranquil h hprovided htasks
    have hlt := (hpatient id).lt_of_settled hsettled hconsistent.sound hprovided htask hacquires hwaits
    obtain ⟨time, hasked, rfl⟩ := (hpatient id task deadline htask hacquires hwaits).since
    exact ⟨time, hasked, hlt⟩
  . intro tickFirst id actions hlegal task deadline grant slots htask hacquires hbids hfree
    have hsound := h.sound.after hlegal
    have hnever := hbids.not_refuses hfree
    obtain rfl := task?_id htask
    refine ⟨hnever, fun later hlater => ?_⟩
    have hserved : (start.after (.step tickFirst task.id :: actions)).Served task.id :=
      served_of_bids hsound htask hacquires hbids (hbids.grant_ne_full hfree) tickFirst
    refine ⟨fun next hnext => (hserved.after hlater).not_refuses hnext, fun hexhausted => ?_⟩
    have hexhausted := hserved.exhausted h.sound hlater hexhausted
    apply Classical.byContradiction
    intro hbefore
    have hadmits : (start.after actions).Admits (.step tickFirst task.id) := trivial
    exact hnever (exists_refuses hadmits hsound htask hacquires hbefore hexhausted).2

end

theorem provided_furnished : furnished.Provided := by
  constructor
  . intro c hc
    obtain rfl : c = 0 := Nat.lt_one_iff.1 hc
    rfl
  . intro c flavor
    rw [slots_furnished]
    exact fun hne => absurd rfl hne

-- A context with one connection, of which two acquisitions ask for a lease. The second one is refused after
-- 20 ms.
def contended : List Action :=
  [.leap 1000, .step false 1, .line [], .spawn (.acquire 1) { handler := .callback } "second",
    .step false 0, .line [], .spawn (.acquire 1) { handler := .callback } "first",
    .build { config := { maxConnections := 1, acquireTimeout := 20 } }]

def second : Task :=
  { id := 1, job := .acquire 1, continuation := { handler := .callback }, name := "second",
    stage := .waiting 20, place := 0 }

theorem clocked_contended
    : furnished.Clocked contended ∧ (furnished.after (contended.drop 1)).Settled ∧
        furnished.Clocked (.step false 1 :: .line [] :: contended) := by
  have hbuilt : furnished.Clocked (contended.drop 7) :=
    .other .nil trivial trivial fun _ heq => nomatch heq
  have hasks : furnished.Clocked (contended.drop 6) :=
    .other hbuilt trivial trivial fun _ heq => nomatch heq
  have hserved : furnished.Clocked (contended.drop 4) := hasks.turn (by decide +kernel) false
  have hasksToo : furnished.Clocked (contended.drop 3) :=
    .other hserved trivial trivial fun _ heq => nomatch heq
  have hwaits : furnished.Clocked (contended.drop 1) := hasksToo.turn (by decide +kernel) false
  have hsettled : (furnished.after (contended.drop 1)).Settled :=
    settled_of_background (by decide +kernel) (by decide +kernel)
  have hleap : furnished.Clocked contended := hwaits.leap hsettled 1000
  exact ⟨hleap, hsettled, hleap.turn (by decide +kernel) false⟩

theorem refusesInTime_furnished
    : furnished.Consistent ∧ furnished.Provided ∧ furnished.tasks = [] ∧ furnished.RefusesInTime ∧
      furnished.Clocked (.step false 1 :: .line [] :: contended) ∧
      (∃ task, (furnished.after (.line [] :: contended)).task? 1 = some task ∧ task.job.acquires ∧
        (furnished.after (.line [] :: contended)).Refuses task) ∧
      furnished.asked 1 (.step false 1 :: .line [] :: contended) = some 0 ∧
      (furnished.after (.line [] :: contended)).now = 20 := by
  have htask : (furnished.after (.line [] :: contended)).task? 1 = some second := by
    obtain ⟨now, ready, _, hleap⟩ := (furnished.after (contended.drop 1)).leap_eq 1000
    change ((furnished.after (contended.drop 1)).leap 1000).task? 1 = some second
    rw [hleap]
    rfl
  refine ⟨consistent_furnished, provided_furnished, rfl,
    refusesInTime_of_consistent furnished consistent_furnished provided_furnished rfl,
    clocked_contended.2.2, ⟨second, htask, rfl, .late rfl ?_ ?_⟩, ?_, ?_⟩
  all_goals decide +kernel

end System

end MediaProxy
