import MediaProxy.Proofs.System.Quiet

/-!
This module contains schedulers: what they do in a step, when they begin rounds, and that nobody else does
either for them.
-/

namespace MediaProxy

def Stage.isRounding : Stage → Bool
  | .fresh => true
  | .ticking _ => true
  | .gathering .. => true
  | _ => false

def Stage.tick (period now : Nat) : Stage → Nat
  | .ticking due => due
  | .gathering _ _ next => next
  | _ => now + System.periodOf period

namespace System

/-!
## Rounds
-/

def roundsOf (system : System) (id : TaskId) : List Nat :=
  system.history.filterMap fun
    | .round time scheduler => if scheduler = id then some time else none
    | _ => none

section
variable {scope : Scope} {before after system : System} {id : TaskId}

theorem Says.roundsOf_eq (h : before.Says id after) (other : TaskId)
    : after.roundsOf other = before.roundsOf other := by
  cases h <;> rfl

theorem Change.roundsOf_eq (h : before.Change scope after)
    (hserves : ∀ task, scope.Serves task → task.id ≠ id)
    : after.roundsOf id = before.roundsOf id := by
  cases h with
  | number hsaid => exact hsaid.roundsOf_eq id
  | tell other _ _ hsaid => exact hsaid.roundsOf_eq id
  | note happening _ hround =>
    cases happening with
    | round time other =>
      obtain ⟨task, hid, htask⟩ := hround time other rfl
      exact List.filterMap_cons_none (if_neg (hid ▸ hserves task htask))
    | _ => rfl
  | _ => rfl

theorem Changes.roundsOf_eq (h : before.Changes scope after)
    (hserves : ∀ task, scope.Serves task → task.id ≠ id)
    : after.roundsOf id = before.roundsOf id := by
  induction h with
  | refl => rfl
  | step _ hchange ih => exact (hchange.roundsOf_eq hserves).trans ih

theorem Change.now_eq (h : before.Change scope after) (hmoves : ¬scope.moves)
    : after.now = before.now ∧ after.running = before.running := by
  cases h with
  | number hsaid => cases hsaid <;> exact ⟨rfl, rfl⟩
  | tell _ _ _ hsaid => cases hsaid <;> exact ⟨rfl, rfl⟩
  | rest now running place hrest => exact hrest.resolve_right hmoves
  | _ => exact ⟨rfl, rfl⟩

theorem Changes.now_eq (h : before.Changes scope after) (hmoves : ¬scope.moves)
    : after.now = before.now ∧ after.running = before.running := by
  induction h with
  | refl => exact ⟨rfl, rfl⟩
  | step _ hchange ih =>
    obtain ⟨hnow, hrunning⟩ := hchange.now_eq hmoves
    exact ⟨hnow.trans ih.1, hrunning.trans ih.2⟩

theorem Leaves.lt_or (h : before.Leaves scope id) : scope.results id ∨ scope.first ≤ id :=
  h.imp_right And.left

theorem Changes.task?_eq (h : before.Changes scope after) (htasks : ¬scope.tasks id)
    (hresults : ¬scope.results id) (hfirst : id < scope.first) (hid : id < before.nextTask)
    : after.task? id = before.task? id := by
  induction h with
  | refl => rfl
  | step hearlier hchange ih =>
    rcases hchange.task?_cases htasks (.inl (Nat.lt_of_lt_of_le hid hearlier.grows.nextTask_le)) with
      heq | ⟨hleaves, _⟩
    . exact heq.trans ih
    . rcases hleaves.lt_or with hleft | hlater
      . exact absurd hleft hresults
      . exact absurd hfirst (Nat.not_lt_of_le hlater)

/-!
## The beginning of a round
-/

theorem changes_beginRound (system : System) (id : TaskId) (c : Nat)
    : (system.note (.round system.now id)).Changes { first := system.nextTask }
        (system.beginRound id c).2.2 := by
  have hsweep : (system.note (.round system.now id)).Changes { first := system.nextTask }
      { system.note (.round system.now id) with
        store := (system.store.sweep (system.store.context c).factory).2 } :=
    changes_sheds _ (Store.Sheds.refl.sweep (system.store.context c).factory)
  unfold beginRound
  dsimp only
  exact hsweep.trans (foldl_start_spec _ _ ([], _) nofun (Nat.le_refl _)
    fun o ho => Store.minds_of_mem_living ho).1

theorem roundsOf_beginRound (system : System) (id : TaskId) (c : Nat)
    : (system.beginRound id c).2.2.roundsOf id = system.now :: system.roundsOf id := by
  rw [(changes_beginRound system id c).roundsOf_eq fun task htask => htask.tasks.elim]
  exact List.filterMap_cons_some (if_pos rfl)

theorem now_beginRound (system : System) (id : TaskId) (c : Nat)
    : (system.beginRound id c).2.2.now = system.now :=
  ((changes_beginRound system id c).now_eq not_false).1

theorem task?_beginRound (system : System) (id : TaskId) (c : Nat) {other : TaskId}
    (h : other < system.nextTask)
    : (system.beginRound id c).2.2.task? other = system.task? other :=
  (changes_beginRound system id c).task?_eq not_false not_false h h

theorem lt_nextTask_beginRound (system : System) (id : TaskId) (c : Nat) {other : TaskId}
    (h : other < system.nextTask) : other < (system.beginRound id c).2.2.nextTask :=
  Nat.lt_of_lt_of_le h (changes_beginRound system id c).grows.nextTask_le

structure BeginsRound (system : System) (task : Task) (middle : System) : Prop where
  now_eq : middle.now = system.now
  task?_eq : middle.task? task.id = some task
  id_lt : task.id < middle.nextTask
  rounds_eq : middle.roundsOf task.id = system.now :: system.roundsOf task.id

theorem beginsRound {system middle : System} {task : Task} {c : Nat} {started : List TaskId}
    {report : Report} (h : system.beginRound task.id c = (started, report, middle))
    (htask : system.task? task.id = some task) (hid : task.id < system.nextTask)
    : system.BeginsRound task middle := by
  have hnow := now_beginRound system task.id c
  have hround := task?_beginRound system task.id c hid
  have hlt := lt_nextTask_beginRound system task.id c hid
  have hrounds := roundsOf_beginRound system task.id c
  rw [h] at hnow hround hlt hrounds
  exact ⟨hnow, hround.trans htask, hlt, hrounds⟩

end

/-!
## Steps of schedulers
-/

/--
What a scheduler does when its tick is due at some time: it ends, it waits, or it begins rounds until one
of them has objects. Times are in nanoseconds.
-/
inductive Turns (tickFirst : Bool) (task : Task) (c period now : Nat) :
    System → Nat → System → Prop where
  | ended {system : System} {due : Nat} (hstopping : task.stopping = true)
    (h : tickFirst = false ∨ now < due) :
    Turns tickFirst task c period now system due (system.finish task (.ok (.value .done)))
  | parked {system : System} {due : Nat} (hstopping : task.stopping = false) (h : now < due) :
    Turns tickFirst task c period now system due (system.park task (.ticking due))
  | began {system middle : System} {due : Nat} {first : TaskId} {rest : List TaskId}
    {report : Report} (hdue : due ≤ now) (hgoes : tickFirst = true ∨ task.stopping = false)
    (h : system.beginRound task.id c = (first :: rest, report, middle)) :
    Turns tickFirst task c period now system due
      (middle.setTask
        { task with stage := .gathering (first :: rest) report (nextTick period now due) })
  | passed {system middle after : System} {due : Nat} {report : Report} (hdue : due ≤ now)
    (hgoes : tickFirst = true ∨ task.stopping = false)
    (h : system.beginRound task.id c = ([], report, middle))
    (hrest : Turns tickFirst task c period now middle (nextTick period now due) after) :
    Turns tickFirst task c period now system due after

theorem turns_tick (tickFirst : Bool) (system : System) (task : Task) (c period now due : Nat)
    : Turns tickFirst task c period now system due
        (system.tick tickFirst task c period now due) := by
  unfold tick
  split
  . next h =>
    have hgoes : tickFirst = true ∨ task.stopping = false := h.2.imp_right (by simp)
    dsimp only
    split
    . next heq => exact .passed h.1 hgoes heq (turns_tick _ _ _ _ _ _ _)
    . next started report middle hne heq =>
      cases started with
      | nil => exact (hne rfl).elim
      | cons first rest => exact .began h.1 hgoes heq
  . next h =>
    have hidle : now < due ∨ tickFirst = false ∧ task.stopping = true := by
      by_cases hdue : due ≤ now
      . right
        simpa [hdue] using h
      . exact .inl (Nat.lt_of_not_le hdue)
    split
    . next hstopping => exact .ended hstopping (hidle.symm.imp_left And.left)
    . next hstopping =>
      have hgoes : task.stopping = false := by simpa using hstopping
      refine .parked hgoes (hidle.resolve_right fun heq => ?_)
      exact Bool.false_ne_true (hgoes.symm.trans heq.2)
termination_by now + 1 - due
decreasing_by
  have := lt_nextTick period now due
  omega

inductive Shifts (tickFirst : Bool) (task : Task) (c period : Nat) (before : System) :
    System → Prop where
  | idle {due : Nat} (hstage : task.stage = .ticking due) (hstopping : task.stopping = false)
    (h : before.now * 1000000 < due) :
    Shifts tickFirst task c period before before
  | waits {pending : List TaskId} {report : Report} {next : Nat}
    (hstage : task.stage = .gathering pending report next)
    (inbox : List (TaskId × Except Error Outcome)) (first : TaskId) (rest : List TaskId)
    (report' : Report)
    (htaken : ∀ id ∈ pending, id ∈ first :: rest ∨ before.letters id ≠ []) :
    Shifts tickFirst task c period before
      ({ before with inbox }.setTask
        { task with stage := .gathering (first :: rest) report' next })
  | turns {after : System} (inbox : List (TaskId × Except Error Outcome))
    (h : Turns tickFirst task c period (before.now * 1000000) { before with inbox }
      (task.stage.tick period (before.now * 1000000)) after)
    (htaken : ∀ id ∈ task.stage.pending, before.letters id ≠ []) :
    Shifts tickFirst task c period before after

section
variable {system after : System} {id : TaskId} {task next : Task} {c period now due : Nat}
  {tickFirst : Bool}

theorem letters_of_collect (system : System) (pending : List TaskId) (report : Report)
    : ∀ id ∈ pending, id ∈ (system.collect pending report).1 ∨ system.letters id ≠ [] := by
  induction pending generalizing system report with
  | nil => nofun
  | cons first pending ih =>
    have hrest {result : Except Error Outcome} {after : System}
        (h : system.collect? first = some (result, after)) (report : Report)
        : ∀ id ∈ first :: pending, id ∈ (after.collect pending report).1 ∨ system.letters id ≠ [] := by
      obtain ⟨hfirst, rfl⟩ := letters_of_collect? h
      refine List.forall_mem_cons.2 ⟨.inr hfirst, ?_⟩
      intro id hid
      apply (ih _ report id hid).imp_right
      intro hletters hnil
      rw [letters_filter, hnil, ite_self] at hletters
      exact hletters rfl
    unfold collect
    split
    . exact fun id hid => .inl hid
    . next heq => exact hrest heq _
    . next heq => exact hrest heq _

theorem shifts_gather (hjob : task.job = .schedule c period) {pending : List TaskId}
    {report : Report} {due : Nat} (hstage : task.stage = .gathering pending report due)
    (tickFirst : Bool)
    : Shifts tickFirst task c period system (system.gather tickFirst task pending report due) := by
  obtain ⟨inbox, hinbox⟩ := system.collect_eq pending report
  have htaken := system.letters_of_collect pending report
  unfold gather
  split
  . next heq =>
    rw [heq] at hinbox htaken
    obtain rfl := hinbox
    rw [hjob]
    refine .turns inbox ?_ ?_
    . rw [hstage]
      apply turns_tick
    . rw [hstage]
      exact fun id hid => (htaken id hid).resolve_left List.not_mem_nil
  . next pending' _ _ hne heq =>
    rw [heq] at hinbox htaken
    obtain rfl := hinbox
    cases pending' with
    | nil => exact (hne rfl).elim
    | cons first rest => exact .waits hstage inbox first rest _ htaken

theorem shifts_step (htask : system.task? id = some task) (hjob : task.job = .schedule c period)
    (hstage : task.stage.isRounding = true) (tickFirst : Bool)
    : Shifts tickFirst task c period system (system.step tickFirst id) := by
  unfold step
  rw [htask]
  dsimp only
  cases hkind : task.stage with
  | fresh =>
    unfold start
    rw [hjob]
    refine .turns system.inbox ?_ ?_
    . rw [hkind]
      apply turns_tick
    . rw [hkind]
      nofun
  | ticking due =>
    dsimp only
    rw [hjob]
    dsimp only
    split
    . refine .turns system.inbox ?_ ?_
      . rw [hkind]
        apply turns_tick
      . rw [hkind]
        nofun
    . next h =>
      simp only [Bool.or_eq_true, decide_eq_true_eq, not_or, Nat.not_le, Bool.not_eq_true] at h
      exact .idle hkind h.2 h.1
  | gathering pending report next => exact shifts_gather hjob hkind tickFirst
  | _ =>
    rw [hkind] at hstage
    cases hstage

/-!
## What becomes of a scheduler
-/

structure GoesOn (task next : Task) : Prop where
  job_eq : next.job = task.job
  stopping_eq : next.stopping = task.stopping
  stage : next.stage.isRounding = true

theorem Turns.goesOn (h : Turns tickFirst task c period now system due after)
    (htask : system.task? task.id = some task) (hid : task.id < system.nextTask)
    (hnext : after.task? task.id = some next) : GoesOn task next := by
  induction h with
  | ended => cases (task?_finish _ task _).symm.trans hnext
  | parked =>
    obtain rfl := Option.some.inj ((task?_park htask _).symm.trans hnext)
    exact ⟨rfl, rfl, rfl⟩
  | @began system middle _ first rest report _ _ h =>
    have hmiddle := (beginsRound h htask hid).task?_eq
    obtain rfl := Option.some.inj ((task?_setTask_stage hmiddle _).symm.trans hnext)
    exact ⟨rfl, rfl, rfl⟩
  | @passed system middle _ _ _ _ _ h _ ih =>
    have hbegins := beginsRound h htask hid
    exact ih hbegins.task?_eq hbegins.id_lt hnext

theorem task?_setTask_inbox (htask : system.task? task.id = some task)
    (inbox : List (TaskId × Except Error Outcome)) (stage : Stage)
    : ({ system with inbox }.setTask { task with stage }).task? task.id =
        some { task with stage } := by
  have hsame : { system with inbox }.task? task.id = some task := htask
  exact task?_setTask_stage hsame stage

theorem Shifts.goesOn (h : Shifts tickFirst task c period system after)
    (hstage : task.stage.isRounding = true) (htask : system.task? task.id = some task)
    (hid : task.id < system.nextTask) (hnext : after.task? task.id = some next)
    : GoesOn task next := by
  cases h with
  | idle =>
    obtain rfl := Option.some.inj (htask.symm.trans hnext)
    exact ⟨rfl, rfl, hstage⟩
  | waits _ inbox =>
    obtain rfl := Option.some.inj ((task?_setTask_inbox htask inbox _).symm.trans hnext)
    exact ⟨rfl, rfl, rfl⟩
  | turns inbox h => exact h.goesOn htask hid hnext

structure Scheduler (system : System) (id : TaskId) (c period : Nat) : Prop where
  id_lt : id < system.nextTask
  task : ∀ task, system.task? id = some task →
    task.job = .schedule c period ∧ task.stage.isRounding = true

theorem Scheduler.shifts (h : system.Scheduler id c period) (htask : system.task? id = some task)
    (tickFirst : Bool) : Shifts tickFirst task c period system (system.step tickFirst id) := by
  obtain ⟨hjob, hstage⟩ := h.task task htask
  exact shifts_step htask hjob hstage tickFirst

theorem task?_stop (system : System) (id : TaskId)
    : (system.stop id).task? id = (system.task? id).map ({ · with stopping := true }) := by
  unfold System.stop
  cases htask : system.task? id with
  | none => exact htask
  | some task =>
    have hset : (system.setTask { task with stopping := true }).task? id =
        some { task with stopping := true } := by
      rw [task?_setTask, htask, Option.map_some, if_pos rfl]
    dsimp only
    split
    . obtain ⟨ready, hwake, _⟩ := (system.setTask { task with stopping := true }).wake_eq id
      rw [hwake]
      exact hset
    . exact hset

theorem Scheduler.goesOn_act (h : system.Scheduler id c period) {action : Action}
    (hadmits : system.Admits action) (hstop : action ≠ .stop id)
    (hnext : (system.act action).task? id = some next)
    : ∃ task, system.task? id = some task ∧ GoesOn task next ∧
        ((∀ tickFirst, action ≠ .step tickFirst id) → next.stage = task.stage) := by
  by_cases htasks : (action.scope system).tasks id
  . cases action with
    | step tickFirst other =>
      obtain ⟨rfl, task, htask⟩ := htasks
      obtain rfl := task?_id htask
      have hgoes := (h.shifts htask tickFirst).goesOn (h.task task htask).2 htask h.id_lt hnext
      exact ⟨task, htask, hgoes, fun hother => absurd rfl (hother tickFirst)⟩
    | drop other =>
      obtain ⟨rfl, _⟩ := htasks
      cases (task?_dropTask system id).symm.trans hnext
    | stop other =>
      obtain ⟨rfl, _⟩ := htasks
      exact absurd rfl hstop
    | shutdown => cases (task?_shutdown system id h.id_lt).symm.trans hnext
    | line ready => exact ⟨next, hnext, ⟨rfl, rfl, (h.task next hnext).2⟩, fun _ => rfl⟩
    | _ => cases htasks
  . rcases (changes_act hadmits).task?_cases htasks h.id_lt with heq | heq
    . rw [heq] at hnext
      exact ⟨next, hnext, ⟨rfl, rfl, (h.task next hnext).2⟩, fun _ => rfl⟩
    . obtain ⟨task, htask, rfl⟩ := Option.map_eq_some_iff.1 (heq ▸ hnext)
      exact ⟨task, htask, ⟨rfl, rfl, (h.task task htask).2⟩, fun _ => rfl⟩

theorem Scheduler.stage_act (h : system.Scheduler id c period) {action : Action}
    (hadmits : system.Admits action) (hother : ∀ tickFirst, action ≠ .step tickFirst id)
    (hnext : (system.act action).task? id = some next)
    : ∃ task, system.task? id = some task ∧ next.stage = task.stage := by
  by_cases hstop : action = .stop id
  . subst hstop
    obtain ⟨task, htask, rfl⟩ := Option.map_eq_some_iff.1 ((task?_stop system id).symm.trans hnext)
    exact ⟨task, htask, rfl⟩
  . obtain ⟨task, htask, _, hstage⟩ := h.goesOn_act hadmits hstop hnext
    exact ⟨task, htask, hstage hother⟩

theorem Scheduler.act (h : system.Scheduler id c period) {action : Action}
    (hadmits : system.Admits action) : (system.act action).Scheduler id c period := by
  refine ⟨Nat.lt_of_lt_of_le h.id_lt (changes_act hadmits).grows.nextTask_le, ?_⟩
  intro next hnext
  by_cases hstop : action = .stop id
  . subst hstop
    obtain ⟨task, htask, rfl⟩ := Option.map_eq_some_iff.1 ((task?_stop system id).symm.trans hnext)
    exact h.task task htask
  . obtain ⟨task, htask, hgoes, _⟩ := h.goesOn_act hadmits hstop hnext
    exact ⟨hgoes.job_eq.trans (h.task task htask).1, hgoes.stage⟩

end

theorem Scheduler.after {start : System} {id : TaskId} {c period : Nat} {actions : List Action}
    (h : start.Scheduler id c period) (hlegal : Legal start actions)
    : (start.after actions).Scheduler id c period := by
  induction actions with
  | nil => exact h
  | cons action actions ih => exact (ih hlegal.1).act hlegal.2

/-!
## Rounds of schedulers
-/

section
variable {system after : System} {id : TaskId} {task : Task} {c period now due : Nat}
  {tickFirst : Bool}

theorem roundsOf_finish (system : System) (task : Task) (result : Except Error Outcome)
    (id : TaskId) : (system.finish task result).roundsOf id = system.roundsOf id := by
  have hfinish : system.Changes { tasks := (· = task.id), first := 0 } (system.finish task result) :=
    system.changes_finish result rfl
  exact hfinish.roundsOf_eq fun other hother => hother.jobs.elim

theorem Turns.roundsOf_eq (h : Turns tickFirst task c period now system due after)
    (hidle : now < due ∨ tickFirst = false ∧ task.stopping = true)
    : after.roundsOf task.id = system.roundsOf task.id := by
  have hnever (hdue : due ≤ now) (hgoes : tickFirst = true ∨ task.stopping = false) : False := by
    rcases hidle with hlt | ⟨hfirst, hstopping⟩
    . exact Nat.not_lt_of_le hdue hlt
    . rcases hgoes with hgoes | hgoes
      . exact Bool.false_ne_true (hfirst.symm.trans hgoes)
      . exact Bool.false_ne_true (hgoes.symm.trans hstopping)
  cases h with
  | ended => apply roundsOf_finish
  | parked => rfl
  | began hdue hgoes => exact (hnever hdue hgoes).elim
  | passed hdue hgoes => exact (hnever hdue hgoes).elim

theorem Scheduler.roundsOf_step (h : system.Scheduler id c period)
    (htask : system.task? id = some task)
    (hidle : system.now * 1000000 < task.stage.tick period (system.now * 1000000) ∨
      tickFirst = false ∧ task.stopping = true)
    : (system.step tickFirst id).roundsOf id = system.roundsOf id := by
  have hshifts := h.shifts htask tickFirst
  obtain rfl := task?_id htask
  generalize system.step tickFirst task.id = after at hshifts ⊢
  cases hshifts with
  | idle => rfl
  | waits => rfl
  | turns inbox hturns => exact hturns.roundsOf_eq hidle

theorem roundsOf_act {action : Action} (hadmits : system.Admits action)
    (hstep : ∀ tickFirst, action ≠ .step tickFirst id)
    : (system.act action).roundsOf id = system.roundsOf id := by
  have hchanges := changes_act hadmits
  cases action with
  | step tickFirst other =>
    apply hchanges.roundsOf_eq
    rintro task htask rfl
    exact hstep tickFirst (htask.tasks.1 ▸ rfl)
  | stop other =>
    unfold System.act System.stop
    dsimp only
    split
    . rfl
    . next task _ =>
      split
      . obtain ⟨ready, hwake, _⟩ := (system.setTask { task with stopping := true }).wake_eq other
        rw [hwake]
        rfl
      . rfl
  | drop other => exact hchanges.roundsOf_eq fun task htask => htask.jobs.elim
  | shutdown => exact hchanges.roundsOf_eq fun task htask => htask.jobs.elim
  | line ready => exact hchanges.roundsOf_eq fun task htask => htask.jobs.elim
  | _ => exact hchanges.roundsOf_eq fun task htask => htask.tasks.elim

end

end System

end MediaProxy
