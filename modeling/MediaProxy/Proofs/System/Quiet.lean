import MediaProxy.Proofs.System.Fetch
import MediaProxy.Proofs.System.Post
import MediaProxy.Proofs.System.Seat

/-!
This module contains systems that come to rest. Tasks take turns, and when none of them has anything left
to do, every operation has been answered and nobody waits for a connection.
-/

namespace MediaProxy

namespace System

/-!
## Systems in order
-/

structure Consistent (system : System) : Prop where
  sound : system.Sound
  typed : system.store.Typed
  fitting : system.Fitting
  numbered : system.Numbered
  housed : system.Housed
  seated : ∀ id, system.Seated id

def Proper (system : System) : Action → Prop
  | .spawn job _ _ => system.Houses job
  | .attend job => system.Houses job
  | .line _ => False
  | _ => True

section
variable {system : System}

theorem Consistent.setReady (h : system.Consistent) (running : Bool) (ready : List TaskId)
    : { system with running, ready }.Consistent where
  sound := h.sound.of_same ⟨rfl, rfl, rfl, rfl⟩
  typed := h.typed
  fitting := h.fitting
  numbered := h.numbered.setReady running ready
  housed := h.housed
  seated id := ⟨(h.seated id).once, (h.seated id).waits⟩

theorem Consistent.dropTask (h : system.Consistent) (id : TaskId)
    : (system.dropTask id).Consistent := by
  have hchanges := system.changes_drop id
  have hadmits : system.Admits (.drop id) := trivial
  refine ⟨h.sound.changes hchanges, hchanges.typed h.sound h.typed, h.fitting.act hadmits,
    h.numbered.dropTask h.sound id, ?_, ?_⟩
  . exact h.housed.changes hchanges h.sound h.typed (fun _ _ _ => False.elim)
      (fun _ => False.elim)
  . intro other
    by_cases hother : other = id
    . subst hother
      exact (h.seated other).dropTask
    . exact (h.seated other).changes h.sound h.housed hchanges (hother ·.1) (hother ·.1)

theorem Consistent.shutdown (h : system.Consistent) : system.shutdown.Consistent := by
  apply shutdown_induction (motive := Consistent)
  . exact h.setReady false system.ready
  . exact fun id middle hmiddle => hmiddle.dropTask id
  . exact fun middle hmiddle => hmiddle.setReady middle.running []

theorem Seated.stop {id : TaskId} (h : system.Seated id) (other : TaskId)
    : (system.stop other).Seated id := by
  unfold System.stop
  split
  . exact h
  . next task htask =>
    have hset : (system.setTask { task with stopping := true }).Seated id := by
      refine h.keep (fun _ _ => rfl) ?_
      intro found deadline hfound hwaits
      rw [task?_setTask, hfound, Option.map_some]
      split
      . next hsame =>
        have hid : other = id := by
          rw [← task?_id htask, ← task?_id hfound, hsame]
        subst hid
        obtain rfl : task = found := Option.some.inj (htask.symm.trans hfound)
        exact ⟨_, rfl, hwaits, rfl⟩
      . exact ⟨found, rfl, hwaits, rfl⟩
    dsimp only
    split
    . obtain ⟨ready, hwake, _⟩ :=
        (system.setTask { task with stopping := true }).wake_eq other
      rw [hwake]
      exact ⟨hset.once, hset.waits⟩
    . exact hset

theorem Consistent.act (h : system.Consistent) {action : Action} (hadmits : system.Admits action)
    (hproper : system.Proper action) : (system.act action).Consistent := by
  by_cases hshutdown : action = .shutdown
  . subst hshutdown
    exact h.shutdown
  have hchanges := changes_act hadmits
  refine ⟨h.sound.changes hchanges, hchanges.typed h.sound h.typed, h.fitting.act hadmits,
    h.numbered.act h.sound hadmits hshutdown, ?_, ?_⟩
  . apply h.housed.act h.sound h.typed hadmits
    intro job hborn
    cases action with
    | spawn job' continuation name =>
      obtain rfl : job = job' := hborn
      exact hproper
    | attend job' =>
      obtain rfl : job = job' := hborn
      exact hproper
    | _ => cases hborn
  . intro id
    cases action with
    | shutdown => exact absurd rfl hshutdown
    | line => cases hproper
    | stop other => exact (h.seated id).stop other
    | step tickFirst other =>
      by_cases hother : id = other
      . subst hother
        exact (h.seated id).step tickFirst
      . exact (h.seated id).changes h.sound h.housed hchanges (hother ·.1) (hother ·.1)
    | drop other => exact (h.dropTask other).seated id
    | _ => exact (h.seated id).changes h.sound h.housed hchanges not_false not_false

end

/-!
## Turns
-/

def InLine (system : System) (id : TaskId) : Prop :=
  ∀ task, system.task? id = some task → task.job.isOperation → task.stage = .fresh →
    task.foreground = true ∨ id ∈ system.ready

section
variable {scope : Scope} {system before after : System} {id : TaskId}

theorem InLine.change (h : before.InLine id) (hchange : before.Change scope after)
    (htasks : ¬scope.tasks id) : after.InLine id := by
  intro task htask hjob hstage
  cases hchange with
  | setTask next hnext =>
    rcases task?_setTask_cases htask with ⟨rfl, _⟩ | ⟨_, hold⟩
    . exact absurd hnext.tasks htasks
    . exact h task hold hjob hstage
  | unheard other =>
    rw [task?_unheard, Option.map_eq_some_iff] at htask
    obtain ⟨old, hold, rfl⟩ := htask
    by_cases hsame : old.id = other
    . rw [if_pos hsame] at hjob hstage ⊢
      exact h old hold hjob hstage
    . rw [if_neg hsame] at hjob hstage ⊢
      exact h old hold hjob hstage
  | removeTask other hother =>
    have hne : other ≠ id := fun heq => htasks (heq ▸ hother)
    rw [task?_removeTask_of_ne _ hne] at htask
    apply (h task htask hjob hstage).imp_right
    intro hmem
    exact List.mem_filter.2 ⟨hmem, by simpa using hne.symm⟩
  | start new ready hnext _ hready hline =>
    rcases task?_start_cases hnext htask with hold | ⟨rfl, rfl⟩
    . exact (h task hold hjob hstage).imp_right fun hmem => hready hmem
    . rw [← hnext]
      exact hline
  | line ready hready =>
    apply (h task htask hjob hstage).imp_right
    intro hmem
    rcases hready id hmem with hstill | hown | hnone
    . exact hstill
    . exact absurd hown htasks
    . cases hnone.symm.trans htask
  | number hsaid =>
    rw [hsaid.same.task?_eq] at htask
    cases hsaid <;> exact h task htask hjob hstage
  | tell other _ _ hsaid =>
    rw [hsaid.same.task?_eq] at htask
    cases hsaid <;> exact h task htask hjob hstage
  | _ => exact h task htask hjob hstage

theorem InLine.changes (h : before.InLine id) (hchanges : before.Changes scope after)
    (htasks : ¬scope.tasks id) : after.InLine id := by
  induction hchanges with
  | refl => exact h
  | step _ hchange ih => exact ih.change hchange htasks

theorem stage_ne_fresh_of_step (h : system.Fitting) {task next : Task}
    (htask : system.task? id = some task) (hjob : task.job.isOperation) (tickFirst : Bool)
    (hnext : (system.step tickFirst id).task? id = some next) : next.stage ≠ .fresh := by
  have hid := task?_id htask
  subst hid
  rcases task?_steps htask (h.steps htask hjob tickFirst) hnext with
    ⟨rfl, hstage⟩ | ⟨_, _, stage, _, _, hstage, rfl⟩
  . exact hstage hjob
  . intro hfresh
    obtain rfl : stage = .fresh := hfresh
    cases hstage

theorem nextTask_ignore (system : System) (id : TaskId)
    : (system.ignore id).nextTask = system.nextTask := by
  unfold ignore
  dsimp only
  split <;> rfl

theorem nextTask_foldl_ignore (ids : List TaskId) (system : System)
    : (ids.foldl ignore system).nextTask = system.nextTask := by
  induction ids generalizing system with
  | nil => rfl
  | cons id ids ih => rw [List.foldl_cons, ih, nextTask_ignore]

theorem nextTask_giveUp (system : System) (task : Task)
    : (system.giveUp task).nextTask = system.nextTask := by
  unfold giveUp
  dsimp only
  split
  . exact (system.untold_stepSlots _ _ _).nextTask_eq
  . exact (system.untold_stepSlots _ _ _).nextTask_eq
  . exact (system.untold_stepSlots _ _ _).nextTask_eq
  . rfl
  . apply nextTask_foldl_ignore
  . rfl

theorem nextTask_dropTask (system : System) (id : TaskId)
    : (system.dropTask id).nextTask = system.nextTask := by
  unfold System.dropTask
  split
  . rfl
  . next task _ =>
    have hgiveUp := system.nextTask_giveUp task
    dsimp only
    split
    . rw [nextTask_resolve]
      exact hgiveUp
    . rw [nextTask_resolve]
      exact hgiveUp
    . exact hgiveUp

theorem Sound.task?_of_shutdown (h : system.Sound) (id : TaskId)
    : system.shutdown.task? id = none := by
  have hnext : system.shutdown.nextTask = system.nextTask := by
    apply shutdown_induction (motive := fun middle => middle.nextTask = system.nextTask)
    . rfl
    . exact fun id middle hmiddle => (middle.nextTask_dropTask id).trans hmiddle
    . exact fun _ hmiddle => hmiddle
  cases htask : system.shutdown.task? id with
  | none => rfl
  | some task =>
    have hlt := (h.changes system.changes_shutdown).lt_of_task? htask
    rw [hnext] at hlt
    exact htask.symm.trans (system.task?_shutdown id hlt)

theorem inLine_step (hsound : system.Sound) (hfitting : system.Fitting) (tickFirst : Bool)
    (id : TaskId) (h : ∀ other, other ≠ id → system.InLine other) (other : TaskId)
    : (system.step tickFirst id).InLine other := by
  by_cases hother : other = id
  . subst hother
    intro next hnext hjob hstage
    cases htask : system.task? other with
    | none =>
      unfold System.step at hnext
      rw [htask] at hnext
      cases htask.symm.trans hnext
    | some task =>
      have hadmits : system.Admits (.step tickFirst other) := trivial
      obtain ⟨old, hold, hsame⟩ := job_act hadmits (hsound.lt_of_task? htask) hnext
      obtain rfl : task = old := Option.some.inj (htask.symm.trans hold)
      rw [hsame] at hjob
      exact absurd hstage (stage_ne_fresh_of_step hfitting htask hjob tickFirst hnext)
  . exact (h other hother).changes (system.changes_step tickFirst id) fun hown => hother hown.1

theorem inLine_of_none (h : system.task? id = none) : system.InLine id := by
  intro task htask
  cases h.symm.trans htask

theorem inLine_act (h : system.Consistent) {action : Action} (hadmits : system.Admits action)
    (hproper : system.Proper action) (hline : ∀ id, system.InLine id) (id : TaskId)
    : (system.act action).InLine id := by
  have hchanges := changes_act hadmits
  cases action with
  | step tickFirst other =>
    exact inLine_step h.sound h.fitting tickFirst other (fun id _ => hline id) id
  | line => cases hproper
  | drop other =>
    by_cases hother : id = other
    . subst hother
      exact inLine_of_none (system.task?_dropTask id)
    . exact (hline id).changes hchanges (hother ·.1)
  | stop other =>
    by_cases hother : id = other
    . -- Only schedulers are told to stop.
      subst hother
      intro next hnext hjob
      have hlt : id < system.nextTask := by
        cases htask : system.task? id with
        | some task => exact h.sound.lt_of_task? htask
        | none =>
          change (system.stop id).task? id = some next at hnext
          unfold System.stop at hnext
          rw [htask] at hnext
          cases htask.symm.trans hnext
      obtain ⟨task, htask, hsame⟩ := job_act hadmits hlt hnext
      obtain ⟨c, period, hschedule⟩ := hadmits task htask
      rw [hsame, hschedule] at hjob
      cases hjob
    . exact (hline id).changes hchanges (hother ·.1)
  | shutdown => exact inLine_of_none (h.sound.task?_of_shutdown id)
  | _ => exact (hline id).changes hchanges not_false

end

/--
Runs in which tasks take turns: whoever is first in line takes a step and stands in line no more. The
last action comes first.
-/
inductive Orderly (start : System) : List Action → Prop where
  | nil : start.Orderly []
  | turn {actions : List Action} {id : TaskId} {ready : List TaskId} (h : start.Orderly actions)
    (hready : (start.after actions).ready = id :: ready) (tickFirst : Bool) :
    start.Orderly (.step tickFirst id :: .line ready :: actions)
  | other {action : Action} {actions : List Action} (h : start.Orderly actions)
    (hadmits : (start.after actions).Admits action)
    (hproper : (start.after actions).Proper action) :
    start.Orderly (action :: actions)

section
variable {system start : System} {actions : List Action}

theorem Orderly.legal (h : start.Orderly actions) : Legal start actions := by
  induction h with
  | nil => trivial
  | turn _ _ _ ih => exact ⟨⟨ih, trivial⟩, trivial⟩
  | other _ hadmits _ ih => exact ⟨ih, hadmits⟩

theorem Orderly.consistent (h : start.Orderly actions) (hstart : start.Consistent)
    (hline : ∀ id, start.InLine id)
    : (start.after actions).Consistent ∧ ∀ id, (start.after actions).InLine id := by
  induction h with
  | nil => exact ⟨hstart, hline⟩
  | other _ hadmits hproper ih =>
    exact ⟨ih.1.act hadmits hproper, inLine_act ih.1 hadmits hproper ih.2⟩
  | @turn actions first ready _ hready tickFirst ih =>
    obtain ⟨hconsistent, hline⟩ := ih
    have hnext := hconsistent.setReady (start.after actions).running ready
    have hadmits : ((start.after actions).act (.line ready)).Admits (.step tickFirst first) :=
      trivial
    refine ⟨hnext.act hadmits trivial, inLine_step hnext.sound hnext.fitting tickFirst first ?_⟩
    intro other hother task htask hjob hstage
    apply (hline other task htask hjob hstage).imp_right
    intro hmem
    rw [hready] at hmem
    exact (List.mem_cons.1 hmem).resolve_left hother

theorem orderly_steps (tickFirst : Nat → Bool) (count : Nat) (system : System)
    : ∃ actions, system.Orderly actions ∧ system.after actions = steps tickFirst count system := by
  suffices h : ∀ actions, system.Orderly actions →
      ∃ later, system.Orderly later ∧ system.after later = steps tickFirst count (system.after actions) by
    exact h [] .nil
  induction count with
  | zero => exact fun actions hactions => ⟨actions, hactions, rfl⟩
  | succ count ih =>
    intro actions hactions
    unfold steps
    split
    . exact ⟨actions, hactions, rfl⟩
    . next id ready hready => exact ih _ (hactions.turn hready (tickFirst count))

end

/-!
## Rest
-/

structure Quiescent (system : System) : Prop where
  ready_eq : system.ready = []
  untimed : ∀ task ∈ system.tasks, task.stage.due? = none
  unstalled : ∀ task ∈ system.tasks,
    (∀ error, task.stage ≠ .opening error none) ∧ ∀ reply, task.stage ≠ .calling reply none

section
variable {system : System} {id : TaskId}

theorem Quiescent.foreground (h : system.Quiescent) (hfitting : system.Fitting)
    (hline : system.InLine id) {task : Task} (htask : system.task? id = some task)
    (hjob : task.job.isOperation) : task.foreground = true := by
  have hmem : task ∈ system.tasks := List.mem_of_find?_eq_some htask
  obtain ⟨hopening, hcalling⟩ := h.unstalled task hmem
  rcases (hfitting id task htask).fresh_or_passing hjob with hfresh | hpassing
  . apply (hline task htask hjob hfresh).resolve_right
    rw [h.ready_eq]
    exact List.not_mem_nil
  . rcases Stage.endless_of_passing hpassing (h.untimed task hmem) with
      ⟨error, hstage⟩ | ⟨reply, hstage⟩
    . exact absurd hstage (hopening error)
    . exact absurd hstage (hcalling reply)

theorem Quiescent.queue_eq (h : system.Quiescent) (hseated : ∀ id, system.Seated id) (c : Nat)
    (flavor : Flavor) : (system.slots c flavor).queue = [] := by
  apply List.eq_nil_iff_forall_not_mem.2
  intro id hmem
  obtain ⟨_, task, deadline, htask, hstage, _⟩ := (hseated id).waits c flavor hmem
  have huntimed := h.untimed task (List.mem_of_find?_eq_some htask)
  rw [hstage] at huntimed
  cases huntimed

end

/-!
## Every continuation
-/

/--
What is true of the continuations of all operations, whatever happens. As long as the task of an
operation is there, nobody was told anything. When it is gone, the continuation took what the task came
to, or that the task was dropped, and took it once. Only at the other end of a channel can anybody stop
listening.
-/
structure ResolvesOnce (system : System) : Prop where
  silent : ∀ job continuation id start, system.Issues job continuation id start →
    ∀ actions, Legal start actions →
    (∃ kept, continuation.handler = .channel kept) ∨ ignored id actions = false →
    ∀ task, (start.after actions).task? id = some task →
    (start.after actions).noted id = [] ∧ start.received id actions = [] ∧
      (start.after actions).letters id = []
  answered : ∀ job continuation id start, system.Issues job continuation id start →
    ∀ actions, Legal start actions →
    (∃ kept, continuation.handler = .channel kept) ∨ ignored id actions = false →
    (start.after actions).task? id = none →
    ∃ result, start.Answered id continuation.handler actions result
  quiescent : ∀ job continuation id start, system.Issues job continuation id start →
    system.Houses job →
    ∀ actions, start.Orderly actions →
    (∃ kept, continuation.handler = .channel kept) ∨ ignored id actions = false →
    (start.after actions).Quiescent →
    ∃ result, start.Answered id continuation.handler actions result
  idle : ∀ actions, system.Orderly actions → (system.after actions).Quiescent →
    ∀ c flavor, ((system.after actions).slots c flavor).waiting = [] ∧
      ((system.after actions).slots c flavor).woken = []

section
variable {system start : System} {job : Job} {continuation : Continuation} {id : TaskId}
  {actions : List Action}

theorem Issues.post (h : system.Issues job continuation id start) (hsystem : system.Consistent)
    (hlegal : Legal start actions)
    (hchannel : (∃ kept, continuation.handler = .channel kept) ∨ ignored id actions = false)
    : start.Post id continuation.handler actions := by
  obtain ⟨hjob, hfresh, name, hspawn⟩ := h
  obtain ⟨hpost, hprivate⟩ := hsystem.numbered.post hsystem.sound hspawn hfresh
  exact (hpost.of_legal hlegal (hsystem.sound.enlisted hspawn) hjob hprivate hchannel).1

theorem Issues.consistent (h : system.Issues job continuation id start)
    (hsystem : system.Consistent) (hline : ∀ id, system.InLine id) (hhouses : system.Houses job)
    : start.Consistent ∧ ∀ id, start.InLine id := by
  obtain ⟨_, _, name, hspawn⟩ := h
  have hadmits : system.Admits (.spawn job continuation name) := trivial
  have hconsistent := hsystem.act hadmits hhouses
  have hline := inLine_act hsystem hadmits hhouses hline
  unfold act at hconsistent hline
  dsimp only at hconsistent hline
  rw [hspawn] at hconsistent hline
  exact ⟨hconsistent, hline⟩

theorem resolvesOnce_of_consistent (system : System) (h : system.Consistent)
    (hline : ∀ id, system.InLine id) : system.ResolvesOnce := by
  constructor
  . intro job continuation id start hissues actions hlegal hchannel task htask
    cases hissues.post h hlegal hchannel with
    | expecting _ hexpects hreceived => exact ⟨hexpects.noted_eq, hreceived, hexpects.letters_eq⟩
    | answered result hanswered => cases hanswered.task?_eq.symm.trans htask
  . intro job continuation id start hissues actions hlegal hchannel hnone
    cases hissues.post h hlegal hchannel with
    | expecting task hexpects => cases hexpects.task?_eq.symm.trans hnone
    | answered result hanswered => exact ⟨result, hanswered⟩
  . intro job continuation id start hissues hhouses actions horderly hchannel hquiescent
    have hlegal := horderly.legal
    cases hissues.post h hlegal hchannel with
    | answered result hanswered => exact ⟨result, hanswered⟩
    | expecting task hexpects =>
      -- Its task would have to be left, and is not carried out by whoever waits for it.
      obtain ⟨hstart, hstartLine⟩ := hissues.consistent h hline hhouses
      obtain ⟨hafter, hafterLine⟩ := horderly.consistent hstart hstartLine
      obtain ⟨hjob, _, name, hspawn⟩ := hissues
      have henlisted := (h.sound.enlisted hspawn).after hlegal
      have hforeground := hquiescent.foreground hafter.fitting (hafterLine id) hexpects.task?_eq
        (by rw [(henlisted.task task hexpects.task?_eq).1]; exact hjob)
      cases hexpects.background.symm.trans hforeground
  . intro actions horderly hquiescent c flavor
    obtain ⟨hafter, _⟩ := horderly.consistent h hline
    exact List.append_eq_nil_iff.1 (hquiescent.queue_eq hafter.seated c flavor)

end

theorem consistent_furnished : furnished.Consistent := by
  have hnone (id : TaskId) : furnished.task? id = none := rfl
  refine ⟨sound_furnished, typed_furnished, fitting_furnished, numbered_furnished, ?_, ?_⟩
  . intro id task htask
    cases (hnone id).symm.trans htask
  . intro id
    apply Absent.seated
    intro c flavor
    cases c <;> cases flavor <;> rfl

theorem resolvesOnce_furnished
    : let start := (furnished.spawn (.operate 0 .getParent) { handler := .parts } "parent").2
      let turn := [.step false 0, .line []]
      furnished.Consistent ∧ (∀ id, furnished.InLine id) ∧ start.Orderly turn ∧
        (start.after turn).Quiescent ∧ ∃ result, start.Answered 0 .parts turn result := by
  intro start turn
  have hline (id : TaskId) : furnished.InLine id := inLine_of_none rfl
  have horderly : start.Orderly turn := Orderly.nil.turn rfl false
  have hquiescent : (start.after turn).Quiescent := by
    have htasks : (start.after turn).tasks = [] := rfl
    refine ⟨rfl, ?_, ?_⟩
    . intro task htask
      rw [htasks] at htask
      cases htask
    . intro task htask
      rw [htasks] at htask
      cases htask
  refine ⟨consistent_furnished, hline, horderly, hquiescent, ?_⟩
  have hresolves := resolvesOnce_of_consistent furnished consistent_furnished hline
  exact hresolves.quiescent (.operate 0 .getParent) { handler := .parts } 0 start
    ⟨rfl, rfl, "parent", rfl⟩ Nat.one_pos turn horderly (.inr rfl) hquiescent

end System

end MediaProxy
