import MediaProxy.Proofs.System.Work

/-!
This module contains the queues for connections: a ticket stands in a queue only as long as its task
waits there.
-/

namespace MediaProxy

namespace Slots

def queue (slots : Slots) : List Ticket :=
  slots.waiting ++ slots.woken

section
variable {slots : Slots} {ticket : Ticket}

theorem count_queue (slots : Slots) (ticket : Ticket)
    : slots.queue.count ticket = slots.waiting.count ticket + slots.woken.count ticket :=
  List.count_append

theorem count_queue_wake : slots.wake.2.queue.count ticket = slots.queue.count ticket := by
  rcases wake_cases slots with ⟨other, waiting, hwaiting, hwake⟩ | ⟨_, hwake⟩
  . rw [hwake, count_queue, count_queue, hwaiting]
    simp only [List.count_append, List.count_cons, List.count_nil]
    omega
  . rw [hwake]
    rfl

theorem count_queue_ask (slots : Slots) (ticket other : Ticket)
    : (slots.ask ticket).2.queue.count other =
        slots.queue.count other +
          if (slots.ask ticket).1 = .full ∧ ticket = other then 1 else 0 := by
  rcases ask_cases slots ticket with ⟨_, _, _, hask⟩ | ⟨_, _, hask⟩ | ⟨_, _, hask⟩
  . rw [hask]
    simp [queue, lend]
  . rw [hask]
    simp [queue]
  . rw [hask, count_queue, count_queue]
    simp only [List.count_append, List.count_cons, List.count_nil, beq_iff_eq, true_and]
    omega

theorem count_queue_erase_woken (slots : Slots) (ticket other : Ticket)
    (h : ticket ∈ slots.woken ∨ ticket ≠ other)
    : { slots with woken := slots.woken.erase ticket }.queue.count other =
        slots.queue.count other - if ticket = other then 1 else 0 := by
  rw [count_queue, count_queue]
  dsimp only
  by_cases hother : ticket = other
  . subst hother
    have hpos := List.count_pos_iff.2 (h.resolve_right fun hne => hne rfl)
    rw [if_pos rfl, List.count_erase_self]
    omega
  . rw [if_neg hother, List.count_erase_of_ne (Ne.symm hother), Nat.sub_zero]

theorem count_queue_withdraw (slots : Slots) (ticket other : Ticket)
    : (slots.withdraw ticket).2.queue.count other =
        slots.queue.count other - if ticket = other then 1 else 0 := by
  by_cases hwoken : ticket ∈ slots.woken
  . rw [withdraw_of_woken hwoken, count_queue_wake]
    exact slots.count_queue_erase_woken ticket other (.inl hwoken)
  . rw [withdraw_of_not_woken hwoken, count_queue, count_queue]
    by_cases hother : ticket = other
    . subst hother
      rw [if_pos rfl, List.count_erase_self, List.count_eq_zero_of_not_mem hwoken]
      rfl
    . rw [if_neg hother, List.count_erase_of_ne (Ne.symm hother), Nat.sub_zero]

theorem count_queue_perform {move : Move} (h : move.queues = true → move.ticket ≠ ticket)
    : (slots.perform move).queue.count ticket = slots.queue.count ticket := by
  cases move with
  | take other =>
    change (slots.take other).2.queue.count ticket = _
    rcases take_cases slots other with ⟨_, _, _, htake⟩ | ⟨_, _, htake⟩ | ⟨_, _, htake⟩ <;>
      rw [htake] <;> rfl
  | ask other =>
    have hne : other ≠ ticket := h rfl
    apply (count_queue_ask slots other ticket).trans
    rw [if_neg fun hfull => hne hfull.2, Nat.add_zero]
  | resume other =>
    have hne : other ≠ ticket := h rfl
    apply (count_queue_ask { slots with woken := slots.woken.erase other } other ticket).trans
    rw [if_neg fun hfull => hne hfull.2, Nat.add_zero,
      slots.count_queue_erase_woken other ticket (.inr hne), if_neg hne, Nat.sub_zero]
  | withdraw other =>
    have hne : other ≠ ticket := h rfl
    apply (count_queue_withdraw slots other ticket).trans
    rw [if_neg hne, Nat.sub_zero]
  | opened other connection =>
    unfold perform opened
    dsimp only
    split <;> rfl
  | cancelOpening other =>
    unfold perform cancelOpening
    dsimp only
    split
    . exact count_queue_wake
    . rfl
  | markBroken other => rfl
  | call other => rfl
  | giveBack other =>
    change (slots.giveBack other).2.queue.count ticket = _
    by_cases hother : other ∈ slots.holders
    . obtain ⟨lease, hlease⟩ := lease?_isSome_iff.2 hother
      rw [giveBack_of_lease? hlease, count_queue_wake]
      unfold ended
      split <;> rfl
    . rw [giveBack_of_not_holder hother]

end

end Slots

def Scope.only (task : Task) : Scope where
  tasks := (· = task.id)
  tickets := (· = task.id)
  jobs := (· = task.job)
  first := 0

theorem Scope.serves_only (task : Task) : (Scope.only task).Serves task :=
  ⟨rfl, rfl, rfl⟩

namespace System

/-!
## Jobs
-/

def Houses (system : System) : Job → Prop
  | .operate o _ => o < system.store.objects.length
  | .ownPipeline o => o < system.store.objects.length
  | _ => True

def Housed (system : System) : Prop :=
  ∀ id task, system.task? id = some task → system.Houses task.job

section
variable {scope : Scope} {system before after : System} {job : Job}

theorem Houses.grows (h : before.Houses job) (hgrows : before.Grows after) : after.Houses job := by
  have hle := hgrows.length_objects_le
  cases job with
  | operate o operation => exact Nat.lt_of_lt_of_le h hle
  | ownPipeline o => exact Nat.lt_of_lt_of_le h hle
  | _ => trivial

theorem Houses.contextOf_eq (h : before.Houses job) (hgrows : before.Grows after)
    : after.contextOf job = before.contextOf job := by
  cases job with
  | operate o operation => exact (hgrows.ages o h).context_eq
  | ownPipeline o => exact (hgrows.ages o h).context_eq
  | _ => rfl

theorem Housed.change (h : before.Housed) (hchange : before.Change scope after)
    (htyped : before.store.Typed)
    (hjobs : ∀ id job, scope.tasks id → scope.jobs job → before.Houses job)
    (hbirths : ∀ job, scope.births job → before.Houses job) : after.Housed := by
  intro id task htask
  apply Houses.grows _ hchange.grows
  rcases hchange.origin htask with
    ⟨old, hold, hcore⟩ | ⟨hgoes, hjob⟩ | ⟨_, _, hborn | ⟨o, hkeep, ⟨f, reference, htracked⟩, _⟩⟩
  . have hjob : task.job = old.job := congrArg Prod.fst hcore
    rw [hjob]
    exact h id old hold
  . exact hjobs id _ hgoes hjob
  . exact hbirths _ hborn
  . rw [hkeep]
    exact (htyped.tracked f reference o htracked).1

theorem Housed.changes (h : before.Housed) (hchanges : before.Changes scope after)
    (hsound : before.Sound) (htyped : before.store.Typed)
    (hjobs : ∀ id job, scope.tasks id → scope.jobs job → before.Houses job)
    (hbirths : ∀ job, scope.births job → before.Houses job) : after.Housed := by
  induction hchanges with
  | refl => exact h
  | step hearlier hchange ih =>
    have hgrows := hearlier.grows
    exact ih.change hchange (hearlier.typed hsound htyped)
      (fun id job hid hjob => (hjobs id job hid hjob).grows hgrows)
      (fun job hjob => (hbirths job hjob).grows hgrows)

theorem Housed.act (h : system.Housed) (hsound : system.Sound) (htyped : system.store.Typed)
    {action : Action} (hadmits : system.Admits action)
    (hbirths : ∀ job, (action.scope system).births job → system.Houses job)
    : (system.act action).Housed := by
  apply h.changes (changes_act hadmits) hsound htyped _ hbirths
  intro id job hid hjob
  cases action with
  | step tickFirst other =>
    obtain ⟨task, htask, rfl⟩ := hjob
    exact h other task htask
  | stop other =>
    obtain ⟨task, htask, rfl⟩ := hjob
    exact h other task htask
  | operateBlocking => cases hid
  | concludeBlocking => cases hid
  | _ => cases hjob

end

def Addressed (system : System) : Action → Prop
  | .spawn job _ _ => system.Houses job
  | .attend job => system.Houses job
  | _ => True

theorem Addressed.births {system : System} {action : Action} (h : system.Addressed action) {job : Job}
    (hborn : (action.scope system).births job) : system.Houses job := by
  cases action with
  | spawn job' continuation name =>
    obtain rfl : job = job' := hborn
    exact h
  | attend job' =>
    obtain rfl : job = job' := hborn
    exact h
  | _ => cases hborn

/-!
## Places in queues
-/

/--
A ticket stands in a queue at most once, and only as long as its task waits for a connection there.
-/
structure Seated (system : System) (id : TaskId) : Prop where
  once : ∀ c flavor, (system.slots c flavor).queue.count id ≤ 1
  waits : ∀ c flavor, id ∈ (system.slots c flavor).queue →
    flavor = .nonBlocking ∧ ∃ task deadline, system.task? id = some task ∧
      task.stage = .waiting deadline ∧ system.contextOf task.job = c

def Absent (system : System) (id : TaskId) : Prop :=
  ∀ c flavor, (system.slots c flavor).queue.count id = 0

structure Queued (system : System) (task : Task) : Prop where
  once : (system.slots (system.contextOf task.job) .nonBlocking).queue.count task.id ≤ 1
  elsewhere : ∀ c flavor, ¬(system.contextOf task.job = c ∧ flavor = .nonBlocking) →
    (system.slots c flavor).queue.count task.id = 0

section
variable {scope : Scope} {system before after : System} {id : TaskId} {task : Task}

theorem Absent.seated (h : system.Absent id) : system.Seated id := by
  refine ⟨fun c flavor => by rw [h]; exact Nat.zero_le 1, ?_⟩
  intro c flavor hmem
  exact absurd hmem (List.count_eq_zero.1 (h c flavor))

theorem Seated.queued (h : system.Seated task.id) (htask : system.task? task.id = some task)
    : system.Queued task := by
  refine ⟨h.once _ _, ?_⟩
  intro c flavor hne
  apply List.count_eq_zero.2
  intro hmem
  obtain ⟨hflavor, other, deadline, hother, _, hcontext⟩ := h.waits c flavor hmem
  obtain rfl : task = other := Option.some.inj (htask.symm.trans hother)
  exact hne ⟨hcontext, hflavor⟩

theorem Seated.absent (h : system.Seated id)
    (hstage : ∀ task deadline, system.task? id = some task → task.stage ≠ .waiting deadline)
    : system.Absent id := by
  intro c flavor
  apply List.count_eq_zero.2
  intro hmem
  obtain ⟨_, task, deadline, htask, hwaits, _⟩ := h.waits c flavor hmem
  exact hstage task deadline htask hwaits

theorem count_queue_found {config : Config}
    (h : after.links = before.links ++ [{ pool := .ofConfig config }]) (id : TaskId) (c : Nat)
    (flavor : Flavor)
    : (after.slots c flavor).queue.count id = (before.slots c flavor).queue.count id := by
  rcases slots_found h c flavor with heq | ⟨hbefore, hafter⟩
  . rw [heq]
  . rw [hbefore, hafter]
    cases flavor <;> rfl

theorem Change.count_queue (h : before.Change scope after) (hqueues : ¬scope.queues id) (c : Nat)
    (flavor : Flavor)
    : (after.slots c flavor).queue.count id = (before.slots c flavor).queue.count id := by
  cases h with
  | serve d server => rw [setServer_slots]
  | slots d other move _ hmove =>
    rw [slots_setSlots]
    split
    . next heq =>
      obtain ⟨rfl, rfl, _⟩ := heq
      apply Slots.count_queue_perform
      rintro hjoins rfl
      exact hqueues (hmove hjoins)
    . rfl
  | found context => exact count_queue_found rfl id c flavor
  | number hsaid =>
    rw [hsaid.same.slots_eq]
    rfl
  | tell other _ _ hsaid => rw [hsaid.same.slots_eq]
  | _ => rfl

theorem Changes.count_queue (h : before.Changes scope after) (hqueues : ¬scope.queues id) (c : Nat)
    (flavor : Flavor)
    : (after.slots c flavor).queue.count id = (before.slots c flavor).queue.count id := by
  induction h with
  | refl => rfl
  | step _ hchange ih => rw [hchange.count_queue hqueues, ih]

theorem Absent.changes (h : before.Absent id) (hchanges : before.Changes scope after)
    (hqueues : ¬scope.queues id) : after.Absent id :=
  fun c flavor => (hchanges.count_queue hqueues c flavor).trans (h c flavor)

theorem Seated.keep (h : before.Seated id)
    (hcount : ∀ c flavor,
      (after.slots c flavor).queue.count id = (before.slots c flavor).queue.count id)
    (htask : ∀ task deadline, before.task? id = some task → task.stage = .waiting deadline →
      ∃ next, after.task? id = some next ∧ next.stage = .waiting deadline ∧
        after.contextOf next.job = before.contextOf task.job)
    : after.Seated id := by
  refine ⟨fun c flavor => by rw [hcount]; exact h.once c flavor, ?_⟩
  intro c flavor hmem
  rw [← List.count_pos_iff, hcount, List.count_pos_iff] at hmem
  obtain ⟨hflavor, task, deadline, hfound, hwaits, hcontext⟩ := h.waits c flavor hmem
  obtain ⟨next, hnext, hstage, heq⟩ := htask task deadline hfound hwaits
  exact ⟨hflavor, next, deadline, hnext, hstage, heq.trans hcontext⟩

theorem Seated.changes (h : before.Seated id) (hsound : before.Sound) (hhoused : before.Housed)
    (hchanges : before.Changes scope after) (htasks : ¬scope.tasks id)
    (hqueues : ¬scope.queues id) : after.Seated id := by
  apply h.keep (hchanges.count_queue hqueues)
  intro task deadline htask hwaits
  have hcontext := (hhoused id task htask).contextOf_eq hchanges.grows
  rcases hchanges.task?_cases htasks (hsound.lt_of_task? htask) with heq | heq
  . exact ⟨task, heq.trans htask, hwaits, hcontext⟩
  . rw [htask] at heq
    exact ⟨task.unheard, heq, hwaits, hcontext⟩

/-!
## Acquisitions
-/

theorem slots_stepSlots (system : System) (c : Nat) (flavor : Flavor)
    (step : Slots → Option Ticket × Slots) (d : Nat) (other : Flavor)
    : (system.stepSlots c flavor step).slots d other =
        (system.setSlots c flavor (step (system.slots c flavor)).2).slots d other := by
  unfold stepSlots
  dsimp only
  split
  . rfl
  . next id _ =>
    obtain ⟨ready, hwake, _⟩ := wake_eq
      (system.setSlots c flavor (step (system.slots c flavor)).2) id
    rw [hwake]
    rfl

theorem lt_of_mem_queue {c : Nat} {flavor : Flavor} (h : id ∈ (system.slots c flavor).queue)
    : c < system.links.length := by
  apply Nat.lt_of_not_le
  intro hle
  rw [slots_of_le hle] at h
  cases flavor <;> cases h

theorem Queued.withdraw (h : system.Queued task)
    : (system.stepSlots (system.contextOf task.job) .nonBlocking (·.withdraw task.id)).Absent
        task.id := by
  intro c flavor
  rw [slots_stepSlots, slots_setSlots]
  split
  . next heq =>
    obtain ⟨rfl, rfl, _⟩ := heq
    have hle := h.once
    rw [Slots.count_queue_withdraw, if_pos rfl]
    omega
  . next hne =>
    by_cases hsame : system.contextOf task.job = c ∧ flavor = .nonBlocking
    . -- The context does not exist, and neither does a queue.
      obtain ⟨rfl, rfl⟩ := hsame
      apply List.count_eq_zero.2
      intro hmem
      exact hne ⟨rfl, rfl, lt_of_mem_queue hmem⟩
    . exact h.elsewhere c flavor hsame

theorem Queued.refuse (h : system.Queued task) : (system.refuse task).Absent task.id := by
  have hfinish : System.Changes (.only task) _ (system.refuse task) :=
    changes_finish _ _ rfl
  exact h.withdraw.changes hfinish not_false

theorem Queued.park (h : system.Queued task) (htask : system.task? task.id = some task)
    (deadline : Nat) : (system.park task (.waiting deadline)).Seated task.id := by
  have hcases (c : Nat) (flavor : Flavor)
      : system.contextOf task.job = c ∧ flavor = .nonBlocking ∨
        (system.slots c flavor).queue.count task.id = 0 := by
    by_cases hsame : system.contextOf task.job = c ∧ flavor = .nonBlocking
    . exact .inl hsame
    . exact .inr (h.elsewhere c flavor hsame)
  constructor
  . intro c flavor
    change (system.slots c flavor).queue.count task.id ≤ 1
    rcases hcases c flavor with ⟨rfl, rfl⟩ | hzero
    . exact h.once
    . rw [hzero]
      exact Nat.zero_le 1
  . intro c flavor hmem
    rcases hcases c flavor with ⟨hcontext, hflavor⟩ | hzero
    . exact ⟨hflavor, _, deadline, task?_park htask (.waiting deadline), rfl, hcontext⟩
    . exact absurd hmem (List.count_eq_zero.1 hzero)

theorem Queued.granted (h : system.Queued task) (htask : system.task? task.id = some task)
    (deadline : Nat) {grant : Grant} (hgrant : grant ≠ .full → system.Absent task.id)
    : (system.granted task deadline grant).Seated task.id := by
  have hserves := Scope.serves_only task
  cases grant with
  | lease => exact ((hgrant nofun).changes (changes_leased _ hserves) not_false).seated
  | opening => exact ((hgrant nofun).changes (changes_openConnection _ hserves) not_false).seated
  | full =>
    unfold System.granted
    dsimp only
    split
    . exact h.refuse.seated
    . exact h.park htask deadline

theorem Queued.asked (h : system.Queued task) (htask : system.task? task.id = some task)
    {slots : Slots} {grant : Grant} (deadline : Nat)
    (hcount : slots.queue.count task.id = if grant = .full then 1 else 0)
    (hroom : system.contextOf task.job < system.links.length ∨ system.Absent task.id)
    : ((system.setSlots (system.contextOf task.job) .nonBlocking slots).granted task deadline
        grant).Seated task.id := by
  generalize hset : system.setSlots (system.contextOf task.job) .nonBlocking slots = asked
  have hcontext : asked.contextOf task.job = system.contextOf task.job := by
    rw [← hset]
    rfl
  have hall (c : Nat) (flavor : Flavor)
      : (asked.contextOf task.job = c ∧ flavor = .nonBlocking ∧
          (asked.slots c flavor).queue.count task.id = if grant = .full then 1 else 0) ∨
        (asked.slots c flavor).queue.count task.id = 0 := by
    rw [hcontext, ← hset, slots_setSlots]
    split
    . next heq => exact .inl ⟨heq.1, heq.2.1.symm, hcount⟩
    . next hne =>
      right
      rcases hroom with hlt | habsent
      . apply h.elsewhere
        rintro ⟨hsame, hflavor⟩
        exact hne ⟨hsame, hflavor.symm, hlt⟩
      . exact habsent c flavor
  apply Queued.granted
  . constructor
    . rcases hall (asked.contextOf task.job) .nonBlocking with ⟨_, _, heq⟩ | hzero
      . rw [heq]
        split <;> decide
      . rw [hzero]
        exact Nat.zero_le 1
    . intro c flavor hne
      exact (hall c flavor).resolve_left fun hsame => hne ⟨hsame.1, hsame.2.1⟩
  . rw [← hset]
    exact htask
  . intro hgrant c flavor
    rcases hall c flavor with ⟨_, _, heq⟩ | hzero
    . rw [heq, if_neg hgrant]
    . exact hzero

theorem Absent.queued (h : system.Absent task.id) : system.Queued task :=
  ⟨h.seated.once _ _, fun c flavor _ => h c flavor⟩

theorem Absent.acquire (h : system.Absent task.id) (htask : system.task? task.id = some task)
    : (system.acquire task).Seated task.id := by
  unfold System.acquire
  dsimp only
  apply h.queued.asked htask _ _ (.inr h)
  rw [Slots.count_queue_ask, h]
  simp

theorem Seated.acquireAgain (h : system.Seated task.id)
    (htask : system.task? task.id = some task) (deadline : Nat)
    (hwoken : task.id ∈ (system.slots (system.contextOf task.job) .nonBlocking).woken)
    : (system.acquireAgain task deadline).Seated task.id := by
  have hmem : task.id ∈ (system.slots (system.contextOf task.job) .nonBlocking).queue :=
    List.mem_append_right _ hwoken
  have hqueued := h.queued htask
  unfold System.acquireAgain
  dsimp only
  apply hqueued.asked htask _ _ (.inl (lt_of_mem_queue hmem))
  have hle := hqueued.once
  unfold Slots.resume
  rw [Slots.count_queue_ask, Slots.count_queue_erase_woken _ _ _ (.inl hwoken), if_pos rfl,
    Nat.sub_eq_zero_of_le hle]
  simp

theorem Seated.start (h : system.Seated task.id) (htask : system.task? task.id = some task)
    (hstage : task.stage = .fresh) (hacquires : task.job.acquires = true) (tickFirst : Bool)
    : (system.start tickFirst task).Seated task.id := by
  have habsent : system.Absent task.id := by
    apply h.absent
    intro other deadline hother hwaits
    obtain rfl : task = other := Option.some.inj (htask.symm.trans hother)
    cases hstage.symm.trans hwaits
  unfold System.start
  cases hjob : task.job with
  | acquire c => exact habsent.acquire htask
  | operate o operation =>
    dsimp only
    split
    . next result store _ =>
      have hshared : { system with store }.Absent task.id := habsent
      have hfinish : { system with store }.Changes (.only task)
          ({ system with store }.finish task (result.map .value)) :=
        changes_finish _ _ rfl
      exact (hshared.changes hfinish not_false).seated
    . next store _ =>
      have hshared : { system with store }.Absent task.id := habsent
      exact hshared.acquire htask
  | _ =>
    rw [hjob] at hacquires
    cases hacquires

/-!
## Steps and drops
-/

theorem Seated.step (h : system.Seated id) (tickFirst : Bool)
    : (system.step tickFirst id).Seated id := by
  by_cases hqueues : (system.scopeOf id).queues id
  . obtain ⟨_, task, htask, hjoins⟩ := hqueues
    have hid := task?_id htask
    subst hid
    unfold Task.queues at hjoins
    unfold System.step
    rw [htask]
    dsimp only
    cases hstage : task.stage with
    | fresh =>
      rw [hstage] at hjoins
      exact h.start htask hstage hjoins tickFirst
    | waiting deadline =>
      dsimp only
      split
      . next hwoken => exact h.acquireAgain htask deadline hwoken
      . split
        . exact (h.queued htask).refuse.seated
        . exact h
    | _ =>
      rw [hstage] at hjoins
      cases hjoins
  . have habsent : system.Absent id := by
      apply h.absent
      intro task deadline htask hwaits
      refine hqueues ⟨rfl, task, htask, ?_⟩
      unfold Task.queues
      rw [hwaits]
    exact (habsent.changes (system.changes_step tickFirst id) hqueues).seated

theorem Seated.dropTask (h : system.Seated id) : (system.dropTask id).Seated id := by
  by_cases hqueues : (system.scopeOfDrop id).queues id
  . obtain ⟨_, task, deadline, htask, hstage⟩ := hqueues
    have hid := task?_id htask
    subst hid
    have hgiveUp : system.giveUp task =
        system.stepSlots (system.contextOf task.job) .nonBlocking (·.withdraw task.id) := by
      unfold giveUp
      rw [hstage]
    have hwithdrawn := (h.queued htask).withdraw
    rw [← hgiveUp] at hwithdrawn
    have hremoved : (system.giveUp task).Changes (.only task)
        ((system.giveUp task).removeTask task.id) :=
      .single (.removeTask _ rfl)
    have hresolved (result : Except Error Outcome) : (system.giveUp task).Changes (.only task)
        (((system.giveUp task).removeTask task.id).resolve task.id task.name task.continuation
          result) :=
      hremoved.trans (changes_resolve _ _ _ _ rfl (task?_removeTask_self _ _))
    unfold System.dropTask
    rw [htask]
    dsimp only
    split
    . exact (hwithdrawn.changes (hresolved _) not_false).seated
    . exact (hwithdrawn.changes (hresolved _) not_false).seated
    . exact (hwithdrawn.changes hremoved not_false).seated
  . have habsent : system.Absent id := by
      apply h.absent
      intro task deadline htask hwaits
      exact hqueues ⟨rfl, task, deadline, htask, hwaits⟩
    exact (habsent.changes (system.changes_drop id) hqueues).seated

end

end System

end MediaProxy
