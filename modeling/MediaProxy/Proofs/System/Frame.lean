import MediaProxy.Proofs.Pool.Lending
import MediaProxy.Proofs.System.Change

/-!
This module contains what actions leave alone: the tasks of others, their leases and openings, and
whatever was made once.
-/

namespace MediaProxy

namespace Slots

/-!
## Steps with other tickets
-/

variable {slots : Slots} {ticket other : Ticket}

theorem lease?_congr {slots' : Slots} (h : slots'.leases = slots.leases)
    : slots'.lease? ticket = slots.lease? ticket := by
  unfold lease?
  rw [h]

theorem lease?_wake : slots.wake.2.lease? ticket = slots.lease? ticket := by
  obtain ⟨_, _, _, hwake⟩ := wake_eq slots
  rw [hwake]
  apply lease?_congr rfl

theorem lease?_lend (connection : Nat)
    : (slots.lend ticket connection).lease? ticket = some { ticket, connection } := by
  unfold lease? lend
  rw [List.find?_cons_of_pos (by simp)]

theorem lease?_lend_of_ne (connection : Nat) (h : other ≠ ticket)
    : (slots.lend other connection).lease? ticket = slots.lease? ticket := by
  unfold lease? lend
  rw [List.find?_cons_of_neg (by simpa using h)]

theorem lease?_take_of_ne (h : other ≠ ticket)
    : (slots.take other).2.lease? ticket = slots.lease? ticket := by
  rcases take_cases slots other with ⟨_, _, _, htake⟩ | ⟨_, _, htake⟩ | ⟨_, _, htake⟩
  . rw [htake]
    apply lease?_lend_of_ne _ h
  . rw [htake]
    apply lease?_congr rfl
  . rw [htake]

theorem lease?_ask_of_ne (h : other ≠ ticket)
    : (slots.ask other).2.lease? ticket = slots.lease? ticket := by
  obtain ⟨_, hask⟩ := ask_eq slots other
  rw [hask]
  change ({ slots with permit := false }.take other).2.lease? ticket =
    { slots with permit := false }.lease? ticket
  apply lease?_take_of_ne h

theorem lease?_markBroken
    : (slots.markBroken other).lease? ticket =
        (slots.lease? ticket).map fun lease =>
          if lease.ticket = other then { lease with broken := true } else lease := by
  unfold lease? markBroken
  dsimp only
  rw [List.find?_map]
  congr 2
  funext lease
  rw [Function.comp_apply]
  split <;> rfl

theorem lease?_markBroken_of_ne (h : other ≠ ticket)
    : (slots.markBroken other).lease? ticket = slots.lease? ticket := by
  rw [lease?_markBroken]
  cases hlease : slots.lease? ticket with
  | none => rfl
  | some lease =>
    have hticket := (mem_leases_of_lease? hlease).2
    have hother : lease.ticket ≠ other := by
      rw [hticket]
      exact h.symm
    rw [Option.map_some, if_neg hother]

theorem find?_erase_of_ne {lease : Lease} (h : lease.ticket ≠ ticket) (leases : List Lease)
    : (leases.erase lease).find? (·.ticket = ticket) = leases.find? (·.ticket = ticket) := by
  induction leases with
  | nil => rfl
  | cons first leases ih =>
    by_cases hfirst : first = lease
    . rw [hfirst, List.erase_cons_head, List.find?_cons_of_neg (by simpa using h)]
    . rw [List.erase_cons_tail (by simpa using hfirst), List.find?_cons, List.find?_cons, ih]

theorem lease?_ended_of_ne {lease : Lease} (h : lease.ticket ≠ ticket)
    : (slots.ended lease).lease? ticket = slots.lease? ticket := by
  have hleases : (slots.ended lease).leases = slots.leases.erase lease := by
    unfold ended
    split <;> rfl
  unfold lease?
  rw [hleases]
  apply find?_erase_of_ne h slots.leases

theorem lease?_giveBack_of_ne (h : other ≠ ticket)
    : (slots.giveBack other).2.lease? ticket = slots.lease? ticket := by
  by_cases hother : other ∈ slots.holders
  . obtain ⟨lease, hlease⟩ := lease?_isSome_iff.2 hother
    have hticket := (mem_leases_of_lease? hlease).2
    rw [giveBack_of_lease? hlease, lease?_wake]
    apply lease?_ended_of_ne
    rw [hticket]
    exact h
  . rw [giveBack_of_not_holder hother]

theorem lease?_perform_of_ne {move : Move} (h : move.ticket ≠ ticket)
    : (slots.perform move).lease? ticket = slots.lease? ticket := by
  cases move with
  | take other => apply lease?_take_of_ne h
  | ask other => apply lease?_ask_of_ne h
  | resume other => apply lease?_ask_of_ne h
  | withdraw other =>
    unfold perform withdraw
    dsimp only
    split
    . rw [lease?_wake]
      apply lease?_congr rfl
    . apply lease?_congr rfl
  | opened other connection =>
    unfold perform opened
    dsimp only
    split
    . apply lease?_lend_of_ne _ h
    . rfl
  | cancelOpening other =>
    unfold perform cancelOpening
    dsimp only
    split
    . rw [lease?_wake]
      apply lease?_congr rfl
    . rfl
  | markBroken other => apply lease?_markBroken_of_ne h
  | call other => rfl
  | giveBack other => apply lease?_giveBack_of_ne h

theorem opening_ended (lease : Lease) : (slots.ended lease).opening = slots.opening := by
  unfold ended
  split <;> rfl

theorem mem_opening_erase_of_ne (h : other ≠ ticket)
    : ticket ∈ slots.opening.erase other ↔ ticket ∈ slots.opening :=
  List.mem_erase_of_ne h.symm

theorem mem_opening_take_of_ne (h : other ≠ ticket)
    : ticket ∈ (slots.take other).2.opening ↔ ticket ∈ slots.opening := by
  rcases take_cases slots other with ⟨_, _, _, htake⟩ | ⟨_, _, htake⟩ | ⟨_, _, htake⟩
  . rw [htake]
    rfl
  . rw [htake]
    simp [h.symm]
  . rw [htake]

theorem mem_opening_ask_of_ne (h : other ≠ ticket)
    : ticket ∈ (slots.ask other).2.opening ↔ ticket ∈ slots.opening := by
  obtain ⟨_, hask⟩ := ask_eq slots other
  rw [hask]
  change ticket ∈ ({ slots with permit := false }.take other).2.opening ↔
    ticket ∈ { slots with permit := false }.opening
  apply mem_opening_take_of_ne h

theorem mem_opening_perform_of_ne {move : Move} (h : move.ticket ≠ ticket)
    : ticket ∈ (slots.perform move).opening ↔ ticket ∈ slots.opening := by
  cases move with
  | take other => apply mem_opening_take_of_ne h
  | ask other => apply mem_opening_ask_of_ne h
  | resume other => apply mem_opening_ask_of_ne h
  | withdraw other =>
    unfold perform withdraw
    dsimp only
    split
    . rw [opening_wake]
    . rfl
  | opened other connection =>
    unfold perform opened
    dsimp only
    split
    . apply mem_opening_erase_of_ne h
    . rfl
  | cancelOpening other =>
    unfold perform cancelOpening
    dsimp only
    split
    . rw [opening_wake]
      apply mem_opening_erase_of_ne h
    . rfl
  | markBroken other => rfl
  | call other => rfl
  | giveBack other =>
    change ticket ∈ (slots.giveBack other).2.opening ↔ ticket ∈ slots.opening
    by_cases hother : other ∈ slots.holders
    . obtain ⟨lease, hlease⟩ := lease?_isSome_iff.2 hother
      rw [giveBack_of_lease? hlease, opening_wake, opening_ended]
    . rw [giveBack_of_not_holder hother]

end Slots

namespace System

/-!
## What was made once
-/

structure Sound (system : System) : Prop where
  store : system.store.Sound
  length_links : system.links.length = system.store.contexts.length
  id_lt : ∀ task ∈ system.tasks, task.id < system.nextTask

structure Same (before after : System) : Prop where
  store_eq : after.store = before.store
  links_eq : after.links = before.links
  tasks_eq : after.tasks = before.tasks
  nextTask_eq : after.nextTask = before.nextTask

theorem Says.same {system after : System} {id : TaskId} (h : system.Says id after)
    : system.Same after := by
  cases h <;> exact ⟨rfl, rfl, rfl, rfl⟩

theorem Same.task?_eq {before after : System} (h : before.Same after) (id : TaskId)
    : after.task? id = before.task? id := by
  unfold task?
  rw [h.tasks_eq]

theorem Same.slots_eq {before after : System} (h : before.Same after) (c : Nat) (flavor : Flavor)
    : after.slots c flavor = before.slots c flavor := by
  unfold slots link
  rw [h.links_eq]

theorem length_setServer (system : System) (c : Nat) (server : Server)
    : (system.setServer c server).links.length = system.links.length :=
  List.length_modify _ _ _

theorem length_setSlots (system : System) (c : Nat) (flavor : Flavor) (slots : Slots)
    : (system.setSlots c flavor slots).links.length = system.links.length :=
  List.length_modify _ _ _

section
variable {scope : Scope} {before after : System}

theorem Sound.of_same (h : before.Sound) (hsame : before.Same after) : after.Sound := by
  obtain ⟨hstore, hlinks, hid⟩ := h
  obtain ⟨hstoreEq, hlinksEq, htasksEq, hnext⟩ := hsame
  refine ⟨by rw [hstoreEq]; exact hstore, by rw [hstoreEq, hlinksEq]; exact hlinks, ?_⟩
  intro task htask
  rw [htasksEq] at htask
  rw [hnext]
  exact hid task htask

theorem Sound.grow (h : before.Sound) {store : Store} (hgrows : before.store.Grows store)
    : { before with store }.Sound :=
  ⟨hgrows.sound h.store, by rw [hgrows.contexts]; exact h.length_links, h.id_lt⟩

theorem Sound.number (h : before.Sound)
    : { before with nextTask := before.nextTask + 1 }.Sound :=
  ⟨h.store, h.length_links, fun task htask => Nat.lt_succ_of_lt (h.id_lt task htask)⟩

theorem Sound.map (h : before.Sound) {change : Task → Task}
    (hid : ∀ task ∈ before.tasks, (change task).id = task.id)
    : { before with tasks := before.tasks.map change }.Sound := by
  refine ⟨h.store, h.length_links, ?_⟩
  intro task htask
  obtain ⟨old, hold, heq⟩ := List.mem_map.1 htask
  rw [← heq, hid old hold]
  exact h.id_lt old hold

theorem Sound.change (h : before.Sound) (hchange : before.Change scope after) : after.Sound := by
  cases hchange with
  | share hextends => exact h.grow hextends.grows
  | conclude o operation outcome => exact h.grow (Store.grows_conclude _ _ _ _)
  | serve c server =>
    exact ⟨h.store, by rw [length_setServer]; exact h.length_links, h.id_lt⟩
  | slots c flavor =>
    exact ⟨h.store, by rw [length_setSlots]; exact h.length_links, h.id_lt⟩
  | found context hextends =>
    refine ⟨(hextends.sound h.store).addContext context, ?_, h.id_lt⟩
    dsimp only
    unfold Store.addContext
    rw [List.length_append, List.length_append, hextends.contexts, h.length_links]
    rfl
  | setTask task =>
    apply h.map
    intro other _
    split
    . next hsame => exact hsame.symm
    . rfl
  | unheard id =>
    apply h.map
    intro other _
    split <;> rfl
  | removeTask id =>
    exact ⟨h.store, h.length_links, fun task htask => h.id_lt task (List.mem_filter.1 htask).1⟩
  | start task ready hnext =>
    refine ⟨h.store, h.length_links, ?_⟩
    intro other hother
    dsimp only
    rcases List.mem_append.1 hother with hold | hnew
    . apply Nat.lt_succ_of_lt (h.id_lt other hold)
    . rw [List.mem_singleton.1 hnew, hnext]
      apply Nat.lt_succ_self
  | number hsaid => exact h.number.of_same hsaid.same
  | tell id _ _ hsaid => exact h.of_same hsaid.same
  | line => exact h.of_same ⟨rfl, rfl, rfl, rfl⟩
  | take => exact h.of_same ⟨rfl, rfl, rfl, rfl⟩
  | note => exact h.of_same ⟨rfl, rfl, rfl, rfl⟩
  | rest => exact h.of_same ⟨rfl, rfl, rfl, rfl⟩

theorem Sound.changes (h : before.Sound) (hchanges : before.Changes scope after)
    : after.Sound := by
  induction hchanges with
  | refl => exact h
  | step _ hchange ih => exact ih.change hchange

theorem Sound.task?_nextTask {system : System} (h : system.Sound)
    : system.task? system.nextTask = none := by
  unfold task?
  rw [List.find?_eq_none]
  intro task htask
  have hlt := h.id_lt task htask
  simpa using Nat.ne_of_lt hlt

theorem Sound.lt_of_task? {system : System} (h : system.Sound) {id : TaskId} {task : Task}
    (htask : system.task? id = some task) : id < system.nextTask := by
  rw [← task?_id htask]
  exact h.id_lt task (List.mem_of_find?_eq_some htask)

end

theorem Sound.after {start : System} {actions : List Action} (h : start.Sound)
    (hlegal : Legal start actions) : (start.after actions).Sound := by
  induction actions with
  | nil => exact h
  | cons action actions ih => exact (ih hlegal.1).changes (changes_act hlegal.2)

structure Grows (before after : System) : Prop where
  nextTask_le : before.nextTask ≤ after.nextTask
  length_links_le : before.links.length ≤ after.links.length
  length_objects_le : before.store.objects.length ≤ after.store.objects.length
  length_contexts_le : before.store.contexts.length ≤ after.store.contexts.length
  ages : ∀ o, o < before.store.objects.length →
    (before.store.object o).Ages (after.store.object o)
  context_eq : ∀ c, c < before.store.contexts.length →
    after.store.context c = before.store.context c
  ended : ∀ id, id < before.nextTask → before.task? id = none → after.task? id = none

theorem Grows.refl (system : System) : system.Grows system :=
  ⟨Nat.le_refl _, Nat.le_refl _, Nat.le_refl _, Nat.le_refl _, fun _ _ => .refl _, fun _ _ => rfl,
    fun _ _ h => h⟩

theorem Grows.trans {first second third : System} (h : first.Grows second)
    (h' : second.Grows third) : first.Grows third where
  nextTask_le := Nat.le_trans h.nextTask_le h'.nextTask_le
  length_links_le := Nat.le_trans h.length_links_le h'.length_links_le
  length_objects_le := Nat.le_trans h.length_objects_le h'.length_objects_le
  length_contexts_le := Nat.le_trans h.length_contexts_le h'.length_contexts_le
  ages o ho := (h.ages o ho).trans (h'.ages o (Nat.lt_of_lt_of_le ho h.length_objects_le))
  context_eq c hc := by
    rw [h'.context_eq c (Nat.lt_of_lt_of_le hc h.length_contexts_le), h.context_eq c hc]
  ended id hid hnone :=
    h'.ended id (Nat.lt_of_lt_of_le hid h.nextTask_le) (h.ended id hid hnone)

section
variable {scope : Scope} {before after : System}

theorem Grows.identity_eq (h : before.Grows after) (o : ObjectId)
    (ho : o < before.store.objects.length)
    : (after.store.object o).identity = (before.store.object o).identity :=
  (h.ages o ho).identity_eq

theorem Grows.of_store_eq (hstore : after.store = before.store)
    (hlinks : after.links.length = before.links.length) (hnext : before.nextTask ≤ after.nextTask)
    (hended : ∀ id, id < before.nextTask → before.task? id = none → after.task? id = none)
    : before.Grows after := by
  refine ⟨hnext, Nat.le_of_eq hlinks.symm, ?_, ?_, ?_, ?_, hended⟩
  . exact Nat.le_of_eq (congrArg (·.objects.length) hstore.symm)
  . exact Nat.le_of_eq (congrArg (·.contexts.length) hstore.symm)
  . intro o _
    rw [hstore]
    exact .refl _
  . intro c _
    rw [hstore]

theorem Same.grows (h : before.Same after) : before.Grows after := by
  apply Grows.of_store_eq h.store_eq (congrArg _ h.links_eq) (Nat.le_of_eq h.nextTask_eq.symm)
  intro id _ hnone
  rw [h.task?_eq]
  exact hnone

theorem Grows.of_store {store : Store} (h : before.store.Grows store)
    : before.Grows { before with store } := by
  refine ⟨Nat.le_refl _, Nat.le_refl _, h.length_objects, ?_, h.ages, fun c _ => h.context_eq c,
    fun _ _ h => h⟩
  apply Nat.le_of_eq (congrArg List.length h.contexts.symm)

theorem Grows.number : before.Grows { before with nextTask := before.nextTask + 1 } :=
  .of_store_eq rfl rfl (Nat.le_succ _) fun _ _ h => h

theorem task?_start {task : Task} {id : TaskId} (h : task.id = before.nextTask)
    (hid : before.nextTask ≠ id) (ready : List TaskId)
    : { before with
        nextTask := before.nextTask + 1
        tasks := before.tasks ++ [task]
        ready }.task? id = before.task? id := by
  unfold task?
  dsimp only
  rw [List.find?_append, List.find?_cons_of_neg]
  . rw [List.find?_nil, Option.or_none]
  . simpa [h] using hid

theorem task?_start_cases {task new : Task} {id : TaskId} {ready : List TaskId}
    (hnew : new.id = before.nextTask)
    (h : { before with
      nextTask := before.nextTask + 1
      tasks := before.tasks ++ [new]
      ready }.task? id = some task)
    : before.task? id = some task ∨ before.nextTask = id ∧ task = new := by
  by_cases hid : before.nextTask = id
  . unfold task? at h ⊢
    rw [List.find?_append] at h
    rcases Option.or_eq_some_iff.1 h with hold | ⟨_, hlast⟩
    . exact .inl hold
    . exact .inr ⟨hid, List.mem_singleton.1 (List.mem_of_find?_eq_some hlast)⟩
  . rw [task?_start hnew hid] at h
    exact .inl h

theorem task?_unheard (system : System) (id other : TaskId)
    : { system with
        tasks := system.tasks.map fun task : Task =>
          if task.id = id then task.unheard else task }.task? other =
        (system.task? other).map fun task : Task => if task.id = id then task.unheard else task := by
  apply task?_map
  intro task
  split <;> rfl

theorem Change.grows (h : before.Change scope after) : before.Grows after := by
  cases h with
  | share hextends => exact .of_store hextends.grows
  | conclude o operation outcome => exact .of_store (Store.grows_conclude _ _ _ _)
  | serve c server =>
    exact .of_store_eq rfl (length_setServer _ _ _) (Nat.le_refl _) fun _ _ h => h
  | slots c flavor =>
    exact .of_store_eq rfl (length_setSlots _ _ _ _) (Nat.le_refl _) fun _ _ h => h
  | found context hextends =>
    refine ⟨Nat.le_refl _, ?_, hextends.length_objects, ?_, hextends.grows.ages, ?_,
      fun _ _ h => h⟩
    . exact (List.prefix_append _ _).length_le
    . rw [← hextends.contexts]
      exact (List.prefix_append _ _).length_le
    . intro c hc
      rw [← hextends.contexts] at hc
      rw [← hextends.context_eq c]
      apply Store.context_addContext _ _ hc
  | setTask task =>
    refine .of_store_eq rfl rfl (Nat.le_refl _) fun id _ hnone => ?_
    rw [task?_setTask, hnone]
    rfl
  | unheard id =>
    refine .of_store_eq rfl rfl (Nat.le_refl _) fun other _ hnone => ?_
    rw [task?_unheard, hnone]
    rfl
  | removeTask id =>
    refine .of_store_eq rfl rfl (Nat.le_refl _) fun other _ hnone => ?_
    by_cases hother : id = other
    . rw [hother]
      apply task?_removeTask_self
    . rw [task?_removeTask_of_ne _ hother]
      exact hnone
  | start task ready hnext =>
    refine .of_store_eq rfl rfl (Nat.le_succ _) fun id hid hnone => ?_
    rw [task?_start hnext (Nat.ne_of_gt hid)]
    exact hnone
  | number hsaid => exact Grows.number.trans hsaid.same.grows
  | tell id _ _ hsaid => exact hsaid.same.grows
  | line => exact Same.grows ⟨rfl, rfl, rfl, rfl⟩
  | take => exact Same.grows ⟨rfl, rfl, rfl, rfl⟩
  | note => exact Same.grows ⟨rfl, rfl, rfl, rfl⟩
  | rest => exact Same.grows ⟨rfl, rfl, rfl, rfl⟩

theorem Changes.grows (h : before.Changes scope after) : before.Grows after := by
  induction h with
  | refl => exact .refl _
  | step _ hchange ih => exact ih.trans hchange.grows

theorem Legal.of_suffix {start : System} {actions earlier : List Action} (h : Legal start actions)
    (hsuffix : earlier <:+ actions) : Legal start earlier := by
  obtain ⟨later, rfl⟩ := hsuffix
  induction later with
  | nil => exact h
  | cons action later ih => exact ih h.1

theorem Legal.grows_of_suffix {start : System} {actions earlier : List Action}
    (h : Legal start actions) (hsuffix : earlier <:+ actions)
    : (start.after earlier).Grows (start.after actions) := by
  obtain ⟨later, rfl⟩ := hsuffix
  induction later with
  | nil => exact .refl _
  | cons action later ih => exact (ih h.1).trans (changes_act h.2).grows

theorem Legal.grows {start : System} {actions : List Action} (h : Legal start actions)
    : start.Grows (start.after actions) :=
  h.grows_of_suffix (List.nil_suffix)

/-!
## Types of proxies
-/

theorem Change.typed (h : before.Change scope after) (hsound : before.Sound)
    (htyped : before.store.Typed) : after.store.Typed := by
  cases h with
  | share hextends => exact hextends.typed htyped
  | conclude o operation outcome => exact (Store.grows_conclude _ _ _ _).typed htyped
  | found context hextends hfactory =>
    exact (hextends.typed htyped).addContext (hextends.sound hsound.store) hfactory
  | number hsaid =>
    rw [hsaid.same.store_eq]
    exact htyped
  | tell id _ _ hsaid =>
    rw [hsaid.same.store_eq]
    exact htyped
  | _ => exact htyped

theorem Changes.typed (h : before.Changes scope after) (hsound : before.Sound)
    (htyped : before.store.Typed) : after.store.Typed := by
  induction h with
  | refl => exact htyped
  | step hearlier hchange ih => exact hchange.typed (hsound.changes hearlier) ih

theorem Legal.typed {start : System} {actions : List Action} (h : Legal start actions)
    (hsound : start.Sound) (htyped : start.store.Typed) : (start.after actions).store.Typed := by
  induction actions with
  | nil => exact htyped
  | cons action actions ih => exact (changes_act h.2).typed (hsound.after h.1) (ih h.1)

theorem Change.known_eq (h : before.Change scope after) {o : ObjectId}
    (ho : o < before.store.objects.length) {fetch : Operation} (hjobs : ¬scope.jobs (.operate o fetch))
    : (after.store.object o).known fetch = (before.store.object o).known fetch := by
  cases h with
  | share hextends =>
    dsimp only
    rw [hextends.object_eq ho]
  | conclude p operation outcome hown =>
    rcases Store.known_conclude (o := p) ho operation fetch outcome with heq | ⟨rfl, rfl, _⟩
    . exact heq
    . exact absurd hown hjobs
  | found context hextends => exact congrArg (MediaObject.known · fetch) (hextends.object_eq ho)
  | number hsaid => rw [hsaid.same.store_eq]
  | tell id _ _ hsaid => rw [hsaid.same.store_eq]
  | _ => rfl

theorem Changes.known_eq (h : before.Changes scope after) {o : ObjectId}
    (ho : o < before.store.objects.length) {fetch : Operation} (hjobs : ¬scope.jobs (.operate o fetch))
    : (after.store.object o).known fetch = (before.store.object o).known fetch := by
  induction h with
  | refl => rfl
  | step hearlier hchange ih =>
    rw [hchange.known_eq (Nat.lt_of_lt_of_le ho hearlier.grows.length_objects_le) hjobs, ih]

end

/-!
## What others leave alone
-/

structure Keeps (id : TaskId) (before after : System) : Prop where
  task?_eq : after.task? id = before.task? id ∨
    after.task? id = (before.task? id).map Task.unheard
  lease?_eq : ∀ c flavor, (after.slots c flavor).lease? id = (before.slots c flavor).lease? id
  mem_opening_iff : ∀ c flavor,
    id ∈ (after.slots c flavor).opening ↔ id ∈ (before.slots c flavor).opening
  count_holders_eq : ∀ c flavor,
    (after.slots c flavor).holders.count id = (before.slots c flavor).holders.count id

theorem Keeps.refl (id : TaskId) (system : System) : Keeps id system system :=
  ⟨.inl rfl, fun _ _ => rfl, fun _ _ => .rfl, fun _ _ => rfl⟩

theorem unheard_trans {first second third : Option Task}
    (h : second = first ∨ second = first.map Task.unheard)
    (h' : third = second ∨ third = second.map Task.unheard)
    : third = first ∨ third = first.map Task.unheard := by
  rcases h with rfl | rfl
  . exact h'
  . right
    rcases h' with rfl | rfl
    . rfl
    . cases first <;> rfl

section
variable {scope : Scope} {id : TaskId} {before after : System}

theorem Keeps.trans {third : System} (h : Keeps id before after) (h' : Keeps id after third)
    : Keeps id before third where
  task?_eq := unheard_trans h.task?_eq h'.task?_eq
  lease?_eq c flavor := (h'.lease?_eq c flavor).trans (h.lease?_eq c flavor)
  mem_opening_iff c flavor := (h'.mem_opening_iff c flavor).trans (h.mem_opening_iff c flavor)
  count_holders_eq c flavor :=
    (h'.count_holders_eq c flavor).trans (h.count_holders_eq c flavor)

theorem Keeps.core_eq (h : Keeps id before after)
    : (after.task? id).map Task.core = (before.task? id).map Task.core := by
  rcases h.task?_eq with heq | heq
  . rw [heq]
  . rw [heq]
    cases before.task? id <;> rfl

theorem Keeps.of_slots_eq (htask : after.task? id = before.task? id)
    (hslots : ∀ c flavor, after.slots c flavor = before.slots c flavor)
    : Keeps id before after := by
  refine ⟨.inl htask, ?_, ?_, ?_⟩ <;>
    . intro c flavor
      rw [hslots]

theorem Same.keeps (h : before.Same after) : Keeps id before after :=
  .of_slots_eq (h.task?_eq id) h.slots_eq

theorem slots_of_le {system : System} {c : Nat} (h : system.links.length ≤ c) (flavor : Flavor)
    : system.slots c flavor = (Pool.ofConfig {}).slots flavor := by
  unfold System.slots link
  rw [List.getD_eq_getElem?_getD, List.getElem?_eq_none h]
  rfl

theorem slots_found {config : Config}
    (h : after.links = before.links ++ [{ pool := .ofConfig config }]) (c : Nat) (flavor : Flavor)
    : after.slots c flavor = before.slots c flavor ∨
      (before.slots c flavor = (Pool.ofConfig {}).slots flavor ∧
        after.slots c flavor = (Pool.ofConfig config).slots flavor) := by
  by_cases hc : c = before.links.length
  . right
    refine ⟨slots_of_le (Nat.le_of_eq hc.symm) flavor, ?_⟩
    unfold System.slots link
    rw [h, getD_concat, if_pos hc]
  . left
    unfold System.slots link
    rw [h, getD_concat, if_neg hc]

theorem count_holders_found {config : Config}
    (h : after.links = before.links ++ [{ pool := .ofConfig config }]) (id : TaskId) (c : Nat)
    (flavor : Flavor)
    : (after.slots c flavor).holders.count id = (before.slots c flavor).holders.count id := by
  rcases slots_found h c flavor with heq | ⟨hbefore, hafter⟩
  . rw [heq]
  . rw [hbefore, hafter]
    cases flavor <;> rfl

theorem keeps_found {config : Config}
    (hlinks : after.links = before.links ++ [{ pool := .ofConfig config }])
    (htasks : after.tasks = before.tasks)
    : Keeps id before after := by
  have htask : after.task? id = before.task? id := by
    unfold task?
    rw [htasks]
  refine ⟨.inl htask, ?_, ?_, count_holders_found hlinks id⟩ <;>
    . intro c flavor
      rcases slots_found hlinks c flavor with heq | ⟨hbefore, hafter⟩
      . rw [heq]
      . rw [hbefore, hafter]
        cases flavor <;> rfl

def Apart (id : TaskId) (before after : System) : Prop :=
  id < before.nextTask ∨ after.nextTask ≤ id

theorem Apart.ne_of_succ (h : Apart id before after) (hnext : after.nextTask = before.nextTask + 1)
    : before.nextTask ≠ id := by
  rcases h with hlt | hle
  . exact Nat.ne_of_gt hlt
  . rw [hnext] at hle
    exact Nat.ne_of_lt hle

theorem Change.task?_cases (h : before.Change scope after) (htasks : ¬scope.tasks id)
    (hid : Apart id before after)
    : after.task? id = before.task? id ∨
      (before.Leaves scope id ∧ after.task? id = (before.task? id).map Task.unheard) := by
  cases h with
  | setTask task htask =>
    left
    apply task?_setTask_of_ne
    rintro rfl
    exact htasks htask.tasks
  | unheard other hleaves =>
    rw [task?_unheard]
    cases hfound : before.task? id with
    | none => exact .inl rfl
    | some task =>
      rw [Option.map_some, task?_id hfound]
      split
      . next heq =>
        rw [← heq] at hleaves
        exact .inr ⟨hleaves, rfl⟩
      . exact .inl rfl
  | removeTask other hother =>
    have hne : other ≠ id := by
      rintro rfl
      exact htasks hother
    exact .inl (task?_removeTask_of_ne _ hne)
  | start task ready hnext => exact .inl (task?_start hnext (hid.ne_of_succ rfl) ready)
  | number hsaid => exact .inl (hsaid.same.task?_eq id)
  | tell other _ _ hsaid => exact .inl (hsaid.same.task?_eq id)
  | _ => exact .inl rfl

theorem Changes.task?_cases (h : before.Changes scope after) (htasks : ¬scope.tasks id)
    (hid : id < before.nextTask)
    : after.task? id = before.task? id ∨ after.task? id = (before.task? id).map Task.unheard := by
  induction h with
  | refl => exact .inl rfl
  | step hearlier hchange ih =>
    have hlt := Nat.lt_of_lt_of_le hid hearlier.grows.nextTask_le
    exact unheard_trans ih ((hchange.task?_cases htasks (.inl hlt)).imp_right And.right)

theorem Change.origin (h : before.Change scope after) {task : Task}
    (htask : after.task? id = some task)
    : (∃ old, before.task? id = some old ∧ task.core = old.core) ∨
      (scope.tasks id ∧ scope.jobs task.job) ∨
      (before.nextTask ≤ id ∧ task.stage = .fresh ∧
        (scope.births task.job ∨ before.Cares task.job)) := by
  cases h with
  | setTask next hnext =>
    rcases task?_setTask_cases htask with ⟨rfl, rfl⟩ | ⟨_, hold⟩
    . exact .inr (.inl ⟨hnext.tasks, hnext.jobs⟩)
    . exact .inl ⟨task, hold, rfl⟩
  | unheard other =>
    rw [task?_unheard, Option.map_eq_some_iff] at htask
    obtain ⟨old, hold, heq⟩ := htask
    refine .inl ⟨old, hold, ?_⟩
    rw [← heq]
    split <;> rfl
  | removeTask other =>
    by_cases hother : other = id
    . rw [hother, task?_removeTask_self] at htask
      cases htask
    . rw [task?_removeTask_of_ne _ hother] at htask
      exact .inl ⟨task, htask, rfl⟩
  | start new ready hnext hstage _ _ hborn =>
    rcases task?_start_cases hnext htask with hold | ⟨rfl, rfl⟩
    . exact .inl ⟨task, hold, rfl⟩
    . exact .inr (.inr ⟨Nat.le_refl _, hstage, hborn⟩)
  | number hsaid =>
    rw [hsaid.same.task?_eq] at htask
    exact .inl ⟨task, htask, rfl⟩
  | tell other _ _ hsaid =>
    rw [hsaid.same.task?_eq] at htask
    exact .inl ⟨task, htask, rfl⟩
  | _ => exact .inl ⟨task, htask, rfl⟩

theorem Changes.origin (h : before.Changes scope after) {task : Task}
    (htask : after.task? id = some task)
    : (∃ old, before.task? id = some old ∧ task.core = old.core) ∨
      (scope.tasks id ∧ scope.jobs task.job) ∨ (before.nextTask ≤ id ∧ task.stage = .fresh) := by
  induction h generalizing task with
  | refl => exact .inl ⟨task, htask, rfl⟩
  | step hearlier hchange ih =>
    rcases hchange.origin htask with ⟨old, hold, hcore⟩ | hown | ⟨hle, hstage, _⟩
    . have hjob : task.job = old.job := congrArg Prod.fst hcore
      have hstage : task.stage = old.stage := congrArg Prod.snd hcore
      rcases ih hold with ⟨first, hfirst, hcore'⟩ | ⟨htasks, hjobs⟩ | ⟨hle, hfresh⟩
      . exact .inl ⟨first, hfirst, hcore.trans hcore'⟩
      . exact .inr (.inl ⟨htasks, by rw [hjob]; exact hjobs⟩)
      . exact .inr (.inr ⟨hle, hstage.trans hfresh⟩)
    . exact .inr (.inl hown)
    . exact .inr (.inr ⟨Nat.le_trans hearlier.grows.nextTask_le hle, hstage⟩)

theorem Change.count_holders_eq (h : before.Change scope after) (htickets : ¬scope.tickets id)
    (c : Nat) (flavor : Flavor)
    : (after.slots c flavor).holders.count id = (before.slots c flavor).holders.count id := by
  cases h with
  | serve d server => rw [setServer_slots]
  | slots d other move hmove =>
    rw [slots_setSlots]
    split
    . next heq =>
      obtain ⟨rfl, rfl, _⟩ := heq
      apply Slots.count_holders_perform_of_ne
      rintro rfl
      exact htickets hmove
    . rfl
  | found context => exact count_holders_found rfl id c flavor
  | number hsaid =>
    rw [hsaid.same.slots_eq]
    rfl
  | tell other _ _ hsaid => rw [hsaid.same.slots_eq]
  | _ => rfl

theorem Change.keeps (h : before.Change scope after) (htasks : ¬scope.tasks id)
    (htickets : ¬scope.tickets id) (hid : id < before.nextTask) : Keeps id before after := by
  have htask : after.task? id = before.task? id ∨
      after.task? id = (before.task? id).map Task.unheard :=
    (h.task?_cases htasks (.inl hid)).imp_right And.right
  have hcount := h.count_holders_eq htickets
  cases h with
  | serve c server => exact .of_slots_eq rfl (before.setServer_slots c server)
  | slots c flavor move hmove =>
    have hne : move.ticket ≠ id := by
      rintro rfl
      exact htickets hmove
    refine ⟨htask, ?_, ?_, hcount⟩
    . intro d other
      rw [slots_setSlots]
      split
      . next heq =>
        obtain ⟨rfl, rfl, _⟩ := heq
        apply Slots.lease?_perform_of_ne hne
      . rfl
    . intro d other
      rw [slots_setSlots]
      split
      . next heq =>
        obtain ⟨rfl, rfl, _⟩ := heq
        apply Slots.mem_opening_perform_of_ne hne
      . rfl
  | found context => exact keeps_found rfl rfl
  | number hsaid => exact ⟨htask, fun c flavor => by rw [hsaid.same.slots_eq]; rfl,
      fun c flavor => by rw [hsaid.same.slots_eq]; rfl, hcount⟩
  | tell other _ _ hsaid => exact hsaid.same.keeps
  | _ => exact ⟨htask, fun _ _ => rfl, fun _ _ => .rfl, hcount⟩

theorem Changes.count_holders_eq (h : before.Changes scope after) (htickets : ¬scope.tickets id)
    (c : Nat) (flavor : Flavor)
    : (after.slots c flavor).holders.count id = (before.slots c flavor).holders.count id := by
  induction h with
  | refl => rfl
  | step _ hchange ih => rw [hchange.count_holders_eq htickets, ih]

theorem Changes.keeps (h : before.Changes scope after) (htasks : ¬scope.tasks id)
    (htickets : ¬scope.tickets id) (hid : id < before.nextTask) : Keeps id before after := by
  induction h with
  | refl => exact .refl _ _
  | step hearlier hchange ih =>
    exact ih.trans
      (hchange.keeps htasks htickets (Nat.lt_of_lt_of_le hid hearlier.grows.nextTask_le))

end

/-!
## The end of tasks
-/

theorem task?_resolve (system : System) (id : TaskId) (name : String) (continuation : Continuation)
    (result : Except Error Outcome) (other : TaskId)
    : (system.resolve id name continuation result).task? other = system.task? other := by
  unfold resolve
  split
  . rfl
  . rfl
  . rfl
  . dsimp only
    split
    . rfl
    . next waiter _ =>
      obtain ⟨ready, hwake, _⟩ := wake_eq _ waiter.id
      rw [hwake]
      rfl
  . rfl
  . rfl

theorem task?_spawn {system : System} (h : system.Sound) (job : Job) (continuation : Continuation)
    (name : String)
    : (system.spawn job continuation name).2.task? (system.spawn job continuation name).1 =
        if system.running then some { id := system.nextTask, job, continuation, name } else none := by
  have hnone := h.task?_nextTask
  rw [fst_spawn]
  unfold spawn
  dsimp only
  split
  . unfold task? at hnone ⊢
    dsimp only
    rw [List.find?_append, hnone, Option.none_or]
    apply List.find?_cons_of_pos (by simp)
  . dsimp only
    rw [task?_resolve]
    split <;> exact hnone

theorem task?_finish (system : System) (task : Task) (result : Except Error Outcome)
    : (system.finish task result).task? task.id = none := by
  unfold finish
  rw [task?_resolve]
  apply task?_removeTask_self

theorem task?_dropTask (system : System) (id : TaskId) : (system.dropTask id).task? id = none := by
  unfold dropTask
  split
  . next hnone => exact hnone
  . dsimp only
    split
    . rw [task?_resolve]
      apply task?_removeTask_self
    . rw [task?_resolve]
      apply task?_removeTask_self
    . apply task?_removeTask_self

theorem task?_foldl_dropTask (ids : List TaskId) (system : System) {id : TaskId}
    (hid : id < system.nextTask) (h : id ∈ ids ∨ system.task? id = none)
    : (ids.foldl dropTask system).task? id = none := by
  -- Once dropped, the task does not come back when the others are dropped.
  induction ids generalizing system with
  | nil => exact h.resolve_left List.not_mem_nil
  | cons first ids ih =>
    have hgrows := (changes_drop system first).grows
    rw [List.foldl_cons]
    apply ih _ (Nat.lt_of_lt_of_le hid hgrows.nextTask_le)
    rcases h with hmem | hnone
    . rcases List.mem_cons.1 hmem with hfirst | hrest
      . rw [hfirst]
        exact .inr (task?_dropTask _ _)
      . exact .inl hrest
    . exact .inr (hgrows.ended id hid hnone)

theorem task?_shutdown (system : System) (id : TaskId) (h : id < system.nextTask)
    : system.shutdown.task? id = none := by
  unfold shutdown
  dsimp only
  apply task?_foldl_dropTask _ { system with running := false } h
  cases hfound : system.task? id with
  | none => exact .inr hfound
  | some task =>
    left
    rw [← task?_id hfound]
    apply List.mem_map_of_mem (List.mem_of_find?_eq_some hfound)

theorem keeps_act {system : System} {action : Action} {id : TaskId} {task : Task}
    (h : system.Admits action) (hid : id < system.nextTask) (htask : system.task? id = some task)
    (hjob : task.job.isOperation) (hstep : ∀ tickFirst, action ≠ .step tickFirst id)
    : Keeps id system (system.act action) ∨ action = .drop id ∨ action = .shutdown := by
  have hchanges := changes_act h
  -- What touches the task is its own: it steps, it ends, or a lease is handled that no task has.
  by_cases hown : (action.scope system).tasks id ∨ (action.scope system).tickets id
  . cases action with
    | step tickFirst other =>
      have heq : id = other := hown.elim And.left fun htickets => htickets
      rw [heq] at hstep
      exact absurd rfl (hstep tickFirst)
    | drop other =>
      have heq : id = other := hown.elim And.left fun htickets => htickets
      rw [heq]
      exact .inr (.inl rfl)
    | stop other =>
      have heq : id = other := hown.elim And.left fun htickets => htickets
      rw [heq] at htask
      obtain ⟨c, period, hschedule⟩ := h task htask
      rw [hschedule] at hjob
      cases hjob
    | shutdown => exact .inr (.inr rfl)
    | line ready => exact .inl (Same.keeps ⟨rfl, rfl, rfl, rfl⟩)
    | operateBlocking => exact absurd (hown.resolve_left not_false) (Nat.ne_of_lt hid)
    | acquireBlocking => exact absurd (hown.resolve_left not_false) (Nat.ne_of_lt hid)
    | markBroken c flavor lease =>
      have heq : id = lease := hown.resolve_left not_false
      change system.task? lease = none at h
      rw [← heq, htask] at h
      cases h
    | giveBack c flavor lease =>
      have heq : id = lease := hown.resolve_left not_false
      change system.task? lease = none at h
      rw [← heq, htask] at h
      cases h
    | _ => exact (hown.elim False.elim False.elim)
  . rw [not_or] at hown
    exact .inl (hchanges.keeps hown.1 hown.2 hid)

end System

end MediaProxy
