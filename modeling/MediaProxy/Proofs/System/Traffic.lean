import MediaProxy.Proofs.Pool.Accounting
import MediaProxy.Proofs.System.Hearing
import MediaProxy.Proofs.System.Lease
import MediaProxy.Proofs.System.Quiet

/-!
This module contains the traffic between contexts and their servers: whatever else happens, an operation
has a lease exactly while its call is going on, so that there are never more calls than connections.
-/

namespace MediaProxy

namespace System

/-!
## Numbers without tasks
-/

section
variable {scope : Scope} {system before after : System} {id : TaskId} {c : Nat}

theorem Changes.leasesOf_eq (h : before.Changes scope after) (htickets : ¬scope.tickets id)
    : after.leasesOf id = before.leasesOf id := by
  funext c flavor
  exact h.count_holders_eq htickets c flavor

theorem task?_eq_none_of_grows (h : after.Sound) (hgrows : before.Grows after)
    (hnext : after.nextTask = before.nextTask) (hnone : before.task? id = none)
    : after.task? id = none := by
  by_cases hid : id < before.nextTask
  . exact hgrows.ended id hid hnone
  . cases hfound : after.task? id with
    | none => rfl
    | some task => exact absurd (hnext ▸ h.lt_of_task? hfound) hid

theorem dropTask_of_none (h : system.task? id = none) : system.dropTask id = system := by
  unfold dropTask
  rw [h]

theorem stop_of_none (h : system.task? id = none) : system.stop id = system := by
  unfold System.stop
  rw [h]

theorem leasesOf_dropTask (hnone : system.task? id = none) (other : TaskId)
    : (system.dropTask other).leasesOf id = system.leasesOf id := by
  by_cases hother : id = other
  . subst hother
    rw [dropTask_of_none hnone]
  . exact (system.changes_drop other).leasesOf_eq hother

theorem leasesOf_shutdown (hsound : system.Sound) (hnone : system.task? id = none)
    : system.shutdown.leasesOf id = system.leasesOf id := by
  have hall : system.shutdown.leasesOf id = system.leasesOf id ∧
      system.shutdown.task? id = none ∧ system.shutdown.Sound := by
    apply shutdown_induction (motive := fun middle =>
      middle.leasesOf id = system.leasesOf id ∧ middle.task? id = none ∧ middle.Sound)
    . exact ⟨rfl, hnone, hsound.of_same ⟨rfl, rfl, rfl, rfl⟩⟩
    . intro other middle ⟨hleases, hgone, hmiddle⟩
      have hdrop := middle.changes_drop other
      have hsoundThen := hmiddle.changes hdrop
      exact ⟨(leasesOf_dropTask hgone other).trans hleases,
        task?_eq_none_of_grows hsoundThen hdrop.grows (nextTask_dropTask middle other) hgone,
        hsoundThen⟩
    . exact fun middle ⟨hleases, hgone, hmiddle⟩ =>
        ⟨hleases, hgone, hmiddle.of_same ⟨rfl, rfl, rfl, rfl⟩⟩
  exact hall.1

def Handles (system : System) (ticket : Ticket) : Action → Prop
  | .operateBlocking .. => ticket = system.nextTask
  | .acquireBlocking _ => ticket = system.nextTask
  | .markBroken _ _ lease => ticket = lease
  | .giveBack _ _ lease => ticket = lease
  | _ => False

theorem leasesOf_act (hsound : system.Sound) (hnone : system.task? id = none) {action : Action}
    (hadmits : system.Admits action) (hhandles : ¬system.Handles id action)
    : (system.act action).leasesOf id = system.leasesOf id := by
  have hchanges := changes_act hadmits
  by_cases htickets : (action.scope system).tickets id
  . cases action with
    | step tickFirst other =>
      obtain rfl : id = other := htickets
      exact congrArg (leasesOf · id) (step_of_none hnone tickFirst)
    | drop other => exact leasesOf_dropTask hnone other
    | stop other =>
      obtain rfl : id = other := htickets
      exact congrArg (leasesOf · id) (stop_of_none hnone)
    | shutdown => exact leasesOf_shutdown hsound hnone
    | operateBlocking => exact absurd htickets hhandles
    | acquireBlocking => exact absurd htickets hhandles
    | markBroken => exact absurd htickets hhandles
    | giveBack => exact absurd htickets hhandles
    | _ => exact absurd htickets not_false
  . exact hchanges.leasesOf_eq htickets

theorem SettlesAtOnce.free {o : ObjectId} {operation : Operation}
    {ended : Except Error Value × System} (h : system.SettlesAtOnce o operation ended)
    (hfree : system.Free system.nextTask) : ended.2.Free system.nextTask := by
  cases h with
  | answered => exact hfree
  | refused _ _ hstill => exact hstill
  | concluded _ _ hstill => exact hstill

theorem Free.act (h : system.Free id) (hsound : system.Sound) (hnone : system.task? id = none)
    {action : Action} (hadmits : system.Admits action)
    (hacquires : ∀ c, action = .acquireBlocking c → id ≠ system.nextTask)
    : (system.act action).Free id := by
  by_cases hhandles : system.Handles id action
  . cases action with
    | operateBlocking o operation =>
      obtain rfl : id = system.nextTask := hhandles
      exact (settlesAtOnce_operateBlocking hsound h o operation).free h
    | acquireBlocking c => exact absurd hhandles (hacquires c rfl)
    | markBroken c flavor lease =>
      apply h.setSlots
      rw [Slots.holders_markBroken]
      exact h c flavor
    | giveBack c flavor lease =>
      apply Free.of_eq _ (system.leasesOf_stepSlots id c flavor (·.giveBack lease))
      apply h.setSlots
      rw [Slots.count_holders_giveBack]
      exact Nat.sub_eq_zero_of_le (Nat.le_trans (Nat.le_of_eq (h c flavor)) (Nat.zero_le _))
    | _ => exact absurd hhandles not_false
  . exact h.of_eq (leasesOf_act hsound hnone hadmits hhandles)

end

/-!
## Tasks of operations
-/

/--
A number that no task but one of an operation has. There are the leases that the stage of the task
allows, and none when the task is gone.
-/
structure Thrifty (system : System) (id : TaskId) (job : Job) : Prop
    extends system.Enlisted id job where
  lends : ∀ task, system.task? id = some task →
    system.Lends id (system.contextOf job) task.stage
  free : system.task? id = none → system.Free id

section
variable {system before after : System} {id : TaskId} {job : Job} {c : Nat}

theorem Lends.keeps {stage : Stage} (h : before.Lends id c stage) (hkeeps : Keeps id before after)
    : after.Lends id c stage := by
  have hleases : after.leasesOf id = before.leasesOf id := by
    funext d flavor
    exact hkeeps.count_holders_eq d flavor
  cases stage with
  | calling => exact Sole.of_eq h hleases
  | opening => exact ⟨h.1.of_eq hleases, (hkeeps.mem_opening_iff c .nonBlocking).2 h.2⟩
  | _ => exact Free.of_eq h hleases

theorem Keeps.task?_cases (h : Keeps id before after) {next : Task}
    (hnext : after.task? id = some next)
    : ∃ task, before.task? id = some task ∧ next.core = task.core := by
  rcases h.task?_eq with heq | heq
  . exact ⟨next, heq ▸ hnext, rfl⟩
  . obtain ⟨task, htask, rfl⟩ := Option.map_eq_some_iff.1 (heq ▸ hnext)
    exact ⟨task, htask, rfl⟩

theorem Lends.giveUp {task : Task} (h : system.Lends task.id (system.contextOf task.job) task.stage)
    (hfits : task.Fits) (hjob : task.job.isOperation) : (system.giveUp task).Free task.id := by
  have hletGo (proxies : List ObjectId) (hfree : system.Free task.id)
      : (system.letGo proxies).Free task.id :=
    hfree.of_eq (leasesOf_of_links_eq rfl task.id)
  unfold System.giveUp
  rcases Job.isOperation_cases hjob with ⟨o, operation, hkind⟩ | ⟨o, hkind⟩
  . unfold Task.Fits at hfits
    rw [hkind] at hfits
    cases hstage : task.stage with
    | fresh =>
      rw [hstage] at h
      rw [hkind]
      exact h
    | waiting deadline =>
      rw [hstage] at h
      exact Free.stepSlots h _ _ fun slots => slots.holders_withdraw task.id
    | opening error due =>
      rw [hstage] at h
      exact Free.stepSlots h.1 _ _ fun slots => slots.holders_cancelOpening task.id
    | calling reply due =>
      rw [hstage] at h
      rw [hkind] at h ⊢
      exact Sole.giveBack h
    | _ =>
      rw [hstage] at hfits
      cases hfits.resolve_left nofun
  . unfold Task.Fits at hfits
    rw [hkind] at hfits
    rw [hfits] at h ⊢
    rw [hkind]
    exact Free.of_eq h (leasesOf_of_links_eq rfl task.id)

theorem Thrifty.dropTask_self (h : system.Thrifty id job) (hjob : job.isOperation)
    : (system.dropTask id).Free id := by
  unfold dropTask
  cases htask : system.task? id with
  | none => exact h.free htask
  | some task =>
    have hid := task?_id htask
    subst hid
    obtain ⟨hkind, hfits⟩ := h.task task htask
    have hlends := h.lends task htask
    rw [← hkind] at hlends hjob
    have hfree := hlends.giveUp hfits hjob
    dsimp only
    split
    . exact hfree.of_eq (leasesOf_of_links_eq (links_resolve _ _ _ _ _) task.id)
    . exact hfree.of_eq (leasesOf_of_links_eq (links_resolve _ _ _ _ _) task.id)
    . exact hfree

theorem Thrifty.of_none (hid : id < system.nextTask) (hnone : system.task? id = none)
    (hfree : system.Free id) : system.Thrifty id job where
  id_lt := hid
  task _ htask := nomatch htask.symm.trans hnone
  lends _ htask := nomatch htask.symm.trans hnone
  free _ := hfree

theorem Thrifty.keeps (h : before.Thrifty id job) (hkeeps : Keeps id before after)
    (hlt : id < after.nextTask) (hcontext : after.contextOf job = before.contextOf job)
    : after.Thrifty id job := by
  refine ⟨⟨hlt, ?_⟩, ?_, ?_⟩
  . intro next hnext
    obtain ⟨task, htask, hcore⟩ := hkeeps.task?_cases hnext
    obtain ⟨hkind, hfits⟩ := h.task task htask
    exact ⟨(congrArg Prod.fst hcore).trans hkind, Task.fits_of_core_eq hcore hfits⟩
  . intro next hnext
    obtain ⟨task, htask, hcore⟩ := hkeeps.task?_cases hnext
    have hstage : next.stage = task.stage := congrArg Prod.snd hcore
    rw [hcontext, hstage]
    exact (h.lends task htask).keeps hkeeps
  . intro hnone
    have hleases : after.leasesOf id = before.leasesOf id := by
      funext d flavor
      exact hkeeps.count_holders_eq d flavor
    apply Free.of_eq _ hleases
    apply h.free
    rcases hkeeps.task?_eq with heq | heq
    . exact heq ▸ hnone
    . exact Option.map_eq_none_iff.1 (heq ▸ hnone)

theorem Lends.park {middle : System} {task : Task} {stage : Stage} (h : middle.Lends id c stage)
    : (middle.park task stage).Lends id c stage := by
  have hleases : (middle.park task stage).leasesOf id = middle.leasesOf id :=
    leasesOf_of_links_eq rfl id
  cases stage with
  | calling => exact Sole.of_eq h hleases
  | opening => exact ⟨h.1.of_eq hleases, h.2⟩
  | _ => exact Free.of_eq h hleases

theorem contextOf_of_store_eq (h : after.store = before.store) (job : Job)
    : after.contextOf job = before.contextOf job := by
  unfold contextOf
  rw [h]

theorem Settles.thrifty {task : Task} {progress : Progress}
    (h : before.Settles task (before.contextOf task.job) progress)
    (hthrifty : before.Thrifty task.id task.job) (htask : before.task? task.id = some task)
    (henlisted : (progress.told task).Enlisted task.id task.job)
    : (progress.told task).Thrifty task.id task.job := by
  cases h with
  | idle => exact hthrifty
  | @parked middle stage hmiddle hlends =>
    have hparked := task?_park (by rw [hmiddle.untold.task?_eq]; exact htask) stage
    refine { henlisted with lends := ?_, free := ?_ }
    . intro next hnext
      obtain rfl := Option.some.inj (hparked.symm.trans hnext)
      have hcontext : (middle.park task stage).contextOf task.job = before.contextOf task.job :=
        contextOf_of_store_eq hmiddle.store_eq task.job
      exact hcontext.symm ▸ hlends.park
    . exact fun hnone => nomatch hnone.symm.trans hparked
  | @ended middle result store _ hfree =>
    apply Thrifty.of_none henlisted.id_lt (task?_finish _ task _)
    exact hfree.of_eq (leasesOf_of_links_eq (links_resolve _ _ _ _ _) task.id)

theorem Thrifty.step (h : system.Thrifty id job) (hjob : job.isOperation) (hsound : system.Sound)
    {task : Task} (htask : system.task? id = some task) (tickFirst : Bool)
    : (system.step tickFirst id).Thrifty id job := by
  have hadmits : system.Admits (.step tickFirst id) := trivial
  have henlisted := h.toEnlisted.act hadmits
  obtain ⟨rfl, hfits⟩ := h.task task htask
  have hstep := h.toEnlisted.step_eq hjob htask tickFirst
  have hlends := h.lends task htask
  obtain rfl := task?_id htask
  unfold System.act at henlisted
  dsimp only at henlisted
  rw [hstep] at henlisted ⊢
  exact (settles_work hsound hjob hlends hfits).thrifty h htask henlisted

theorem Thrifty.dropTask (h : system.Thrifty id job) (hjob : job.isOperation)
    (hhouses : system.Houses job) (other : TaskId) : (system.dropTask other).Thrifty id job := by
  have hdrop := system.changes_drop other
  have hlt : id < (system.dropTask other).nextTask :=
    Nat.lt_of_lt_of_le h.id_lt hdrop.grows.nextTask_le
  by_cases hother : id = other
  . subst hother
    exact .of_none hlt (task?_dropTask system id) (h.dropTask_self hjob)
  . exact h.keeps (hdrop.keeps (fun htasks => hother htasks.1) hother h.id_lt) hlt
      (hhouses.contextOf_eq hdrop.grows)

theorem Thrifty.shutdown (h : system.Thrifty id job) (hjob : job.isOperation)
    (hhouses : system.Houses job) : system.shutdown.Thrifty id job := by
  have hall : system.shutdown.Thrifty id job ∧ system.shutdown.Houses job := by
    apply shutdown_induction (motive := fun middle => middle.Thrifty id job ∧ middle.Houses job)
    . exact ⟨h.keeps (Same.keeps ⟨rfl, rfl, rfl, rfl⟩) h.id_lt rfl, hhouses⟩
    . exact fun other middle ⟨hmiddle, hhoused⟩ =>
        ⟨hmiddle.dropTask hjob hhoused other, hhoused.grows (middle.changes_drop other).grows⟩
    . exact fun middle ⟨hmiddle, hhoused⟩ =>
        ⟨hmiddle.keeps (Same.keeps ⟨rfl, rfl, rfl, rfl⟩) hmiddle.id_lt rfl, hhoused⟩
  exact hall.1

theorem Thrifty.act (h : system.Thrifty id job) (hjob : job.isOperation) (hsound : system.Sound)
    (hhouses : system.Houses job) {action : Action} (hadmits : system.Admits action)
    : (system.act action).Thrifty id job := by
  have hgrows := (changes_act hadmits).grows
  have hlt : id < (system.act action).nextTask := Nat.lt_of_lt_of_le h.id_lt hgrows.nextTask_le
  cases hfound : system.task? id with
  | none =>
    apply Thrifty.of_none hlt (hgrows.ended id h.id_lt hfound)
    exact (h.free hfound).act hsound hfound hadmits fun _ _ => Nat.ne_of_lt h.id_lt
  | some task =>
    rcases action.step_or_ne id with ⟨tickFirst, rfl⟩ | hother
    . exact h.step hjob hsound hfound tickFirst
    . have hoperation : task.job.isOperation := (h.task task hfound).1.symm ▸ hjob
      rcases keeps_act hadmits h.id_lt hfound hoperation hother with hkeeps | rfl | rfl
      . exact h.keeps hkeeps hlt (hhouses.contextOf_eq hgrows)
      . exact h.dropTask hjob hhouses id
      . exact h.shutdown hjob hhouses

end

/-!
## Sizes
-/

theorem leases_le_capacity {slots : Slots} (h : slots.Balanced)
    : slots.leases.length ≤ slots.capacity := by
  have hleased := h.leased_eq
  have hcapacity := h.capacity_le
  omega

structure Sized (system : System) : Prop where
  balanced : ∀ c flavor, (system.slots c flavor).Balanced
  capacity_eq : ∀ c, c < system.store.contexts.length → ∀ flavor,
    (system.slots c flavor).capacity = (system.store.context c).config.maxConnections.toNat

section
variable {scope : Scope} {before after : System}

theorem Change.slots_cases (h : before.Change scope after)
    : (after.links.length = before.links.length ∧ ∀ c flavor,
        ∃ move, after.slots c flavor = (before.slots c flavor).perform move) ∨
      ∃ context : Context, context.config.fault? = none ∧
        after.links = before.links ++ [{ pool := .ofConfig context.config }] ∧
        after.store.contexts = before.store.contexts ++ [context] := by
  have hstill (c : Nat) (flavor : Flavor) (heq : after.slots c flavor = before.slots c flavor)
      : ∃ move, after.slots c flavor = (before.slots c flavor).perform move :=
    ⟨.call 0, heq⟩
  cases h with
  | serve d server =>
    exact .inl ⟨length_setServer before d server,
      fun c flavor => hstill c flavor (before.setServer_slots d server c flavor)⟩
  | slots d other move =>
    refine .inl ⟨length_setSlots before d other _, ?_⟩
    intro c flavor
    by_cases hsame : d = c ∧ other = flavor ∧ d < before.links.length
    . rw [slots_setSlots, if_pos hsame]
      obtain ⟨rfl, rfl, _⟩ := hsame
      exact ⟨move, rfl⟩
    . apply hstill
      rw [slots_setSlots, if_neg hsame]
  | found context hextends _ hvalid =>
    refine .inr ⟨context, hvalid, rfl, ?_⟩
    rw [← hextends.contexts]
    rfl
  | number hsaid =>
    exact .inl ⟨congrArg List.length hsaid.same.links_eq,
      fun c flavor => hstill c flavor (hsaid.same.slots_eq c flavor)⟩
  | tell other _ _ hsaid =>
    exact .inl ⟨congrArg List.length hsaid.same.links_eq,
      fun c flavor => hstill c flavor (hsaid.same.slots_eq c flavor)⟩
  | _ => exact .inl ⟨rfl, fun c flavor => hstill c flavor rfl⟩

theorem toNat_maxConnections_of_fault? {config : Config} (h : config.fault? = none)
    : max 1 config.maxConnections.toNat = config.maxConnections.toNat := by
  apply Nat.max_eq_right
  apply Nat.pos_of_ne_zero
  intro hzero
  have hmax : config.maxConnections = 0 := UInt64.toNat_inj.1 hzero
  unfold Config.fault? at h
  rw [if_pos hmax] at h
  cases h

theorem balanced_empty (capacity : Nat) : ({ capacity } : Slots).Balanced :=
  ⟨rfl, rfl, rfl, Nat.zero_le _⟩

theorem Sized.change (h : before.Sized) (hsound : before.Sound)
    (hchange : before.Change scope after) : after.Sized := by
  have hsoundThen := hsound.change hchange
  have hgrows := hchange.grows
  rcases hchange.slots_cases with ⟨hlength, hmoves⟩ | ⟨context, hvalid, hlinks, hcontexts⟩
  . constructor
    . intro c flavor
      obtain ⟨move, hmove⟩ := hmoves c flavor
      rw [hmove]
      exact (h.balanced c flavor).perform move
    . intro c hc flavor
      obtain ⟨move, hmove⟩ := hmoves c flavor
      have hcBefore : c < before.store.contexts.length := by
        rw [← hsound.length_links, ← hlength, hsoundThen.length_links]
        exact hc
      rw [hmove, Slots.capacity_perform, hgrows.context_eq c hcBefore]
      exact h.capacity_eq c hcBefore flavor
  . have hslots (c : Nat) (flavor : Flavor) : after.slots c flavor =
        if c = before.links.length then (Pool.ofConfig context.config).slots flavor
        else before.slots c flavor := by
      unfold slots link
      rw [hlinks, getD_concat]
      split <;> rfl
    constructor
    . intro c flavor
      rw [hslots]
      split
      . rw [Pool.slots_ofConfig]
        apply balanced_empty
      . exact h.balanced c flavor
    . intro c hc flavor
      rw [hcontexts, List.length_append, List.length_singleton] at hc
      rw [hslots]
      unfold Store.context
      rw [hcontexts, getD_concat, hsound.length_links]
      split
      . rw [Pool.slots_ofConfig]
        exact toNat_maxConnections_of_fault? hvalid
      . next hne =>
        exact h.capacity_eq c (Nat.lt_of_le_of_ne (Nat.le_of_lt_succ hc) hne) flavor

theorem Sized.changes (h : before.Sized) (hsound : before.Sound)
    (hchanges : before.Changes scope after) : after.Sized := by
  induction hchanges with
  | refl => exact h
  | step hearlier hchange ih => exact ih.change (hsound.changes hearlier) hchange

end

/-!
## Everybody together
-/

structure Frugal (system : System) : Prop where
  sound : system.Sound
  typed : system.store.Typed
  housed : system.Housed
  sized : system.Sized
  thrifty : ∀ id task, system.task? id = some task → task.job.isOperation →
    system.Thrifty id task.job
  unissued : ∀ id, system.nextTask ≤ id → system.Free id

section
variable {system start : System} {action : Action} {actions : List Action} {id : TaskId}

theorem untold_openBlocking (system : System) (c : Nat) (ticket : Ticket)
    : system.Untold (system.openBlocking c ticket).2 := by
  unfold openBlocking
  dsimp only
  split
  . exact (untold_setServer _ _ _).trans (untold_connect _ _ _ _)
  . dsimp only
    exact (untold_setServer _ _ _).trans (untold_stepSlots _ _ _ _)

theorem untold_acquireBlocking (system : System) (c : Nat)
    : { system with nextTask := system.nextTask + 1 }.Untold (system.acquireBlocking c).2 := by
  rw [acquireBlocking_eq]
  dsimp only
  split
  . apply untold_setSlots
  . exact (untold_setSlots _ _ _ _).trans (untold_openBlocking _ _ _)
  . exact .refl _

theorem task?_acquireBlocking (system : System) (c : Nat) (id : TaskId)
    : (system.acquireBlocking c).2.task? id = system.task? id :=
  (untold_acquireBlocking system c).task?_eq id

theorem stage_act_of_new (hsound : system.Sound) (hadmits : system.Admits action)
    (hid : system.nextTask ≤ id) {next : Task} (hnext : (system.act action).task? id = some next)
    : next.stage = .fresh := by
  have hnew {task : Task} (htask : system.task? id = some task) : False :=
    Nat.not_lt_of_le hid (hsound.lt_of_task? htask)
  rcases (changes_act hadmits).origin hnext with
    ⟨old, hold, _⟩ | ⟨htasks, hjobs⟩ | ⟨_, hfresh⟩
  . exact (hnew hold).elim
  . cases action with
    | step =>
      obtain ⟨rfl, task, htask⟩ := htasks
      exact (hnew htask).elim
    | stop =>
      obtain ⟨rfl, task, htask⟩ := htasks
      exact (hnew htask).elim
    | drop => cases hjobs
    | shutdown => cases hjobs
    | line => cases hjobs
    | _ => cases htasks
  . exact hfresh

theorem Frugal.thrifty_act (h : system.Frugal) (hadmits : system.Admits action) {next : Task}
    (hnext : (system.act action).task? id = some next) (hjob : next.job.isOperation)
    : (system.act action).Thrifty id next.job := by
  have hsoundThen := h.sound.changes (changes_act hadmits)
  by_cases hid : id < system.nextTask
  . obtain ⟨task, htask, hsame⟩ := job_act hadmits hid hnext
    rw [hsame] at hjob ⊢
    exact (h.thrifty id task htask hjob).act hjob h.sound (h.housed id task htask) hadmits
  . have hle := Nat.le_of_not_lt hid
    have hnone : system.task? id = none := by
      cases hfound : system.task? id with
      | none => rfl
      | some task => exact absurd (h.sound.lt_of_task? hfound) hid
    have hfresh := stage_act_of_new h.sound hadmits hle hnext
    have hfree := (h.unissued id hle).act h.sound hnone hadmits fun c heq hsame => by
      rw [heq] at hnext
      cases (hnext.symm.trans (task?_acquireBlocking system c id)).trans hnone
    refine ⟨⟨hsoundThen.lt_of_task? hnext, ?_⟩, ?_, fun hgone => hfree⟩
    . intro task htask
      obtain rfl := Option.some.inj (hnext.symm.trans htask)
      exact ⟨rfl, Task.fits_of_fresh hfresh⟩
    . intro task htask
      obtain rfl := Option.some.inj (hnext.symm.trans htask)
      rw [hfresh]
      exact hfree

theorem Frugal.act (h : system.Frugal) (hadmits : system.Admits action)
    (haddressed : system.Addressed action) : (system.act action).Frugal := by
  have hchanges := changes_act hadmits
  refine ⟨h.sound.changes hchanges, hchanges.typed h.sound h.typed,
    h.housed.act h.sound h.typed hadmits fun job hborn => haddressed.births hborn,
    h.sized.changes h.sound hchanges, fun id next => h.thrifty_act hadmits, ?_⟩
  intro id hid
  have hnone : system.task? id = none := by
    cases hfound : system.task? id with
    | none => rfl
    | some task =>
      exact absurd (h.sound.lt_of_task? hfound)
        (Nat.not_lt_of_le (Nat.le_trans hchanges.grows.nextTask_le hid))
  apply (h.unissued id (Nat.le_trans hchanges.grows.nextTask_le hid)).act h.sound hnone hadmits
  rintro c rfl rfl
  have hnext := (untold_acquireBlocking system c).nextTask_eq
  exact absurd (hnext ▸ hid) (Nat.not_succ_le_self _)

theorem Frugal.after (h : start.Frugal) (hobeys : start.Obeys Addressed actions)
    : (start.after actions).Frugal := by
  induction actions with
  | nil => exact h
  | cons action actions ih =>
    obtain ⟨hadmits, haddressed⟩ := hobeys.head
    exact (ih hobeys.tail).act hadmits haddressed

theorem Frugal.free_of_gone (h : start.Frugal) (hobeys : start.Obeys Addressed actions)
    {earlier : List Action} (hsuffix : earlier <:+ actions) {task : Task}
    (htask : (start.after earlier).task? id = some task) (hjob : task.job.isOperation)
    (hgone : (start.after actions).task? id = none) : (start.after actions).Free id := by
  have hall : (start.after actions).Thrifty id task.job ∧
      (start.after actions).Houses task.job := by
    apply suffix_induction (motive := fun actions =>
      (start.after actions).Thrifty id task.job ∧ (start.after actions).Houses task.job) hsuffix
    . have hfrugal := h.after (hobeys.of_suffix hsuffix)
      exact ⟨hfrugal.thrifty id task htask hjob, hfrugal.housed id task htask⟩
    . intro action middle _ hmiddle ⟨hthrifty, hhouses⟩
      have hhead := (hobeys.of_suffix hmiddle).head
      have hsound := (h.after (hobeys.of_suffix hmiddle).tail).sound
      exact ⟨hthrifty.act hjob hsound hhouses hhead.1, hhouses.grows (changes_act hhead.1).grows⟩
  exact hall.1.free hgone

end

/-!
## Operations that block and are interrupted
-/

inductive Phase where
  | leased
  | calling (reply : Except RpcError Reply)
  | returned (outcome : Except RpcError Reply)
  | ended

def callOf (system : System) (o : ObjectId) (operation : Operation) (ticket : Ticket) (c : Nat) :
    Action :=
  .call c .blocking ticket (system.store.object o).reference (system.requestOf o operation)

def replyTo (system : System) (o : ObjectId) (operation : Operation) (ticket : Ticket) (c : Nat) :
    Except RpcError Reply :=
  (system.ask c .blocking ticket (system.store.object o).reference
    (system.requestOf o operation)).1

/--
How far an operation has got in a run that blocks, with others going on in between. The last action comes
first.
-/
inductive Carries (start : System) (o : ObjectId) (operation : Operation) (ticket : Ticket) (c : Nat) :
    List Action → Phase → Prop where
  | acquired {earlier : List Action} {request : Request} {store : Store}
    (hstart : (start.after earlier).store.start o operation = (.asks request, store))
    (hcontext : ((start.after earlier).store.object o).context = c)
    (h : ((start.after earlier).acquireBlocking c).1 = .ok ticket) :
    start.Carries o operation ticket c (.acquireBlocking c :: earlier) .leased
  | called {earlier : List Action} (h : start.Carries o operation ticket c earlier .leased) :
    start.Carries o operation ticket c
      ((start.after earlier).callOf o operation ticket c :: earlier)
      (.calling ((start.after earlier).replyTo o operation ticket c))
  | judged {earlier : List Action} {reply : Except RpcError Reply}
    (h : start.Carries o operation ticket c earlier (.calling reply)) :
    start.Carries o operation ticket c (.markBroken c .blocking ticket :: earlier) (.calling reply)
  | returned {earlier : List Action} {reply : Except RpcError Reply}
    (h : start.Carries o operation ticket c earlier (.calling reply)) :
    start.Carries o operation ticket c (.giveBack c .blocking ticket :: earlier)
      (.returned (reply.bind (operation.expect ((start.after earlier).requestOf o operation))))
  | concluded {earlier : List Action} {outcome : Except RpcError Reply}
    (h : start.Carries o operation ticket c earlier (.returned outcome)) :
    start.Carries o operation ticket c (.concludeBlocking o operation outcome :: earlier) .ended
  | interrupted {action : Action} {earlier : List Action} {phase : Phase}
    (h : start.Carries o operation ticket c earlier phase)
    (hothers : ¬(start.after earlier).Handles ticket action) :
    start.Carries o operation ticket c (action :: earlier) phase

def Affords (system : System) (ticket : Ticket) (c : Nat) : Phase → Prop
  | .leased => system.Sole ticket c .blocking
  | .calling _ => system.Sole ticket c .blocking
  | .returned _ => system.Free ticket
  | .ended => system.Free ticket

section
variable {before after system start : System} {actions : List Action} {ticket : Ticket} {c : Nat}
  {phase : Phase}

theorem Affords.of_eq (h : before.Affords ticket c phase)
    (heq : after.leasesOf ticket = before.leasesOf ticket) : after.Affords ticket c phase := by
  cases phase with
  | leased => exact Sole.of_eq h heq
  | calling => exact Sole.of_eq h heq
  | returned => exact Free.of_eq h heq
  | ended => exact Free.of_eq h heq

structure Blocks (system : System) (ticket : Ticket) (c : Nat) (phase : Phase) : Prop where
  lt : ticket < system.nextTask
  task?_eq : system.task? ticket = none
  affords : system.Affords ticket c phase

theorem Blocks.act {next : Phase} {action : Action} (h : system.Blocks ticket c phase)
    (hadmits : system.Admits action) (haffords : (system.act action).Affords ticket c next)
    : (system.act action).Blocks ticket c next := by
  have hgrows := (changes_act hadmits).grows
  exact ⟨Nat.lt_of_lt_of_le h.lt hgrows.nextTask_le, hgrows.ended ticket h.lt h.task?_eq, haffords⟩

theorem Frugal.blocks_acquireBlocking (h : system.Frugal) (hc : c < system.links.length)
    (hticket : (system.acquireBlocking c).1 = .ok ticket)
    : (system.acquireBlocking c).2.Blocks ticket c .leased := by
  have hacquires := acquires_acquireBlocking (h.unissued _ (Nat.le_refl _)) hc
  have huntold := untold_acquireBlocking system c
  generalize system.acquireBlocking c = acquired at hticket hacquires huntold ⊢
  cases hacquires with
  | refused => cases hticket
  | leased hengages hsole =>
    obtain rfl := Except.ok.inj hticket
    refine ⟨?_, (huntold.task?_eq _).trans h.sound.task?_nextTask, hsole⟩
    rw [huntold.nextTask_eq]
    apply Nat.lt_succ_self

theorem Carries.blocks {o : ObjectId} {operation : Operation}
    (h : start.Carries o operation ticket c actions phase) (hfrugal : start.Frugal)
    (hobeys : start.Obeys Addressed actions) : (start.after actions).Blocks ticket c phase := by
  induction h with
  | @acquired earlier _ _ _ hcontext hticket =>
    have hnow := hfrugal.after hobeys.tail
    apply hnow.blocks_acquireBlocking _ hticket
    rw [hnow.sound.length_links, ← hcontext]
    exact hnow.sound.store.object_context_lt o
  | called _ ih =>
    have hnow := ih hobeys.tail
    apply hnow.act hobeys.head.1
    exact hnow.affords.of_eq (leasesOf_congr (slots_ask _ _ _ _ _ _) _)
  | judged _ ih =>
    have hnow := ih hobeys.tail
    exact hnow.act hobeys.head.1 (Sole.markBroken hnow.affords _ _ _)
  | returned _ ih =>
    have hnow := ih hobeys.tail
    exact hnow.act hobeys.head.1 (Sole.giveBack hnow.affords)
  | concluded _ ih =>
    have hnow := ih hobeys.tail
    exact hnow.act hobeys.head.1 (hnow.affords.of_eq (leasesOf_of_links_eq rfl _))
  | interrupted _ hothers ih =>
    have hnow := ih hobeys.tail
    have hsound := (hfrugal.after hobeys.tail).sound
    exact hnow.act hobeys.head.1
      (hnow.affords.of_eq (leasesOf_act hsound hnow.task?_eq hobeys.head.1 hothers))

end

/-!
## Operations that block and are not interrupted
-/

section
variable {system start : System} {actions earlier : List Action} {ticket : Ticket} {c : Nat}
  {o : ObjectId} {operation : Operation} {reply : Except RpcError Reply}

theorem judge_cases (system : System) (c : Nat) (flavor : Flavor) (lease : Ticket)
    (outcome : Except RpcError Reply)
    : system.judge c flavor lease outcome = system ∨
      system.judge c flavor lease outcome = system.act (.markBroken c flavor lease) := by
  unfold judge
  split
  . exact .inl rfl
  . split
    . exact .inr rfl
    . exact .inl rfl

theorem operateBlocking_of_leased {request : Request} {store : Store}
    (hstart : system.store.start o operation = (.asks request, store))
    (hticket : (system.acquireBlocking (system.store.object o).context).1 = .ok ticket)
    : system.operateBlocking o operation =
        let (reply, _, asked) :=
          (system.acquireBlocking (system.store.object o).context).2.ask
            (system.store.object o).context .blocking ticket (system.store.object o).reference request
        asked.conclude .blocking ticket o operation reply := by
  obtain ⟨rfl, rfl⟩ := Store.start_asks hstart
  unfold operateBlocking
  rw [hstart]
  dsimp only
  rw [show system.acquireBlocking (system.store.object o).context =
    (.ok ticket, (system.acquireBlocking (system.store.object o).context).2) from
    Prod.ext hticket rfl]

theorem Carries.conclude (h : start.Carries o operation ticket c actions (.calling reply))
    (hfrugal : start.Frugal) (hobeys : start.Obeys Addressed actions)
    {outcome : Except RpcError Reply}
    (houtcome : reply.bind (operation.expect ((start.after actions).requestOf o operation)) = outcome)
    : start.Obeys Addressed
        (.concludeBlocking o operation outcome :: .giveBack c .blocking ticket :: actions) ∧
      start.Carries o operation ticket c
        (.concludeBlocking o operation outcome :: .giveBack c .blocking ticket :: actions) .ended := by
  have hgiven : start.Obeys Addressed (.giveBack c .blocking ticket :: actions) :=
    hobeys.cons (h.blocks hfrugal hobeys).task?_eq trivial
  subst houtcome
  exact ⟨hgiven.cons trivial trivial, .concluded (.returned h)⟩

theorem Carries.carryOn (h : start.Carries o operation ticket c actions .leased)
    (hfrugal : start.Frugal) (hobeys : start.Obeys Addressed actions)
    (hcontext : ((start.after actions).store.object o).context = c)
    : ∃ own, start.Obeys Addressed (own ++ actions) ∧
        start.Carries o operation ticket c (own ++ actions) .ended ∧
        start.after (own ++ actions) =
          (((start.after actions).act ((start.after actions).callOf o operation ticket c)).conclude
            .blocking ticket o operation
            ((start.after actions).replyTo o operation ticket c)).2 := by
  have hobeysCalled : start.Obeys Addressed
      ((start.after actions).callOf o operation ticket c :: actions) :=
    hobeys.cons trivial trivial
  have hcalled := h.called
  have hstill : (((start.after actions).act
      ((start.after actions).callOf o operation ticket c)).store.object o).context = c :=
    hcontext
  unfold System.conclude
  dsimp only
  rw [hstill]
  rcases judge_cases _ _ _ _ _ with hjudge | hjudge
  . obtain ⟨hobeysEnded, hended⟩ := hcalled.conclude hfrugal hobeysCalled rfl
    refine ⟨[_, _, _], hobeysEnded, hended, ?_⟩
    rw [hjudge, ← hstill]
    rfl
  . have hobeysJudged : start.Obeys Addressed (.markBroken c .blocking ticket ::
        (start.after actions).callOf o operation ticket c :: actions) :=
      hobeysCalled.cons (hcalled.blocks hfrugal hobeysCalled).task?_eq trivial
    obtain ⟨hobeysEnded, hended⟩ := hcalled.judged.conclude hfrugal hobeysJudged rfl
    refine ⟨[_, _, _, _], hobeysEnded, hended, ?_⟩
    rw [hjudge, ← hstill]
    rfl

theorem Frugal.carries_operateBlocking (h : start.Frugal) (hobeys : start.Obeys Addressed actions)
    {request : Request} {store : Store}
    (hstart : (start.after actions).store.start o operation = (.asks request, store))
    (hcontext : ((start.after actions).store.object o).context = c)
    (hticket : ((start.after actions).acquireBlocking c).1 = .ok ticket)
    : ∃ own, start.Obeys Addressed (own ++ actions) ∧
        start.Carries o operation ticket c (own ++ actions) .ended ∧
        start.after (own ++ actions) = start.after (.operateBlocking o operation :: actions) := by
  have hobeysLeased : start.Obeys Addressed (.acquireBlocking c :: actions) :=
    hobeys.cons trivial trivial
  have hstore : (start.after (.acquireBlocking c :: actions)).store = (start.after actions).store :=
    store_acquireBlocking _ c
  obtain ⟨own, hobeysEnded, hended, hafter⟩ :=
    (Carries.acquired hstart hcontext hticket).carryOn h hobeysLeased (hstore ▸ hcontext)
  refine ⟨own ++ [.acquireBlocking c], ?_, ?_, ?_⟩
  . rw [List.append_assoc]
    exact hobeysEnded
  . rw [List.append_assoc]
    exact hended
  . rw [List.append_assoc]
    apply hafter.trans
    obtain ⟨rfl, rfl⟩ := Store.start_asks hstart
    subst hcontext
    unfold callOf replyTo requestOf
    rw [hstore]
    exact (congrArg Prod.snd (operateBlocking_of_leased hstart hticket)).symm

end

/-!
## Calls that are going on
-/

inductive InFlight (start : System) (actions : List Action) (c : Nat) : Flavor → Ticket → Prop where
  | blocking {o : ObjectId} {operation : Operation} {ticket : Ticket} {reply : Except RpcError Reply}
    (h : start.Carries o operation ticket c actions (.calling reply)) :
    start.InFlight actions c .blocking ticket
  | nonBlocking {id : TaskId} {task : Task} {reply : Except RpcError Reply} {due : Option Nat}
    (htask : (start.after actions).task? id = some task) (hjob : task.job.isOperation)
    (hcontext : (start.after actions).contextOf task.job = c)
    (hstage : task.stage = .calling reply due) :
    start.InFlight actions c .nonBlocking id

/--
What operations promise about leases, whatever happens in a run and in whichever order. An operation has
one lease while its call is going on, and it has given it back before anything can be noticed of its end.
Thus there are no more calls than leases, and no more leases than the configuration says.
-/
structure GivesBack (start : System) (actions : List Action) : Prop where
  lends : ∀ id task, (start.after actions).task? id = some task → task.job.isOperation →
    (start.after actions).Lends id ((start.after actions).contextOf task.job) task.stage
  settles : ∀ id task, (start.after actions).task? id = some task → task.job.isOperation →
    (start.after actions).Settles task ((start.after actions).contextOf task.job)
        ((start.after actions).work task) ∧
      ∀ tickFirst, (start.after actions).step tickFirst id =
        ((start.after actions).work task).told task
  givesUp : ∀ id task, (start.after actions).task? id = some task → task.job.isOperation →
    ((start.after actions).giveUp task).Free id
  gone : ∀ earlier id task, earlier <:+ actions → (start.after earlier).task? id = some task →
    task.job.isOperation → (start.after actions).task? id = none → (start.after actions).Free id
  settlesAtOnce : ∀ o operation, (start.after actions).SettlesAtOnce o operation
    ((start.after actions).operateBlocking o operation)
  affords : ∀ o operation ticket c phase, start.Carries o operation ticket c actions phase →
    (start.after actions).Affords ticket c phase
  divides : ∀ o operation request store ticket,
    (start.after actions).store.start o operation = (.asks request, store) →
    ((start.after actions).acquireBlocking ((start.after actions).store.object o).context).1 =
      .ok ticket →
    ∃ own, start.Obeys Addressed (own ++ actions) ∧
      start.Carries o operation ticket ((start.after actions).store.object o).context
        (own ++ actions) .ended ∧
      start.after (own ++ actions) = start.after (.operateBlocking o operation :: actions)
  bounded : ∀ c flavor (tickets : List Ticket), tickets.Nodup →
    (∀ ticket ∈ tickets, start.InFlight actions c flavor ticket) →
    tickets.length ≤ ((start.after actions).slots c flavor).leases.length ∧
      ((start.after actions).slots c flavor).leases.length ≤
        ((start.after actions).store.context c).config.maxConnections.toNat

section
variable {system start : System} {actions : List Action} {c : Nat} {flavor : Flavor}

theorem InFlight.mem_holders {ticket : Ticket} (h : start.InFlight actions c flavor ticket)
    (hfrugal : start.Frugal) (hobeys : start.Obeys Addressed actions)
    : ticket ∈ ((start.after actions).slots c flavor).holders := by
  cases h with
  | blocking hcarries => exact Sole.mem_holders (hcarries.blocks hfrugal hobeys).affords
  | @nonBlocking _ task _ _ htask hjob hcontext hstage =>
    have hlends := ((hfrugal.after hobeys).thrifty ticket task htask hjob).lends task htask
    rw [hcontext, hstage] at hlends
    exact Sole.mem_holders hlends

theorem Frugal.leases_le (h : system.Frugal) (c : Nat) (flavor : Flavor)
    : (system.slots c flavor).leases.length ≤
        (system.store.context c).config.maxConnections.toNat := by
  by_cases hc : c < system.store.contexts.length
  . rw [← h.sized.capacity_eq c hc flavor]
    exact leases_le_capacity (h.sized.balanced c flavor)
  . rw [slots_of_le (h.sound.length_links ▸ Nat.le_of_not_lt hc), Pool.slots_ofConfig]
    exact Nat.zero_le _

theorem givesBack_of_frugal (start : System) (h : start.Frugal) (actions : List Action)
    (hobeys : start.Obeys Addressed actions) : start.GivesBack actions := by
  have hnow := h.after hobeys
  have hlends {id : TaskId} {task : Task} (htask : (start.after actions).task? id = some task)
      (hjob : task.job.isOperation) := (hnow.thrifty id task htask hjob).lends task htask
  have hfits {id : TaskId} {task : Task} (htask : (start.after actions).task? id = some task)
      (hjob : task.job.isOperation) := ((hnow.thrifty id task htask hjob).task task htask).2
  refine ⟨fun _ _ => hlends, ?_, ?_, fun _ _ _ hsuffix htask hjob =>
    h.free_of_gone hobeys hsuffix htask hjob,
    settlesAtOnce_operateBlocking hnow.sound (hnow.unissued _ (Nat.le_refl _)),
    fun _ _ _ _ _ hcarries => (hcarries.blocks h hobeys).affords,
    fun _ _ _ _ _ hstart hticket => h.carries_operateBlocking hobeys hstart rfl hticket, ?_⟩
  . intro id task htask hjob
    have hthrifty := hnow.thrifty id task htask hjob
    obtain rfl := task?_id htask
    exact ⟨settles_work hnow.sound hjob (hlends htask hjob) (hfits htask hjob),
      hthrifty.toEnlisted.step_eq hjob htask⟩
  . intro id task htask hjob
    obtain rfl := task?_id htask
    exact (hlends htask hjob).giveUp (hfits htask hjob) hjob
  . intro c flavor tickets hnodup htickets
    have hholders : ((start.after actions).slots c flavor).holders.length =
        ((start.after actions).slots c flavor).leases.length :=
      List.length_map _
    refine ⟨?_, hnow.leases_le c flavor⟩
    rw [← hholders]
    apply hnodup.length_le_of_subset
    exact fun ticket hticket => (htickets ticket hticket).mem_holders h hobeys

end

theorem slots_furnished (c : Nat) (flavor : Flavor)
    : furnished.slots c flavor = { capacity := Pool.capacityOf {} } := by
  have hlinks : furnished.links = [{ pool := .ofConfig {} }] := rfl
  rw [← Pool.slots_ofConfig]
  unfold slots link
  rw [hlinks]
  cases c <;> rfl

theorem frugal_furnished : furnished.Frugal := by
  have hnone (id : TaskId) (task : Task) (htask : furnished.task? id = some task) : False :=
    nomatch htask
  refine ⟨sound_furnished, typed_furnished, fun id task htask => (hnone id task htask).elim, ?_,
    fun id task htask => (hnone id task htask).elim, ?_⟩
  . constructor
    . intro c flavor
      rw [slots_furnished]
      apply balanced_empty
    . intro c hc flavor
      obtain rfl : c = 0 := Nat.lt_one_iff.1 hc
      rw [slots_furnished]
      rfl
  . intro id _ c flavor
    unfold leasesOf
    rw [slots_furnished]
    rfl

-- A keepalive waits for the server, and an operation that blocks makes a call at the same time.
def busy : List Action :=
  [.call 0 .blocking 1 (.pipeline "p") .getParent, .acquireBlocking 0, .step false 0,
    .spawn (.operate 0 .keepAlive) { handler := .callback } "slow",
    .serve 0 [{ request := none, target := none, reply := .ok .unit, pace := .never, times := some 1 }] []]

theorem givesBack_furnished
    : furnished.Frugal ∧ furnished.Obeys Addressed busy ∧ furnished.GivesBack busy ∧
      furnished.InFlight busy 0 .nonBlocking 0 ∧ furnished.InFlight busy 0 .blocking 1 ∧
      ((furnished.after busy).slots 0 .nonBlocking).leases.length = 1 ∧
      ((furnished.after busy).slots 0 .blocking).leases.length = 1 := by
  have hobeys : furnished.Obeys Addressed busy := by
    refine .cons (.cons (.cons (.cons (.cons (.nil _ _) ?_ ?_) ?_ ?_) ?_ ?_) ?_ ?_) ?_ ?_
    all_goals first | trivial | exact Nat.one_pos
  have hleased : furnished.Carries 0 .getParent 1 0 (busy.drop 1) .leased := .acquired rfl rfl rfl
  exact ⟨frugal_furnished, hobeys, givesBack_of_frugal furnished frugal_furnished busy hobeys,
    .nonBlocking rfl rfl rfl rfl, .blocking hleased.called, rfl, rfl⟩

end System

end MediaProxy
