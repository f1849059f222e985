import MediaProxy.Proofs.System.Seat

/-!
This module contains the leases of operations that do not block: a task has a lease exactly while its
call is going on, and has given it back before anything else comes of the call.
-/

namespace MediaProxy

namespace System

/-!
## Leases of tickets
-/

def leasesOf (system : System) (ticket : Ticket) (c : Nat) (flavor : Flavor) : Nat :=
  (system.slots c flavor).holders.count ticket

def Free (system : System) (ticket : Ticket) : Prop :=
  ∀ c flavor, system.leasesOf ticket c flavor = 0

def Sole (system : System) (ticket : Ticket) (c : Nat) (flavor : Flavor) : Prop :=
  ∀ d other, system.leasesOf ticket d other = if c = d ∧ flavor = other then 1 else 0

def Lends (system : System) (id : TaskId) (c : Nat) : Stage → Prop
  | .calling .. => system.Sole id c .nonBlocking
  | .opening .. => system.Free id ∧ id ∈ (system.slots c .nonBlocking).opening
  | _ => system.Free id

section
variable {system : System} {ticket : Ticket} {c : Nat} {flavor : Flavor}

theorem leasesOf_setSlots (system : System) (ticket : Ticket) (c : Nat) (flavor : Flavor)
    (slots : Slots) (d : Nat) (other : Flavor)
    : (system.setSlots c flavor slots).leasesOf ticket d other =
        if c = d ∧ flavor = other ∧ c < system.links.length then slots.holders.count ticket
        else system.leasesOf ticket d other := by
  unfold leasesOf
  rw [slots_setSlots]
  split <;> rfl

theorem leasesOf_congr {before after : System}
    (h : ∀ c flavor, after.slots c flavor = before.slots c flavor) (ticket : Ticket)
    : after.leasesOf ticket = before.leasesOf ticket := by
  funext c flavor
  unfold leasesOf
  rw [h]

theorem leasesOf_setServer (system : System) (c : Nat) (server : Server) (ticket : Ticket)
    : (system.setServer c server).leasesOf ticket = system.leasesOf ticket :=
  leasesOf_congr (system.setServer_slots c server) ticket

theorem leasesOf_stepSlots (system : System) (ticket : Ticket) (c : Nat) (flavor : Flavor)
    (step : Slots → Option Ticket × Slots)
    : (system.stepSlots c flavor step).leasesOf ticket =
        (system.setSlots c flavor (step (system.slots c flavor)).2).leasesOf ticket :=
  leasesOf_congr (system.slots_stepSlots c flavor step) ticket

theorem leasesOf_of_links_eq {before after : System} (h : after.links = before.links)
    (ticket : Ticket) : after.leasesOf ticket = before.leasesOf ticket := by
  apply leasesOf_congr
  intro c flavor
  unfold slots link
  rw [h]

theorem Free.of_eq {before after : System} (h : before.Free ticket)
    (heq : after.leasesOf ticket = before.leasesOf ticket) : after.Free ticket := by
  intro c flavor
  rw [heq]
  exact h c flavor

theorem Sole.of_eq {before after : System} (h : before.Sole ticket c flavor)
    (heq : after.leasesOf ticket = before.leasesOf ticket) : after.Sole ticket c flavor := by
  intro d other
  rw [heq]
  exact h d other

theorem Free.setSlots (h : system.Free ticket) (c : Nat) (flavor : Flavor) {slots : Slots}
    (hcount : slots.holders.count ticket = 0) : (system.setSlots c flavor slots).Free ticket := by
  intro d other
  rw [leasesOf_setSlots]
  split
  . exact hcount
  . exact h d other

theorem Free.sole_setSlots (h : system.Free ticket) (hc : c < system.links.length)
    {slots : Slots} (hcount : slots.holders.count ticket = 1)
    : (system.setSlots c flavor slots).Sole ticket c flavor := by
  intro d other
  rw [leasesOf_setSlots]
  by_cases hsame : c = d ∧ flavor = other
  . rw [if_pos ⟨hsame.1, hsame.2, hc⟩, if_pos hsame, hcount]
  . rw [if_neg fun heq => hsame ⟨heq.1, heq.2.1⟩, if_neg hsame]
    exact h d other

theorem Free.stepSlots (h : system.Free ticket) (c : Nat) (flavor : Flavor)
    {step : Slots → Option Ticket × Slots}
    (hholders : ∀ slots, (step slots).2.holders = slots.holders)
    : (system.stepSlots c flavor step).Free ticket := by
  apply Free.of_eq _ (system.leasesOf_stepSlots ticket c flavor step)
  apply h.setSlots
  rw [hholders]
  exact h c flavor

theorem Sole.one (h : system.Sole ticket c flavor) : system.leasesOf ticket c flavor = 1 := by
  rw [h, if_pos ⟨rfl, rfl⟩]

theorem Sole.mem_holders (h : system.Sole ticket c flavor)
    : ticket ∈ (system.slots c flavor).holders := by
  apply List.count_pos_iff.1
  change 0 < system.leasesOf ticket c flavor
  rw [h.one]
  exact Nat.one_pos

theorem lt_of_mem_holders (h : ticket ∈ (system.slots c flavor).holders)
    : c < system.links.length := by
  apply Nat.lt_of_not_le
  intro hle
  rw [slots_of_le hle] at h
  cases flavor <;> cases h

theorem Sole.giveBack (h : system.Sole ticket c flavor)
    : (system.stepSlots c flavor (·.giveBack ticket)).Free ticket := by
  apply Free.of_eq _ (system.leasesOf_stepSlots ticket c flavor (·.giveBack ticket))
  intro d other
  rw [leasesOf_setSlots]
  by_cases hsame : c = d ∧ flavor = other
  . rw [if_pos ⟨hsame.1, hsame.2, lt_of_mem_holders h.mem_holders⟩, Slots.count_holders_giveBack,
      if_pos rfl]
    exact Nat.sub_eq_zero_of_le (Nat.le_of_eq h.one)
  . rw [if_neg fun heq => hsame ⟨heq.1, heq.2.1⟩, h, if_neg hsame]

theorem Sole.markBroken (h : system.Sole ticket c flavor) (d : Nat) (other : Flavor)
    (lease : Ticket)
    : (system.setSlots d other ((system.slots d other).markBroken lease)).Sole ticket c flavor := by
  apply h.of_eq
  funext e another
  rw [leasesOf_setSlots, Slots.holders_markBroken]
  split
  . next heq =>
    obtain ⟨rfl, rfl, _⟩ := heq
    rfl
  . rfl

theorem Sole.judge (h : system.Sole ticket c flavor) (outcome : Except RpcError Reply)
    : (system.judge c flavor ticket outcome).Sole ticket c flavor := by
  unfold System.judge
  split
  . exact h
  . split
    . exact h.markBroken c flavor ticket
    . exact h

end

/-!
## Work with connections
-/

/--
What somebody does with connections and servers: nothing else happens, and calls begin only over the one
lease that he has.
-/
inductive Engages (ticket : Ticket) (c : Nat) (flavor : Flavor) (before : System) : System → Prop where
  | refl : before.Engages ticket c flavor before
  | serve {middle : System} (h : before.Engages ticket c flavor middle) (server : Server) :
    before.Engages ticket c flavor (middle.setServer c server)
  | lend {middle : System} (h : before.Engages ticket c flavor middle) (slots : Slots) :
    before.Engages ticket c flavor (middle.setSlots c flavor slots)
  | step {middle : System} (h : before.Engages ticket c flavor middle)
    (step : Slots → Option Ticket × Slots) :
    before.Engages ticket c flavor (middle.stepSlots c flavor step)
  | ask {middle : System} (h : before.Engages ticket c flavor middle)
    (hsole : middle.Sole ticket c flavor) (target : Reference) (request : Request) :
    before.Engages ticket c flavor (middle.ask c flavor ticket target request).2.2

namespace Engages

variable {ticket : Ticket} {c : Nat} {flavor : Flavor} {before system : System}

theorem untold (h : before.Engages ticket c flavor system) : before.Untold system := by
  induction h with
  | refl => exact .refl before
  | serve _ server ih => exact ih.trans (untold_setServer _ c server)
  | lend _ slots ih => exact ih.trans (untold_setSlots _ c flavor slots)
  | step _ step ih => exact ih.trans (untold_stepSlots _ c flavor step)
  | ask _ _ target request ih => exact ih.trans (untold_ask _ c flavor ticket target request)

theorem store_eq (h : before.Engages ticket c flavor system) : system.store = before.store := by
  induction h with
  | refl => rfl
  | serve _ _ ih => exact ih
  | lend _ _ ih => exact ih
  | step _ step ih => exact (store_stepSlots _ c flavor step).trans ih
  | ask _ _ _ _ ih => exact ih

theorem judge (h : before.Engages ticket c flavor system) (outcome : Except RpcError Reply)
    : before.Engages ticket c flavor (system.judge c flavor ticket outcome) := by
  unfold System.judge
  split
  . exact h
  . split
    . exact h.lend _
    . exact h

theorem connect (h : before.Engages ticket c flavor system)
    : before.Engages ticket c flavor (system.connect c flavor ticket) :=
  (h.serve _).lend _

end Engages

/--
What the work of the task of an operation comes to: nothing is due, the task is held up with what its
stage allows, or it ends. Whatever can be noticed of its end comes after its lease was given back.
-/
inductive Settles (before : System) (task : Task) (c : Nat) : Progress → Prop where
  | idle : before.Settles task c (none, before)
  | parked {middle : System} (stage : Stage) (h : before.Engages task.id c .nonBlocking middle)
    (hlends : middle.Lends task.id c stage) :
    before.Settles task c (none, middle.park task stage)
  | ended {middle : System} {result : Except Error Value} {store : Store}
    (h : before.Engages task.id c .nonBlocking middle) (hfree : middle.Free task.id)
    (heffect : middle.store.Effect task.job result store) :
    before.Settles task c (some result, { middle with store })

section
variable {before system : System} {task : Task} {o : ObjectId} {operation : Operation} {c : Nat}

theorem settles_failed (hjob : task.job = .operate o operation)
    (h : before.Engages task.id c .nonBlocking system) (hfree : system.Free task.id) (error : Error)
    : before.Settles task c (some (.error error), system) := by
  apply Settles.ended h hfree
  rw [hjob]
  apply Store.Effect.failed

theorem settles_ending (hjob : task.job = .operate o operation)
    (hcontext : (system.store.object o).context = c)
    (h : before.Engages task.id c .nonBlocking system) (hsole : system.Sole task.id c .nonBlocking)
    (reply : Except RpcError Reply)
    : before.Settles task c (system.workEnding task o operation reply) := by
  subst hcontext
  unfold workEnding conclude
  dsimp only
  apply Settles.ended
  . exact (h.judge _).step _
  . exact (hsole.judge _).giveBack
  . rw [hjob]
    apply Store.Effect.concluded

theorem settles_calling (hjob : task.job = .operate o operation)
    (hcontext : (system.store.object o).context = c)
    (h : before.Engages task.id c .nonBlocking system) (hsole : system.Sole task.id c .nonBlocking)
    : before.Settles task c (system.workCalling task o operation) := by
  subst hcontext
  have hasked := h.ask hsole (system.store.object o).reference
    (operation.request (system.store.context (system.store.object o).context).config)
  have hstill := hsole.of_eq (leasesOf_congr (system.slots_ask (system.store.object o).context
    .nonBlocking task.id (system.store.object o).reference
    (operation.request (system.store.context (system.store.object o).context).config)) task.id)
  unfold workCalling
  dsimp only
  split
  . exact settles_ending hjob rfl hasked hstill _
  . exact .parked _ hasked hstill

theorem sole_connect {system : System} {ticket : Ticket} {c : Nat} {flavor : Flavor}
    (hfree : system.Free ticket) (hopening : ticket ∈ (system.slots c flavor).opening)
    (hc : c < system.links.length) : (system.connect c flavor ticket).Sole ticket c flavor := by
  unfold connect
  dsimp only
  apply Free.sole_setSlots
  . exact hfree.of_eq (system.leasesOf_setServer c _ ticket)
  . rw [length_setServer]
    exact hc
  . rw [Slots.count_holders_opened, if_pos ⟨hopening, rfl⟩]
    exact congrArg (· + 1) (hfree c flavor)

theorem settles_opened (hjob : task.job = .operate o operation)
    (hcontext : (system.store.object o).context = c)
    (h : before.Engages task.id c .nonBlocking system) (hfree : system.Free task.id)
    (hopening : task.id ∈ (system.slots c .nonBlocking).opening) (hc : c < system.links.length)
    (error : Option RpcError)
    : before.Settles task c (system.workOpened task o operation error) := by
  subst hcontext
  cases error with
  | none => exact settles_calling hjob rfl h.connect (sole_connect hfree hopening hc)
  | some error =>
    exact settles_failed hjob (h.step _)
      (hfree.stepSlots _ _ fun slots => slots.holders_cancelOpening task.id) _

theorem settles_opening (hjob : task.job = .operate o operation)
    (hcontext : (system.store.object o).context = c)
    (h : before.Engages task.id c .nonBlocking system) (hfree : system.Free task.id)
    (hopening : task.id ∈ (system.slots c .nonBlocking).opening) (hc : c < system.links.length)
    : before.Settles task c (system.workOpening task o operation) := by
  subst hcontext
  have hserved := h.serve (system.link (system.store.object o).context).server.nextOpening.2
  have hfreeStill := hfree.of_eq (system.leasesOf_setServer (system.store.object o).context
    (system.link (system.store.object o).context).server.nextOpening.2 task.id)
  unfold workOpening
  dsimp only
  split
  . apply settles_opened hjob rfl hserved hfreeStill
    . rw [setServer_slots]
      exact hopening
    . rw [length_setServer]
      exact hc
  . apply Settles.parked _ hserved
    refine ⟨hfreeStill, ?_⟩
    rw [setServer_slots]
    exact hopening

theorem settles_refused (hjob : task.job = .operate o operation)
    (hcontext : (system.store.object o).context = c)
    (h : before.Engages task.id c .nonBlocking system) (hfree : system.Free task.id)
    : before.Settles task c (system.workRefused task o) := by
  subst hcontext
  exact settles_failed hjob (h.step _)
    (hfree.stepSlots _ _ fun slots => slots.holders_withdraw task.id) _

def Gets (system : System) (ticket : Ticket) (c : Nat) : Grant → Prop
  | .lease => system.Sole ticket c .nonBlocking
  | .opening => system.Free ticket ∧ ticket ∈ (system.slots c .nonBlocking).opening
  | .full => system.Free ticket

theorem settles_granted (hjob : task.job = .operate o operation)
    (hcontext : (system.store.object o).context = c)
    (h : before.Engages task.id c .nonBlocking system) (hc : c < system.links.length)
    (deadline : Nat) {grant : Grant} (hgets : system.Gets task.id c grant)
    : before.Settles task c (system.workGranted task o operation deadline grant) := by
  cases grant with
  | lease => exact settles_calling hjob hcontext h hgets
  | opening => exact settles_opening hjob hcontext h hgets.1 hgets.2 hc
  | full =>
    unfold workGranted
    dsimp only
    split
    . exact settles_refused hjob hcontext h hgets
    . exact .parked _ h hgets

theorem gets_setSlots {system : System} {ticket : Ticket} {c : Nat} (hfree : system.Free ticket)
    (hc : c < system.links.length) {slots : Slots} {grant : Grant}
    (hcount : slots.holders.count ticket = if grant = .lease then 1 else 0)
    (hgranted : slots.Granted ticket grant)
    : (system.setSlots c .nonBlocking slots).Gets ticket c grant := by
  cases grant with
  | lease => exact hfree.sole_setSlots hc hcount
  | opening =>
    refine ⟨hfree.setSlots c .nonBlocking hcount, ?_⟩
    rw [slots_setSlots_self system .nonBlocking slots hc]
    exact hgranted
  | full => exact hfree.setSlots c .nonBlocking hcount

theorem settles_asking (hjob : task.job = .operate o operation)
    (hc : (before.store.object o).context < before.links.length) (hfree : before.Free task.id)
    (deadline : Nat) {ask : Slots → Grant × Slots}
    (hcount : ∀ slots : Slots, (ask slots).2.holders.count task.id =
      slots.holders.count task.id +
        if (ask slots).1 = .lease ∧ task.id = task.id then 1 else 0)
    (hgranted : ∀ slots, (ask slots).2.Granted task.id (ask slots).1)
    : before.Settles task (before.store.object o).context
        (before.workAsking task o operation deadline ask) := by
  have hlent : before.Engages task.id (before.store.object o).context .nonBlocking
      (before.setSlots (before.store.object o).context .nonBlocking
        (ask (before.slots (before.store.object o).context .nonBlocking)).2) :=
    .lend .refl _
  unfold workAsking
  dsimp only
  refine settles_granted hjob ?_ hlent ?_ deadline ?_
  . rfl
  . rw [length_setSlots]
    exact hc
  . have hzero : (before.slots (before.store.object o).context .nonBlocking).holders.count task.id = 0 :=
      hfree _ _
    apply gets_setSlots hfree hc _ (hgranted _)
    simp only [hcount, hzero, and_true, Nat.zero_add]

theorem settles_on (hjob : task.job = .operate o operation)
    (hc : (before.store.object o).context < before.links.length)
    (hlends : before.Lends task.id (before.store.object o).context task.stage)
    : before.Settles task (before.store.object o).context (before.workOn task o operation) := by
  unfold workOn
  dsimp only
  cases hstage : task.stage with
  | fresh =>
    rw [hstage] at hlends
    dsimp only
    split
    . next store heq =>
      apply Settles.ended .refl hlends
      rw [hjob]
      exact .answered heq
    . exact settles_asking hjob hc hlends _ (fun slots => slots.count_holders_ask _ _)
        (fun slots => slots.granted_ask _)
  | waiting deadline =>
    rw [hstage] at hlends
    dsimp only
    split
    . exact settles_asking hjob hc hlends _ (fun slots => slots.count_holders_resume _ _)
        (fun slots => slots.granted_resume _)
    . split
      . exact settles_refused hjob rfl .refl hlends
      . exact .idle
  | opening error due =>
    rw [hstage] at hlends
    dsimp only
    split
    . exact settles_opened hjob rfl .refl hlends.1 hlends.2 hc error
    . exact .idle
  | calling reply due =>
    rw [hstage] at hlends
    dsimp only
    split
    . exact settles_ending hjob rfl .refl hlends reply
    . exact .idle
  | _ => exact .idle

theorem settles_work (hsound : before.Sound) (hjob : task.job.isOperation)
    (hlends : before.Lends task.id (before.contextOf task.job) task.stage) (hfits : task.Fits)
    : before.Settles task (before.contextOf task.job) (before.work task) := by
  have hc (o : ObjectId) : (before.store.object o).context < before.links.length := by
    rw [hsound.length_links]
    exact hsound.store.object_context_lt o
  unfold work
  rcases Job.isOperation_cases hjob with ⟨o, operation, hkind⟩ | ⟨o, hkind⟩
  . rw [hkind] at hlends ⊢
    exact settles_on hkind (hc o) hlends
  . have hfresh : task.stage = .fresh := by
      unfold Task.Fits at hfits
      rw [hkind] at hfits
      exact hfits
    rw [hfresh] at hlends
    rw [hkind]
    apply Settles.ended .refl hlends
    rw [hkind]
    exact .owned o

end

/-!
## Operations that block
-/

inductive Acquires (before : System) (c : Nat) : Except Error Ticket × System → Prop where
  | leased {after : System}
    (h : { before with nextTask := before.nextTask + 1 }.Engages before.nextTask c .blocking after)
    (hsole : after.Sole before.nextTask c .blocking) :
    before.Acquires c (.ok before.nextTask, after)
  | refused {after : System} (error : Error)
    (h : { before with nextTask := before.nextTask + 1 }.Engages before.nextTask c .blocking after)
    (hfree : after.Free before.nextTask) :
    before.Acquires c (.error error, after)

inductive SettlesAtOnce (before : System) (o : ObjectId) (operation : Operation) :
    Except Error Value × System → Prop where
  | answered {result : Except Error Value} {store : Store}
    (h : before.store.start o operation = (.answered result, store)) :
    before.SettlesAtOnce o operation (result, { before with store })
  | refused {middle : System} (error : Error)
    (h : { before with nextTask := before.nextTask + 1 }.Engages before.nextTask
      (before.store.object o).context .blocking middle)
    (hfree : middle.Free before.nextTask) :
    before.SettlesAtOnce o operation (.error error, middle)
  | concluded {middle : System} (outcome : Except RpcError Reply)
    (h : { before with nextTask := before.nextTask + 1 }.Engages before.nextTask
      (before.store.object o).context .blocking middle)
    (hfree : middle.Free before.nextTask) :
    before.SettlesAtOnce o operation
      ((middle.store.conclude o operation outcome).1,
        { middle with store := (middle.store.conclude o operation outcome).2 })

section
variable {system before middle : System} {c : Nat} {ticket : Ticket}

theorem acquires_openBlocking
    (h : { before with nextTask := before.nextTask + 1 }.Engages before.nextTask c .blocking middle)
    (hfree : middle.Free before.nextTask)
    (hopening : before.nextTask ∈ (middle.slots c .blocking).opening) (hc : c < middle.links.length)
    : before.Acquires c (middle.openBlocking c before.nextTask) := by
  have hserved := h.serve (middle.link c).server.nextOpening.2
  have hfreeStill := hfree.of_eq
    (middle.leasesOf_setServer c (middle.link c).server.nextOpening.2 before.nextTask)
  unfold openBlocking
  dsimp only
  split
  . apply Acquires.leased hserved.connect
    apply sole_connect hfreeStill
    . rw [setServer_slots]
      exact hopening
    . rw [length_setServer]
      exact hc
  . exact .refused _ (hserved.step _)
      (hfreeStill.stepSlots _ _ fun slots => slots.holders_cancelOpening before.nextTask)

theorem acquires_acquireBlocking (hfree : system.Free system.nextTask)
    (hc : c < system.links.length) : system.Acquires c (system.acquireBlocking c) := by
  have hnumbered : { system with nextTask := system.nextTask + 1 }.Free system.nextTask := hfree
  let slots := { system with nextTask := system.nextTask + 1 }.slots c .blocking
  have hzero : slots.holders.count system.nextTask = 0 := hfree c .blocking
  have hcount := slots.count_holders_take system.nextTask system.nextTask
  have hgranted := slots.granted_take system.nextTask
  simp only [hzero, and_true, Nat.zero_add] at hcount
  rw [acquireBlocking_eq]
  dsimp only
  split
  . next heq =>
    rw [heq] at hcount
    exact .leased (.lend .refl _) (hnumbered.sole_setSlots hc hcount)
  . next slots heq =>
    have hself :=
      slots_setSlots_self { system with nextTask := system.nextTask + 1 } .blocking slots hc
    rw [heq] at hcount hgranted
    apply acquires_openBlocking (.lend .refl _) (hnumbered.setSlots c .blocking hcount)
    . rw [hself]
      exact hgranted
    . rw [length_setSlots]
      exact hc
  . exact .refused _ .refl hnumbered

theorem settlesAtOnce_conclude {o : ObjectId} {operation : Operation}
    (h : { before with nextTask := before.nextTask + 1 }.Engages before.nextTask
      (before.store.object o).context .blocking system)
    (hsole : system.Sole before.nextTask (before.store.object o).context .blocking)
    (reply : Except RpcError Reply)
    : before.SettlesAtOnce o operation
        (system.conclude .blocking before.nextTask o operation reply) := by
  have hcontext : (system.store.object o).context = (before.store.object o).context := by
    rw [h.store_eq]
  unfold conclude
  dsimp only
  apply SettlesAtOnce.concluded
  . rw [hcontext]
    exact (h.judge _).step _
  . rw [hcontext]
    exact (hsole.judge _).giveBack

theorem settlesAtOnce_operateBlocking (hsound : system.Sound)
    (hfree : system.Free system.nextTask) (o : ObjectId) (operation : Operation)
    : system.SettlesAtOnce o operation (system.operateBlocking o operation) := by
  have hc : (system.store.object o).context < system.links.length := by
    rw [hsound.length_links]
    exact hsound.store.object_context_lt o
  have hacquire := acquires_acquireBlocking hfree hc
  unfold operateBlocking
  split
  . next heq => exact .answered heq
  . next heq =>
    obtain ⟨rfl, rfl⟩ := Store.start_asks heq
    dsimp only
    split
    . next error after heq =>
      have hrefused : system.acquireBlocking _ = (.error error, after) := heq
      rw [hrefused] at hacquire
      cases hacquire with
      | refused error h hstill => exact .refused error h hstill
    . next lease after heq =>
      have hleased : system.acquireBlocking _ = (.ok lease, after) := heq
      rw [hleased] at hacquire
      cases hacquire with
      | leased h hsole =>
        apply settlesAtOnce_conclude (h.ask hsole _ _)
        exact hsole.of_eq (leasesOf_congr (after.slots_ask _ _ _ _ _) _)

end

end System

end MediaProxy
