import MediaProxy.Proofs.System.Work

/-!
This module contains the two forms of operations side by side. Whatever an operation that blocks does to
the connections of its flavor, one that does not block does to those of the other flavor.
-/

namespace MediaProxy

def CallRecord.message (record : CallRecord) : Nat × Reference × Request :=
  (record.context, record.target, record.request)

def refusal (timeout capacity : Nat) (flavor : Flavor) : Error :=
  .resourceExhausted ("no " ++ flavor.name ++ " connection available after " ++
    toString timeout ++ "ms (max " ++ toString capacity ++ ")")

/--
What both forms of an operation return: the same, but a refusal names the flavor of its connections.
-/
inductive Alike : Except Error Value → Except Error Value → Prop where
  | same (result : Except Error Value) : Alike result result
  | refused (timeout capacity : Nat) :
    Alike (.error (refusal timeout capacity .blocking))
      (.error (refusal timeout capacity .nonBlocking))

theorem Stats.merge_comm (a b : Stats) : a.merge b = b.merge a := by
  simp [merge, Nat.add_comm]

namespace Slots

structure Mirrors (slots other : Slots) : Prop where
  capacity_eq : slots.capacity = other.capacity
  leased_eq : slots.leased = other.leased
  length_idle_eq : slots.idle.length = other.idle.length

def Full (slots : Slots) : Prop :=
  slots.idle = [] ∧ slots.capacity ≤ slots.leased

section
variable {slots other first second : Slots} {ticket ticket' : Ticket}

theorem stats_wake : slots.wake.2.stats = slots.stats := by
  obtain ⟨_, _, _, hwake⟩ := wake_eq slots
  rw [hwake]
  rfl

theorem stats_withdraw : (slots.withdraw ticket).2.stats = slots.stats := by
  unfold withdraw
  split
  . apply stats_wake
  . rfl

theorem Mirrors.granted (h : slots.Mirrors other) (ticket ticket' : Ticket)
    : (slots.take ticket).1 = (other.ask ticket').1 ∧
      (slots.take ticket).2.stats.merge other.stats =
        (other.ask ticket').2.stats.merge slots.stats := by
  obtain ⟨hcapacity, hleased, hidle⟩ := h
  rcases take_cases slots ticket with
    ⟨_, idle, hslots, htake⟩ | ⟨hslots, hroom, htake⟩ | ⟨hslots, hroom, htake⟩
  . rcases ask_cases other ticket' with
      ⟨_, idle', hother, hask⟩ | ⟨hother, _, _⟩ | ⟨hother, _, _⟩
    . rw [hslots, hother, List.length_cons, List.length_cons] at hidle
      rw [htake, hask]
      refine ⟨rfl, ?_⟩
      simp only [stats, lend, Stats.merge, Stats.mk.injEq, hslots, hother, List.length_cons]
      omega
    . simp [hslots, hother] at hidle
    . simp [hslots, hother] at hidle
  . rcases ask_cases other ticket' with
      ⟨_, _, hother, _⟩ | ⟨hother, _, hask⟩ | ⟨hother, hroom', _⟩
    . simp [hslots, hother] at hidle
    . rw [htake, hask]
      refine ⟨rfl, ?_⟩
      simp only [stats, Stats.merge, Stats.mk.injEq]
      omega
    . omega
  . rcases ask_cases other ticket' with
      ⟨_, _, hother, _⟩ | ⟨hother, hroom', _⟩ | ⟨hother, _, hask⟩
    . simp [hslots, hother] at hidle
    . omega
    . rw [htake, hask]
      exact ⟨rfl, Stats.merge_comm _ _⟩

theorem full_of_ask (h : (slots.ask ticket).1 = .full)
    : (slots.ask ticket).2.Full ∧ (slots.ask ticket).2.stats = slots.stats := by
  rcases ask_cases slots ticket with ⟨_, _, _, hask⟩ | ⟨_, _, hask⟩ | ⟨hidle, hroom, hask⟩
  . rw [hask] at h
    cases h
  . rw [hask] at h
    cases h
  . rw [hask]
    exact ⟨⟨hidle, hroom⟩, rfl⟩

theorem Full.resume (h : slots.Full) (ticket : Ticket)
    : (slots.resume ticket).1 = .full ∧ (slots.resume ticket).2.Full ∧
        (slots.resume ticket).2.stats = slots.stats := by
  obtain ⟨hidle, hroom⟩ := h
  unfold Slots.resume
  rcases ask_cases { slots with woken := slots.woken.erase ticket } ticket with
    ⟨_, _, hother, _⟩ | ⟨_, hroom', _⟩ | ⟨_, _, hask⟩
  . simp [hidle] at hother
  . dsimp only at hroom'
    omega
  . rw [hask]
    exact ⟨rfl, ⟨hidle, hroom⟩, rfl⟩

/-!
## Changes that are counted alike
-/

theorem merge_opened (hfirst : ticket ∈ first.opening) (hsecond : ticket' ∈ second.opening)
    (connection connection' : Nat)
    (h : first.stats.merge other.stats = second.stats.merge slots.stats)
    : (first.opened ticket connection).stats.merge other.stats =
        (second.opened ticket' connection').stats.merge slots.stats := by
  rw [opened_of_mem connection hfirst, opened_of_mem connection' hsecond]
  simp only [stats, lend, Stats.merge, Stats.mk.injEq] at h ⊢
  omega

theorem merge_cancelOpening (hfirst : ticket ∈ first.opening) (hsecond : ticket' ∈ second.opening)
    (hleased : slots.leased = other.leased)
    (h : first.stats.merge other.stats = second.stats.merge slots.stats)
    : (first.cancelOpening ticket).2.stats.merge other.stats =
        (second.cancelOpening ticket').2.stats.merge slots.stats := by
  rw [cancelOpening_of_mem hfirst, cancelOpening_of_mem hsecond, stats_wake, stats_wake]
  simp only [stats, Stats.merge, Stats.mk.injEq] at h ⊢
  omega

theorem merge_giveBack {lease lease' : Lease} (hfirst : first.lease? ticket = some lease)
    (hsecond : second.lease? ticket' = some lease') (hbroken : lease.broken = lease'.broken)
    (hleased : slots.leased = other.leased)
    (h : first.stats.merge other.stats = second.stats.merge slots.stats)
    : (first.giveBack ticket).2.stats.merge other.stats =
        (second.giveBack ticket').2.stats.merge slots.stats := by
  rw [giveBack_of_lease? hfirst, giveBack_of_lease? hsecond, stats_wake, stats_wake]
  unfold ended
  rw [hbroken]
  split
  . simp only [stats, Stats.merge, Stats.mk.injEq] at h ⊢
    omega
  . simp only [stats, Stats.merge, Stats.mk.injEq, List.length_cons] at h ⊢
    omega

end

end Slots

namespace System

/-!
## Operations that block
-/

section
variable (system : System) (ticket : Ticket) (o : ObjectId) (operation : Operation)

def callBlocking : Except Error Value × System :=
  let object := system.store.object o
  let request := operation.request (system.store.context object.context).config
  let (reply, _, system) :=
    system.ask object.context .blocking ticket object.reference request
  system.conclude .blocking ticket o operation reply

def openedBlocking (error : Option RpcError) : Except Error Value × System :=
  let c := (system.store.object o).context
  match error with
  | none => (system.connect c .blocking ticket).callBlocking ticket o operation
  | some error =>
    (.error (.ofRpc error), system.stepSlots c .blocking (·.cancelOpening ticket))

def openingBlocking : Except Error Value × System :=
  let c := (system.store.object o).context
  let (opening, server) := (system.link c).server.nextOpening
  (system.setServer c server).openedBlocking ticket o operation opening.error

def acquiredBlocking : Except Error Ticket × System → Except Error Value × System
  | (.error error, system) => (.error error, system)
  | (.ok ticket, system) => system.callBlocking ticket o operation

end

section
variable {system : System} {o : ObjectId} {operation : Operation}

theorem operateBlocking_of_answered {result : Except Error Value} {store : Store}
    (h : system.store.start o operation = (.answered result, store))
    : system.operateBlocking o operation = (result, { system with store }) := by
  unfold operateBlocking
  rw [h]

theorem operateBlocking_of_asks {request : Request} {store : Store}
    (h : system.store.start o operation = (.asks request, store))
    : system.operateBlocking o operation =
        acquiredBlocking o operation (system.acquireBlocking (system.store.object o).context) := by
  obtain ⟨rfl, rfl⟩ := Store.start_asks h
  have hstore := system.store_acquireBlocking (system.store.object o).context
  unfold operateBlocking
  rw [h]
  dsimp only
  generalize system.acquireBlocking _ = acquired at hstore
  obtain ⟨error | ticket, after⟩ := acquired
  . rfl
  . unfold acquiredBlocking callBlocking
    dsimp only at hstore ⊢
    rw [hstore]

theorem acquired_openBlocking (system : System) (ticket : Ticket) (o : ObjectId)
    (operation : Operation)
    : acquiredBlocking o operation (system.openBlocking (system.store.object o).context ticket) =
        system.openingBlocking ticket o operation := by
  unfold openBlocking openingBlocking openedBlocking
  dsimp only
  cases ((system.link (system.store.object o).context).server.nextOpening).1.error <;> rfl

end

/-!
## Systems side by side
-/

structure Calm (before after : System) : Prop where
  store_eq : after.store = before.store
  links_eq : after.links = before.links
  calls_eq : after.calls = before.calls

structure Confined (start : System) (c : Nat) (flavor : Flavor) (system : System) : Prop where
  length_eq : system.links.length = start.links.length
  slots_eq : ∀ d other, ¬(c = d ∧ flavor = other) → system.slots d other = start.slots d other

/--
Two systems that went different ways since the start, `direct` with connections that block and `system`
with others. All else is the same, and as much was counted of the connections of both.
-/
structure Level (start : System) (c : Nat) (direct system : System) : Prop where
  store_eq : system.store = direct.store
  server_eq : ∀ d, (system.link d).server = (direct.link d).server
  messages_eq : system.calls.map CallRecord.message = direct.calls.map CallRecord.message
  confined : start.Confined c .blocking direct
  confined' : start.Confined c .nonBlocking system
  stats_eq : (direct.slots c .blocking).stats.merge (start.slots c .nonBlocking).stats =
    (system.slots c .nonBlocking).stats.merge (start.slots c .blocking).stats

section
variable {before after start system direct : System} {c : Nat} {flavor : Flavor}

theorem Calm.refl (system : System) : system.Calm system :=
  ⟨rfl, rfl, rfl⟩

theorem Calm.trans {third : System} (h : before.Calm after) (h' : after.Calm third)
    : before.Calm third :=
  ⟨h'.store_eq.trans h.store_eq, h'.links_eq.trans h.links_eq, h'.calls_eq.trans h.calls_eq⟩

theorem Calm.link_eq (h : before.Calm after) (c : Nat) : after.link c = before.link c := by
  unfold link
  rw [h.links_eq]

theorem Calm.slots_eq (h : before.Calm after) (c : Nat) (flavor : Flavor)
    : after.slots c flavor = before.slots c flavor := by
  unfold slots
  rw [h.link_eq]

theorem calm_park (system : System) (task : Task) (stage : Stage)
    : system.Calm (system.park task stage) :=
  ⟨rfl, rfl, rfl⟩

theorem Confined.calm (h : start.Confined c flavor before) (hcalm : before.Calm after)
    : start.Confined c flavor after := by
  constructor
  . rw [hcalm.links_eq]
    exact h.length_eq
  . intro d other hne
    rw [hcalm.slots_eq]
    exact h.slots_eq d other hne

theorem Confined.setSlots (h : start.Confined c flavor system) (slots : Slots)
    : start.Confined c flavor (system.setSlots c flavor slots) := by
  constructor
  . rw [length_setSlots]
    exact h.length_eq
  . intro d other hne
    rw [slots_setSlots, if_neg fun hsame => hne ⟨hsame.1, hsame.2.1⟩]
    exact h.slots_eq d other hne

theorem Confined.setServer (h : start.Confined c flavor system) (d : Nat) (server : Server)
    : start.Confined c flavor (system.setServer d server) := by
  constructor
  . rw [length_setServer]
    exact h.length_eq
  . intro d other hne
    rw [setServer_slots]
    exact h.slots_eq d other hne

theorem Confined.self (start : System) (c : Nat) (flavor : Flavor)
    : start.Confined c flavor start :=
  ⟨rfl, fun _ _ _ => rfl⟩

theorem Level.calm {direct' system' : System} (h : start.Level c direct system)
    (hdirect : direct.Calm direct') (hsystem : system.Calm system')
    : start.Level c direct' system' where
  store_eq := by rw [hsystem.store_eq, hdirect.store_eq, h.store_eq]
  server_eq d := by rw [hsystem.link_eq, hdirect.link_eq, h.server_eq]
  messages_eq := by rw [hsystem.calls_eq, hdirect.calls_eq, h.messages_eq]
  confined := h.confined.calm hdirect
  confined' := h.confined'.calm hsystem
  stats_eq := by rw [hsystem.slots_eq, hdirect.slots_eq, h.stats_eq]

theorem Level.self (start : System) (c : Nat) : start.Level c start start where
  store_eq := rfl
  server_eq _ := rfl
  messages_eq := rfl
  confined := .self start c .blocking
  confined' := .self start c .nonBlocking
  stats_eq := Stats.merge_comm _ _

theorem Level.withStore (h : start.Level c direct system) (store : Store)
    : start.Level c { direct with store } { system with store } where
  store_eq := rfl
  server_eq := h.server_eq
  messages_eq := h.messages_eq
  confined := ⟨h.confined.length_eq, h.confined.slots_eq⟩
  confined' := ⟨h.confined'.length_eq, h.confined'.slots_eq⟩
  stats_eq := h.stats_eq

theorem Level.setServer (h : start.Level c direct system) (d : Nat) (server : Server)
    : start.Level c (direct.setServer d server) (system.setServer d server) where
  store_eq := h.store_eq
  server_eq e := by
    rw [link_setServer, link_setServer, h.confined'.length_eq, h.confined.length_eq]
    split
    . rfl
    . apply h.server_eq
  messages_eq := h.messages_eq
  confined := h.confined.setServer d server
  confined' := h.confined'.setServer d server
  stats_eq := by
    rw [setServer_slots, setServer_slots]
    exact h.stats_eq

theorem Level.setSlots (h : start.Level c direct system) (hc : c < start.links.length)
    {slots other : Slots}
    (hstats : slots.stats.merge (start.slots c .nonBlocking).stats =
      other.stats.merge (start.slots c .blocking).stats)
    : start.Level c (direct.setSlots c .blocking slots) (system.setSlots c .nonBlocking other) where
  store_eq := h.store_eq
  server_eq d := by
    rw [server_setSlots, server_setSlots]
    apply h.server_eq
  messages_eq := h.messages_eq
  confined := h.confined.setSlots slots
  confined' := h.confined'.setSlots other
  stats_eq := by
    rw [slots_setSlots_self, slots_setSlots_self]
    . exact hstats
    . rw [h.confined'.length_eq]
      exact hc
    . rw [h.confined.length_eq]
      exact hc

theorem calm_stepSlots (system : System) (c : Nat) (flavor : Flavor)
    (step : Slots → Option Ticket × Slots)
    : (system.setSlots c flavor (step (system.slots c flavor)).2).Calm
        (system.stepSlots c flavor step) := by
  unfold stepSlots
  dsimp only
  split
  . apply Calm.refl
  . next id _ =>
    obtain ⟨ready, hwake, _⟩ := wake_eq
      (system.setSlots c flavor (step (system.slots c flavor)).2) id
    rw [hwake]
    exact ⟨rfl, rfl, rfl⟩

theorem Level.resetSlots (h : start.Level c direct system) (hc : c < start.links.length)
    {slots : Slots} (hstats : slots.stats = (system.slots c .nonBlocking).stats)
    : start.Level c direct (system.setSlots c .nonBlocking slots) where
  store_eq := h.store_eq
  server_eq d := by
    rw [server_setSlots]
    apply h.server_eq
  messages_eq := h.messages_eq
  confined := h.confined
  confined' := h.confined'.setSlots slots
  stats_eq := by
    rw [slots_setSlots_self, hstats]
    . exact h.stats_eq
    . rw [h.confined'.length_eq]
      exact hc

theorem Level.stepSlots (h : start.Level c direct system) (hc : c < start.links.length)
    (step other : Slots → Option Ticket × Slots)
    (hstats :
      (step (direct.slots c .blocking)).2.stats.merge (start.slots c .nonBlocking).stats =
        (other (system.slots c .nonBlocking)).2.stats.merge (start.slots c .blocking).stats)
    : start.Level c (direct.stepSlots c .blocking step) (system.stepSlots c .nonBlocking other) :=
  (h.setSlots hc hstats).calm (direct.calm_stepSlots c .blocking step)
    (system.calm_stepSlots c .nonBlocking other)

end

/-!
## Calls
-/

section
variable {start system direct : System} {c : Nat} {o : ObjectId} {operation : Operation}
  {ticket id : Ticket}

theorem Level.ask (h : start.Level c direct system) (ticket id : Ticket) (target : Reference)
    (request : Request)
    : (system.ask c .nonBlocking id target request).1 =
        (direct.ask c .blocking ticket target request).1 ∧
      start.Level c (direct.ask c .blocking ticket target request).2.2
        (system.ask c .nonBlocking id target request).2.2 := by
  unfold System.ask
  dsimp only
  rw [h.server_eq]
  refine ⟨rfl, ?_⟩
  have hserver := h.setServer c ((direct.link c).server.answer target request).2.2
  refine ⟨hserver.store_eq, hserver.server_eq, ?_, ?_, ?_, hserver.stats_eq⟩
  . exact congrArg ((c, target, request) :: ·) h.messages_eq
  . exact ⟨hserver.confined.length_eq, hserver.confined.slots_eq⟩
  . exact ⟨hserver.confined'.length_eq, hserver.confined'.slots_eq⟩

theorem Level.judge (h : start.Level c direct system) (hc : c < start.links.length)
    (outcome : Except RpcError Reply)
    : start.Level c (direct.judge c .blocking ticket outcome)
        (system.judge c .nonBlocking id outcome) := by
  unfold System.judge
  cases outcome with
  | ok reply => exact h
  | error error =>
    dsimp only
    split
    . apply h.setSlots hc
      exact h.stats_eq
    . exact h

theorem Level.conclude (operation : Operation) (h : start.Level c direct system)
    (hc : c < start.links.length)
    (hmirrors : (start.slots c .blocking).Mirrors (start.slots c .nonBlocking))
    (hcontext : (direct.store.object o).context = c)
    (hdirect : (direct.slots c .blocking).Holds ticket)
    (hsystem : (system.slots c .nonBlocking).Holds id) (reply : Except RpcError Reply)
    : (system.conclude .nonBlocking id o operation reply).1 =
        (direct.conclude .blocking ticket o operation reply).1 ∧
      start.Level c (direct.conclude .blocking ticket o operation reply).2
        (system.conclude .nonBlocking id o operation reply).2 := by
  unfold System.conclude
  dsimp only
  rw [h.store_eq, hcontext]
  generalize reply.bind (operation.expect _) = outcome
  have hjudge : start.Level c (direct.judge c .blocking ticket outcome)
      (system.judge c .nonBlocking id outcome) :=
    h.judge hc outcome
  obtain ⟨lease, hlease, hbroken, _⟩ :=
    lease?_judge outcome (by rw [h.confined.length_eq]; exact hc) hdirect
  obtain ⟨lease', hlease', hbroken', _⟩ :=
    lease?_judge outcome (by rw [h.confined'.length_eq]; exact hc) hsystem
  have hsame : lease.broken = lease'.broken := Bool.eq_iff_iff.2 (hbroken.trans hbroken'.symm)
  have hstats := Slots.merge_giveBack hlease hlease' hsame hmirrors.leased_eq hjudge.stats_eq
  have hstep := hjudge.stepSlots hc (·.giveBack ticket) (·.giveBack id) hstats
  rw [hstep.store_eq]
  exact ⟨rfl, hstep.withStore _⟩

theorem Level.connect (h : start.Level c direct system) (hc : c < start.links.length)
    (hdirect : ticket ∈ (direct.slots c .blocking).opening)
    (hsystem : id ∈ (system.slots c .nonBlocking).opening)
    : start.Level c (direct.connect c .blocking ticket) (system.connect c .nonBlocking id) := by
  unfold System.connect
  dsimp only
  rw [h.server_eq]
  have hserver := h.setServer c (direct.link c).server.connected.2
  apply hserver.setSlots hc
  apply Slots.merge_opened hdirect hsystem
  exact h.stats_eq

theorem Level.cancelOpening (h : start.Level c direct system) (hc : c < start.links.length)
    (hmirrors : (start.slots c .blocking).Mirrors (start.slots c .nonBlocking))
    (hdirect : ticket ∈ (direct.slots c .blocking).opening)
    (hsystem : id ∈ (system.slots c .nonBlocking).opening)
    : start.Level c (direct.stepSlots c .blocking (·.cancelOpening ticket))
        (system.stepSlots c .nonBlocking (·.cancelOpening id)) := by
  apply h.stepSlots hc
  apply Slots.merge_cancelOpening hdirect hsystem hmirrors.leased_eq
  exact h.stats_eq

end

/-!
## Work
-/

structure Paired (start : System) (c : Nat) (o : ObjectId) : Prop where
  context_eq : (start.store.object o).context = c
  link_lt : c < start.links.length
  mirrors : (start.slots c .blocking).Mirrors (start.slots c .nonBlocking)

inductive Pending (start : System) (c : Nat) (o : ObjectId) (operation : Operation) (id : TaskId)
    (system : System) : Stage → Prop where
  | fresh (h : start.Calm system) : start.Pending c o operation id system .fresh
  | waiting {direct : System} (deadline : Nat)
    (htarget : start.operateBlocking o operation =
      (.error ((start.link c).pool.exhausted .blocking), direct))
    (hcontext : (system.store.object o).context = c) (h : start.Level c direct system)
    (hfull : (system.slots c .nonBlocking).Full)
    (hpool : (system.link c).pool.exhausted .nonBlocking =
      (start.link c).pool.exhausted .nonBlocking) :
    start.Pending c o operation id system (.waiting deadline)
  | opening {direct : System} {ticket : Ticket} (error : Option RpcError) (due : Option Nat)
    (htarget : start.operateBlocking o operation =
      direct.openedBlocking ticket o operation error)
    (hcontext : (system.store.object o).context = c) (h : start.Level c direct system)
    (hdirect : ticket ∈ (direct.slots c .blocking).opening)
    (hsystem : id ∈ (system.slots c .nonBlocking).opening) :
    start.Pending c o operation id system (.opening error due)
  | calling {direct : System} {ticket : Ticket} (reply : Except RpcError Reply) (due : Option Nat)
    (htarget : start.operateBlocking o operation =
      direct.conclude .blocking ticket o operation reply)
    (hcontext : (system.store.object o).context = c) (h : start.Level c direct system)
    (hdirect : (direct.slots c .blocking).Holds ticket)
    (hsystem : (system.slots c .nonBlocking).Holds id) :
    start.Pending c o operation id system (.calling reply due)

inductive Reaches (start : System) (c : Nat) (target : Except Error Value × System)
    (pending : System → Stage → Prop) (id : TaskId) : Progress → Prop where
  | waits {system : System} (h : ∀ task, system.task? id = some task → pending system task.stage) :
    start.Reaches c target pending id (none, system)
  | ended {result : Except Error Value} {system : System} (halike : Alike target.1 result)
    (h : start.Level c target.2 system) :
    start.Reaches c target pending id (some result, system)

abbrev Abreast (start : System) (c : Nat) (o : ObjectId) (operation : Operation) (id : TaskId) :
    Progress → Prop :=
  start.Reaches c (start.operateBlocking o operation) (start.Pending c o operation id) id

section
variable {start system after direct : System} {c : Nat} {o : ObjectId} {operation : Operation}
  {task : Task} {ticket : Ticket} {stage : Stage}

theorem Pending.calm {id : TaskId} (h : start.Pending c o operation id system stage)
    (hcalm : system.Calm after) : start.Pending c o operation id after stage := by
  have hslots := hcalm.slots_eq c .nonBlocking
  cases h with
  | fresh h => exact .fresh (h.trans hcalm)
  | waiting deadline htarget hcontext h hfull hpool =>
    refine .waiting deadline htarget ?_ (h.calm (.refl _) hcalm) ?_ ?_
    . rw [hcalm.store_eq]
      exact hcontext
    . rw [hslots]
      exact hfull
    . rw [hcalm.link_eq]
      exact hpool
  | opening error due htarget hcontext h hdirect hsystem =>
    refine .opening error due htarget ?_ (h.calm (.refl _) hcalm) hdirect ?_
    . rw [hcalm.store_eq]
      exact hcontext
    . rw [hslots]
      exact hsystem
  | calling reply due htarget hcontext h hdirect hsystem =>
    refine .calling reply due htarget ?_ (h.calm (.refl _) hcalm) hdirect ?_
    . rw [hcalm.store_eq]
      exact hcontext
    . rw [hslots]
      exact hsystem

theorem abreast_park (h : start.Pending c o operation task.id system stage)
    : start.Abreast c o operation task.id (none, system.park task stage) := by
  apply Reaches.waits
  intro next hnext
  rw [stage_of_park hnext]
  exact h.calm (system.calm_park task stage)

theorem abreast_ending (hpaired : start.Paired c o) (reply : Except RpcError Reply)
    (htarget : start.operateBlocking o operation =
      direct.conclude .blocking ticket o operation reply)
    (hcontext : (system.store.object o).context = c) (h : start.Level c direct system)
    (hdirect : (direct.slots c .blocking).Holds ticket)
    (hsystem : (system.slots c .nonBlocking).Holds task.id)
    : start.Abreast c o operation task.id (system.workEnding task o operation reply) := by
  rw [h.store_eq] at hcontext
  obtain ⟨hresult, hlevel⟩ :=
    h.conclude operation hpaired.link_lt hpaired.mirrors hcontext hdirect hsystem reply
  rw [← htarget] at hresult hlevel
  have halike : Alike (start.operateBlocking o operation).1
      (system.conclude .nonBlocking task.id o operation reply).1 := by
    rw [hresult]
    apply Alike.same
  exact .ended halike hlevel

theorem abreast_calling (hpaired : start.Paired c o)
    (htarget : start.operateBlocking o operation = direct.callBlocking ticket o operation)
    (hcontext : (system.store.object o).context = c) (h : start.Level c direct system)
    (hdirect : (direct.slots c .blocking).Holds ticket)
    (hsystem : (system.slots c .nonBlocking).Holds task.id)
    : start.Abreast c o operation task.id (system.workCalling task o operation) := by
  unfold callBlocking at htarget
  unfold workCalling
  dsimp only at htarget ⊢
  rw [hcontext]
  rw [← h.store_eq, hcontext] at htarget
  generalize operation.request _ = request at htarget ⊢
  generalize (system.store.object o).reference = target at htarget ⊢
  obtain ⟨hreply, hlevel⟩ := h.ask ticket task.id target request
  rw [← hreply] at htarget
  have hcontext' : ((system.ask c .nonBlocking task.id target request).2.2.store.object o).context =
      c :=
    hcontext
  have hdirect' := direct.slots_ask c .blocking ticket target request c .blocking
  have hsystem' := system.slots_ask c .nonBlocking task.id target request c .nonBlocking
  split
  . apply abreast_ending hpaired _ htarget hcontext' hlevel
    . rw [hdirect']
      exact hdirect
    . rw [hsystem']
      exact hsystem
  . apply abreast_park
    apply Pending.calling _ _ htarget hcontext' hlevel
    . rw [hdirect']
      exact hdirect
    . rw [hsystem']
      exact hsystem

theorem abreast_opened (hpaired : start.Paired c o) (error : Option RpcError)
    (htarget : start.operateBlocking o operation =
      direct.openedBlocking ticket o operation error)
    (hcontext : (system.store.object o).context = c) (h : start.Level c direct system)
    (hdirect : ticket ∈ (direct.slots c .blocking).opening)
    (hsystem : task.id ∈ (system.slots c .nonBlocking).opening)
    : start.Abreast c o operation task.id (system.workOpened task o operation error) := by
  unfold openedBlocking at htarget
  unfold workOpened
  dsimp only at htarget ⊢
  rw [hcontext]
  rw [← h.store_eq, hcontext] at htarget
  cases error with
  | none =>
    have hlevel := h.connect hpaired.link_lt hdirect hsystem
    have hcontext' : ((system.connect c .nonBlocking task.id).store.object o).context = c :=
      hcontext
    apply abreast_calling hpaired htarget hcontext' hlevel
    . apply holds_connect _ hdirect
      rw [h.confined.length_eq]
      exact hpaired.link_lt
    . apply holds_connect _ hsystem
      rw [h.confined'.length_eq]
      exact hpaired.link_lt
  | some error =>
    apply Reaches.ended
    . rw [htarget]
      apply Alike.same
    . rw [htarget]
      exact h.cancelOpening hpaired.link_lt hpaired.mirrors hdirect hsystem

theorem abreast_opening (hpaired : start.Paired c o)
    (htarget : start.operateBlocking o operation = direct.openingBlocking ticket o operation)
    (hcontext : (system.store.object o).context = c) (h : start.Level c direct system)
    (hdirect : ticket ∈ (direct.slots c .blocking).opening)
    (hsystem : task.id ∈ (system.slots c .nonBlocking).opening)
    : start.Abreast c o operation task.id (system.workOpening task o operation) := by
  unfold openingBlocking at htarget
  unfold workOpening
  dsimp only at htarget ⊢
  rw [hcontext, h.server_eq]
  rw [← h.store_eq, hcontext] at htarget
  generalize ((direct.link c).server).nextOpening = opening at htarget ⊢
  obtain ⟨opening, server⟩ := opening
  have hlevel := h.setServer c server
  rw [← direct.setServer_slots c server] at hdirect
  rw [← system.setServer_slots c server] at hsystem
  dsimp only at htarget ⊢
  split
  . exact abreast_opened hpaired _ htarget hcontext hlevel hdirect hsystem
  . apply abreast_park
    exact .opening _ _ htarget hcontext hlevel hdirect hsystem

theorem exhausted_setSlots {flavor : Flavor} {slots : Slots}
    (h : slots.capacity = (system.slots c flavor).capacity)
    : ((system.setSlots c flavor slots).link c).pool.exhausted flavor =
        (system.link c).pool.exhausted flavor := by
  unfold System.slots at h
  unfold System.setSlots link at *
  dsimp only
  rw [getD_modify]
  split
  . unfold Pool.exhausted
    rw [Pool.slots_setSlots_self, h]
    cases flavor <;> rfl
  . rfl

theorem alike_exhausted (hpaired : start.Paired c o)
    : Alike (.error ((start.link c).pool.exhausted .blocking))
        (.error ((start.link c).pool.exhausted .nonBlocking)) := by
  have hcapacity : ((start.link c).pool.slots .blocking).capacity =
      ((start.link c).pool.slots .nonBlocking).capacity :=
    hpaired.mirrors.capacity_eq
  have hrefused := Alike.refused (start.link c).pool.timeout
    ((start.link c).pool.slots .nonBlocking).capacity
  unfold Pool.exhausted
  rw [hcapacity]
  exact hrefused

theorem abreast_refused (hpaired : start.Paired c o)
    (htarget : start.operateBlocking o operation =
      (.error ((start.link c).pool.exhausted .blocking), direct))
    (hcontext : (system.store.object o).context = c) (h : start.Level c direct system)
    (hpool : (system.link c).pool.exhausted .nonBlocking =
      (start.link c).pool.exhausted .nonBlocking)
    : start.Abreast c o operation task.id (system.workRefused task o) := by
  unfold workRefused
  dsimp only
  rw [hcontext]
  apply Reaches.ended
  . rw [htarget, hpool]
    exact alike_exhausted hpaired
  . rw [htarget]
    have hwithdraw : start.Level c direct
        (system.setSlots c .nonBlocking ((system.slots c .nonBlocking).withdraw task.id).2) :=
      h.resetSlots hpaired.link_lt Slots.stats_withdraw
    exact hwithdraw.calm (.refl _) (system.calm_stepSlots c .nonBlocking (·.withdraw task.id))

theorem abreast_full (hpaired : start.Paired c o) (deadline : Nat)
    (htarget : start.operateBlocking o operation =
      (.error ((start.link c).pool.exhausted .blocking), direct))
    (hcontext : (system.store.object o).context = c) (h : start.Level c direct system)
    (hfull : (system.slots c .nonBlocking).Full)
    (hpool : (system.link c).pool.exhausted .nonBlocking =
      (start.link c).pool.exhausted .nonBlocking)
    : start.Abreast c o operation task.id (system.workGranted task o operation deadline .full) := by
  unfold workGranted
  dsimp only
  split
  . exact abreast_refused hpaired htarget hcontext h hpool
  . apply abreast_park
    exact .waiting deadline htarget hcontext h hfull hpool

theorem abreast_asking (hpaired : start.Paired c o) (h : start.Calm system) (deadline : Nat)
    (htarget : start.operateBlocking o operation =
      acquiredBlocking o operation (start.acquireBlocking c))
    : start.Abreast c o operation task.id
        (system.workAsking task o operation deadline (·.ask task.id)) := by
  have hc := hpaired.link_lt
  have hcontext : (system.store.object o).context = c := by
    rw [h.store_eq]
    exact hpaired.context_eq
  have hlevel : start.Level c { start with nextTask := start.nextTask + 1 } system :=
    (Level.self start c).calm ⟨rfl, rfl, rfl⟩ h
  have hnumbered : { start with nextTask := start.nextTask + 1 }.slots c .blocking =
      start.slots c .blocking :=
    rfl
  obtain ⟨hsame, hstats⟩ := hpaired.mirrors.granted start.nextTask task.id
  have hdirect := Slots.granted_take (start.slots c .blocking) start.nextTask
  have hsystem := Slots.granted_ask (start.slots c .nonBlocking) task.id
  have hcapacity := Slots.capacity_ask (start.slots c .nonBlocking) task.id
  have hfull := @Slots.full_of_ask (start.slots c .nonBlocking) task.id
  rw [acquireBlocking_eq] at htarget
  unfold workAsking
  dsimp only at htarget ⊢
  rw [hnumbered] at htarget
  rw [hcontext, h.slots_eq]
  -- Both forms get the same grant, so that one case split serves both.
  generalize (start.slots c .blocking).take start.nextTask = taken at *
  generalize (start.slots c .nonBlocking).ask task.id = asked at *
  obtain ⟨grant, slots⟩ := taken
  obtain ⟨grant', slots'⟩ := asked
  obtain rfl : grant = grant' := hsame
  have hboth := hlevel.setSlots hc hstats
  have hslots (slots : Slots)
      : ({ start with nextTask := start.nextTask + 1 }.setSlots c .blocking slots).slots c
          .blocking = slots :=
    slots_setSlots_self _ _ _ hc
  have hslots' (slots : Slots)
      : (system.setSlots c .nonBlocking slots).slots c .nonBlocking = slots := by
    apply slots_setSlots_self
    rw [h.links_eq]
    exact hc
  cases grant with
  | lease =>
    refine abreast_calling hpaired htarget hcontext hboth ?_ ?_
    . rw [hslots]
      exact hdirect
    . rw [hslots']
      exact hsystem
  | opening =>
    have hopening := acquired_openBlocking
      ({ start with nextTask := start.nextTask + 1 }.setSlots c .blocking slots) start.nextTask o
      operation
    change acquiredBlocking o operation (openBlocking _ (start.store.object o).context _) = _
      at hopening
    rw [hpaired.context_eq] at hopening
    refine abreast_opening hpaired (htarget.trans hopening) hcontext hboth ?_ ?_
    . rw [hslots]
      exact hdirect
    . rw [hslots']
      exact hsystem
  | full =>
    obtain ⟨hfull, hcount⟩ := hfull rfl
    refine abreast_full hpaired deadline htarget hcontext (hlevel.resetSlots hc ?_) ?_ ?_
    . rw [h.slots_eq]
      exact hcount
    . rw [hslots']
      exact hfull
    . rw [← h.link_eq]
      apply exhausted_setSlots
      rw [h.slots_eq]
      exact hcapacity

theorem abreast_fresh (hpaired : start.Paired c o) (h : start.Calm system)
    (hstage : task.stage = .fresh)
    : start.Abreast c o operation task.id (system.workOn task o operation) := by
  have hlevel : start.Level c start system := (Level.self start c).calm (.refl _) h
  unfold workOn
  rw [hstage, h.store_eq]
  dsimp only
  rw [hpaired.context_eq]
  generalize hstart : start.store.start o operation = began
  obtain ⟨result | request, store⟩ := began
  . have htarget := operateBlocking_of_answered hstart
    apply Reaches.ended
    . rw [htarget]
      apply Alike.same
    . rw [htarget]
      exact hlevel.withStore store
  . have htarget := operateBlocking_of_asks hstart
    rw [hpaired.context_eq] at htarget
    exact abreast_asking hpaired h _ htarget

theorem abreast_on (hpaired : start.Paired c o) (htask : system.task? task.id = some task)
    (h : start.Pending c o operation task.id system task.stage)
    : start.Abreast c o operation task.id (system.workOn task o operation) := by
  have hidle : start.Abreast c o operation task.id (none, system) := by
    apply Reaches.waits
    intro other hother
    obtain rfl : task = other := Option.some.inj (htask.symm.trans hother)
    exact h
  generalize hstage : task.stage = stage at h
  cases h with
  | fresh h => exact abreast_fresh hpaired h hstage
  | waiting deadline htarget hcontext h hfull hpool =>
    unfold workOn
    rw [hstage]
    dsimp only
    rw [hcontext]
    split
    . -- Whoever was woken asks again, and still finds all connections in use.
      obtain ⟨hgrant, hfull, hstats⟩ := hfull.resume task.id
      have hcapacity := Slots.capacity_perform (system.slots c .nonBlocking) (.resume task.id)
      unfold Slots.perform at hcapacity
      unfold workAsking
      dsimp only at hcapacity ⊢
      rw [hcontext, hgrant]
      refine abreast_full hpaired deadline htarget hcontext
        (h.resetSlots hpaired.link_lt hstats) ?_ ?_
      . rw [slots_setSlots_self]
        . exact hfull
        . rw [h.confined'.length_eq]
          exact hpaired.link_lt
      . rw [exhausted_setSlots hcapacity]
        exact hpool
    . split
      . exact abreast_refused hpaired htarget hcontext h hpool
      . exact hidle
  | opening error due htarget hcontext h hdirect hsystem =>
    unfold workOn
    rw [hstage]
    dsimp only
    split
    . exact abreast_opened hpaired error htarget hcontext h hdirect hsystem
    . exact hidle
  | calling reply due htarget hcontext h hdirect hsystem =>
    unfold workOn
    rw [hstage]
    dsimp only
    split
    . exact abreast_ending hpaired reply htarget hcontext h hdirect hsystem
    . exact hidle

end

end System

end MediaProxy
