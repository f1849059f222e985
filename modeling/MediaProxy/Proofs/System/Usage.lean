import MediaProxy.Proofs.Pool.Accounting
import MediaProxy.Proofs.System.Frame

/-!
This module contains accounts: which calls begin and which leases begin and end while a system goes
on.
-/

namespace MediaProxy

@[ext]
structure Usage where
  acquired : Int
  released : Int
  discarded : Int
  deriving DecidableEq

namespace Usage

instance : Zero Usage where
  zero := ⟨0, 0, 0⟩

instance : Add Usage where
  add a b := ⟨a.acquired + b.acquired, a.released + b.released, a.discarded + b.discarded⟩

instance : Sub Usage where
  sub a b := ⟨a.acquired - b.acquired, a.released - b.released, a.discarded - b.discarded⟩

@[simp]
theorem acquired_zero : (0 : Usage).acquired = 0 := rfl

@[simp]
theorem released_zero : (0 : Usage).released = 0 := rfl

@[simp]
theorem discarded_zero : (0 : Usage).discarded = 0 := rfl

@[simp]
theorem acquired_add (a b : Usage) : (a + b).acquired = a.acquired + b.acquired := rfl

@[simp]
theorem released_add (a b : Usage) : (a + b).released = a.released + b.released := rfl

@[simp]
theorem discarded_add (a b : Usage) : (a + b).discarded = a.discarded + b.discarded := rfl

@[simp]
theorem acquired_sub (a b : Usage) : (a - b).acquired = a.acquired - b.acquired := rfl

@[simp]
theorem released_sub (a b : Usage) : (a - b).released = a.released - b.released := rfl

@[simp]
theorem discarded_sub (a b : Usage) : (a - b).discarded = a.discarded - b.discarded := rfl

theorem add_zero (a : Usage) : a + 0 = a := by
  rw [Usage.ext_iff]
  simp only [acquired_add, released_add, discarded_add, acquired_zero, released_zero,
    discarded_zero]
  omega

theorem zero_add (a : Usage) : 0 + a = a := by
  rw [Usage.ext_iff]
  simp only [acquired_add, released_add, discarded_add, acquired_zero, released_zero,
    discarded_zero]
  omega

theorem add_assoc (a b c : Usage) : a + b + c = a + (b + c) := by
  rw [Usage.ext_iff]
  simp only [acquired_add, released_add, discarded_add]
  omega

theorem sub_self (a : Usage) : a - a = 0 := by
  rw [Usage.ext_iff]
  simp only [acquired_sub, released_sub, discarded_sub, acquired_zero, released_zero,
    discarded_zero]
  omega

theorem add_sub_cancel_left (a b : Usage) : a + b - a = b := by
  rw [Usage.ext_iff]
  simp only [acquired_add, released_add, discarded_add, acquired_sub, released_sub, discarded_sub]
  omega

theorem sub_add_sub (a b c : Usage) : (b - a) + (c - b) = c - a := by
  rw [Usage.ext_iff]
  simp only [acquired_add, released_add, discarded_add, acquired_sub, released_sub, discarded_sub]
  omega

theorem lease_add_return (discarded : Int)
    : (⟨1, 0, 0⟩ : Usage) + ⟨0, 1, discarded⟩ = ⟨1, 1, discarded⟩ := by
  rw [Usage.ext_iff]
  simp only [acquired_add, released_add, discarded_add]
  omega

end Usage

abbrev Spending := Nat → Flavor → Usage

namespace Spending

def nothing : Spending := fun _ _ => 0

def only (c : Nat) (flavor : Flavor) (usage : Usage) : Spending :=
  fun d other => if c = d ∧ flavor = other then usage else 0

def add (a b : Spending) : Spending := fun c flavor => a c flavor + b c flavor

theorem add_nothing (a : Spending) : a.add nothing = a := by
  funext c flavor
  apply Usage.add_zero

theorem nothing_add (a : Spending) : nothing.add a = a := by
  funext c flavor
  apply Usage.zero_add

theorem add_assoc (a b c : Spending) : (a.add b).add c = a.add (b.add c) := by
  funext d flavor
  apply Usage.add_assoc

theorem only_add_only (c : Nat) (flavor : Flavor) (a b : Usage)
    : (Spending.only c flavor a).add (.only c flavor b) = .only c flavor (a + b) := by
  funext d other
  unfold add Spending.only
  split
  . rfl
  . apply Usage.add_zero

theorem only_zero (c : Nat) (flavor : Flavor) : Spending.only c flavor 0 = nothing := by
  funext d other
  unfold Spending.only nothing
  split <;> rfl

end Spending

def Grant.usage : Grant → Usage
  | .lease => ⟨1, 0, 0⟩
  | _ => 0

namespace Slots

variable {slots : Slots} {ticket : Ticket}

def usage (slots : Slots) : Usage :=
  ⟨slots.acquired, slots.released, slots.discarded⟩

theorem usage_of_counters {slots' : Slots} (h : slots'.counters = slots.counters)
    : slots'.usage = slots.usage := by
  unfold counters at h
  unfold usage
  simp only [Prod.mk.injEq] at h
  rw [h.1, h.2.1, h.2.2.2]

theorem usage_lend (connection : Nat)
    : (slots.lend ticket connection).usage = slots.usage + ⟨1, 0, 0⟩ := by
  simp [usage, lend, Usage.ext_iff]

theorem usage_take (slots : Slots) (ticket : Ticket)
    : (slots.take ticket).2.usage = slots.usage + (slots.take ticket).1.usage := by
  rcases take_cases slots ticket with ⟨_, _, _, htake⟩ | ⟨_, _, htake⟩ | ⟨_, _, htake⟩
  . rw [htake]
    apply usage_lend
  . rw [htake]
    exact (Usage.add_zero _).symm
  . rw [htake]
    exact (Usage.add_zero _).symm

theorem usage_ask (slots : Slots) (ticket : Ticket)
    : (slots.ask ticket).2.usage = slots.usage + (slots.ask ticket).1.usage := by
  obtain ⟨_, hask⟩ := ask_eq slots ticket
  rw [hask]
  apply usage_take { slots with permit := false }

theorem usage_resume (slots : Slots) (ticket : Ticket)
    : (slots.resume ticket).2.usage = slots.usage + (slots.resume ticket).1.usage :=
  usage_ask { slots with woken := slots.woken.erase ticket } ticket

theorem usage_opened (connection : Nat) (h : ticket ∈ slots.opening)
    : (slots.opened ticket connection).usage = slots.usage + ⟨1, 0, 0⟩ := by
  rw [opened_of_mem connection h]
  apply usage_lend connection

theorem usage_wake : slots.wake.2.usage = slots.usage :=
  usage_of_counters (counters_wake slots)

theorem usage_giveBack {lease : Lease} (h : slots.lease? ticket = some lease)
    : (slots.giveBack ticket).2.usage =
        slots.usage + ⟨0, 1, if lease.broken then 1 else 0⟩ := by
  rw [giveBack_of_lease? h, usage_wake]
  unfold ended
  split <;> simp [usage, Usage.ext_iff]

/-!
## What an acquisition gets
-/

def Holds (slots : Slots) (ticket : Ticket) : Prop :=
  ∃ lease, slots.lease? ticket = some lease ∧ lease.broken = false

def Granted (slots : Slots) (ticket : Ticket) : Grant → Prop
  | .lease => slots.Holds ticket
  | .opening => ticket ∈ slots.opening
  | .full => True

theorem holds_lend (connection : Nat) : (slots.lend ticket connection).Holds ticket :=
  ⟨_, lease?_lend connection, rfl⟩

theorem granted_take (slots : Slots) (ticket : Ticket)
    : (slots.take ticket).2.Granted ticket (slots.take ticket).1 := by
  rcases take_cases slots ticket with ⟨_, _, _, htake⟩ | ⟨_, _, htake⟩ | ⟨_, _, htake⟩
  . rw [htake]
    exact holds_lend _
  . rw [htake]
    apply List.mem_cons_self
  . rw [htake]
    trivial

theorem granted_ask (slots : Slots) (ticket : Ticket)
    : (slots.ask ticket).2.Granted ticket (slots.ask ticket).1 := by
  obtain ⟨_, hask⟩ := ask_eq slots ticket
  rw [hask]
  have htake := granted_take { slots with permit := false } ticket
  generalize ({ slots with permit := false }.take ticket).1 = grant at htake
  cases grant <;> exact htake

theorem granted_resume (slots : Slots) (ticket : Ticket)
    : (slots.resume ticket).2.Granted ticket (slots.resume ticket).1 :=
  granted_ask { slots with woken := slots.woken.erase ticket } ticket

theorem holds_opened (connection : Nat) (h : ticket ∈ slots.opening)
    : (slots.opened ticket connection).Holds ticket := by
  rw [opened_of_mem connection h]
  exact holds_lend connection

end Slots

namespace System

/-!
## Calls and leases between two moments
-/

def calls (system : System) : List CallRecord :=
  system.history.filterMap fun
    | .call record => some record
    | _ => none

def answerTo (system : System) (record : CallRecord) : Except RpcError Reply :=
  ((system.link record.context).server.answer record.target record.request).1

def begun (before after : System) : List (CallRecord × Except RpcError Reply) :=
  (after.calls.take (after.calls.length - before.calls.length)).reverse.map fun record =>
    (record, before.answerTo record)

def spent (before after : System) : Spending :=
  fun c flavor => (after.slots c flavor).usage - (before.slots c flavor).usage

theorem spent_trans (first second third : System)
    : (first.spent second).add (second.spent third) = first.spent third := by
  funext c flavor
  apply Usage.sub_add_sub

theorem spent_of_slots_eq {before after : System}
    (h : ∀ c flavor, (after.slots c flavor).usage = (before.slots c flavor).usage)
    : before.spent after = .nothing := by
  funext c flavor
  unfold spent
  rw [h]
  apply Usage.sub_self

structure Passes (before after : System) (calls : List CallRecord) (spending : Spending) : Prop where
  calls_eq : after.calls = calls ++ before.calls
  spent_eq : before.spent after = spending
  answerTo_eq : calls = [] → after.answerTo = before.answerTo

namespace Passes

theorem refl (system : System) : system.Passes system [] .nothing :=
  ⟨rfl, spent_of_slots_eq fun _ _ => rfl, fun _ => rfl⟩

theorem trans {first second third : System} {calls calls' : List CallRecord}
    {spending spending' : Spending} (h : first.Passes second calls spending)
    (h' : second.Passes third calls' spending')
    : first.Passes third (calls' ++ calls) (spending.add spending') := by
  refine ⟨?_, ?_, ?_⟩
  . rw [h'.calls_eq, h.calls_eq, List.append_assoc]
  . rw [← h.spent_eq, ← h'.spent_eq, spent_trans]
  . intro hnil
    -- Answers change with calls only, so there must be none on either part of the way.
    obtain ⟨hcalls', hcalls⟩ := List.append_eq_nil_iff.1 hnil
    rw [h'.answerTo_eq hcalls', h.answerTo_eq hcalls]

theorem quiet_trans {first second third : System} {calls : List CallRecord} {spending : Spending}
    (h : first.Passes second [] .nothing) (h' : second.Passes third calls spending)
    : first.Passes third calls spending := by
  have hboth := h.trans h'
  rw [List.append_nil, Spending.nothing_add] at hboth
  exact hboth

theorem trans_quiet {first second third : System} {calls : List CallRecord} {spending : Spending}
    (h : first.Passes second calls spending) (h' : second.Passes third [] .nothing)
    : first.Passes third calls spending := by
  have hboth := h.trans h'
  rw [List.nil_append, Spending.add_nothing] at hboth
  exact hboth

theorem begun_eq {before after : System} {calls : List CallRecord} {spending : Spending}
    (h : before.Passes after calls spending)
    : before.begun after = calls.reverse.map fun record => (record, before.answerTo record) := by
  unfold begun
  rw [h.calls_eq, List.length_append, Nat.add_sub_cancel, List.take_left]

theorem of_links_eq {before after : System} (hlinks : after.links = before.links)
    (hcalls : after.calls = before.calls)
    : before.Passes after [] .nothing := by
  refine ⟨hcalls, ?_, ?_⟩
  . apply spent_of_slots_eq
    intro c flavor
    unfold System.slots link
    rw [hlinks]
  . intro _
    funext record
    unfold answerTo link
    rw [hlinks]

end Passes

/-!
## Small steps
-/

section
variable (system : System)

theorem passes_wake (id : TaskId) : system.Passes (system.wake id) [] .nothing := by
  obtain ⟨ready, hwake, _⟩ := system.wake_eq id
  rw [hwake]
  exact .of_links_eq rfl rfl

theorem passes_resolve (id : TaskId) (name : String) (continuation : Continuation)
    (result : Except Error Outcome)
    : system.Passes (system.resolve id name continuation result) [] .nothing := by
  unfold resolve
  split
  . exact .of_links_eq rfl rfl
  . exact .of_links_eq rfl rfl
  . exact .of_links_eq rfl rfl
  . dsimp only
    split
    . exact .of_links_eq rfl rfl
    . apply Passes.quiet_trans _ (passes_wake _ _)
      exact .of_links_eq rfl rfl
  . exact .of_links_eq rfl rfl
  . exact .of_links_eq rfl rfl

theorem passes_finish (task : Task) (result : Except Error Outcome)
    : system.Passes (system.finish task result) [] .nothing := by
  apply Passes.quiet_trans _ (passes_resolve _ _ _ _ _)
  exact .of_links_eq rfl rfl

theorem passes_park (task : Task) (stage : Stage)
    : system.Passes (system.park task stage) [] .nothing :=
  .of_links_eq rfl rfl

theorem link_setServer (c : Nat) (server : Server) (d : Nat)
    : (system.setServer c server).link d =
        if c = d ∧ c < system.links.length then { system.link d with server }
        else system.link d :=
  getD_modify _ _ _ _ _

theorem server_setSlots (c : Nat) (flavor : Flavor) (slots : Slots) (d : Nat)
    : ((system.setSlots c flavor slots).link d).server = (system.link d).server := by
  unfold setSlots link
  dsimp only
  rw [getD_modify]
  split <;> rfl

theorem answer_congr {server server' : Server} (hscript : server'.script = server.script)
    (htokens : server'.tokens = server.tokens) (target : Reference) (request : Request)
    : (server'.answer target request).1 = (server.answer target request).1 := by
  unfold Server.answer
  rw [hscript]
  split
  . rfl
  . unfold Server.unscripted
    rw [htokens]
    cases request <;> rfl

theorem passes_setServer (c : Nat) {server : Server}
    (hscript : server.script = (system.link c).server.script)
    (htokens : server.tokens = (system.link c).server.tokens)
    : system.Passes (system.setServer c server) [] .nothing := by
  refine ⟨rfl, ?_, ?_⟩
  . apply spent_of_slots_eq
    intro d flavor
    rw [setServer_slots]
  . intro _
    funext record
    unfold answerTo
    rw [link_setServer]
    split
    . next h =>
      rw [h.1] at hscript htokens
      apply answer_congr hscript htokens
    . rfl

theorem passes_setSlots {c : Nat} (flavor : Flavor) {slots : Slots} {usage : Usage}
    (hc : c < system.links.length) (h : slots.usage = (system.slots c flavor).usage + usage)
    : system.Passes (system.setSlots c flavor slots) [] (.only c flavor usage) := by
  refine ⟨rfl, ?_, ?_⟩
  . funext d other
    unfold spent Spending.only
    rw [slots_setSlots]
    by_cases hsame : c = d ∧ flavor = other
    . obtain ⟨rfl, rfl⟩ := hsame
      rw [if_pos ⟨rfl, rfl, hc⟩, if_pos ⟨rfl, rfl⟩, h]
      apply Usage.add_sub_cancel_left
    . have hnot : ¬(c = d ∧ flavor = other ∧ c < system.links.length) :=
        fun hall => hsame ⟨hall.1, hall.2.1⟩
      rw [if_neg hnot, if_neg hsame]
      apply Usage.sub_self
  . intro _
    funext record
    unfold answerTo
    rw [server_setSlots]

theorem passes_stepSlots {c : Nat} (flavor : Flavor) (step : Slots → Option Ticket × Slots)
    {usage : Usage} (hc : c < system.links.length)
    (h : (step (system.slots c flavor)).2.usage = (system.slots c flavor).usage + usage)
    : system.Passes (system.stepSlots c flavor step) [] (.only c flavor usage) := by
  have hset := system.passes_setSlots flavor hc h
  unfold stepSlots
  dsimp only
  split
  . exact hset
  . exact hset.trans_quiet (passes_wake _ _)

end

end System

end MediaProxy
