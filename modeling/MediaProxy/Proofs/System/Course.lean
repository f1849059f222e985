import MediaProxy.Proofs.Object.Reply
import MediaProxy.Proofs.System.Usage

/-!
This module contains the course of operations on objects, blocking or not: the calls that they begin,
the leases that they take and give back, and what they return.
-/

namespace MediaProxy

structure Errand where
  object : ObjectId
  operation : Operation
  reference : Reference
  context : Nat
  config : Config

namespace Errand

def request (errand : Errand) : Request :=
  errand.operation.request errand.config

theorem request_eq (errand : Errand)
    : errand.operation.request errand.config = errand.request :=
  rfl

structure Asks (errand : Errand) (flavor : Flavor) (record : CallRecord) : Prop where
  flavor_eq : record.flavor = flavor
  context_eq : record.context = errand.context
  target_eq : record.target = errand.reference
  request_eq : record.request = errand.request

inductive Course (errand : Errand) (flavor : Flavor) :
    List (CallRecord × Except RpcError Reply) → Spending → Except Error Value → Prop where
  | answered {result : Except Error Value} (h : Local result) :
    errand.Course flavor [] .nothing result
  | refused (detail : String) :
    errand.Course flavor [] .nothing (.error (.resourceExhausted detail))
  | unopened (error : RpcError) :
    errand.Course flavor [] .nothing (.error (.ofRpc error))
  | called {record : CallRecord} {reply : Except RpcError Reply} {result : Except Error Value}
    (hrecord : errand.Asks flavor record) (h : errand.operation.Reported reply result) :
    errand.Course flavor [(record, reply)]
      (.only errand.context flavor ⟨1, 1, if errand.operation.spoils reply then 1 else 0⟩) result

end Errand

namespace System

def errand (system : System) (o : ObjectId) (operation : Operation) : Errand where
  object := o
  operation := operation
  reference := (system.store.object o).reference
  context := (system.store.object o).context
  config := (system.store.context (system.store.object o).context).config

structure Knows (system : System) (errand : Errand) : Prop where
  object_lt : errand.object < system.store.objects.length
  context_lt : errand.context < system.store.contexts.length
  link_lt : errand.context < system.links.length
  reference_eq : (system.store.object errand.object).reference = errand.reference
  context_eq : (system.store.object errand.object).context = errand.context
  config_eq : (system.store.context errand.context).config = errand.config

theorem Sound.knows {system : System} (h : system.Sound) {o : ObjectId}
    (ho : o < system.store.objects.length) (operation : Operation)
    : system.Knows (system.errand o operation) := by
  have hcontext := h.store.object_context_lt o
  refine ⟨ho, hcontext, ?_, rfl, rfl, rfl⟩
  rw [h.length_links]
  exact hcontext

theorem Knows.grows {before after : System} {errand : Errand} (h : before.Knows errand)
    (hgrows : before.Grows after) : after.Knows errand := by
  have hidentity := hgrows.identity_eq errand.object h.object_lt
  unfold MediaObject.identity at hidentity
  simp only [Prod.mk.injEq] at hidentity
  obtain ⟨hreference, hcontext, _⟩ := hidentity
  refine ⟨Nat.lt_of_lt_of_le h.object_lt hgrows.length_objects_le,
    Nat.lt_of_lt_of_le h.context_lt hgrows.length_contexts_le,
    Nat.lt_of_lt_of_le h.link_lt hgrows.length_links_le, ?_, ?_, ?_⟩
  . rw [hreference]
    exact h.reference_eq
  . rw [hcontext]
    exact h.context_eq
  . rw [hgrows.context_eq errand.context h.context_lt]
    exact h.config_eq

theorem Knows.setSlots {system : System} {errand : Errand} (h : system.Knows errand) (c : Nat)
    (flavor : Flavor) (slots : Slots) : (system.setSlots c flavor slots).Knows errand :=
  { h with link_lt := by rw [length_setSlots]; exact h.link_lt }

theorem Knows.setServer {system : System} {errand : Errand} (h : system.Knows errand) (c : Nat)
    (server : Server) : (system.setServer c server).Knows errand :=
  { h with link_lt := by rw [length_setServer]; exact h.link_lt }

/-!
## Calls
-/

theorem store_ask (system : System) (c : Nat) (flavor : Flavor) (lease : Ticket)
    (target : Reference) (request : Request)
    : (system.ask c flavor lease target request).2.2.store = system.store :=
  rfl

theorem slots_ask (system : System) (c : Nat) (flavor : Flavor) (lease : Ticket)
    (target : Reference) (request : Request) (d : Nat) (other : Flavor)
    : (system.ask c flavor lease target request).2.2.slots d other = system.slots d other :=
  system.setServer_slots c _ d other

theorem Knows.ask {system : System} {errand : Errand} (h : system.Knows errand) (flavor : Flavor)
    (lease : Ticket)
    : (system.ask errand.context flavor lease errand.reference errand.request).2.2.Knows errand :=
  { h.setServer errand.context
      ((system.link errand.context).server.answer errand.reference errand.request).2.2 with }

theorem passes_ask (system : System) (errand : Errand) (flavor : Flavor) (lease : Ticket)
    : ∃ record, errand.Asks flavor record ∧
        system.answerTo record =
          (system.ask errand.context flavor lease errand.reference errand.request).1 ∧
        system.Passes
          (system.ask errand.context flavor lease errand.reference errand.request).2.2 [record]
          .nothing := by
  refine ⟨_, ⟨rfl, rfl, rfl, rfl⟩, rfl, rfl, ?_, ?_⟩
  . apply spent_of_slots_eq
    intro d other
    rw [slots_ask]
  . intro hnil
    cases hnil

theorem lease?_judge (outcome : Except RpcError Reply) {system : System} {c : Nat} {flavor : Flavor}
    {ticket : Ticket} (hc : c < system.links.length)
    (h : (system.slots c flavor).Holds ticket)
    : ∃ lease, ((system.judge c flavor ticket outcome).slots c flavor).lease? ticket = some lease ∧
        (lease.broken = true ↔ ∃ error, outcome = .error error ∧ error.isFault = true) ∧
        system.Passes (system.judge c flavor ticket outcome) [] .nothing := by
  obtain ⟨lease, hlease, hbroken⟩ := h
  unfold judge
  cases outcome with
  | ok reply => exact ⟨lease, hlease, by simp [hbroken], .refl system⟩
  | error error =>
    dsimp only
    split
    . next hfault =>
      rw [slots_setSlots_self system flavor _ hc, Slots.lease?_markBroken, hlease]
      have hticket := (Slots.mem_leases_of_lease? hlease).2
      refine ⟨{ lease with broken := true }, by simp [hticket], by simp [hfault], ?_⟩
      have hpasses : system.Passes
          (system.setSlots c flavor ((system.slots c flavor).markBroken ticket)) [] _ :=
        system.passes_setSlots flavor hc (Usage.add_zero _).symm
      rw [Spending.only_zero] at hpasses
      exact hpasses
    . next hfault => exact ⟨lease, hlease, by simp [hbroken, hfault], .refl system⟩

theorem fault_iff_spoils (operation : Operation) (request : Request)
    (reply : Except RpcError Reply)
    : (∃ error, reply.bind (operation.expect request) = .error error ∧ error.isFault = true) ↔
        operation.spoils reply = true := by
  cases reply with
  | error error =>
    cases error <;> simp [Except.bind, Operation.spoils, RpcError.isFault]
  | ok reply =>
    rw [Except.bind]
    by_cases hfits : operation.fits reply
    . rw [Operation.expect_of_fits hfits]
      simp [Operation.spoils, hfits]
    . have hnot : operation.fits reply = false := by simpa using hfits
      obtain ⟨message, hexpect⟩ := Operation.expect_of_not_fits hnot request
      rw [hexpect]
      simp [Operation.spoils, hnot, RpcError.isFault]

theorem store_judge (system : System) (c : Nat) (flavor : Flavor) (lease : Ticket)
    (outcome : Except RpcError Reply)
    : (system.judge c flavor lease outcome).store = system.store := by
  unfold judge
  split
  . rfl
  . split <;> rfl

theorem length_judge (system : System) (c : Nat) (flavor : Flavor) (lease : Ticket)
    (outcome : Except RpcError Reply)
    : (system.judge c flavor lease outcome).links.length = system.links.length := by
  unfold judge
  split
  . rfl
  . split
    . apply length_setSlots
    . rfl

theorem store_wake (system : System) (id : TaskId) : (system.wake id).store = system.store := by
  obtain ⟨ready, hwake, _⟩ := system.wake_eq id
  rw [hwake]

theorem store_resolve_of_heldBy (system : System) (id : TaskId) (name : String)
    (continuation : Continuation) {result : Except Error Outcome} (h : heldBy result = [])
    : (system.resolve id name continuation result).store = system.store := by
  unfold resolve Continuation.resolve
  by_cases hresolved : continuation.resolved = true
  . rw [if_pos hresolved]
  . rw [if_neg hresolved]
    unfold Handler.react
    cases continuation.handler with
    | callback => rfl
    | parts => cases result <;> rfl
    | channel kept =>
      cases kept with
      | false =>
        change (system.letGo (heldBy result)).store = system.store
        rw [h]
        rfl
      | true =>
        dsimp only
        rw [if_pos rfl]
        dsimp only
        split
        . rfl
        . apply store_wake

theorem store_resolve_error (system : System) (id : TaskId) (name : String)
    (continuation : Continuation) (error : Error)
    : (system.resolve id name continuation (.error error)).store = system.store :=
  system.store_resolve_of_heldBy id name continuation rfl

theorem store_stepSlots (system : System) (c : Nat) (flavor : Flavor)
    (step : Slots → Option Ticket × Slots)
    : (system.stepSlots c flavor step).store = system.store := by
  unfold stepSlots
  dsimp only
  split
  . rfl
  . apply store_wake

theorem passes_conclude {system : System} {errand : Errand} (h : system.Knows errand)
    {flavor : Flavor} {ticket : Ticket}
    (hlease : (system.slots errand.context flavor).Holds ticket) (reply : Except RpcError Reply)
    : system.Passes (system.conclude flavor ticket errand.object errand.operation reply).2 []
        (.only errand.context flavor
          ⟨0, 1, if errand.operation.spoils reply then 1 else 0⟩) := by
  unfold conclude
  dsimp only
  rw [h.context_eq, h.config_eq]
  generalize errand.operation.request errand.config = request
  obtain ⟨lease, hfound, hbroken, hjudge⟩ :=
    lease?_judge (reply.bind (errand.operation.expect request)) h.link_lt hlease
  rw [fault_iff_spoils] at hbroken
  have hgive := Slots.usage_giveBack hfound
  -- Until now the lease was not marked, so its mark is what the call says.
  have hspoils : lease.broken = errand.operation.spoils reply := Bool.eq_iff_iff.2 hbroken
  rw [hspoils] at hgive
  apply hjudge.quiet_trans
  apply Passes.trans_quiet (passes_stepSlots _ flavor (·.giveBack ticket) _ hgive)
  . exact .of_links_eq rfl rfl
  . rw [length_judge]
    exact h.link_lt

theorem reported_conclude {system : System} {errand : Errand} (h : system.Knows errand)
    (flavor : Flavor) (ticket : Ticket) (reply : Except RpcError Reply)
    (hdecoders : (system.store.decoders errand.context).Faithful)
    : errand.operation.Reported reply
        (system.conclude flavor ticket errand.object errand.operation reply).1 := by
  unfold conclude
  dsimp only
  rw [store_stepSlots, store_judge]
  apply Store.reported_conclude
  rw [h.context_eq]
  exact hdecoders

theorem passes_ask_conclude {system : System} {errand : Errand} (h : system.Knows errand)
    {flavor : Flavor} {lease : Ticket}
    (hlease : (system.slots errand.context flavor).Holds lease)
    (hdecoders : (system.store.decoders errand.context).Faithful)
    {reply : Except RpcError Reply} {pace : Pace} {asked : System}
    (hask : system.ask errand.context flavor lease errand.reference errand.request =
      (reply, pace, asked))
    : ∃ record, errand.Asks flavor record ∧ system.answerTo record = reply ∧
        system.Passes (asked.conclude flavor lease errand.object errand.operation reply).2 [record]
          (.only errand.context flavor ⟨0, 1, if errand.operation.spoils reply then 1 else 0⟩) ∧
        errand.operation.Reported reply
          (asked.conclude flavor lease errand.object errand.operation reply).1 := by
  obtain ⟨record, hrecord, hanswer, hpasses⟩ := system.passes_ask errand flavor lease
  have hknows := h.ask flavor lease
  rw [← system.slots_ask errand.context flavor lease errand.reference errand.request] at hlease
  rw [← system.store_ask errand.context flavor lease errand.reference errand.request] at hdecoders
  rw [hask] at hanswer hpasses hknows hlease hdecoders
  have hconclude := hpasses.trans (passes_conclude hknows hlease reply)
  rw [List.nil_append, Spending.nothing_add] at hconclude
  exact ⟨record, hrecord, hanswer, hconclude, reported_conclude hknows _ _ _ hdecoders⟩

/-!
## Acquisitions
-/

theorem passes_connect {system : System} {c : Nat} (hc : c < system.links.length)
    {flavor : Flavor} {ticket : Ticket} (h : ticket ∈ (system.slots c flavor).opening)
    : system.Passes (system.connect c flavor ticket) [] (.only c flavor ⟨1, 0, 0⟩) := by
  have hserver : system.Passes (system.setServer c (system.link c).server.connected.2) [] .nothing :=
    system.passes_setServer c rfl rfl
  unfold connect
  dsimp only
  apply hserver.quiet_trans
  apply passes_setSlots
  . rw [length_setServer]
    exact hc
  . rw [setServer_slots]
    apply Slots.usage_opened _ h

theorem holds_connect {system : System} {c : Nat} (hc : c < system.links.length)
    {flavor : Flavor} {ticket : Ticket} (h : ticket ∈ (system.slots c flavor).opening)
    : ((system.connect c flavor ticket).slots c flavor).Holds ticket := by
  unfold connect
  dsimp only
  rw [slots_setSlots_self]
  . apply Slots.holds_opened _ h
  . rw [length_setServer]
    exact hc

theorem passes_nextOpening (system : System) (c : Nat)
    : system.Passes (system.setServer c (system.link c).server.nextOpening.2) [] .nothing := by
  unfold Server.nextOpening
  split
  . exact system.passes_setServer c rfl rfl
  . apply system.passes_setServer c rfl rfl

theorem passes_cancelOpening (system : System) {c : Nat} (hc : c < system.links.length)
    (flavor : Flavor) (ticket : Ticket)
    : system.Passes (system.stepSlots c flavor (·.cancelOpening ticket)) [] .nothing := by
  have hpasses := system.passes_stepSlots flavor (·.cancelOpening ticket) hc
    ((Slots.usage_of_counters (Slots.counters_cancelOpening _ ticket)).trans
      (Usage.add_zero _).symm)
  rw [Spending.only_zero] at hpasses
  exact hpasses

theorem passes_withdraw (system : System) {c : Nat} (hc : c < system.links.length)
    (flavor : Flavor) (ticket : Ticket)
    : system.Passes (system.stepSlots c flavor (·.withdraw ticket)) [] .nothing := by
  have hpasses := system.passes_stepSlots flavor (·.withdraw ticket) hc
    ((Slots.usage_of_counters (Slots.counters_withdraw _ ticket)).trans (Usage.add_zero _).symm)
  rw [Spending.only_zero] at hpasses
  exact hpasses

theorem store_acquireBlocking (system : System) (c : Nat)
    : (system.acquireBlocking c).2.store = system.store := by
  rw [acquireBlocking_eq]
  unfold openBlocking
  dsimp only
  split
  . rfl
  . split
    . rfl
    . apply store_stepSlots
  . rfl

end System

end MediaProxy
