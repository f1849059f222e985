import MediaProxy.Proofs.Pool.Move

/-!
This module contains the bookkeeping of connections: what their counters say at any time, and that an
acquisition that ends without a lease leaves no trace in them.
-/

namespace MediaProxy

namespace Slots

structure Balanced (slots : Slots) : Prop where
  leased_eq : slots.leased = slots.leases.length + slots.opening.length
  acquired_eq : slots.acquired = slots.released + slots.leases.length
  created_eq : slots.created = slots.discarded + slots.idle.length + slots.leases.length
  capacity_le : slots.idle.length + slots.leased ≤ slots.capacity

namespace Balanced

theorem lend_idle {slots : Slots} (h : slots.Balanced) {connection : Nat} {idle : List Nat}
    (hidle : slots.idle = connection :: idle) (ticket : Ticket)
    : ({ slots with idle, leased := slots.leased + 1 }.lend ticket connection).Balanced := by
  obtain ⟨hleased, hacquired, hcreated, hcapacity⟩ := h
  rw [hidle, List.length_cons] at hcreated hcapacity
  constructor <;> simp only [lend, List.length_cons] <;> omega

theorem reserve {slots : Slots} (h : slots.Balanced) (hidle : slots.idle = [])
    (hroom : slots.leased < slots.capacity) (ticket : Ticket)
    : { slots with
        leased := slots.leased + 1
        opening := ticket :: slots.opening }.Balanced := by
  obtain ⟨hleased, hacquired, hcreated, hcapacity⟩ := h
  constructor
  . simp only [List.length_cons]
    omega
  . exact hacquired
  . exact hcreated
  . simp only [hidle, List.length_nil]
    omega

theorem take {slots : Slots} (h : slots.Balanced) (ticket : Ticket)
    : (slots.take ticket).2.Balanced := by
  rcases take_cases slots ticket with ⟨_, _, hidle, htake⟩ | ⟨hidle, hroom, htake⟩ | ⟨_, _, htake⟩
  . rw [htake]
    exact h.lend_idle hidle ticket
  . rw [htake]
    exact h.reserve hidle hroom ticket
  . rw [htake]
    exact h

theorem queued {slots : Slots} (h : slots.Balanced) (waiting woken : List Ticket) (permit : Bool)
    : { slots with waiting, woken, permit }.Balanced :=
  ⟨h.leased_eq, h.acquired_eq, h.created_eq, h.capacity_le⟩

theorem ask {slots : Slots} (h : slots.Balanced) (ticket : Ticket)
    : (slots.ask ticket).2.Balanced := by
  have hpermit := h.queued slots.waiting slots.woken false
  obtain ⟨_, hask⟩ := ask_eq slots ticket
  rw [hask]
  apply (hpermit.take ticket).queued

theorem wake {slots : Slots} (h : slots.Balanced) : slots.wake.2.Balanced := by
  obtain ⟨_, _, _, hwake⟩ := wake_eq slots
  rw [hwake]
  apply h.queued

theorem withdraw {slots : Slots} (h : slots.Balanced) (ticket : Ticket)
    : (slots.withdraw ticket).2.Balanced := by
  by_cases hwoken : ticket ∈ slots.woken
  . rw [withdraw_of_woken hwoken]
    exact (h.queued _ _ _).wake
  . rw [withdraw_of_not_woken hwoken]
    apply h.queued

theorem opened {slots : Slots} (h : slots.Balanced) (ticket : Ticket) (connection : Nat)
    : (slots.opened ticket connection).Balanced := by
  by_cases hopening : ticket ∈ slots.opening
  . rw [opened_of_mem connection hopening]
    obtain ⟨hleased, hacquired, hcreated, hcapacity⟩ := h
    have hlength := List.length_erase_of_mem hopening
    have hpos := List.length_pos_of_mem hopening
    constructor <;> simp only [lend, List.length_cons] <;> omega
  . unfold Slots.opened
    rw [if_neg hopening]
    exact h

theorem cancelOpening {slots : Slots} (h : slots.Balanced) (ticket : Ticket)
    : (slots.cancelOpening ticket).2.Balanced := by
  by_cases hopening : ticket ∈ slots.opening
  . rw [cancelOpening_of_mem hopening]
    apply wake
    obtain ⟨hleased, hacquired, hcreated, hcapacity⟩ := h
    have hlength := List.length_erase_of_mem hopening
    have hpos := List.length_pos_of_mem hopening
    constructor <;> dsimp only <;> omega
  . unfold Slots.cancelOpening
    rw [if_neg hopening]
    exact h

theorem markBroken {slots : Slots} (h : slots.Balanced) (ticket : Ticket)
    : (slots.markBroken ticket).Balanced := by
  obtain ⟨hleased, hacquired, hcreated, hcapacity⟩ := h
  constructor <;> simp only [Slots.markBroken, List.length_map] <;> omega

theorem ended {slots : Slots} (h : slots.Balanced) {lease : Lease} (hlease : lease ∈ slots.leases)
    : (slots.ended lease).Balanced := by
  obtain ⟨hleased, hacquired, hcreated, hcapacity⟩ := h
  have hlength := List.length_erase_of_mem hlease
  have hpos := List.length_pos_of_mem hlease
  unfold Slots.ended
  split
  . constructor <;> dsimp only <;> omega
  . constructor <;> simp only [List.length_cons] <;> omega

theorem giveBack {slots : Slots} (h : slots.Balanced) (ticket : Ticket)
    : (slots.giveBack ticket).2.Balanced := by
  by_cases hholder : ticket ∈ slots.holders
  . obtain ⟨lease, hlease⟩ := lease?_isSome_iff.2 hholder
    rw [giveBack_of_lease? hlease]
    apply wake
    exact h.ended (mem_leases_of_lease? hlease).1
  . rw [giveBack_of_not_holder hholder]
    exact h

theorem perform {slots : Slots} (h : slots.Balanced) (move : Move)
    : (slots.perform move).Balanced := by
  cases move with
  | take ticket => exact h.take ticket
  | ask ticket => exact h.ask ticket
  | resume ticket => exact (h.queued _ _ _).ask ticket
  | withdraw ticket => exact h.withdraw ticket
  | opened ticket connection => exact h.opened ticket connection
  | cancelOpening ticket => exact h.cancelOpening ticket
  | markBroken ticket => exact h.markBroken ticket
  | call ticket => exact h
  | giveBack ticket => exact h.giveBack ticket

end Balanced

theorem Legal.balanced {capacity : Nat} {moves : List Move} (h : Legal capacity moves)
    : (after capacity moves).Balanced := by
  apply Legal.induction (motive := Balanced) _ _ h
  . constructor <;> simp
  . exact fun slots move hslots _ => hslots.perform move

/-!
## Acquisitions without a lease
-/

def counters (slots : Slots) : Nat × Nat × Nat × Nat :=
  (slots.acquired, slots.released, slots.created, slots.discarded)

theorem counters_wake (slots : Slots) : slots.wake.2.counters = slots.counters := by
  obtain ⟨_, _, _, hwake⟩ := wake_eq slots
  rw [hwake]
  rfl

theorem mem_holders_lend (slots : Slots) (ticket : Ticket) (connection : Nat)
    : ticket ∈ (slots.lend ticket connection).holders := by
  unfold holders lend
  rw [List.map_cons]
  apply List.mem_cons_self

theorem counters_take (slots : Slots) (ticket : Ticket)
    : ticket ∈ (slots.take ticket).2.holders ∨
      (slots.take ticket).2.counters = slots.counters := by
  rcases take_cases slots ticket with ⟨_, _, _, htake⟩ | ⟨_, _, htake⟩ | ⟨_, _, htake⟩
  . rw [htake]
    left
    apply mem_holders_lend
  . rw [htake]
    right
    rfl
  . rw [htake]
    right
    rfl

theorem counters_ask (slots : Slots) (ticket : Ticket)
    : ticket ∈ (slots.ask ticket).2.holders ∨
      (slots.ask ticket).2.counters = slots.counters := by
  obtain ⟨_, hask⟩ := ask_eq slots ticket
  rw [hask]
  apply counters_take { slots with permit := false }

theorem counters_withdraw (slots : Slots) (ticket : Ticket)
    : (slots.withdraw ticket).2.counters = slots.counters := by
  by_cases hwoken : ticket ∈ slots.woken
  . rw [withdraw_of_woken hwoken, counters_wake]
    rfl
  . rw [withdraw_of_not_woken hwoken]
    rfl

theorem counters_cancelOpening (slots : Slots) (ticket : Ticket)
    : (slots.cancelOpening ticket).2.counters = slots.counters := by
  by_cases hopening : ticket ∈ slots.opening
  . rw [cancelOpening_of_mem hopening, counters_wake]
    rfl
  . unfold cancelOpening
    rw [if_neg hopening]

theorem counters_perform {slots : Slots} {move : Move} (hmove : slots.Admits move)
    : move.ticket ∈ (slots.perform move).holders ∨ move.ticket ∈ slots.holders ∨
      (slots.perform move).counters = slots.counters := by
  cases move with
  | take ticket =>
    rcases counters_take slots ticket with h | h
    . exact .inl h
    . exact .inr (.inr h)
  | ask ticket =>
    rcases counters_ask slots ticket with h | h
    . exact .inl h
    . exact .inr (.inr h)
  | resume ticket =>
    rcases counters_ask { slots with woken := slots.woken.erase ticket } ticket with h | h
    . exact .inl h
    . exact .inr (.inr h)
  | withdraw ticket => exact .inr (.inr (counters_withdraw slots ticket))
  | opened ticket connection =>
    left
    change ticket ∈ (slots.opened ticket connection).holders
    rw [opened_of_mem connection hmove.1]
    apply mem_holders_lend
  | cancelOpening ticket => exact .inr (.inr (counters_cancelOpening slots ticket))
  | markBroken ticket => exact .inr (.inr rfl)
  | call ticket => exact .inr (.inr rfl)
  | giveBack ticket => exact .inr (.inl hmove)

end Slots

namespace Pool

structure Accounted (config : Config) (moves : List (Flavor × Slots.Move)) (flavor : Flavor)
    (slots : Slots) : Prop where
  capacity_eq : slots.capacity = max 1 config.maxConnections.toNat
  leased_eq : slots.stats.leased = slots.leases.length + slots.opening.length
  acquired_eq : slots.stats.acquired = slots.stats.released + slots.leases.length
  created_eq :
    slots.stats.created = slots.stats.discarded + slots.stats.idle + slots.leases.length
  capacity_le : slots.stats.idle + slots.stats.leased ≤ slots.capacity
  leased_pos : ∀ ticket, slots.Admits (.giveBack ticket) ∨ slots.Admits (.cancelOpening ticket) →
    0 < slots.stats.leased
  counters_eq : ∀ ticket,
    (∀ earlier, earlier <:+ moves → ticket ∉ ((after config earlier).slots flavor).holders) →
    ∀ move earlier, (flavor, move) :: earlier <:+ moves → move.ticket = ticket →
      ((after config ((flavor, move) :: earlier)).slots flavor).counters =
        ((after config earlier).slots flavor).counters
  at_rest : slots.leases = [] → slots.opening = [] →
    slots.stats.leased = 0 ∧ slots.stats.acquired = slots.stats.released

theorem counters_after {config : Config} {moves : List (Flavor × Slots.Move)}
    (h : Legal config moves) {flavor : Flavor} {ticket : Ticket}
    (hnever : ∀ earlier, earlier <:+ moves →
      ticket ∉ ((after config earlier).slots flavor).holders)
    {move : Slots.Move} {earlier : List (Flavor × Slots.Move)}
    (hmove : (flavor, move) :: earlier <:+ moves) (hticket : move.ticket = ticket)
    : ((after config ((flavor, move) :: earlier)).slots flavor).counters =
        ((after config earlier).slots flavor).counters := by
  have hadmits := (h.of_suffix hmove).2
  have hbefore := hnever earlier ((List.suffix_cons _ _).trans hmove)
  have hafter := hnever _ hmove
  rw [slots_after_cons] at hafter ⊢
  rw [← hticket] at hbefore hafter
  -- A step is counted only if it begins or ends a lease of its ticket, and `hnever` rules out both.
  rcases Slots.counters_perform hadmits with h | h | h
  . exact absurd h hafter
  . exact absurd h hbefore
  . exact h

theorem accounted_of_legal (config : Config) (moves : List (Flavor × Slots.Move))
    (h : Legal config moves) (flavor : Flavor)
    : Accounted config moves flavor ((after config moves).slots flavor) := by
  -- The flavors share no counters, so the steps with the other one can be left out.
  have hbalanced := (h.movesOf flavor).balanced
  have hcapacity := Slots.capacity_after (capacityOf config) (movesOf flavor moves)
  rw [← slots_after] at hbalanced hcapacity
  generalize hslots : (after config moves).slots flavor = slots at hbalanced hcapacity
  obtain ⟨hleased, hacquired, hcreated, hle⟩ := hbalanced
  constructor
  . exact hcapacity
  . exact hleased
  . exact hacquired
  . exact hcreated
  . exact hle
  . intro ticket hmove
    have hpos : 0 < slots.leases.length + slots.opening.length := by
      rcases hmove with hholder | hopening
      . have := List.length_pos_of_mem hholder
        unfold Slots.holders at this
        rw [List.length_map] at this
        omega
      . have := List.length_pos_of_mem hopening
        omega
    unfold Slots.stats
    dsimp only
    omega
  . intro ticket hnever move earlier hmove hticket
    apply counters_after h hnever hmove hticket
  . intro hleases hopening
    rw [hleases] at hleased hacquired
    rw [hopening] at hleased
    exact ⟨hleased, hacquired⟩

-- Acquisitions of both flavors that are served, refused, abandoned and fail to open.
def mixed : List (Flavor × Slots.Move) :=
  [(.nonBlocking, .withdraw 2), (.blocking, .take 4), (.nonBlocking, .giveBack 1),
    (.nonBlocking, .markBroken 1), (.blocking, .opened 3 2), (.nonBlocking, .ask 2),
    (.blocking, .take 3), (.nonBlocking, .opened 1 1), (.nonBlocking, .resume 1),
    (.nonBlocking, .cancelOpening 0), (.nonBlocking, .ask 1), (.nonBlocking, .ask 0)]

theorem accounted_mixed
    : Legal { maxConnections := 0 } mixed ∧
      Accounted { maxConnections := 0 } mixed .nonBlocking
        ((after { maxConnections := 0 } mixed).slots .nonBlocking) :=
  ⟨by decide, accounted_of_legal { maxConnections := 0 } mixed (by decide) .nonBlocking⟩

end Pool

end MediaProxy
