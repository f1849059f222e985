import MediaProxy.Proofs.Pool.Accounting
import MediaProxy.Proofs.Pool.Custody

/-!
This module contains what connections are opened for: nobody opens one while another lies idle, so
there are never more than were once in use at the same time, and the one that was returned last is
used first.
-/

namespace MediaProxy

namespace Slots

/-!
## What a step does to the stock
-/

def returns (slots : Slots) : Move → List Nat
  | .giveBack ticket =>
    match slots.lease? ticket with
    | some lease => if lease.broken then [] else [lease.connection]
    | none => []
  | _ => []

structure Stock where
  idle : List Nat
  leased : Nat

def stock (slots : Slots) : Stock :=
  { idle := slots.idle, leased := slots.leased }

inductive Stock.Step (capacity : Nat) (before : Stock) (move : Move) : List Nat → Stock → Prop where
  | still : before.Step capacity move [] before
  | reused (connection : Nat) (idle : List Nat) (hidle : before.idle = connection :: idle) :
      before.Step capacity move [] { idle, leased := before.leased + 1 }
  | reserved (hidle : before.idle = []) (hroom : before.leased < capacity) :
      before.Step capacity move [] { before with leased := before.leased + 1 }
  | abandoned (ticket : Ticket) (hmove : move = .cancelOpening ticket) :
      before.Step capacity move [] { before with leased := before.leased - 1 }
  | discarded (ticket : Ticket) (hmove : move = .giveBack ticket) :
      before.Step capacity move [] { before with leased := before.leased - 1 }
  | returned (connection : Nat) (hpos : 0 < before.leased) :
      before.Step capacity move [connection]
        { idle := connection :: before.idle, leased := before.leased - 1 }

theorem stock_wake (slots : Slots) : slots.wake.2.stock = slots.stock := by
  obtain ⟨_, _, _, hwake⟩ := wake_eq slots
  rw [hwake]
  rfl

theorem stock_take (slots : Slots) (ticket : Ticket) (move : Move)
    : slots.stock.Step slots.capacity move [] (slots.take ticket).2.stock := by
  rcases take_cases slots ticket with
    ⟨connection, idle, hidle, htake⟩ | ⟨hidle, hroom, htake⟩ | ⟨_, _, htake⟩
  . rw [htake]
    exact .reused connection idle hidle
  . rw [htake]
    exact .reserved hidle hroom
  . rw [htake]
    exact .still

theorem stock_ask (slots : Slots) (ticket : Ticket) (move : Move)
    : slots.stock.Step slots.capacity move [] (slots.ask ticket).2.stock := by
  obtain ⟨_, hask⟩ := ask_eq slots ticket
  rw [hask]
  apply stock_take { slots with permit := false } ticket move

theorem returns_of_lease? {slots : Slots} {ticket : Ticket} {lease : Lease}
    (h : slots.lease? ticket = some lease)
    : slots.returns (.giveBack ticket) = if lease.broken then [] else [lease.connection] := by
  unfold returns
  dsimp only
  rw [h]

theorem stock_giveBack {slots : Slots} (h : slots.Balanced) {ticket : Ticket}
    (hticket : ticket ∈ slots.holders)
    : slots.stock.Step slots.capacity (.giveBack ticket) (slots.returns (.giveBack ticket))
        (slots.giveBack ticket).2.stock := by
  obtain ⟨lease, hlease⟩ := lease?_isSome_iff.2 hticket
  have hpos : 0 < slots.stock.leased := by
    have hlength := List.length_pos_of_mem (mem_leases_of_lease? hlease).1
    have hleased := h.leased_eq
    change 0 < slots.leased
    omega
  rw [giveBack_of_lease? hlease, stock_wake, returns_of_lease? hlease]
  unfold ended
  split
  . exact .discarded ticket rfl
  . exact .returned lease.connection hpos

theorem stock_perform {slots : Slots} (h : slots.Balanced) {move : Move}
    (hmove : slots.Admits move)
    : slots.stock.Step slots.capacity move (slots.returns move) (slots.perform move).stock := by
  cases move with
  | take ticket => apply stock_take slots ticket
  | ask ticket => apply stock_ask slots ticket
  | resume ticket => apply stock_ask { slots with woken := slots.woken.erase ticket } ticket
  | withdraw ticket =>
    unfold perform withdraw
    dsimp only
    split
    . rw [stock_wake]
      exact .still
    . exact .still
  | opened ticket connection =>
    unfold perform
    dsimp only
    rw [opened_of_mem connection hmove.1]
    exact .still
  | cancelOpening ticket =>
    unfold perform
    dsimp only
    rw [cancelOpening_of_mem hmove, stock_wake]
    exact .abandoned ticket rfl
  | markBroken ticket => exact .still
  | call ticket => exact .still
  | giveBack ticket => apply stock_giveBack h hmove

/-!
## No more than were in use
-/

def peak (capacity : Nat) : List Move → Nat
  | [] => 0
  | move :: moves => max (peak capacity moves) (after capacity (move :: moves)).leased

theorem leased_le_peak (capacity : Nat) (moves : List Move)
    : (after capacity moves).leased ≤ peak capacity moves := by
  cases moves with
  | nil => exact Nat.le_refl 0
  | cons move moves => apply Nat.le_max_right

theorem Legal.peak_le {capacity : Nat} {moves : List Move} (h : Legal capacity moves)
    : peak capacity moves ≤ capacity := by
  induction moves with
  | nil => apply Nat.zero_le
  | cons move moves ih =>
    have hle := h.balanced.capacity_le
    rw [capacity_after] at hle
    apply Nat.max_le.2 ⟨ih h.1, by omega⟩

theorem Legal.stock_step {capacity : Nat} {move : Move} {moves : List Move}
    (h : Legal capacity (move :: moves))
    : (after capacity moves).stock.Step capacity move ((after capacity moves).returns move)
        (after capacity (move :: moves)).stock := by
  have hstep := stock_perform h.1.balanced h.2
  rw [capacity_after] at hstep
  exact hstep

theorem Legal.total_le_peak {capacity : Nat} {moves : List Move} (h : Legal capacity moves)
    : (after capacity moves).idle.length + (after capacity moves).leased ≤
        peak capacity moves := by
  induction moves with
  | nil => exact Nat.le_refl 0
  | cons move moves ih =>
    have hle := ih h.1
    have hstep := h.stock_step
    unfold peak
    change (after capacity (move :: moves)).stock.idle.length +
      (after capacity (move :: moves)).stock.leased ≤
        max _ (after capacity (move :: moves)).stock.leased
    change (after capacity moves).stock.idle.length + (after capacity moves).stock.leased ≤ _ at hle
    generalize (after capacity (move :: moves)).stock = stock at hstep
    generalize (after capacity moves).returns move = returned at hstep
    cases hstep with
    | still => omega
    | reused connection idle hidle =>
      rw [hidle, List.length_cons] at hle
      dsimp only
      omega
    -- Only here the sum grows, and with nothing idle it is the number of those in use.
    | reserved hidle hroom =>
      rw [hidle]
      dsimp only [List.length_nil]
      omega
    | abandoned => dsimp only; omega
    | discarded => dsimp only; omega
    | returned connection hpos =>
      dsimp only [List.length_cons]
      omega

theorem marked_eq_false {moves : List Move} (h : ∀ ticket, .markBroken ticket ∉ moves)
    (ticket : Ticket)
    : marked ticket moves = false := by
  induction moves with
  | nil => rfl
  | cons move moves ih =>
    have hmoves := ih fun other hother => h other (List.mem_cons_of_mem _ hother)
    cases move with
    | markBroken other => exact absurd List.mem_cons_self (h other)
    | giveBack other =>
      unfold marked
      rw [hmoves, Bool.and_false]
    | _ => exact hmoves

theorem Legal.returns_ne_nil {capacity : Nat} {moves : List Move} (h : Legal capacity moves)
    (hmarks : ∀ ticket, .markBroken ticket ∉ moves) {ticket : Ticket}
    (hticket : ticket ∈ (after capacity moves).holders)
    : (after capacity moves).returns (.giveBack ticket) ≠ [] := by
  obtain ⟨lease, hlease⟩ := lease?_isSome_iff.2 hticket
  have hbroken := h.marksKept.broken_eq lease (mem_leases_of_lease? hlease).1
  rw [marked_eq_false hmarks] at hbroken
  rw [returns_of_lease? hlease, hbroken]
  apply List.cons_ne_nil

theorem Legal.total_eq_peak {capacity : Nat} {moves : List Move} (h : Legal capacity moves)
    (hmarks : ∀ ticket, .markBroken ticket ∉ moves)
    (hopens : ∀ ticket, .cancelOpening ticket ∉ moves)
    : (after capacity moves).idle.length + (after capacity moves).leased = peak capacity moves := by
  induction moves with
  | nil => rfl
  | cons move moves ih =>
    have hmarks' : ∀ ticket, .markBroken ticket ∉ moves :=
      fun ticket hticket => hmarks ticket (List.mem_cons_of_mem _ hticket)
    have hopens' : ∀ ticket, .cancelOpening ticket ∉ moves :=
      fun ticket hticket => hopens ticket (List.mem_cons_of_mem _ hticket)
    have heq := ih h.1 hmarks' hopens'
    have hle := leased_le_peak capacity moves
    have hreturns : ∀ ticket, move = .giveBack ticket → (after capacity moves).returns move ≠ [] := by
      rintro ticket rfl
      exact h.1.returns_ne_nil hmarks' h.2
    have hstep := h.stock_step
    unfold peak
    change (after capacity (move :: moves)).stock.idle.length +
      (after capacity (move :: moves)).stock.leased =
        max _ (after capacity (move :: moves)).stock.leased
    change (after capacity moves).stock.idle.length + (after capacity moves).stock.leased = _ at heq
    change (after capacity moves).stock.leased ≤ _ at hle
    generalize (after capacity (move :: moves)).stock = stock at hstep
    generalize (after capacity moves).returns move = returned at hstep hreturns
    -- Only a reservation adds a connection, and it finds none idle.
    cases hstep with
    | still => omega
    | reused connection idle hidle =>
      rw [hidle, List.length_cons] at heq
      dsimp only
      omega
    | reserved hidle hroom =>
      rw [hidle] at heq ⊢
      dsimp only [List.length_nil] at heq ⊢
      omega
    | abandoned ticket hmove =>
      subst hmove
      exact absurd List.mem_cons_self (hopens ticket)
    | discarded ticket hmove => exact absurd rfl (hreturns ticket hmove)
    | returned connection hpos =>
      dsimp only [List.length_cons]
      omega

/-!
## The last one returned is used first
-/

/--
The connections that were returned, the last one first.
-/
def returned (capacity : Nat) : List Move → List Nat
  | [] => []
  | move :: moves => (after capacity moves).returns move ++ returned capacity moves

theorem not_mem_idle_of_returns {slots : Slots} (h : slots.connections.Nodup) {move : Move}
    {connection : Nat} (hreturns : connection ∈ slots.returns move)
    : connection ∉ slots.idle := by
  intro hidle
  unfold returns at hreturns
  split at hreturns
  . next ticket =>
    split at hreturns
    . next lease hlease =>
      split at hreturns
      . exact List.not_mem_nil hreturns
      . -- The connection is lent out, and none is in two places.
        have hlent : connection ∈ slots.lent := by
          rw [List.mem_singleton.1 hreturns]
          apply List.mem_map_of_mem (mem_leases_of_lease? hlease).1
        unfold connections at h
        rw [List.append_assoc] at h
        apply (List.nodup_append.1 h).2.2 connection hidle connection _ rfl
        apply List.mem_append_left _ hlent
    . exact List.not_mem_nil hreturns
  . exact List.not_mem_nil hreturns

structure Stacked (returned idle : List Nat) : Prop where
  mem : ∀ connection ∈ idle, connection ∈ returned
  ordered : idle.Pairwise fun first second => returned.idxOf first < returned.idxOf second

theorem Stacked.push {returned idle : List Nat} (h : Stacked returned idle) {connection : Nat}
    (hnew : connection ∉ idle)
    : Stacked (connection :: returned) (connection :: idle) := by
  have hidx : ∀ other ∈ idle,
      (connection :: returned).idxOf other = returned.idxOf other + 1 := by
    intro other hother
    have hne : connection ≠ other := by
      rintro rfl
      exact hnew hother
    rw [List.idxOf_cons, beq_false_of_ne hne]
    rfl
  constructor
  . intro other hother
    rcases List.mem_cons.1 hother with rfl | hother
    . exact List.mem_cons_self
    . exact List.mem_cons_of_mem _ (h.mem other hother)
  . apply List.pairwise_cons.2 ⟨_, _⟩
    . intro other hother
      rw [hidx other hother, List.idxOf_cons_self]
      omega
    . refine h.ordered.imp_of_mem ?_
      intro first second hfirst hsecond hlt
      rw [hidx first hfirst, hidx second hsecond]
      omega

theorem Legal.stacked {capacity : Nat} {moves : List Move} (h : Legal capacity moves)
    : Stacked (returned capacity moves) (after capacity moves).idle := by
  induction moves with
  | nil =>
    constructor
    . intro connection hconnection
      exact absurd hconnection List.not_mem_nil
    . exact .nil
  | cons move moves ih =>
    have hstacked := ih h.1
    have hnew : ∀ connection ∈ (after capacity moves).returns move,
        connection ∉ (after capacity moves).idle :=
      fun connection => not_mem_idle_of_returns h.1.nodup_connections
    have hstep := h.stock_step
    unfold returned
    change Stacked _ (after capacity (move :: moves)).stock.idle
    change Stacked _ (after capacity moves).stock.idle at hstacked
    change ∀ connection ∈ _, connection ∉ (after capacity moves).stock.idle at hnew
    generalize (after capacity (move :: moves)).stock = stock at hstep
    generalize (after capacity moves).returns move = connections at hstep hnew
    cases hstep with
    | reused connection idle hidle =>
      rw [hidle] at hstacked
      constructor
      . intro other hother
        exact hstacked.mem other (List.mem_cons_of_mem _ hother)
      . exact (List.pairwise_cons.1 hstacked.ordered).2
    | returned connection hpos => exact hstacked.push (hnew connection List.mem_cons_self)
    | _ => exact hstacked

theorem leases_perform_of_idle {slots : Slots} {move : Move} (hmove : move.isAcquisition)
    {connection : Nat} {idle : List Nat} (hidle : slots.idle = connection :: idle)
    : (slots.perform move).idle = idle ∧
        (slots.perform move).leases = { ticket := move.ticket, connection } :: slots.leases := by
  have htake : ∀ other : Slots, other.idle = slots.idle → other.leases = slots.leases →
      ∀ ticket, (other.take ticket).2.idle = idle ∧
        (other.take ticket).2.leases = { ticket, connection } :: slots.leases := by
    intro other hother hleases ticket
    rw [hidle] at hother
    rw [← hleases]
    unfold take
    rw [hother]
    exact ⟨rfl, rfl⟩
  have hask : ∀ other : Slots, other.idle = slots.idle → other.leases = slots.leases →
      ∀ ticket, (other.ask ticket).2.idle = idle ∧
        (other.ask ticket).2.leases = { ticket, connection } :: slots.leases := by
    intro other hother hleases ticket
    obtain ⟨_, hask⟩ := ask_eq other ticket
    rw [hask]
    exact htake { other with permit := false } hother hleases ticket
  cases move with
  | take ticket => exact htake slots rfl rfl ticket
  | ask ticket => exact hask slots rfl rfl ticket
  | resume ticket => exact hask { slots with woken := slots.woken.erase ticket } rfl rfl ticket
  | _ => exact absurd hmove Bool.false_ne_true

/-!
## Only who finds none opens one
-/

structure Needs (slots : Slots) (move : Move) : Prop where
  isAcquisition : move.isAcquisition
  idle_eq : slots.idle = []
  leased_lt : slots.leased < slots.capacity

theorem opening_take {slots : Slots} (move : Move) (hmove : move.isAcquisition) {ticket : Ticket}
    (h : ticket ∈ (slots.take move.ticket).2.opening)
    : ticket ∈ slots.opening ∨ (move.ticket = ticket ∧ slots.Needs move) := by
  rcases take_cases slots move.ticket with ⟨_, _, _, htake⟩ | ⟨hidle, hroom, htake⟩ | ⟨_, _, htake⟩
  . rw [htake] at h
    exact .inl h
  . rw [htake] at h
    rcases List.mem_cons.1 h with rfl | h
    . exact .inr ⟨rfl, hmove, hidle, hroom⟩
    . exact .inl h
  . rw [htake] at h
    exact .inl h

theorem opening_ask {slots : Slots} (move : Move) (hmove : move.isAcquisition) {ticket : Ticket}
    (h : ticket ∈ (slots.ask move.ticket).2.opening)
    : ticket ∈ slots.opening ∨ (move.ticket = ticket ∧ slots.Needs move) := by
  obtain ⟨_, hask⟩ := ask_eq slots move.ticket
  rw [hask] at h
  have htake : ticket ∈ ({ slots with permit := false }.take move.ticket).2.opening := h
  rcases opening_take move hmove htake with h | ⟨hticket, hneeds⟩
  . exact .inl h
  . exact .inr ⟨hticket, hneeds.isAcquisition, hneeds.idle_eq, hneeds.leased_lt⟩

theorem opening_perform {slots : Slots} {move : Move} {ticket : Ticket}
    (h : ticket ∈ (slots.perform move).opening)
    : ticket ∈ slots.opening ∨ (move.ticket = ticket ∧ slots.Needs move) := by
  cases move with
  | take other => exact opening_take (.take other) rfl h
  | ask other => exact opening_ask (.ask other) rfl h
  | resume other =>
    have hask : ticket ∈ ({ slots with woken := slots.woken.erase other }.ask other).2.opening := h
    rcases opening_ask (.resume other) rfl hask with h | ⟨hticket, hneeds⟩
    . exact .inl h
    . exact .inr ⟨hticket, hneeds.isAcquisition, hneeds.idle_eq, hneeds.leased_lt⟩
  -- All other steps can only shorten the list.
  | withdraw other =>
    left
    unfold perform withdraw at h
    dsimp only at h
    split at h
    . rw [opening_wake] at h
      exact h
    . exact h
  | opened other connection =>
    left
    unfold perform opened at h
    dsimp only at h
    split at h
    . exact List.mem_of_mem_erase h
    . exact h
  | cancelOpening other =>
    left
    unfold perform cancelOpening at h
    dsimp only at h
    split at h
    . rw [opening_wake] at h
      exact List.mem_of_mem_erase h
    . exact h
  | markBroken other => exact .inl h
  | call other => exact .inl h
  | giveBack other =>
    left
    unfold perform giveBack at h
    dsimp only at h
    split at h
    . exact h
    . split at h <;> rw [opening_wake] at h <;> exact h

structure Reserved (capacity : Nat) (ticket : Ticket) (since : List Move) (move : Move)
    (before : List Move) : Prop where
  ticket_eq : move.ticket = ticket
  needs : (after capacity before).Needs move
  mem_opening : ∀ between, between <:+ since →
    ticket ∈ (after capacity (between ++ move :: before)).opening

theorem exists_reserved {capacity : Nat} {moves : List Move} {ticket : Ticket}
    (h : ticket ∈ (after capacity moves).opening)
    : ∃ since move before, moves = since ++ move :: before ∧
        Reserved capacity ticket since move before := by
  induction moves with
  | nil => exact absurd h List.not_mem_nil
  | cons move moves ih =>
    rcases opening_perform h with hbefore | ⟨hticket, hneeds⟩
    . obtain ⟨since, first, before, rfl, hreserved⟩ := ih hbefore
      refine ⟨move :: since, first, before, rfl, hreserved.ticket_eq, hreserved.needs, ?_⟩
      intro between hbetween
      rcases List.suffix_cons_iff.1 hbetween with rfl | hbetween
      . exact h
      . exact hreserved.mem_opening between hbetween
    . refine ⟨[], move, moves, rfl, hticket, hneeds, ?_⟩
      intro between hbetween
      rw [List.suffix_nil.1 hbetween]
      exact h

/-!
## What a run needs
-/

structure Sparing (capacity : Nat) (moves : List Move) (slots : Slots) : Prop where
  /--
  Whoever opened a connection found none idle when he asked for it. He begins to open it in that
  step, and until it is open another one may have come back.
  -/
  needed : ∀ later ticket connection earlier, moves = later ++ .opened ticket connection :: earlier →
    ∃ since move before, earlier = since ++ move :: before ∧
      Reserved capacity ticket since move before
  total_le : slots.stats.idle + slots.stats.leased ≤ peak capacity moves
  peak_le : peak capacity moves ≤ capacity
  total_eq : (∀ ticket, .markBroken ticket ∉ moves) → (∀ ticket, .cancelOpening ticket ∉ moves) →
    slots.stats.idle + slots.stats.leased = peak capacity moves
  latest : ∀ later move earlier, moves = later ++ move :: earlier → move.isAcquisition →
    (after capacity earlier).idle ≠ [] →
      ∃ connection ∈ returned capacity earlier,
        (∀ other ∈ (after capacity earlier).idle, other ≠ connection →
          (returned capacity earlier).idxOf connection <
            (returned capacity earlier).idxOf other) ∧
        (after capacity earlier).idle = connection :: (after capacity (move :: earlier)).idle ∧
        (after capacity (move :: earlier)).leases =
          { ticket := move.ticket, connection } :: (after capacity earlier).leases

theorem Legal.latest {capacity : Nat} {earlier : List Move} (h : Legal capacity earlier)
    {move : Move} (hmove : move.isAcquisition) (hidle : (after capacity earlier).idle ≠ [])
    : ∃ connection ∈ returned capacity earlier,
        (∀ other ∈ (after capacity earlier).idle, other ≠ connection →
          (returned capacity earlier).idxOf connection <
            (returned capacity earlier).idxOf other) ∧
        (after capacity earlier).idle = connection :: (after capacity (move :: earlier)).idle ∧
        (after capacity (move :: earlier)).leases =
          { ticket := move.ticket, connection } :: (after capacity earlier).leases := by
  obtain ⟨connection, idle, heq⟩ := List.exists_cons_of_ne_nil hidle
  have hstacked := h.stacked
  obtain ⟨hrest, hleases⟩ := leases_perform_of_idle hmove heq
  refine ⟨connection, ?_, ?_, ?_, hleases⟩
  . apply hstacked.mem
    rw [heq]
    exact List.mem_cons_self
  . intro other hother hne
    have hordered := hstacked.ordered
    rw [heq] at hordered hother
    apply (List.pairwise_cons.1 hordered).1
    exact (List.mem_cons.1 hother).resolve_left hne
  . change _ = connection :: ((after capacity earlier).perform move).idle
    rw [heq, hrest]

theorem Legal.sparing {capacity : Nat} {moves : List Move} (h : Legal capacity moves)
    : Sparing capacity moves (after capacity moves) := by
  constructor
  . intro later ticket connection earlier hmoves
    subst hmoves
    exact exists_reserved h.of_append.2.1
  . exact h.total_le_peak
  . exact h.peak_le
  . intro hmarks hopens
    exact h.total_eq_peak hmarks hopens
  . intro later move earlier hmoves hmove hidle
    subst hmoves
    exact h.of_append.1.latest hmove hidle

end Slots

namespace Pool

theorem sparing_of_legal (config : Config) (moves : List (Flavor × Slots.Move))
    (h : Legal config moves) (flavor : Flavor)
    : Slots.Sparing (capacityOf config) (movesOf flavor moves)
        ((after config moves).slots flavor) := by
  rw [slots_after]
  exact (h.movesOf flavor).sparing

-- The second connection is opened at last when the first one is idle again; both are used again.
def reusing : List (Flavor × Slots.Move) :=
  [(.nonBlocking, .ask 3), (.blocking, .take 0), (.nonBlocking, .giveBack 1),
    (.nonBlocking, .giveBack 2), (.nonBlocking, .ask 2), (.nonBlocking, .opened 1 8),
    (.nonBlocking, .giveBack 0), (.nonBlocking, .opened 0 9), (.nonBlocking, .ask 1),
    (.nonBlocking, .ask 0)]

theorem sparing_reusing
    : Legal { maxConnections := 2 } reusing ∧
      Slots.peak 2 (movesOf .nonBlocking reusing) = 2 ∧
      Slots.returned 2 (movesOf .nonBlocking reusing) = [8, 9, 9] ∧
      Slots.Sparing (capacityOf { maxConnections := 2 }) (movesOf .nonBlocking reusing)
        ((after { maxConnections := 2 } reusing).slots .nonBlocking) :=
  ⟨by decide, by decide, by decide,
    sparing_of_legal { maxConnections := 2 } reusing (by decide) .nonBlocking⟩

end Pool

end MediaProxy
