import MediaProxy.Pool.Basic

/-!
This module contains the steps that connections of one flavor go through. Whoever has a ticket takes
steps with it, and steps with different tickets follow each other in any order.
-/

namespace MediaProxy

namespace Slots

/--
A step with a ticket. A `take` is one try of a blocking acquisition; one that waits tries again. A
`call` goes over the connection of a lease and changes nothing here.
-/
inductive Move where
  | take (ticket : Ticket)
  | ask (ticket : Ticket)
  | resume (ticket : Ticket)
  | withdraw (ticket : Ticket)
  | opened (ticket : Ticket) (connection : Nat)
  | cancelOpening (ticket : Ticket)
  | markBroken (ticket : Ticket)
  | call (ticket : Ticket)
  | giveBack (ticket : Ticket)
  deriving DecidableEq, Repr

def Move.ticket : Move → Ticket
  | .take ticket => ticket
  | .ask ticket => ticket
  | .resume ticket => ticket
  | .withdraw ticket => ticket
  | .opened ticket _ => ticket
  | .cancelOpening ticket => ticket
  | .markBroken ticket => ticket
  | .call ticket => ticket
  | .giveBack ticket => ticket

def Move.queues : Move → Bool
  | .ask _ => true
  | .resume _ => true
  | .withdraw _ => true
  | _ => false

def perform (slots : Slots) : Move → Slots
  | .take ticket => (slots.take ticket).2
  | .ask ticket => (slots.ask ticket).2
  | .resume ticket => (slots.resume ticket).2
  | .withdraw ticket => (slots.withdraw ticket).2
  | .opened ticket connection => slots.opened ticket connection
  | .cancelOpening ticket => (slots.cancelOpening ticket).2
  | .markBroken ticket => slots.markBroken ticket
  | .call _ => slots
  | .giveBack ticket => (slots.giveBack ticket).2

def holders (slots : Slots) : List Ticket :=
  slots.leases.map (·.ticket)

def tickets (slots : Slots) : List Ticket :=
  slots.holders ++ slots.opening ++ (slots.waiting ++ slots.woken)

def lent (slots : Slots) : List Nat :=
  slots.leases.map (·.connection)

def connections (slots : Slots) : List Nat :=
  slots.idle ++ slots.lent ++ slots.retired

/--
Whether a step can be taken. Acquisitions begin with a ticket that nobody uses, and a connection that
is opened is a new one.
-/
def Admits (slots : Slots) : Move → Prop
  | .take ticket => ticket ∉ slots.tickets
  | .ask ticket => ticket ∉ slots.tickets
  | .resume ticket => ticket ∈ slots.woken
  | .withdraw ticket => ticket ∈ slots.waiting ∨ ticket ∈ slots.woken
  | .opened ticket connection => ticket ∈ slots.opening ∧ connection ∉ slots.connections
  | .cancelOpening ticket => ticket ∈ slots.opening
  | .markBroken ticket => ticket ∈ slots.holders
  | .call ticket => ticket ∈ slots.holders
  | .giveBack ticket => ticket ∈ slots.holders

instance (slots : Slots) (move : Move) : Decidable (slots.Admits move) := by
  cases move <;> unfold Admits <;> infer_instance

/--
What becomes of connections by steps, the last one first.
-/
def after (capacity : Nat) : List Move → Slots
  | [] => { capacity }
  | move :: moves => (after capacity moves).perform move

def Legal (capacity : Nat) : List Move → Prop
  | [] => True
  | move :: moves => Legal capacity moves ∧ (after capacity moves).Admits move

instance Legal.decidable (capacity : Nat) : (moves : List Move) → Decidable (Legal capacity moves)
  | [] => .isTrue trivial
  | _ :: moves =>
    have := Legal.decidable capacity moves
    inferInstanceAs (Decidable (_ ∧ _))

theorem Legal.of_append {capacity : Nat} {later earlier : List Move}
    (h : Legal capacity (later ++ earlier)) : Legal capacity earlier := by
  induction later with
  | nil => exact h
  | cons move later ih => exact ih h.1

theorem Legal.induction {motive : Slots → Prop} {capacity : Nat}
    (start : motive { capacity })
    (step : ∀ slots move, motive slots → slots.Admits move → motive (slots.perform move))
    {moves : List Move} (h : Legal capacity moves)
    : motive (after capacity moves) := by
  induction moves with
  | nil => apply start
  | cons move moves ih => apply step _ _ (ih h.1) h.2

/-!
## What a step comes to
-/

theorem take_cases (slots : Slots) (ticket : Ticket)
    : (∃ connection idle, slots.idle = connection :: idle ∧
        slots.take ticket =
          (.lease, { slots with idle, leased := slots.leased + 1 }.lend ticket connection)) ∨
      (slots.idle = [] ∧ slots.leased < slots.capacity ∧
        slots.take ticket =
          (.opening,
            { slots with leased := slots.leased + 1, opening := ticket :: slots.opening })) ∨
      (slots.idle = [] ∧ slots.capacity ≤ slots.leased ∧ slots.take ticket = (.full, slots)) := by
  unfold take
  split
  . next connection idle hidle =>
    exact .inl ⟨connection, idle, hidle, rfl⟩
  . next hidle =>
    split
    . next hroom => exact .inr (.inl ⟨hidle, hroom, rfl⟩)
    . next hroom => exact .inr (.inr ⟨hidle, by omega, rfl⟩)

theorem after_append (capacity : Nat) (later earlier : List Move)
    : after capacity (later ++ earlier) = later.foldr (flip perform) (after capacity earlier) := by
  induction later with
  | nil => rfl
  | cons move later ih => exact congrArg (perform · move) ih

/--
Whoever blocks while others take steps comes to one try in the end, after those steps. It is refused
only after the last of them.
-/
theorem Legal.takeBlocking {capacity : Nat} {moves : List Move} (ticket : Ticket)
    (others : List (List Move)) (h : Legal capacity (others.reverse.flatten ++ moves))
    (hfree : ∀ earlier, earlier <+: others →
      ticket ∉ (after capacity (earlier.reverse.flatten ++ moves)).tickets)
    : ∃ earlier, earlier <+: others ∧
        Legal capacity (.take ticket :: (earlier.reverse.flatten ++ moves)) ∧
        (after capacity moves).takeBlocking ticket
            (others.map fun steps slots => steps.foldr (flip perform) slots) =
          (after capacity (earlier.reverse.flatten ++ moves)).take ticket ∧
        (((after capacity (earlier.reverse.flatten ++ moves)).take ticket).1 = .full →
          earlier = others) := by
  induction others generalizing moves with
  | nil => exact ⟨[], List.nil_prefix, ⟨h, hfree [] List.nil_prefix⟩, rfl, fun _ => rfl⟩
  | cons steps others ih =>
    have happend (lists : List (List Move))
        : (steps :: lists).reverse.flatten ++ moves =
            lists.reverse.flatten ++ (steps ++ moves) := by
      simp
    rw [happend] at h
    by_cases hfull : ((after capacity moves).take ticket).1 = .full
    . -- The try fails, so it is as if the next one were the first.
      obtain ⟨earlier, hprefix, hlegal, heq, hlast⟩ := ih h fun earlier hprefix => by
        rw [← happend]
        exact hfree _ (List.cons_prefix_cons.2 ⟨rfl, hprefix⟩)
      rw [after_append] at heq
      refine ⟨steps :: earlier, List.cons_prefix_cons.2 ⟨rfl, hprefix⟩, ?_, ?_, ?_⟩
      . rw [happend]
        exact hlegal
      . rw [happend, ← heq, List.map_cons, takeBlocking_of_full hfull]
      . rw [happend]
        exact fun hrefused => congrArg (steps :: ·) (hlast hrefused)
    . exact ⟨[], List.nil_prefix, ⟨h.of_append.of_append, hfree [] List.nil_prefix⟩,
        takeBlocking_of_granted hfull _, fun hrefused => absurd hrefused hfull⟩

theorem wake_cases (slots : Slots)
    : (∃ ticket waiting, slots.waiting = ticket :: waiting ∧
        slots.wake = (some ticket, { slots with waiting, woken := slots.woken ++ [ticket] })) ∨
      (slots.waiting = [] ∧ slots.wake = (none, { slots with permit := true })) := by
  unfold wake
  split
  . next ticket waiting hwaiting => exact .inl ⟨ticket, waiting, hwaiting, rfl⟩
  . next hwaiting => exact .inr ⟨hwaiting, rfl⟩

theorem wake_eq (slots : Slots)
    : ∃ waiting woken permit, slots.wake.2 = { slots with waiting, woken, permit } := by
  rcases wake_cases slots with ⟨_, _, _, hwake⟩ | ⟨_, hwake⟩
  . exact ⟨_, _, _, by rw [hwake]⟩
  . exact ⟨_, _, _, by rw [hwake]⟩

theorem ask_eq (slots : Slots) (ticket : Ticket)
    : ∃ waiting, slots.ask ticket =
        (({ slots with permit := false }.take ticket).1,
          { ({ slots with permit := false }.take ticket).2 with waiting }) := by
  unfold ask
  generalize { slots with permit := false }.take ticket = taken
  obtain ⟨grant, slots⟩ := taken
  cases grant with
  | full => exact ⟨_, rfl⟩
  | _ => exact ⟨slots.waiting, rfl⟩

theorem ask_cases (slots : Slots) (ticket : Ticket)
    : (∃ connection idle, slots.idle = connection :: idle ∧
        slots.ask ticket =
          (.lease,
            { slots with permit := false, idle, leased := slots.leased + 1 }.lend
              ticket connection)) ∨
      (slots.idle = [] ∧ slots.leased < slots.capacity ∧
        slots.ask ticket =
          (.opening,
            { slots with
              permit := false
              leased := slots.leased + 1
              opening := ticket :: slots.opening })) ∨
      (slots.idle = [] ∧ slots.capacity ≤ slots.leased ∧
        slots.ask ticket =
          (.full, { slots with permit := false, waiting := slots.waiting ++ [ticket] })) := by
  rcases take_cases { slots with permit := false } ticket with
    ⟨connection, idle, hidle, htake⟩ | ⟨hidle, hroom, htake⟩ | ⟨hidle, hroom, htake⟩
  . exact .inl ⟨connection, idle, hidle, by unfold ask; rw [htake]⟩
  . exact .inr (.inl ⟨hidle, hroom, by unfold ask; rw [htake]⟩)
  . exact .inr (.inr ⟨hidle, hroom, by unfold ask; rw [htake]⟩)

theorem withdraw_of_woken {slots : Slots} {ticket : Ticket} (h : ticket ∈ slots.woken)
    : slots.withdraw ticket = { slots with woken := slots.woken.erase ticket }.wake := by
  unfold withdraw
  rw [if_pos h]

theorem withdraw_of_not_woken {slots : Slots} {ticket : Ticket} (h : ticket ∉ slots.woken)
    : slots.withdraw ticket = (none, { slots with waiting := slots.waiting.erase ticket }) := by
  unfold withdraw
  rw [if_neg h]

theorem opened_of_mem {slots : Slots} {ticket : Ticket} (connection : Nat)
    (h : ticket ∈ slots.opening)
    : slots.opened ticket connection =
        { slots with
          opening := slots.opening.erase ticket
          created := slots.created + 1 }.lend ticket connection := by
  unfold opened
  rw [if_pos h]

theorem cancelOpening_of_mem {slots : Slots} {ticket : Ticket} (h : ticket ∈ slots.opening)
    : slots.cancelOpening ticket =
        { slots with
          opening := slots.opening.erase ticket
          leased := slots.leased - 1 }.wake := by
  unfold cancelOpening
  rw [if_pos h]

theorem mem_leases_of_lease? {slots : Slots} {ticket : Ticket} {lease : Lease}
    (h : slots.lease? ticket = some lease)
    : lease ∈ slots.leases ∧ lease.ticket = ticket := by
  unfold lease? at h
  have hticket := List.find?_some h
  exact ⟨List.mem_of_find?_eq_some h, by simpa using hticket⟩

theorem lease?_isSome_iff {slots : Slots} {ticket : Ticket}
    : (∃ lease, slots.lease? ticket = some lease) ↔ ticket ∈ slots.holders := by
  rw [← Option.isSome_iff_exists]
  simp [lease?, holders]

def ended (slots : Slots) (lease : Lease) : Slots :=
  if lease.broken then
    { slots with
      leases := slots.leases.erase lease
      leased := slots.leased - 1
      released := slots.released + 1
      retired := lease.connection :: slots.retired
      discarded := slots.discarded + 1 }
  else
    { slots with
      leases := slots.leases.erase lease
      leased := slots.leased - 1
      released := slots.released + 1
      idle := lease.connection :: slots.idle }

theorem giveBack_of_lease? {slots : Slots} {ticket : Ticket} {lease : Lease}
    (h : slots.lease? ticket = some lease)
    : slots.giveBack ticket = (slots.ended lease).wake := by
  unfold giveBack ended
  rw [h]
  dsimp only
  split <;> rfl

theorem giveBack_of_not_holder {slots : Slots} {ticket : Ticket} (h : ticket ∉ slots.holders)
    : slots.giveBack ticket = (none, slots) := by
  unfold giveBack
  split
  . rfl
  . next lease hlease => exact absurd (lease?_isSome_iff.1 ⟨lease, hlease⟩) h

@[simp]
theorem capacity_wake (slots : Slots) : slots.wake.2.capacity = slots.capacity := by
  obtain ⟨_, _, _, hwake⟩ := wake_eq slots
  rw [hwake]

theorem opening_wake {slots : Slots} : slots.wake.2.opening = slots.opening := by
  obtain ⟨_, _, _, hwake⟩ := wake_eq slots
  rw [hwake]

@[simp]
theorem capacity_take (slots : Slots) (ticket : Ticket)
    : (slots.take ticket).2.capacity = slots.capacity := by
  rcases take_cases slots ticket with ⟨_, _, _, htake⟩ | ⟨_, _, htake⟩ | ⟨_, _, htake⟩ <;>
    rw [htake]
  rfl

@[simp]
theorem capacity_ask (slots : Slots) (ticket : Ticket)
    : (slots.ask ticket).2.capacity = slots.capacity := by
  obtain ⟨_, hask⟩ := ask_eq slots ticket
  rw [hask]
  apply capacity_take { slots with permit := false }

theorem capacity_perform (slots : Slots) (move : Move)
    : (slots.perform move).capacity = slots.capacity := by
  cases move with
  | take ticket => apply capacity_take slots ticket
  | ask ticket => apply capacity_ask slots ticket
  | resume ticket => apply capacity_ask _ ticket
  | withdraw ticket =>
    unfold perform withdraw
    dsimp only
    split <;> simp
  | opened ticket connection =>
    unfold perform opened
    dsimp only
    split <;> rfl
  | cancelOpening ticket =>
    unfold perform cancelOpening
    dsimp only
    split <;> simp
  | markBroken ticket => rfl
  | call ticket => rfl
  | giveBack ticket =>
    unfold perform giveBack
    dsimp only
    split
    . rfl
    . split <;> simp

theorem capacity_after (capacity : Nat) (moves : List Move)
    : (after capacity moves).capacity = capacity := by
  induction moves with
  | nil => rfl
  | cons move moves ih =>
    unfold after
    rw [capacity_perform, ih]

end Slots

namespace Pool

/-!
## Both flavors
-/

def perform (pool : Pool) (flavor : Flavor) (move : Slots.Move) : Pool :=
  pool.setSlots flavor ((pool.slots flavor).perform move)

def after (config : Config) : List (Flavor × Slots.Move) → Pool
  | [] => .ofConfig config
  | (flavor, move) :: moves => (after config moves).perform flavor move

def Legal (config : Config) : List (Flavor × Slots.Move) → Prop
  | [] => True
  | (flavor, move) :: moves =>
    Legal config moves ∧ ((after config moves).slots flavor).Admits move

instance Legal.decidable (config : Config)
    : (moves : List (Flavor × Slots.Move)) → Decidable (Legal config moves)
  | [] => .isTrue trivial
  | (_, _) :: moves =>
    have := Legal.decidable config moves
    inferInstanceAs (Decidable (_ ∧ _))

def movesOf (flavor : Flavor) : List (Flavor × Slots.Move) → List Slots.Move
  | [] => []
  | (other, move) :: moves =>
    if other = flavor then move :: movesOf flavor moves else movesOf flavor moves

def capacityOf (config : Config) : Nat :=
  max 1 config.maxConnections.toNat

@[simp]
theorem slots_setSlots_self (pool : Pool) (flavor : Flavor) (slots : Slots)
    : (pool.setSlots flavor slots).slots flavor = slots := by
  cases flavor <;> rfl

theorem slots_setSlots_of_ne (pool : Pool) {flavor other : Flavor} (slots : Slots)
    (h : flavor ≠ other)
    : (pool.setSlots flavor slots).slots other = pool.slots other := by
  cases flavor <;> cases other <;> first | rfl | contradiction

theorem slots_after_cons (config : Config) (flavor : Flavor) (move : Slots.Move)
    (moves : List (Flavor × Slots.Move))
    : (after config ((flavor, move) :: moves)).slots flavor =
        ((after config moves).slots flavor).perform move :=
  slots_setSlots_self _ _ _

theorem slots_ofConfig (config : Config) (flavor : Flavor)
    : (ofConfig config).slots flavor = { capacity := capacityOf config } := by
  cases flavor <;> rfl

theorem slots_after (config : Config) (moves : List (Flavor × Slots.Move)) (flavor : Flavor)
    : (after config moves).slots flavor =
        Slots.after (capacityOf config) (movesOf flavor moves) := by
  induction moves with
  | nil => apply slots_ofConfig config flavor
  | cons move moves ih =>
    obtain ⟨other, move⟩ := move
    unfold after perform movesOf
    split
    . next h =>
      rw [h, slots_setSlots_self, ih]
      rfl
    . next h =>
      rw [slots_setSlots_of_ne _ _ h]
      exact ih

theorem Legal.movesOf {config : Config} {moves : List (Flavor × Slots.Move)}
    (h : Legal config moves) (flavor : Flavor)
    : Slots.Legal (capacityOf config) (movesOf flavor moves) := by
  induction moves with
  | nil => trivial
  | cons move moves ih =>
    obtain ⟨other, move⟩ := move
    obtain ⟨hmoves, hmove⟩ := h
    unfold Pool.movesOf
    split
    . next h =>
      rw [h, slots_after] at hmove
      exact ⟨ih hmoves, hmove⟩
    . exact ih hmoves

theorem Legal.of_suffix {config : Config} {moves earlier : List (Flavor × Slots.Move)}
    (h : Legal config moves) (hsuffix : earlier <:+ moves)
    : Legal config earlier := by
  obtain ⟨later, rfl⟩ := hsuffix
  induction later with
  | nil => exact h
  | cons move later ih => exact ih h.1

end Pool

end MediaProxy
