import MediaProxy.Proofs.Pool.Accounting

/-!
This module contains the line of those who wait for connections: what every step does to it, and that
nobody waits while a connection is free for him.
-/

namespace MediaProxy

namespace Slots

/-!
## What a step does to those who wait
-/

structure Line where
  leased : Nat
  waiting : List Ticket
  woken : List Ticket

namespace Line

def wake (line : Line) : Line :=
  match line.waiting with
  | ticket :: waiting => { line with waiting, woken := line.woken ++ [ticket] }
  | [] => line

inductive Step (capacity : Nat) (before : Line) (move : Move) : Line → Prop where
  | still (hmove : (∃ ticket, move = .take ticket) ∨ (∃ ticket n, move = .opened ticket n) ∨
      (∃ ticket, move = .markBroken ticket) ∨ (∃ ticket, move = .call ticket)) :
      before.Step capacity move before
  | entered (hmove : (∃ ticket, move = .take ticket) ∨ (∃ ticket, move = .ask ticket))
      (hroom : before.leased < capacity) :
      before.Step capacity move { before with leased := before.leased + 1 }
  | joined (ticket : Ticket) (hmove : move = .ask ticket) (hfull : capacity ≤ before.leased) :
      before.Step capacity move { before with waiting := before.waiting ++ [ticket] }
  | served (ticket : Ticket) (hmove : move = .resume ticket) (hroom : before.leased < capacity) :
      before.Step capacity move
        { before with leased := before.leased + 1, woken := before.woken.erase ticket }
  | overtaken (ticket : Ticket) (hmove : move = .resume ticket)
      (hfull : capacity ≤ before.leased) :
      before.Step capacity move
        { before with
          waiting := before.waiting ++ [ticket]
          woken := before.woken.erase ticket }
  | left (ticket : Ticket) (hmove : move = .withdraw ticket) (hticket : ticket ∈ before.waiting)
      (hwoken : ticket ∉ before.woken) :
      before.Step capacity move { before with waiting := before.waiting.erase ticket }
  | passed (ticket : Ticket) (hmove : move = .withdraw ticket) (hticket : ticket ∈ before.woken) :
      before.Step capacity move { before with woken := before.woken.erase ticket }.wake
  | freed (hmove : (∃ ticket, move = .cancelOpening ticket) ∨ (∃ ticket, move = .giveBack ticket))
      (hpos : 0 < before.leased) :
      before.Step capacity move { before with leased := before.leased - 1 }.wake

end Line

def line (slots : Slots) : Line :=
  { leased := slots.leased, waiting := slots.waiting, woken := slots.woken }

theorem line_wake (slots : Slots) : slots.wake.2.line = slots.line.wake := by
  rcases wake_cases slots with ⟨_, _, hwaiting, hwake⟩ | ⟨hwaiting, hwake⟩
  . rw [hwake]
    simp [line, Line.wake, hwaiting]
  . rw [hwake]
    simp [line, Line.wake, hwaiting]

theorem Balanced.leased_lt {slots : Slots} (h : slots.Balanced) {connection : Nat}
    {idle : List Nat} (hidle : slots.idle = connection :: idle)
    : slots.leased < slots.capacity := by
  have hle := h.capacity_le
  rw [hidle, List.length_cons] at hle
  omega

theorem line_take {slots : Slots} (h : slots.Balanced) (ticket : Ticket)
    : slots.line.Step slots.capacity (.take ticket) (slots.take ticket).2.line := by
  rcases take_cases slots ticket with ⟨_, _, hidle, htake⟩ | ⟨_, hroom, htake⟩ | ⟨_, _, htake⟩
  . rw [htake]
    exact .entered (.inl ⟨ticket, rfl⟩) (h.leased_lt hidle)
  . rw [htake]
    exact .entered (.inl ⟨ticket, rfl⟩) hroom
  . rw [htake]
    exact .still (.inl ⟨ticket, rfl⟩)

theorem line_ask {slots : Slots} (h : slots.Balanced) (ticket : Ticket)
    : slots.line.Step slots.capacity (.ask ticket) (slots.ask ticket).2.line := by
  rcases ask_cases slots ticket with ⟨_, _, hidle, hask⟩ | ⟨_, hroom, hask⟩ | ⟨_, hfull, hask⟩
  . rw [hask]
    exact .entered (.inr ⟨ticket, rfl⟩) (h.leased_lt hidle)
  . rw [hask]
    exact .entered (.inr ⟨ticket, rfl⟩) hroom
  . rw [hask]
    exact .joined ticket rfl hfull

theorem line_resume {slots : Slots} (h : slots.Balanced) (ticket : Ticket)
    : slots.line.Step slots.capacity (.resume ticket) (slots.resume ticket).2.line := by
  unfold resume
  rcases ask_cases { slots with woken := slots.woken.erase ticket } ticket with
    ⟨_, _, hidle, hask⟩ | ⟨_, hroom, hask⟩ | ⟨_, hfull, hask⟩
  . rw [hask]
    exact .served ticket rfl (h.leased_lt hidle)
  . rw [hask]
    exact .served ticket rfl hroom
  . rw [hask]
    exact .overtaken ticket rfl hfull

theorem line_withdraw {slots : Slots} {ticket : Ticket}
    (h : ticket ∈ slots.waiting ∨ ticket ∈ slots.woken)
    : slots.line.Step slots.capacity (.withdraw ticket) (slots.withdraw ticket).2.line := by
  by_cases hwoken : ticket ∈ slots.woken
  . rw [withdraw_of_woken hwoken, line_wake]
    exact .passed ticket rfl hwoken
  . rw [withdraw_of_not_woken hwoken]
    exact .left ticket rfl (h.resolve_right hwoken) hwoken

theorem line_opened {slots : Slots} {ticket : Ticket} (connection : Nat)
    (h : ticket ∈ slots.opening)
    : slots.line.Step slots.capacity (.opened ticket connection)
        (slots.opened ticket connection).line := by
  rw [opened_of_mem connection h]
  exact .still (.inr (.inl ⟨ticket, connection, rfl⟩))

theorem line_cancelOpening {slots : Slots} (h : slots.Balanced) {ticket : Ticket}
    (hticket : ticket ∈ slots.opening)
    : slots.line.Step slots.capacity (.cancelOpening ticket)
        (slots.cancelOpening ticket).2.line := by
  rw [cancelOpening_of_mem hticket, line_wake]
  apply Line.Step.freed (.inl ⟨ticket, rfl⟩)
  have hpos := List.length_pos_of_mem hticket
  have hleased := h.leased_eq
  change 0 < slots.leased
  omega

theorem line_giveBack {slots : Slots} (h : slots.Balanced) {ticket : Ticket}
    (hticket : ticket ∈ slots.holders)
    : slots.line.Step slots.capacity (.giveBack ticket) (slots.giveBack ticket).2.line := by
  obtain ⟨lease, hlease⟩ := lease?_isSome_iff.2 hticket
  have hline : (slots.ended lease).line = { slots.line with leased := slots.line.leased - 1 } := by
    unfold ended
    split <;> rfl
  rw [giveBack_of_lease? hlease, line_wake, hline]
  apply Line.Step.freed (.inr ⟨ticket, rfl⟩)
  have hpos := List.length_pos_of_mem (mem_leases_of_lease? hlease).1
  have hleased := h.leased_eq
  change 0 < slots.leased
  omega

theorem line_perform {slots : Slots} (h : slots.Balanced) {move : Move}
    (hmove : slots.Admits move)
    : slots.line.Step slots.capacity move (slots.perform move).line := by
  cases move with
  | take ticket => apply line_take h ticket
  | ask ticket => apply line_ask h ticket
  | resume ticket => apply line_resume h ticket
  | withdraw ticket => apply line_withdraw hmove
  | opened ticket connection => apply line_opened connection hmove.1
  | cancelOpening ticket => apply line_cancelOpening h hmove
  | markBroken ticket => exact .still (.inr (.inr (.inl ⟨ticket, rfl⟩)))
  | call ticket => exact .still (.inr (.inr (.inr ⟨ticket, rfl⟩)))
  | giveBack ticket => apply line_giveBack h hmove

/-!
## Nobody waits in vain
-/

/--
If somebody waits who was not woken, enough others are woken for all free connections but `spare`.
-/
def Line.Promised (capacity spare : Nat) (line : Line) : Prop :=
  line.waiting ≠ [] → capacity ≤ line.leased + line.woken.length + spare

theorem Line.Promised.wake {capacity : Nat} {line : Line} (h : line.Promised capacity 1)
    : line.wake.Promised capacity 0 := by
  unfold Line.wake
  split
  . next ticket waiting hwaiting =>
    intro _
    have hle := h (by simp [hwaiting])
    dsimp only
    rw [List.length_append, List.length_singleton]
    omega
  . next hwaiting =>
    intro hne
    exact absurd hwaiting hne

theorem Line.Promised.spare {capacity : Nat} {line : Line} (h : line.Promised capacity 0)
    : line.Promised capacity 1 :=
  fun hne => Nat.le_succ_of_le (h hne)

theorem Line.Promised.enter {capacity : Nat} {line : Line} (h : line.Promised capacity 1)
    : { line with leased := line.leased + 1 }.Promised capacity 0 := by
  intro hne
  have hle := h hne
  dsimp only
  omega

theorem Line.Promised.wake_of_le {capacity : Nat} {slots : Slots} {before : Line}
    (h : before.Promised capacity 0) (hwaiting : slots.waiting = before.waiting)
    (hle : before.leased + before.woken.length ≤ slots.leased + slots.woken.length + 1)
    : slots.wake.2.line.Promised capacity 0 := by
  rw [line_wake]
  apply wake
  intro hne
  have hcapacity := h (hwaiting ▸ hne)
  change capacity ≤ slots.leased + slots.woken.length + 1
  omega

section
variable {slots : Slots}

theorem promised_ask (h : slots.line.Promised slots.capacity 1) (ticket : Ticket)
    : (slots.ask ticket).2.line.Promised slots.capacity 0 := by
  rcases ask_cases slots ticket with ⟨_, _, _, hask⟩ | ⟨_, _, hask⟩ | ⟨_, hfull, hask⟩
  . rw [hask]
    exact h.enter
  . rw [hask]
    exact h.enter
  . rw [hask]
    exact fun _ => Nat.le_trans hfull (Nat.le_add_right _ _)

theorem Line.Promised.perform (h : slots.line.Promised slots.capacity 0) (move : Move)
    : (slots.perform move).line.Promised slots.capacity 0 := by
  cases move with
  | take ticket =>
    unfold Slots.perform
    dsimp only
    rcases take_cases slots ticket with ⟨_, _, _, htake⟩ | ⟨_, _, htake⟩ | ⟨_, _, htake⟩
    . rw [htake]
      exact h.spare.enter
    . rw [htake]
      exact h.spare.enter
    . rw [htake]
      exact h
  | ask ticket =>
    exact promised_ask h.spare ticket
  | resume ticket =>
    -- Who was woken is not counted any more, and takes the connection or waits because none is free.
    have hspare : { slots with woken := slots.woken.erase ticket }.line.Promised slots.capacity 1 := by
      intro hne
      have hcapacity := h hne
      have hlength := List.le_length_erase (a := ticket) (l := slots.woken)
      change slots.capacity ≤ slots.leased + slots.woken.length at hcapacity
      change slots.capacity ≤ slots.leased + (slots.woken.erase ticket).length + 1
      omega
    exact promised_ask hspare ticket
  | withdraw ticket =>
    unfold Slots.perform
    dsimp only
    by_cases hwoken : ticket ∈ slots.woken
    . rw [withdraw_of_woken hwoken]
      apply h.wake_of_le
      . rfl
      . have hlength := List.le_length_erase (a := ticket) (l := slots.woken)
        change slots.leased + slots.woken.length ≤
          slots.leased + (slots.woken.erase ticket).length + 1
        omega
    . rw [withdraw_of_not_woken hwoken]
      intro hne
      apply h
      intro heq
      apply hne
      change slots.waiting = [] at heq
      change slots.waiting.erase ticket = []
      rw [heq]
      rfl
  | opened ticket connection =>
    unfold Slots.perform opened
    dsimp only
    split <;> exact h
  | cancelOpening ticket =>
    unfold Slots.perform cancelOpening
    dsimp only
    split
    . apply h.wake_of_le
      . rfl
      . change slots.leased + slots.woken.length ≤ slots.leased - 1 + slots.woken.length + 1
        omega
    . exact h
  | markBroken ticket => exact h
  | call ticket => exact h
  | giveBack ticket =>
    unfold Slots.perform
    dsimp only
    by_cases hholder : ticket ∈ slots.holders
    . obtain ⟨lease, hlease⟩ := lease?_isSome_iff.2 hholder
      rw [giveBack_of_lease? hlease]
      have hended : (slots.ended lease).waiting = slots.waiting ∧
          (slots.ended lease).woken = slots.woken ∧
          (slots.ended lease).leased = slots.leased - 1 := by
        unfold ended
        split <;> exact ⟨rfl, rfl, rfl⟩
      apply h.wake_of_le hended.1
      rw [hended.2.1, hended.2.2]
      change slots.leased + slots.woken.length ≤ slots.leased - 1 + slots.woken.length + 1
      omega
    . rw [giveBack_of_not_holder hholder]
      exact h

end

theorem Legal.promised {capacity : Nat} {moves : List Move} (h : Legal capacity moves)
    : (after capacity moves).line.Promised capacity 0 := by
  have hall : (after capacity moves).line.Promised (after capacity moves).capacity 0 := by
    apply Legal.induction (motive := fun slots => slots.line.Promised slots.capacity 0) _ _ h
    . exact fun hne => absurd rfl hne
    . intro slots move hslots _
      rw [capacity_perform]
      exact hslots.perform move
  rw [capacity_after] at hall
  exact hall

end Slots

end MediaProxy
