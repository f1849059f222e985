import MediaProxy.Proofs.Pool.Distinct

/-!
This module contains how many leases a ticket has, before and after every step.
-/

namespace MediaProxy

namespace Slots

section
variable (slots : Slots) (ticket other : Ticket)

theorem count_holders_lend (connection : Nat)
    : (slots.lend ticket connection).holders.count other =
        slots.holders.count other + if ticket = other then 1 else 0 := by
  change (ticket :: slots.holders).count other = _
  rw [List.count_cons]
  simp only [beq_iff_eq]

theorem count_holders_take
    : (slots.take ticket).2.holders.count other =
        slots.holders.count other +
          if (slots.take ticket).1 = .lease ∧ ticket = other then 1 else 0 := by
  rcases take_cases slots ticket with ⟨connection, idle, _, htake⟩ | ⟨_, _, htake⟩ | ⟨_, _, htake⟩
  . rw [htake, count_holders_lend]
    simp only [true_and]
    rfl
  . rw [htake]
    simp only [reduceCtorEq, false_and, if_false]
    rfl
  . rw [htake]
    simp only [reduceCtorEq, false_and, if_false]
    rfl

theorem count_holders_ask
    : (slots.ask ticket).2.holders.count other =
        slots.holders.count other +
          if (slots.ask ticket).1 = .lease ∧ ticket = other then 1 else 0 := by
  obtain ⟨waiting, hask⟩ := ask_eq slots ticket
  rw [hask]
  exact count_holders_take { slots with permit := false } ticket other

theorem count_holders_resume
    : (slots.resume ticket).2.holders.count other =
        slots.holders.count other +
          if (slots.resume ticket).1 = .lease ∧ ticket = other then 1 else 0 :=
  count_holders_ask { slots with woken := slots.woken.erase ticket } ticket other

theorem holders_wake : slots.wake.2.holders = slots.holders := by
  obtain ⟨waiting, woken, permit, hwake⟩ := wake_eq slots
  rw [hwake]
  rfl

theorem holders_withdraw : (slots.withdraw ticket).2.holders = slots.holders := by
  unfold withdraw
  split
  . rw [holders_wake]
    rfl
  . rfl

theorem holders_cancelOpening : (slots.cancelOpening ticket).2.holders = slots.holders := by
  unfold cancelOpening
  split
  . rw [holders_wake]
    rfl
  . rfl

theorem count_holders_opened (connection : Nat)
    : (slots.opened ticket connection).holders.count other =
        slots.holders.count other +
          if ticket ∈ slots.opening ∧ ticket = other then 1 else 0 := by
  by_cases hopening : ticket ∈ slots.opening
  . rw [opened_of_mem connection hopening, count_holders_lend]
    simp only [hopening, true_and]
    rfl
  . unfold opened
    simp [hopening]

theorem count_holders_giveBack
    : (slots.giveBack ticket).2.holders.count other =
        slots.holders.count other - if ticket = other then 1 else 0 := by
  by_cases hholder : ticket ∈ slots.holders
  . obtain ⟨lease, hlease⟩ := lease?_isSome_iff.2 hholder
    obtain ⟨hmem, hticket⟩ := mem_leases_of_lease? hlease
    have hcount := (holders_ended hmem).count_eq other
    rw [giveBack_of_lease? hlease, holders_wake, ← hcount, List.count_cons, hticket]
    simp
  . rw [giveBack_of_not_holder hholder]
    split
    . next heq => rw [← heq, List.count_eq_zero.2 hholder]
    . rfl

theorem count_holders_perform_of_ne {slots : Slots} {other : Ticket} {move : Move}
    (h : move.ticket ≠ other)
    : (slots.perform move).holders.count other = slots.holders.count other := by
  cases move with
  | take ticket => simp [perform, count_holders_take, show ticket ≠ other from h]
  | ask ticket => simp [perform, count_holders_ask, show ticket ≠ other from h]
  | resume ticket => simp [perform, count_holders_resume, show ticket ≠ other from h]
  | withdraw ticket => exact congrArg _ (holders_withdraw slots ticket)
  | opened ticket connection => simp [perform, count_holders_opened, show ticket ≠ other from h]
  | cancelOpening ticket => exact congrArg _ (holders_cancelOpening slots ticket)
  | markBroken ticket => exact congrArg _ (holders_markBroken slots ticket)
  | call ticket => rfl
  | giveBack ticket => simp [perform, count_holders_giveBack, show ticket ≠ other from h]

end

end Slots

end MediaProxy
