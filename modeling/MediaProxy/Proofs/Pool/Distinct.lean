import MediaProxy.Proofs.Pool.Move

/-!
This module contains what steps do to tickets and connections, up to their order: no ticket is in use
twice, and no connection is in two places.
-/

namespace MediaProxy

namespace Slots

/-!
## Tickets
-/

theorem tickets_wake (slots : Slots) : slots.wake.2.tickets.Perm slots.tickets := by
  rcases wake_cases slots with ⟨ticket, waiting, hwaiting, hwake⟩ | ⟨_, hwake⟩
  . rw [hwake]
    unfold tickets
    rw [hwaiting]
    apply List.Perm.append_left
    apply List.perm_iff_count.2
    intro other
    simp only [List.count_append, List.count_cons, List.count_nil]
    omega
  . rw [hwake]
    exact .refl _

theorem tickets_lend (slots : Slots) (ticket : Ticket) (connection : Nat)
    : (slots.lend ticket connection).tickets = ticket :: slots.tickets := rfl

theorem tickets_reserve (slots : Slots) (ticket : Ticket)
    : { slots with
        leased := slots.leased + 1
        opening := ticket :: slots.opening }.tickets.Perm (ticket :: slots.tickets) := by
  unfold tickets holders
  apply List.perm_iff_count.2
  intro other
  simp only [List.count_append, List.count_cons]
  omega

theorem tickets_take (slots : Slots) (ticket : Ticket)
    : (slots.take ticket).2.tickets.Perm (ticket :: slots.tickets) ∨
      (slots.take ticket).2 = slots := by
  rcases take_cases slots ticket with ⟨_, _, _, htake⟩ | ⟨_, _, htake⟩ | ⟨_, _, htake⟩
  . rw [htake]
    exact .inl (.refl _)
  . rw [htake]
    exact .inl (tickets_reserve slots ticket)
  . rw [htake]
    exact .inr rfl

theorem tickets_ask (slots : Slots) (ticket : Ticket)
    : (slots.ask ticket).2.tickets.Perm (ticket :: slots.tickets) := by
  rcases ask_cases slots ticket with ⟨_, _, _, hask⟩ | ⟨_, _, hask⟩ | ⟨_, _, hask⟩
  . rw [hask]
    exact .refl _
  . rw [hask]
    apply tickets_reserve slots ticket
  . rw [hask]
    unfold tickets holders
    apply List.perm_iff_count.2
    intro other
    simp only [List.count_append, List.count_cons, List.count_nil]
    omega

theorem tickets_of_erase_woken {slots : Slots} {ticket : Ticket} (h : ticket ∈ slots.woken)
    : (ticket :: { slots with woken := slots.woken.erase ticket }.tickets).Perm
        slots.tickets := by
  have hwoken := (List.perm_cons_erase h).symm
  unfold tickets holders
  dsimp only
  refine List.perm_middle.symm.trans (List.Perm.append_left _ ?_)
  apply List.perm_middle.symm.trans (List.Perm.append_left _ hwoken)

theorem tickets_of_erase_waiting {slots : Slots} {ticket : Ticket} (h : ticket ∈ slots.waiting)
    : (ticket :: { slots with waiting := slots.waiting.erase ticket }.tickets).Perm
        slots.tickets := by
  have hwaiting := (List.perm_cons_erase h).symm
  unfold tickets holders
  dsimp only
  refine List.perm_middle.symm.trans (List.Perm.append_left _ ?_)
  apply List.Perm.append_right _ hwaiting

theorem tickets_of_erase_opening {slots : Slots} {ticket : Ticket} (h : ticket ∈ slots.opening)
    : (ticket :: { slots with opening := slots.opening.erase ticket }.tickets).Perm
        slots.tickets := by
  have hopening := (List.perm_cons_erase h).symm
  unfold tickets holders
  dsimp only
  rw [← List.cons_append]
  refine List.Perm.append_right _ ?_
  apply List.perm_middle.symm.trans (List.Perm.append_left _ hopening)

theorem tickets_resume {slots : Slots} {ticket : Ticket} (h : ticket ∈ slots.woken)
    : (slots.resume ticket).2.tickets.Perm slots.tickets :=
  (tickets_ask _ ticket).trans (tickets_of_erase_woken h)

theorem tickets_withdraw {slots : Slots} {ticket : Ticket}
    (h : ticket ∈ slots.waiting ∨ ticket ∈ slots.woken)
    : (ticket :: (slots.withdraw ticket).2.tickets).Perm slots.tickets := by
  by_cases hwoken : ticket ∈ slots.woken
  . rw [withdraw_of_woken hwoken]
    exact ((tickets_wake _).cons ticket).trans (tickets_of_erase_woken hwoken)
  . rw [withdraw_of_not_woken hwoken]
    apply tickets_of_erase_waiting (h.resolve_right hwoken)

theorem tickets_opened {slots : Slots} {ticket : Ticket} (connection : Nat)
    (h : ticket ∈ slots.opening)
    : (slots.opened ticket connection).tickets.Perm slots.tickets := by
  rw [opened_of_mem connection h, tickets_lend]
  apply tickets_of_erase_opening h

theorem tickets_cancelOpening {slots : Slots} {ticket : Ticket} (h : ticket ∈ slots.opening)
    : (ticket :: (slots.cancelOpening ticket).2.tickets).Perm slots.tickets := by
  rw [cancelOpening_of_mem h]
  exact ((tickets_wake _).cons ticket).trans (tickets_of_erase_opening h)

@[simp]
theorem holders_markBroken (slots : Slots) (ticket : Ticket)
    : (slots.markBroken ticket).holders = slots.holders := by
  unfold holders markBroken
  rw [List.map_map]
  apply List.map_congr_left
  intro lease _
  dsimp only [Function.comp]
  split <;> rfl

@[simp]
theorem lent_markBroken (slots : Slots) (ticket : Ticket)
    : (slots.markBroken ticket).lent = slots.lent := by
  unfold lent markBroken
  rw [List.map_map]
  apply List.map_congr_left
  intro lease _
  dsimp only [Function.comp]
  split <;> rfl

theorem holders_ended {slots : Slots} {lease : Lease} (h : lease ∈ slots.leases)
    : (lease.ticket :: (slots.ended lease).holders).Perm slots.holders := by
  have hleases := ((List.perm_cons_erase h).symm.map (·.ticket))
  unfold ended
  split <;> exact hleases

theorem tickets_ended {slots : Slots} {lease : Lease} (h : lease ∈ slots.leases)
    : (lease.ticket :: (slots.ended lease).tickets).Perm slots.tickets := by
  have hholders := holders_ended h
  have hrest : (slots.ended lease).tickets =
      (slots.ended lease).holders ++ slots.opening ++ (slots.waiting ++ slots.woken) := by
    unfold tickets ended
    split <;> rfl
  rw [hrest, ← List.cons_append, ← List.cons_append]
  apply List.Perm.append_right _ (List.Perm.append_right _ hholders)

theorem tickets_giveBack {slots : Slots} {ticket : Ticket} (h : ticket ∈ slots.holders)
    : (ticket :: (slots.giveBack ticket).2.tickets).Perm slots.tickets := by
  obtain ⟨lease, hlease⟩ := lease?_isSome_iff.2 h
  obtain ⟨hmem, rfl⟩ := mem_leases_of_lease? hlease
  rw [giveBack_of_lease? hlease]
  exact ((tickets_wake _).cons _).trans (tickets_ended hmem)

theorem nodup_tickets_perform {slots : Slots} (h : slots.tickets.Nodup) {move : Move}
    (hmove : slots.Admits move)
    : (slots.perform move).tickets.Nodup := by
  cases move with
  | take ticket =>
    rcases tickets_take slots ticket with htake | htake
    . exact htake.nodup_iff.2 (List.nodup_cons.2 ⟨hmove, h⟩)
    . change (slots.take ticket).2.tickets.Nodup
      rw [htake]
      exact h
  | ask ticket => exact (tickets_ask slots ticket).nodup_iff.2 (List.nodup_cons.2 ⟨hmove, h⟩)
  | resume ticket => exact (tickets_resume hmove).nodup_iff.2 h
  | withdraw ticket => exact ((tickets_withdraw hmove).nodup_iff.2 h).of_cons
  | opened ticket connection => exact (tickets_opened connection hmove.1).nodup_iff.2 h
  | cancelOpening ticket => exact ((tickets_cancelOpening hmove).nodup_iff.2 h).of_cons
  | markBroken ticket =>
    change ((slots.markBroken ticket).holders ++ _ ++ _).Nodup
    rw [holders_markBroken]
    exact h
  | call ticket => exact h
  | giveBack ticket => exact ((tickets_giveBack hmove).nodup_iff.2 h).of_cons

theorem Legal.nodup_tickets {capacity : Nat} {moves : List Move} (h : Legal capacity moves)
    : (after capacity moves).tickets.Nodup := by
  apply Legal.induction (motive := fun slots => slots.tickets.Nodup) _ _ h
  . exact .nil
  . intro slots move hslots hmove
    apply nodup_tickets_perform hslots hmove

/-!
## Connections
-/

@[simp]
theorem connections_wake (slots : Slots) : slots.wake.2.connections = slots.connections := by
  obtain ⟨_, _, _, hwake⟩ := wake_eq slots
  rw [hwake]
  rfl

theorem connections_lend_idle {slots : Slots} {connection : Nat} {idle : List Nat}
    (h : slots.idle = connection :: idle) (ticket : Ticket)
    : ({ slots with idle, leased := slots.leased + 1 }.lend ticket connection).connections.Perm
        slots.connections := by
  unfold connections
  rw [h]
  refine List.Perm.append_right _ ?_
  apply List.perm_middle

theorem connections_take (slots : Slots) (ticket : Ticket)
    : (slots.take ticket).2.connections.Perm slots.connections := by
  rcases take_cases slots ticket with ⟨_, _, hidle, htake⟩ | ⟨_, _, htake⟩ | ⟨_, _, htake⟩
  . rw [htake]
    apply connections_lend_idle hidle ticket
  . rw [htake]
    exact .refl _
  . rw [htake]

theorem connections_ask (slots : Slots) (ticket : Ticket)
    : (slots.ask ticket).2.connections.Perm slots.connections := by
  obtain ⟨_, hask⟩ := ask_eq slots ticket
  rw [hask]
  apply connections_take { slots with permit := false }

theorem connections_ended {slots : Slots} {lease : Lease} (h : lease ∈ slots.leases)
    : (slots.ended lease).connections.Perm slots.connections := by
  have hlent : (lease.connection :: (slots.leases.erase lease).map (·.connection)).Perm
      slots.lent :=
    (List.perm_cons_erase h).symm.map Lease.connection
  unfold ended connections
  split
  . rw [List.append_assoc, List.append_assoc]
    refine List.Perm.append_left _ (List.perm_middle.trans ?_)
    apply List.Perm.append_right _ hlent
  . refine List.Perm.append_right _ (List.perm_middle.symm.trans ?_)
    apply List.Perm.append_left _ hlent

def Move.opens : Move → List Nat
  | .opened _ connection => [connection]
  | _ => []

theorem connections_perform {slots : Slots} {move : Move} (hmove : slots.Admits move)
    : (slots.perform move).connections.Perm (move.opens ++ slots.connections) := by
  cases move with
  | take ticket => apply connections_take slots ticket
  | ask ticket => apply connections_ask slots ticket
  | resume ticket => apply connections_ask _ ticket
  | withdraw ticket =>
    change (slots.withdraw ticket).2.connections.Perm slots.connections
    by_cases hwoken : ticket ∈ slots.woken
    . rw [withdraw_of_woken hwoken, connections_wake]
      exact .refl _
    . rw [withdraw_of_not_woken hwoken]
      exact .refl _
  | opened ticket connection =>
    change (slots.opened ticket connection).connections.Perm _
    rw [opened_of_mem connection hmove.1]
    change (slots.idle ++ connection :: slots.lent ++ slots.retired).Perm
      (connection :: (slots.idle ++ slots.lent) ++ slots.retired)
    apply List.Perm.append_right _ List.perm_middle
  | cancelOpening ticket =>
    change (slots.cancelOpening ticket).2.connections.Perm slots.connections
    rw [cancelOpening_of_mem hmove, connections_wake]
    exact .refl _
  | markBroken ticket =>
    change (slots.idle ++ (slots.markBroken ticket).lent ++ slots.retired).Perm slots.connections
    rw [lent_markBroken]
    exact .refl _
  | call ticket => exact .refl _
  | giveBack ticket =>
    change (slots.giveBack ticket).2.connections.Perm slots.connections
    obtain ⟨lease, hlease⟩ := lease?_isSome_iff.2 hmove
    rw [giveBack_of_lease? hlease, connections_wake]
    apply connections_ended (mem_leases_of_lease? hlease).1

def openedBy (moves : List Move) : List Nat :=
  moves.flatMap Move.opens

theorem Legal.connections_perm {capacity : Nat} {moves : List Move} (h : Legal capacity moves)
    : (after capacity moves).connections.Perm (openedBy moves) := by
  induction moves with
  | nil => exact .refl _
  | cons move moves ih =>
    refine (connections_perform h.2).trans ?_
    apply List.Perm.append_left _ (ih h.1)

theorem Legal.nodup_openedBy {capacity : Nat} {moves : List Move} (h : Legal capacity moves)
    : (openedBy moves).Nodup := by
  induction moves with
  | nil => exact .nil
  | cons move moves ih =>
    have hmoves := ih h.1
    cases move with
    | opened ticket connection =>
      -- No connection has the number of the new one, and none of those that were opened is lost.
      have hnew := h.2.2
      rw [h.1.connections_perm.mem_iff] at hnew
      apply List.nodup_cons.2 ⟨hnew, hmoves⟩
    | _ => exact hmoves

end Slots

end MediaProxy
