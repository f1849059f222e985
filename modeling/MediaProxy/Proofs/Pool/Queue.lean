import MediaProxy.Proofs.Pool.Distinct
import MediaProxy.Proofs.Pool.Line

/-!
This module contains the order in which those who wait for connections are served.
-/

namespace MediaProxy

namespace Slots

/-!
## Histories
-/

def began (capacity : Nat) : List Move → List Ticket
  | [] => []
  | .ask ticket :: moves =>
    if ticket ∈ (after capacity (.ask ticket :: moves)).waiting then
      began capacity moves ++ [ticket]
    else began capacity moves
  | _ :: moves => began capacity moves

def served (capacity : Nat) : List Move → List Ticket
  | [] => []
  | .resume ticket :: moves =>
    if ticket ∈ (after capacity (.resume ticket :: moves)).waiting then served capacity moves
    else served capacity moves ++ [ticket]
  | _ :: moves => served capacity moves

def remaining (capacity : Nat) (moves : List Move) : List Ticket :=
  (began capacity moves).filter fun ticket => .withdraw ticket ∉ moves

def OwnTickets : List Move → Prop
  | [] => True
  | move :: moves =>
    OwnTickets moves ∧ ∀ ticket, move = .ask ticket → ∀ other ∈ moves, other.ticket ≠ ticket

/--
No acquisition starts between the waking of another one and its going on.
-/
def Unhurried (capacity : Nat) : List Move → Prop
  | [] => True
  | move :: moves =>
    Unhurried capacity moves ∧
      ((∃ ticket, move = .take ticket ∨ move = .ask ticket) → (after capacity moves).woken = [])

/--
Acquisitions go on in the order in which they were woken.
-/
def InTurn (capacity : Nat) : List Move → Prop
  | [] => True
  | move :: moves =>
    InTurn capacity moves ∧
      ∀ ticket, move = .resume ticket → (after capacity moves).woken.head? = some ticket

/--
Every step but the going on of somebody who was woken finds nobody woken.
-/
def Settling (capacity : Nat) : List Move → Prop
  | [] => True
  | move :: moves =>
    Settling capacity moves ∧
      ((∀ ticket, move ≠ .resume ticket) → (after capacity moves).woken = [])

theorem exists_of_mem_began {capacity : Nat} {moves : List Move} {ticket : Ticket}
    (h : ticket ∈ began capacity moves)
    : ∃ move ∈ moves, move.ticket = ticket := by
  induction moves with
  | nil => exact absurd h List.not_mem_nil
  | cons move moves ih =>
    by_cases hmoves : ticket ∈ began capacity moves
    . obtain ⟨other, hmem, hticket⟩ := ih hmoves
      exact ⟨other, List.mem_cons_of_mem _ hmem, hticket⟩
    . refine ⟨move, List.mem_cons_self, ?_⟩
      cases move with
      | ask other =>
        unfold began at h
        split at h
        . rw [List.mem_append, List.mem_singleton] at h
          exact (h.resolve_left hmoves).symm
        . exact absurd h hmoves
      | _ => exact absurd h hmoves

theorem OwnTickets.nodup_began {capacity : Nat} {moves : List Move} (h : OwnTickets moves)
    : (began capacity moves).Nodup := by
  induction moves with
  | nil => exact .nil
  | cons move moves ih =>
    have hmoves := ih h.1
    cases move with
    | ask ticket =>
      unfold began
      split
      . apply List.nodup_append.2
        refine ⟨hmoves, by simp, ?_⟩
        intro other hother last hlast heq
        obtain ⟨move, hmem, hticket⟩ := exists_of_mem_began hother
        rw [List.mem_singleton] at hlast
        apply h.2 ticket rfl move hmem
        rw [hticket, heq, hlast]
      . exact hmoves
    | _ => exact hmoves

/-!
## Those who were woken find what they were woken for
-/

theorem Line.roomy_wake {capacity : Nat} {line : Line}
    (h : line.leased + line.woken.length + 1 ≤ capacity)
    : line.wake.leased + line.wake.woken.length ≤ capacity := by
  unfold wake
  split
  . dsimp only
    rw [List.length_append, List.length_singleton]
    omega
  . omega

theorem Line.roomy_step {capacity : Nat} {before after : Line} {move : Move}
    (h : before.leased + before.woken.length ≤ capacity)
    (hmove : (∃ ticket, move = .take ticket ∨ move = .ask ticket) → before.woken = [])
    (hresume : ∀ ticket, move = .resume ticket → ticket ∈ before.woken)
    (hstep : before.Step capacity move after)
    : after.leased + after.woken.length ≤ capacity := by
  cases hstep with
  | still => exact h
  | entered hstart hroom =>
    -- Whoever starts could take a connection that somebody was woken for.
    have hwoken : before.woken = [] := by
      apply hmove
      rcases hstart with ⟨ticket, hticket⟩ | ⟨ticket, hticket⟩
      . exact ⟨ticket, .inl hticket⟩
      . exact ⟨ticket, .inr hticket⟩
    dsimp only
    rw [hwoken, List.length_nil]
    omega
  | joined => exact h
  | served ticket hticket =>
    have hmem := hresume ticket hticket
    have hlength := List.length_erase_of_mem hmem
    have hpos := List.length_pos_of_mem hmem
    dsimp only
    omega
  | overtaken ticket hticket =>
    have hmem := hresume ticket hticket
    have hlength := List.length_erase_of_mem hmem
    dsimp only
    omega
  | left => exact h
  | passed ticket _ hticket =>
    apply roomy_wake
    have hlength := List.length_erase_of_mem hticket
    have hpos := List.length_pos_of_mem hticket
    dsimp only
    omega
  | freed _ hpos =>
    apply roomy_wake
    dsimp only
    omega

theorem Legal.roomy {capacity : Nat} {moves : List Move} (h : Legal capacity moves)
    (hunhurried : Unhurried capacity moves)
    : (after capacity moves).leased + (after capacity moves).woken.length ≤ capacity := by
  induction moves with
  | nil => apply Nat.zero_le
  | cons move moves ih =>
    have hstep := line_perform h.1.balanced h.2
    rw [capacity_after] at hstep
    refine Line.roomy_step (ih h.1 hunhurried.1) hunhurried.2 ?_ hstep
    rintro ticket rfl
    exact h.2

theorem Legal.not_mem_waiting_of_resume {capacity : Nat} {ticket : Ticket} {moves : List Move}
    (h : Legal capacity (.resume ticket :: moves)) (hunhurried : Unhurried capacity moves)
    : ticket ∉ (after capacity (.resume ticket :: moves)).waiting := by
  have hroomy := h.1.roomy hunhurried
  have hpos := List.length_pos_of_mem h.2
  have hstep := line_perform h.1.balanced h.2
  rw [capacity_after] at hstep
  change ticket ∉ ((after capacity moves).perform (.resume ticket)).line.waiting
  generalize ((after capacity moves).perform (.resume ticket)).line = line at hstep
  cases hstep with
  | still hmove => simp at hmove
  | entered hmove => simp at hmove
  | joined _ hmove => cases hmove
  | served other hmove =>
    have hnodup := h.1.nodup_tickets
    unfold tickets at hnodup
    have hqueues := (List.nodup_append.1 hnodup).2.1
    intro hwaiting
    exact (List.nodup_append.1 hqueues).2.2 ticket hwaiting ticket h.2 rfl
  | overtaken _ _ hfull =>
    change capacity ≤ (after capacity moves).leased at hfull
    omega
  | left _ hmove => cases hmove
  | passed _ hmove => cases hmove
  | freed hmove => simp at hmove

theorem Unhurried.of_suffix {capacity : Nat} {moves earlier : List Move}
    (h : Unhurried capacity moves) (hsuffix : earlier <:+ moves)
    : Unhurried capacity earlier := by
  obtain ⟨later, rfl⟩ := hsuffix
  induction later with
  | nil => exact h
  | cons move later ih => exact ih h.1

theorem Legal.served_of_resume {capacity : Nat} {ticket : Ticket} {moves : List Move}
    (h : Legal capacity (.resume ticket :: moves)) (hunhurried : Unhurried capacity moves)
    : ticket ∈ (after capacity (.resume ticket :: moves)).holders ∨
        ticket ∈ (after capacity (.resume ticket :: moves)).opening := by
  have hroomy := h.1.roomy hunhurried
  have hpos := List.length_pos_of_mem h.2
  have hcapacity := capacity_after capacity moves
  change ticket ∈ ((after capacity moves).resume ticket).2.holders ∨
    ticket ∈ ((after capacity moves).resume ticket).2.opening
  unfold resume
  rcases ask_cases
      { after capacity moves with woken := (after capacity moves).woken.erase ticket } ticket with
    ⟨_, _, _, hask⟩ | ⟨_, _, hask⟩ | ⟨_, hfull, _⟩
  . rw [hask]
    exact .inl List.mem_cons_self
  . rw [hask]
    exact .inr List.mem_cons_self
  . dsimp only at hfull
    omega

/-!
## Who came first is served first
-/

theorem began_cons {capacity : Nat} {move : Move} {moves : List Move}
    (h : ∀ ticket, move ≠ .ask ticket)
    : began capacity (move :: moves) = began capacity moves := by
  cases move with
  | ask ticket => exact absurd rfl (h ticket)
  | _ => rfl

theorem served_cons {capacity : Nat} {move : Move} {moves : List Move}
    (h : ∀ ticket, move ≠ .resume ticket)
    : served capacity (move :: moves) = served capacity moves := by
  cases move with
  | resume ticket => exact absurd rfl (h ticket)
  | _ => rfl

theorem filter_withdraw_cons {move : Move} {moves : List Move}
    (h : ∀ ticket, move ≠ .withdraw ticket) (tickets : List Ticket)
    : (tickets.filter fun ticket => .withdraw ticket ∉ move :: moves) =
        tickets.filter fun ticket => .withdraw ticket ∉ moves := by
  apply List.filter_congr
  intro ticket _
  have hne : Move.withdraw ticket ≠ move := fun heq => h ticket heq.symm
  simp [hne]

theorem remaining_cons {capacity : Nat} {move : Move} {moves : List Move}
    (hask : ∀ ticket, move ≠ .ask ticket) (hwithdraw : ∀ ticket, move ≠ .withdraw ticket)
    : remaining capacity (move :: moves) = remaining capacity moves := by
  unfold remaining
  rw [began_cons hask, filter_withdraw_cons hwithdraw]

theorem remaining_of_not_queues {capacity : Nat} {move : Move} {moves : List Move}
    (h : move.queues = false)
    : remaining capacity (move :: moves) = remaining capacity moves := by
  apply remaining_cons
  . rintro ticket rfl
    cases h
  . rintro ticket rfl
    cases h

theorem served_of_not_queues {capacity : Nat} {move : Move} {moves : List Move}
    (h : move.queues = false)
    : served capacity (move :: moves) = served capacity moves := by
  apply served_cons
  rintro ticket rfl
  cases h

theorem remaining_withdraw (capacity : Nat) (ticket : Ticket) (moves : List Move)
    : remaining capacity (.withdraw ticket :: moves) =
        (remaining capacity moves).filter (· != ticket) := by
  unfold remaining
  rw [List.filter_filter]
  apply List.filter_congr
  intro other _
  rw [Bool.eq_iff_iff]
  simp

theorem remaining_ask {capacity : Nat} {ticket : Ticket} {moves : List Move}
    (h : ticket ∉ (after capacity (.ask ticket :: moves)).waiting)
    : remaining capacity (.ask ticket :: moves) = remaining capacity moves := by
  unfold remaining
  rw [filter_withdraw_cons (by simp), began, if_neg h]

theorem remaining_ask_of_waiting {capacity : Nat} {ticket : Ticket} {moves : List Move}
    (hown : OwnTickets (.ask ticket :: moves))
    (h : ticket ∈ (after capacity (.ask ticket :: moves)).waiting)
    : remaining capacity (.ask ticket :: moves) = remaining capacity moves ++ [ticket] := by
  have hwithdraw : Move.withdraw ticket ∉ moves := fun hmem => hown.2 ticket rfl _ hmem rfl
  unfold remaining
  rw [filter_withdraw_cons (by simp), began, if_pos h, List.filter_append]
  congr 1
  simp [hwithdraw]

structure Line.Follows (line : Line) (inTurn : Prop) (remaining served called : List Ticket) :
    Prop where
  remaining_eq : remaining = called ++ line.waiting
  called_perm : called.Perm (served ++ line.woken)
  called_eq : inTurn → called = served ++ line.woken

theorem Line.Follows.wake {line : Line} {inTurn : Prop} {remaining served called : List Ticket}
    (h : line.Follows inTurn remaining served called)
    : ∃ called, line.wake.Follows inTurn remaining served called := by
  unfold Line.wake
  split
  . next ticket waiting hwaiting =>
    refine ⟨called ++ [ticket], ?_, ?_, ?_⟩
    . rw [h.remaining_eq, hwaiting]
      simp
    . dsimp only
      rw [← List.append_assoc]
      exact h.called_perm.append_right _
    . intro hturn
      dsimp only
      rw [h.called_eq hturn, List.append_assoc]
  . exact ⟨called, h⟩

theorem Line.Follows.nodup {line : Line} {inTurn : Prop} {remaining served called : List Ticket}
    (h : line.Follows inTurn remaining served called) (hnodup : remaining.Nodup)
    : called.Nodup ∧ line.waiting.Nodup ∧ (∀ ticket ∈ called, ticket ∉ line.waiting) := by
  rw [h.remaining_eq, List.nodup_append] at hnodup
  obtain ⟨hcalled, hwaiting, hne⟩ := hnodup
  exact ⟨hcalled, hwaiting, fun ticket hmem hmem' => hne ticket hmem ticket hmem' rfl⟩

theorem Line.Follows.serve {line : Line} {inTurn inTurn' : Prop} {ticket : Ticket}
    {remaining served called : List Ticket} (h : line.Follows inTurn remaining served called)
    (hticket : ticket ∈ line.woken) (leased : Nat)
    (hturn : inTurn' → inTurn ∧ line.woken.head? = some ticket)
    : Line.Follows { line with leased, woken := line.woken.erase ticket } inTurn' remaining
        (served ++ [ticket]) called := by
  refine ⟨h.remaining_eq, ?_, ?_⟩
  . apply h.called_perm.trans
    rw [List.append_assoc]
    exact (List.perm_cons_erase hticket).append_left served
  . intro hinTurn
    obtain ⟨hearlier, hhead⟩ := hturn hinTurn
    obtain ⟨woken, hwoken⟩ := List.head?_eq_some_iff.1 hhead
    dsimp only
    rw [h.called_eq hearlier, hwoken, List.erase_cons_head, List.append_assoc,
      List.singleton_append]

theorem Line.Follows.leave {line : Line} {inTurn : Prop} {ticket : Ticket}
    {remaining served called : List Ticket} (h : line.Follows inTurn remaining served called)
    (hnodup : remaining.Nodup) (hticket : ticket ∈ line.waiting)
    : Line.Follows { line with waiting := line.waiting.erase ticket } inTurn
        (remaining.filter (· != ticket)) served called := by
  obtain ⟨hcalled, hwaiting, hdisjoint⟩ := h.nodup hnodup
  have hmem : ticket ∉ called := fun hmem => hdisjoint ticket hmem hticket
  refine ⟨?_, h.called_perm, h.called_eq⟩
  dsimp only
  rw [h.remaining_eq, List.filter_append, hwaiting.erase_eq_filter]
  congr 1
  apply List.filter_eq_self.2
  intro other hother
  have hne : other ≠ ticket := by
    rintro rfl
    exact hmem hother
  simp [hne]

theorem Line.Follows.pass {line : Line} {inTurn : Prop} {ticket : Ticket}
    {remaining served called : List Ticket} (h : line.Follows inTurn remaining served called)
    (hnodup : remaining.Nodup) (hticket : ticket ∈ line.woken)
    : Line.Follows { line with woken := line.woken.erase ticket } inTurn
        (remaining.filter (· != ticket)) served (called.erase ticket) := by
  obtain ⟨hcalled, hwaiting, hdisjoint⟩ := h.nodup hnodup
  have hmem : ticket ∈ called := h.called_perm.mem_iff.2 (List.mem_append_right _ hticket)
  have hserved : ticket ∉ served := by
    have hboth := h.called_perm.nodup_iff.1 hcalled
    intro hserved
    exact (List.nodup_append.1 hboth).2.2 ticket hserved ticket hticket rfl
  have herase : (served ++ line.woken).erase ticket = served ++ line.woken.erase ticket :=
    List.erase_append_right _ hserved
  refine ⟨?_, ?_, ?_⟩
  . rw [h.remaining_eq, List.filter_append, hcalled.erase_eq_filter]
    congr 1
    apply List.filter_eq_self.2
    intro other hother
    have hne : other ≠ ticket := by
      rintro rfl
      exact hdisjoint other hmem hother
    simp [hne]
  . dsimp only
    rw [← herase]
    exact h.called_perm.erase ticket
  . intro hturn
    dsimp only
    rw [h.called_eq hturn, herase]

theorem Line.Follows.mono {line : Line} {inTurn inTurn' : Prop}
    {remaining served called : List Ticket} (h : line.Follows inTurn remaining served called)
    (hturn : inTurn' → inTurn)
    : line.Follows inTurn' remaining served called :=
  ⟨h.remaining_eq, h.called_perm, fun h' => h.called_eq (hturn h')⟩

theorem Line.Follows.join {line : Line} {inTurn : Prop} {remaining served called : List Ticket}
    (h : line.Follows inTurn remaining served called) (ticket : Ticket)
    : Line.Follows { line with waiting := line.waiting ++ [ticket] } inTurn
        (remaining ++ [ticket]) served called := by
  refine ⟨?_, h.called_perm, h.called_eq⟩
  rw [h.remaining_eq, List.append_assoc]

theorem Line.Follows.setLeased {line : Line} {inTurn : Prop}
    {remaining served called : List Ticket} (h : line.Follows inTurn remaining served called)
    (leased : Nat)
    : Line.Follows { line with leased } inTurn remaining served called :=
  ⟨h.remaining_eq, h.called_perm, h.called_eq⟩

theorem Legal.follows {capacity : Nat} {moves : List Move} (h : Legal capacity moves)
    (hown : OwnTickets moves) (hunhurried : Unhurried capacity moves)
    : ∃ called, (after capacity moves).line.Follows (InTurn capacity moves)
        (remaining capacity moves) (served capacity moves) called := by
  induction moves with
  | nil => exact ⟨[], rfl, .refl _, fun _ => rfl⟩
  | cons move moves ih =>
    obtain ⟨called, hfollows⟩ := ih h.1 hown.1 hunhurried.1
    have hnodup : (remaining capacity moves).Nodup := hown.1.nodup_began.filter _
    have hnow : Line.Follows _ (InTurn capacity (move :: moves)) _ _ _ := hfollows.mono And.left
    have hstep := line_perform h.1.balanced h.2
    rw [capacity_after] at hstep
    -- Each case finds the called ones anew: `wake` adds to them and giving up takes one out.
    generalize hline : ((after capacity moves).perform move).line = line at hstep
    have hwaiting : (after capacity (move :: moves)).waiting = line.waiting :=
      congrArg Line.waiting hline
    change ∃ called, ((after capacity moves).perform move).line.Follows _ _ _ called
    rw [hline]
    cases hstep with
    | still hmove =>
      have hqueues : move.queues = false := by
        rcases hmove with ⟨_, rfl⟩ | ⟨_, _, rfl⟩ | ⟨_, rfl⟩ | ⟨_, rfl⟩ <;> rfl
      rw [remaining_of_not_queues hqueues, served_of_not_queues hqueues]
      exact ⟨called, hnow⟩
    | entered hmove =>
      refine ⟨called, ?_⟩
      rcases hmove with ⟨ticket, rfl⟩ | ⟨ticket, rfl⟩
      . rw [remaining_of_not_queues rfl, served_of_not_queues rfl]
        exact hnow.setLeased _
      . have hout : ticket ∉ (after capacity (.ask ticket :: moves)).waiting := by
          rw [hwaiting]
          intro hmem
          exact h.2 (List.mem_append_right _ (List.mem_append_left _ hmem))
        rw [remaining_ask hout, served_cons (by simp)]
        exact hnow.setLeased _
    | joined ticket hmove =>
      subst hmove
      have hin : ticket ∈ (after capacity (.ask ticket :: moves)).waiting := by
        rw [hwaiting]
        apply List.mem_append_right _ (List.mem_singleton_self _)
      rw [remaining_ask_of_waiting hown hin, served_cons (by simp)]
      exact ⟨called, hnow.join ticket⟩
    | served ticket hmove =>
      subst hmove
      have hout := h.not_mem_waiting_of_resume hunhurried.1
      rw [remaining_cons (by simp) (by simp), served, if_neg hout]
      refine ⟨called, hfollows.serve h.2 _ ?_⟩
      intro hturn
      exact ⟨hturn.1, hturn.2 ticket rfl⟩
    | overtaken ticket hmove =>
      -- Nobody has started in between who could have taken the place.
      subst hmove
      have hout := h.not_mem_waiting_of_resume hunhurried.1
      rw [hwaiting] at hout
      exact absurd (List.mem_append_right _ (List.mem_singleton_self _)) hout
    | left ticket hmove hticket =>
      subst hmove
      rw [remaining_withdraw, served_cons (by simp)]
      exact ⟨called, hnow.leave hnodup hticket⟩
    | passed ticket hmove hticket =>
      subst hmove
      rw [remaining_withdraw, served_cons (by simp)]
      exact (hnow.pass hnodup hticket).wake
    | freed hmove =>
      have hqueues : move.queues = false := by
        rcases hmove with ⟨_, rfl⟩ | ⟨_, rfl⟩ <;> rfl
      rw [remaining_of_not_queues hqueues, served_of_not_queues hqueues]
      exact (hnow.setLeased _).wake

/-!
## Runs in which everything settles
-/

theorem Settling.unhurried {capacity : Nat} {moves : List Move} (h : Settling capacity moves)
    : Unhurried capacity moves := by
  induction moves with
  | nil => trivial
  | cons move moves ih =>
    refine ⟨ih h.1, ?_⟩
    rintro ⟨ticket, rfl | rfl⟩
    . exact h.2 (by simp)
    . exact h.2 (by simp)

theorem Line.length_woken_wake (line : Line) : line.wake.woken.length ≤ line.woken.length + 1 := by
  unfold wake
  split
  . apply Nat.le_of_eq List.length_append
  . omega

theorem Line.length_woken_step {capacity : Nat} {before after : Line} {move : Move}
    (h : before.woken.length ≤ 1)
    (hmove : (∀ ticket, move ≠ .resume ticket) → before.woken = [])
    (hstep : before.Step capacity move after)
    : after.woken.length ≤ 1 := by
  cases hstep with
  | still => exact h
  | entered => exact h
  | joined => exact h
  | served ticket =>
    have hlength := List.length_erase_le (a := ticket) (l := before.woken)
    dsimp only
    omega
  | overtaken ticket =>
    have hlength := List.length_erase_le (a := ticket) (l := before.woken)
    dsimp only
    omega
  | left => exact h
  | passed ticket heq hticket =>
    have hwoken := hmove (by simp [heq])
    rw [hwoken] at hticket
    exact absurd hticket List.not_mem_nil
  | freed heq =>
    have hwoken : before.woken = [] := by
      apply hmove
      rintro ticket rfl
      simp at heq
    have hzero : before.woken.length = 0 := List.length_eq_zero_iff.2 hwoken
    have hlength := length_woken_wake { before with leased := before.leased - 1 }
    dsimp only at hlength
    omega

theorem Legal.length_woken {capacity : Nat} {moves : List Move} (h : Legal capacity moves)
    (hsettling : Settling capacity moves)
    : (after capacity moves).woken.length ≤ 1 := by
  induction moves with
  | nil => apply Nat.zero_le
  | cons move moves ih =>
    have hstep := line_perform h.1.balanced h.2
    apply Line.length_woken_step (ih h.1 hsettling.1) hsettling.2 hstep

theorem Legal.inTurn {capacity : Nat} {moves : List Move} (h : Legal capacity moves)
    (hsettling : Settling capacity moves)
    : InTurn capacity moves := by
  induction moves with
  | nil => trivial
  | cons move moves ih =>
    refine ⟨ih h.1 hsettling.1, ?_⟩
    rintro ticket rfl
    have hlength := h.1.length_woken hsettling.1
    have hticket : ticket ∈ (after capacity moves).woken := h.2
    -- At most one is woken at a time, so whoever goes on is the first.
    generalize (after capacity moves).woken = woken at hlength hticket
    obtain _ | ⟨first, _ | ⟨_, _⟩⟩ := woken
    . exact absurd hticket List.not_mem_nil
    . rw [List.mem_singleton.1 hticket]
      rfl
    . simp at hlength

/-!
## All of it
-/

/--
How those fare who wait for a connection. The tickets tell acquisitions from each other, and those
that are woken at the same time go on in the order of the ready line.
-/
structure Attended (capacity : Nat) (moves : List Move) (slots : Slots) : Prop where
  free_le : slots.waiting ≠ [] → capacity - slots.leased ≤ slots.woken.length
  at_rest : slots.woken = [] → slots.waiting ≠ [] → slots.idle = [] ∧ slots.leased = capacity
  served_at_once : Unhurried capacity moves →
    ∀ ticket earlier, .resume ticket :: earlier <:+ moves →
      ticket ∈ (after capacity (.resume ticket :: earlier)).holders ∨
        ticket ∈ (after capacity (.resume ticket :: earlier)).opening
  called_in_order : OwnTickets moves → Unhurried capacity moves →
    ∃ called, remaining capacity moves = called ++ slots.waiting ∧
      called.Perm (served capacity moves ++ slots.woken)
  in_order : OwnTickets moves → Unhurried capacity moves → InTurn capacity moves →
    remaining capacity moves = served capacity moves ++ slots.woken ++ slots.waiting
  settling_in_order : OwnTickets moves → Settling capacity moves →
    remaining capacity moves = served capacity moves ++ slots.woken ++ slots.waiting

theorem attended_of_legal (capacity : Nat) (moves : List Move) (h : Legal capacity moves)
    : Attended capacity moves (after capacity moves) := by
  have hpromised := h.promised
  have hbalanced := h.balanced
  have hcapacity := capacity_after capacity moves
  have hinOrder (hown : OwnTickets moves) (hunhurried : Unhurried capacity moves)
      (hturn : InTurn capacity moves)
      : remaining capacity moves =
          served capacity moves ++ (after capacity moves).woken ++
            (after capacity moves).waiting := by
    obtain ⟨called, hfollows⟩ := h.follows hown hunhurried
    rw [hfollows.remaining_eq, hfollows.called_eq hturn]
    rfl
  constructor
  . intro hwaiting
    have hle := hpromised hwaiting
    dsimp only [line] at hle
    omega
  . intro hwoken hwaiting
    have hle := hpromised hwaiting
    dsimp only [line] at hle
    rw [hwoken, List.length_nil] at hle
    have hcapacityLe := hbalanced.capacity_le
    refine ⟨?_, by omega⟩
    apply List.eq_nil_of_length_eq_zero
    omega
  . intro hunhurried ticket earlier hsuffix
    have hearlier : Unhurried capacity (.resume ticket :: earlier) := hunhurried.of_suffix hsuffix
    obtain ⟨later, rfl⟩ := hsuffix
    exact h.of_append.served_of_resume hearlier.1
  . intro hown hunhurried
    obtain ⟨called, hfollows⟩ := h.follows hown hunhurried
    exact ⟨called, hfollows.remaining_eq, hfollows.called_perm⟩
  . exact hinOrder
  . intro hown hsettling
    exact hinOrder hown hsettling.unhurried (h.inTurn hsettling)

-- Four wait for one connection: the second gives up after it was woken, the third before.
def givenUp : List Move :=
  [.withdraw 3, .giveBack 1, .markBroken 1, .withdraw 2, .resume 1, .giveBack 0, .ask 5, .ask 4,
    .ask 3, .ask 2, .ask 1, .opened 0 7, .ask 0]

theorem attended_givenUp
    : Legal 1 givenUp ∧ OwnTickets givenUp ∧ Unhurried 1 givenUp ∧ remaining 1 givenUp = [1, 4, 5] ∧
      Attended 1 givenUp (after 1 givenUp) := by
  refine ⟨by decide, ?_, ?_, by decide, attended_of_legal 1 givenUp (by decide)⟩
  . simp [OwnTickets, givenUp, Move.ticket]
  . simp [Unhurried, givenUp]
    decide

-- Two wait, and both connections break. Both are woken before one of them goes on, the later one first.
def overtaken : List Move :=
  [.resume 2, .resume 3, .giveBack 1, .markBroken 1, .giveBack 0, .markBroken 0, .ask 3, .ask 2,
    .opened 1 2, .ask 1, .opened 0 1, .ask 0]

/--
Those who were woken at the same time need not go on in the order in which they began to wait.
-/
theorem remaining_ne_served_overtaken
    : ¬∀ capacity moves, Legal capacity moves → OwnTickets moves → Unhurried capacity moves →
        remaining capacity moves =
          served capacity moves ++ (after capacity moves).woken ++ (after capacity moves).waiting := by
  intro h
  have hlegal : Legal 2 overtaken := by decide
  have hown : OwnTickets overtaken := by simp [OwnTickets, overtaken, Move.ticket]
  have hunhurried : Unhurried 2 overtaken := by
    simp [Unhurried, overtaken]
    decide
  have hsame := h 2 overtaken hlegal hown hunhurried
  revert hsame
  decide

end Slots

end MediaProxy
