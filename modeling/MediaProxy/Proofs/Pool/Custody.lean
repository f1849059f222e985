import MediaProxy.Proofs.Pool.Distinct

/-!
This module contains the whereabouts of connections. Each one is idle, lent out or retired, a retired
one is never used again, and an idle one waits for the next acquisition.
-/

namespace MediaProxy

namespace Slots

def Move.isAcquisition : Move → Bool
  | .take _ => true
  | .ask _ => true
  | .resume _ => true
  | _ => false

def Move.isNeutral : Move → Bool
  | .markBroken _ => false
  | .giveBack _ => false
  | _ => true

structure Custody where
  idle : List Nat
  leases : List Lease
  retired : List Nat
  discarded : Nat

def custody (slots : Slots) : Custody :=
  { idle := slots.idle, leases := slots.leases, retired := slots.retired,
    discarded := slots.discarded }

inductive Custody.Step (before : Custody) (move : Move) : Custody → Prop where
  | still (hmove : move.isNeutral) : before.Step move before
  | lent (connection : Nat) (idle : List Nat) (hidle : before.idle = connection :: idle)
      (hmove : move.isAcquisition) :
      before.Step move
        { before with idle, leases := { ticket := move.ticket, connection } :: before.leases }
  | opened (ticket : Ticket) (connection : Nat) (hmove : move = .opened ticket connection) :
      before.Step move
        { before with leases := { ticket, connection } :: before.leases }
  | marked (ticket : Ticket) (hmove : move = .markBroken ticket) :
      before.Step move
        { before with
          leases := before.leases.map fun lease =>
            if lease.ticket = ticket then { lease with broken := true } else lease }
  | retired (ticket : Ticket) (lease : Lease) (hmove : move = .giveBack ticket)
      (hlease : before.leases.find? (·.ticket = ticket) = some lease) (hbroken : lease.broken) :
      before.Step move
        { before with
          leases := before.leases.erase lease
          retired := lease.connection :: before.retired
          discarded := before.discarded + 1 }
  | returned (ticket : Ticket) (lease : Lease) (hmove : move = .giveBack ticket)
      (hlease : before.leases.find? (·.ticket = ticket) = some lease) (hbroken : !lease.broken) :
      before.Step move
        { before with
          idle := lease.connection :: before.idle
          leases := before.leases.erase lease }

theorem custody_wake (slots : Slots) : slots.wake.2.custody = slots.custody := by
  obtain ⟨_, _, _, hwake⟩ := wake_eq slots
  rw [hwake]
  rfl

theorem Move.isNeutral_of_isAcquisition {move : Move} (h : move.isAcquisition)
    : move.isNeutral := by
  cases move with
  | markBroken _ => exact absurd h Bool.false_ne_true
  | giveBack _ => exact absurd h Bool.false_ne_true
  | _ => rfl

theorem custody_take (slots : Slots) {move : Move} (hmove : move.isAcquisition)
    : slots.custody.Step move (slots.take move.ticket).2.custody := by
  rcases take_cases slots move.ticket with ⟨n, idle, hidle, htake⟩ | ⟨_, _, htake⟩ | ⟨_, _, htake⟩
  . rw [htake]
    exact .lent n idle hidle hmove
  . rw [htake]
    exact .still (Move.isNeutral_of_isAcquisition hmove)
  . rw [htake]
    exact .still (Move.isNeutral_of_isAcquisition hmove)

theorem custody_ask (slots : Slots) {move : Move} (hmove : move.isAcquisition)
    : slots.custody.Step move (slots.ask move.ticket).2.custody := by
  obtain ⟨_, hask⟩ := ask_eq slots move.ticket
  rw [hask]
  apply custody_take { slots with permit := false } hmove

theorem custody_giveBack {slots : Slots} {ticket : Ticket} (h : ticket ∈ slots.holders)
    : slots.custody.Step (.giveBack ticket) (slots.giveBack ticket).2.custody := by
  obtain ⟨lease, hlease⟩ := lease?_isSome_iff.2 h
  rw [giveBack_of_lease? hlease, custody_wake]
  unfold ended
  split
  . next hbroken => exact .retired ticket lease rfl hlease hbroken
  . next hbroken => exact .returned ticket lease rfl hlease (by simpa using hbroken)

theorem custody_perform {slots : Slots} {move : Move} (hmove : slots.Admits move)
    : slots.custody.Step move (slots.perform move).custody := by
  cases move with
  | take ticket =>
    have hmove : (Move.take ticket).isAcquisition := rfl
    apply custody_take slots hmove
  | ask ticket =>
    have hmove : (Move.ask ticket).isAcquisition := rfl
    apply custody_ask slots hmove
  | resume ticket =>
    have hmove : (Move.resume ticket).isAcquisition := rfl
    apply custody_ask { slots with woken := slots.woken.erase ticket } hmove
  | withdraw ticket =>
    unfold perform withdraw
    dsimp only
    split
    . rw [custody_wake]
      exact .still rfl
    . exact .still rfl
  | opened ticket connection =>
    unfold perform opened
    dsimp only
    split
    . exact .opened ticket connection rfl
    . exact .still rfl
  | cancelOpening ticket =>
    unfold perform cancelOpening
    dsimp only
    split
    . rw [custody_wake]
      exact .still rfl
    . exact .still rfl
  | markBroken ticket => exact .marked ticket rfl
  | call ticket => exact .still rfl
  | giveBack ticket => apply custody_giveBack hmove

/-!
## Marks
-/

/--
Whether the lease of a ticket was marked broken and did not end since then. The last step comes first.
-/
def marked (ticket : Ticket) : List Move → Bool
  | [] => false
  | .markBroken other :: moves => other = ticket || marked ticket moves
  | .giveBack other :: moves => other ≠ ticket && marked ticket moves
  | _ :: moves => marked ticket moves

theorem marked_cons_of_isNeutral {move : Move} (hmove : move.isNeutral) (ticket : Ticket)
    (moves : List Move)
    : marked ticket (move :: moves) = marked ticket moves := by
  cases move with
  | markBroken _ => exact absurd hmove Bool.false_ne_true
  | giveBack _ => exact absurd hmove Bool.false_ne_true
  | _ => rfl

theorem nodup_holders {slots : Slots} (h : slots.tickets.Nodup) : slots.holders.Nodup := by
  unfold tickets at h
  rw [List.append_assoc] at h
  exact (List.nodup_append.1 h).1

theorem not_mem_holders {slots : Slots} (h : slots.tickets.Nodup) {ticket : Ticket}
    (hticket : ticket ∈ slots.opening ∨ ticket ∈ slots.waiting ∨ ticket ∈ slots.woken)
    : ticket ∉ slots.holders := by
  intro hholder
  unfold tickets at h
  rw [List.append_assoc] at h
  apply (List.nodup_append.1 h).2.2 ticket hholder ticket
  . simpa using hticket
  . rfl

theorem not_mem_holders_of_not_mem_tickets {slots : Slots} {ticket : Ticket}
    (h : ticket ∉ slots.tickets)
    : ticket ∉ slots.holders := by
  intro hholder
  apply h
  simp [tickets, hholder]

theorem not_mem_holders_of_admits {slots : Slots} (h : slots.tickets.Nodup) {move : Move}
    (hadmits : slots.Admits move)
    (hmove : move.isAcquisition ∨ ∃ connection, move = .opened move.ticket connection)
    : move.ticket ∉ slots.holders := by
  cases move with
  | take ticket => apply not_mem_holders_of_not_mem_tickets hadmits
  | ask ticket => apply not_mem_holders_of_not_mem_tickets hadmits
  | resume ticket => apply not_mem_holders h (.inr (.inr hadmits))
  | opened ticket connection => apply not_mem_holders h (.inl hadmits.1)
  | _ => simp [Move.isAcquisition] at hmove

structure MarksKept (moves : List Move) (leases : List Lease) : Prop where
  broken_eq : ∀ lease ∈ leases, lease.broken = marked lease.ticket moves
  mem_of_marked : ∀ ticket, marked ticket moves → ticket ∈ leases.map (·.ticket)

theorem MarksKept.lend {moves : List Move} {leases : List Lease} (h : MarksKept moves leases)
    {move : Move} (hmove : move.isNeutral) (hnew : move.ticket ∉ leases.map (·.ticket))
    (connection : Nat)
    : MarksKept (move :: moves) ({ ticket := move.ticket, connection } :: leases) := by
  constructor
  . intro lease hlease
    rw [marked_cons_of_isNeutral hmove]
    rcases List.mem_cons.1 hlease with rfl | hlease
    . have hunmarked := mt (h.mem_of_marked move.ticket) hnew
      simpa using hunmarked
    . exact h.broken_eq lease hlease
  . intro ticket hticket
    rw [marked_cons_of_isNeutral hmove] at hticket
    apply List.mem_cons_of_mem _ (h.mem_of_marked ticket hticket)

theorem MarksKept.mark {moves : List Move} {leases : List Lease} (h : MarksKept moves leases)
    {ticket : Ticket} (hticket : ticket ∈ leases.map (·.ticket))
    : MarksKept (.markBroken ticket :: moves) (leases.map fun lease =>
        if lease.ticket = ticket then { lease with broken := true } else lease) := by
  constructor
  . intro lease hlease
    obtain ⟨lease, hmem, rfl⟩ := List.mem_map.1 hlease
    unfold marked
    split
    . next heq => simp [heq]
    . next hne =>
      rw [h.broken_eq lease hmem]
      simp [Ne.symm hne]
  . intro other hother
    have htickets : (leases.map fun lease =>
        if lease.ticket = ticket then { lease with broken := true } else lease).map (·.ticket) =
          leases.map (·.ticket) := by
      rw [List.map_map]
      apply List.map_congr_left
      intro lease _
      dsimp only [Function.comp]
      split <;> rfl
    rw [htickets]
    unfold marked at hother
    rw [Bool.or_eq_true, decide_eq_true_eq] at hother
    rcases hother with rfl | hother
    . exact hticket
    . exact h.mem_of_marked other hother

theorem MarksKept.erase {moves : List Move} {leases : List Lease} (h : MarksKept moves leases)
    {lease : Lease} (hlease : lease ∈ leases) (hnodup : (leases.map (·.ticket)).Nodup)
    : MarksKept (.giveBack lease.ticket :: moves) (leases.erase lease) := by
  have hperm := (List.perm_cons_erase hlease).map Lease.ticket
  have hcons := hperm.nodup_iff.1 hnodup
  constructor
  . intro other hother
    have hne : lease.ticket ≠ other.ticket := by
      intro heq
      apply (List.nodup_cons.1 hcons).1
      rw [heq]
      apply List.mem_map_of_mem hother
    unfold marked
    rw [h.broken_eq other (List.mem_of_mem_erase hother)]
    simp [hne]
  . intro ticket hticket
    unfold marked at hticket
    rw [Bool.and_eq_true, decide_eq_true_eq] at hticket
    have hmem := hperm.mem_iff.1 (h.mem_of_marked ticket hticket.2)
    rcases List.mem_cons.1 hmem with rfl | hmem
    . exact absurd rfl hticket.1
    . exact hmem

theorem Legal.marksKept {capacity : Nat} {moves : List Move} (h : Legal capacity moves)
    : MarksKept moves (after capacity moves).leases := by
  induction moves with
  | nil =>
    constructor
    . intro lease hlease
      exact absurd hlease List.not_mem_nil
    . intro ticket hticket
      exact absurd hticket Bool.false_ne_true
  | cons move moves ih =>
    obtain ⟨hmoves, hadmits⟩ := h
    have hkept := ih hmoves
    have htickets := hmoves.nodup_tickets
    have hholders := nodup_holders htickets
    have hstep := custody_perform hadmits
    change MarksKept _ ((after capacity moves).perform move).custody.leases
    change MarksKept _ (after capacity moves).custody.leases at hkept
    have hnew := not_mem_holders_of_admits htickets hadmits
    generalize ((after capacity moves).perform move).custody = custody at hstep
    -- `hnew` and `hholders` tell the lease of the step from those of others.
    cases hstep with
    | still hneutral =>
      constructor
      . intro lease hlease
        rw [marked_cons_of_isNeutral hneutral]
        exact hkept.broken_eq lease hlease
      . intro ticket hticket
        rw [marked_cons_of_isNeutral hneutral] at hticket
        exact hkept.mem_of_marked ticket hticket
    | lent connection idle hidle hmove =>
      exact hkept.lend (Move.isNeutral_of_isAcquisition hmove) (hnew (.inl hmove)) connection
    | opened ticket connection hmove =>
      subst hmove
      have hneutral : (Move.opened ticket connection).isNeutral := rfl
      exact hkept.lend hneutral (hnew (.inr ⟨connection, rfl⟩)) connection
    | marked ticket hmove =>
      subst hmove
      exact hkept.mark hadmits
    | retired ticket lease hmove hlease hbroken =>
      subst hmove
      obtain ⟨hmem, rfl⟩ := mem_leases_of_lease? hlease
      exact hkept.erase hmem hholders
    | returned ticket lease hmove hlease hbroken =>
      subst hmove
      obtain ⟨hmem, rfl⟩ := mem_leases_of_lease? hlease
      exact hkept.erase hmem hholders

/-!
## Connections that are not used again
-/

theorem retired_suffix_perform {slots : Slots} {move : Move} (hmove : slots.Admits move)
    : slots.retired <:+ (slots.perform move).retired := by
  have hstep := custody_perform hmove
  change slots.custody.retired <:+ (slots.perform move).custody.retired
  generalize (slots.perform move).custody = custody at hstep
  cases hstep with
  | retired => apply List.suffix_cons
  | _ => apply List.suffix_rfl

theorem retired_suffix_after {capacity : Nat} {later earlier : List Move}
    (h : Legal capacity (later ++ earlier))
    : (after capacity earlier).retired <:+ (after capacity (later ++ earlier)).retired := by
  induction later with
  | nil => apply List.suffix_rfl
  | cons move later ih => exact (ih h.1).trans (retired_suffix_perform h.2)

theorem Legal.length_retired {capacity : Nat} {moves : List Move} (h : Legal capacity moves)
    : (after capacity moves).retired.length = (after capacity moves).discarded := by
  apply Legal.induction (motive := fun slots => slots.retired.length = slots.discarded) _ _ h
  . rfl
  . intro slots move hslots hmove
    have hstep := custody_perform hmove
    change (slots.perform move).custody.retired.length = (slots.perform move).custody.discarded
    change slots.custody.retired.length = slots.custody.discarded at hslots
    generalize (slots.perform move).custody = custody at hstep
    cases hstep with
    | retired =>
      dsimp only
      rw [List.length_cons, hslots]
    | _ => exact hslots

theorem Legal.nodup_connections {capacity : Nat} {moves : List Move} (h : Legal capacity moves)
    : (after capacity moves).connections.Nodup :=
  h.connections_perm.nodup_iff.2 h.nodup_openedBy

theorem Legal.not_mem_lent_of_retired {capacity : Nat} {moves : List Move}
    (h : Legal capacity moves) {connection : Nat}
    (hretired : connection ∈ (after capacity moves).retired)
    : connection ∉ (after capacity moves).lent := by
  intro hlent
  have hnodup := h.nodup_connections
  apply (List.nodup_append.1 hnodup).2.2 connection _ connection hretired rfl
  apply List.mem_append_right _ hlent

def calledSince (capacity : Nat) (earlier : List Move) : List Move → List Nat
  | [] => []
  | .call ticket :: later =>
    (((after capacity (later ++ earlier)).lease? ticket).map (·.connection)).toList ++
      calledSince capacity earlier later
  | _ :: later => calledSince capacity earlier later

theorem not_mem_calledSince {capacity : Nat} {later earlier : List Move}
    (h : Legal capacity (later ++ earlier)) {connection : Nat}
    (hretired : connection ∈ (after capacity earlier).retired)
    : connection ∉ calledSince capacity earlier later := by
  induction later with
  | nil => exact List.not_mem_nil
  | cons move later ih =>
    have hlater := ih h.1
    cases move with
    | call ticket =>
      unfold calledSince
      rw [List.mem_append]
      rintro (hcall | hcall)
      -- A call goes over a connection that is lent out, and this one is retired by then.
      . apply h.1.not_mem_lent_of_retired ((retired_suffix_after h.1).mem hretired)
        rw [Option.mem_toList, Option.map_eq_some_iff] at hcall
        obtain ⟨lease, hlease, rfl⟩ := hcall
        apply List.mem_map_of_mem (mem_leases_of_lease? hlease).1
      . exact hlater hcall
    | _ => exact hlater

/-!
## Connections that are used again
-/

theorem mem_idle_perform {slots : Slots} {move : Move} (hmove : slots.Admits move)
    {connection : Nat} (h : connection ∈ slots.idle)
    : connection ∈ (slots.perform move).idle ∨
      (move.isAcquisition ∧
        { ticket := move.ticket, connection } ∈ (slots.perform move).leases) := by
  have hstep := custody_perform hmove
  change connection ∈ (slots.perform move).custody.idle ∨
    (_ ∧ _ ∈ (slots.perform move).custody.leases)
  change connection ∈ slots.custody.idle at h
  generalize (slots.perform move).custody = custody at hstep
  cases hstep with
  | lent other idle hidle hacquisition =>
    rw [hidle] at h
    rcases List.mem_cons.1 h with rfl | h
    . exact .inr ⟨hacquisition, List.mem_cons_self⟩
    . exact .inl h
  | returned => exact .inl (List.mem_cons_of_mem _ h)
  | _ => exact .inl h

theorem mem_idle_after {capacity : Nat} {later earlier : List Move}
    (h : Legal capacity (later ++ earlier)) {connection : Nat}
    (hidle : connection ∈ (after capacity earlier).idle)
    : connection ∈ (after capacity (later ++ earlier)).idle ∨
      ∃ last move first, later = last ++ move :: first ∧ move.isAcquisition ∧
        { ticket := move.ticket, connection } ∈
          (after capacity (move :: first ++ earlier)).leases := by
  induction later with
  | nil => exact .inl hidle
  | cons move later ih =>
    -- Either some earlier step took the connection already, or this one does.
    rcases ih h.1 with hidle | ⟨last, other, first, rfl, hother⟩
    . rcases mem_idle_perform h.2 hidle with hidle | hmove
      . exact .inl hidle
      . exact .inr ⟨[], move, later, rfl, hmove⟩
    . exact .inr ⟨move :: last, other, first, rfl, hother⟩

theorem lease?_of_mem {slots : Slots} (h : slots.tickets.Nodup) {lease : Lease}
    (hlease : lease ∈ slots.leases)
    : slots.lease? lease.ticket = some lease := by
  have hholders := nodup_holders h
  unfold holders at hholders
  unfold lease?
  generalize slots.leases = leases at hlease hholders
  induction leases with
  | nil => exact absurd hlease List.not_mem_nil
  | cons other leases ih =>
    rw [List.map_cons, List.nodup_cons] at hholders
    rcases List.mem_cons.1 hlease with rfl | hlease
    . simp
    . have hne : other.ticket ≠ lease.ticket := by
        intro heq
        apply hholders.1
        rw [heq]
        apply List.mem_map_of_mem hlease
      rw [List.find?_cons_of_neg (by simpa using hne)]
      exact ih hlease hholders.2

theorem Legal.giveBack {capacity : Nat} {ticket : Ticket} {moves : List Move}
    (h : Legal capacity (.giveBack ticket :: moves)) {lease : Lease}
    (hlease : lease ∈ (after capacity moves).leases) (hticket : lease.ticket = ticket)
    : if marked ticket moves then
        lease.connection ∈ (after capacity (.giveBack ticket :: moves)).retired
      else lease.connection ∈ (after capacity (.giveBack ticket :: moves)).idle := by
  subst hticket
  have hfound := lease?_of_mem h.1.nodup_tickets hlease
  change if _ then _ ∈ ((after capacity moves).giveBack lease.ticket).2.custody.retired
    else _ ∈ ((after capacity moves).giveBack lease.ticket).2.custody.idle
  rw [← h.1.marksKept.broken_eq lease hlease, giveBack_of_lease? hfound, custody_wake]
  unfold ended
  split
  . apply List.mem_cons_self
  . apply List.mem_cons_self

structure Kept (capacity : Nat) (moves : List Move) (slots : Slots) : Prop where
  one_place : ∀ connection ∈ openedBy moves,
    (slots.idle.count connection, slots.lent.count connection, slots.retired.count connection) ∈
      [(1, 0, 0), (0, 1, 0), (0, 0, 1)]
  mem_openedBy : ∀ lease ∈ slots.leases, lease.connection ∈ openedBy moves
  discarded_eq : slots.stats.discarded = slots.retired.length
  after_marked : ∀ later ticket earlier, moves = later ++ .giveBack ticket :: earlier →
    marked ticket earlier →
    ∀ lease ∈ (after capacity earlier).leases, lease.ticket = ticket →
      lease.connection ∈ slots.retired ∧ lease.connection ∉ slots.lent ∧
        lease.connection ∉ calledSince capacity (.giveBack ticket :: earlier) later
  after_unmarked : ∀ later ticket earlier, moves = later ++ .giveBack ticket :: earlier →
    ¬marked ticket earlier →
    ∀ lease ∈ (after capacity earlier).leases, lease.ticket = ticket →
      lease.connection ∈ slots.idle ∨
      ∃ last move first, later = last ++ move :: first ∧ move.isAcquisition ∧
        { ticket := move.ticket, connection := lease.connection } ∈
          (after capacity (move :: first ++ .giveBack ticket :: earlier)).leases

theorem Legal.one_place {capacity : Nat} {moves : List Move} (h : Legal capacity moves)
    {connection : Nat} (hconnection : connection ∈ openedBy moves)
    : ((after capacity moves).idle.count connection, (after capacity moves).lent.count connection,
        (after capacity moves).retired.count connection) ∈
          [(1, 0, 0), (0, 1, 0), (0, 0, 1)] := by
  -- Once in all three lists together is once in one of them.
  have hcount : (after capacity moves).connections.count connection = 1 := by
    rw [h.connections_perm.count_eq]
    have hle := List.nodup_iff_count.1 h.nodup_openedBy connection
    have hpos := List.count_pos_iff.2 hconnection
    omega
  unfold connections at hcount
  rw [List.count_append, List.count_append] at hcount
  simp only [List.mem_cons, Prod.mk.injEq, List.not_mem_nil]
  omega

theorem kept_of_legal (capacity : Nat) (moves : List Move) (h : Legal capacity moves)
    : Kept capacity moves (after capacity moves) := by
  constructor
  . intro connection hconnection
    exact h.one_place hconnection
  . intro lease hlease
    apply h.connections_perm.mem_iff.1
    have hlent : lease.connection ∈ (after capacity moves).lent := List.mem_map_of_mem hlease
    simp [connections, hlent]
  . exact h.length_retired.symm
  . intro later ticket earlier hmoves hmarked lease hlease hticket
    subst hmoves
    have hend := (h.of_append).giveBack hlease hticket
    rw [if_pos hmarked] at hend
    have hretired := (retired_suffix_after h).mem hend
    exact ⟨hretired, h.not_mem_lent_of_retired hretired, not_mem_calledSince h hend⟩
  . intro later ticket earlier hmoves hmarked lease hlease hticket
    subst hmoves
    have hend := (h.of_append).giveBack hlease hticket
    rw [if_neg hmarked] at hend
    apply mem_idle_after h hend

-- A marked connection is replaced, and the next one is used twice.
def replaced : List Move :=
  [.call 2, .take 2, .giveBack 1, .call 1, .opened 1 6, .ask 1, .giveBack 0, .markBroken 0, .call 0,
    .opened 0 5, .ask 0]

theorem kept_replaced
    : Legal 2 replaced ∧ openedBy replaced = [6, 5] ∧ Kept 2 replaced (after 2 replaced) :=
  ⟨by decide, rfl, kept_of_legal 2 replaced (by decide)⟩

end Slots

end MediaProxy
