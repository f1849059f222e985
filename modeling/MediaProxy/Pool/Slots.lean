import MediaProxy.Error

/-!
This module contains the connections of one flavor: which of them lie idle, which are lent out, and
who waits for one. Every function is one step that cannot be interrupted; steps of different
acquisitions may follow each other in any order.
-/

namespace MediaProxy

inductive Flavor where
  | blocking
  | nonBlocking
  deriving DecidableEq, Repr

def Flavor.name : Flavor → String
  | .blocking => "blocking"
  | .nonBlocking => "non-blocking"

/--
An acquisition, and the lease that it ends in.
-/
abbrev Ticket := Nat

structure Lease where
  ticket : Ticket
  connection : Nat
  broken : Bool := false
  deriving DecidableEq, Repr

structure Stats where
  acquired : Nat := 0
  released : Nat := 0
  created : Nat := 0
  discarded : Nat := 0
  idle : Nat := 0
  leased : Nat := 0
  deriving DecidableEq, Repr

namespace Stats

def merge (a b : Stats) : Stats where
  acquired := a.acquired + b.acquired
  released := a.released + b.released
  created := a.created + b.created
  discarded := a.discarded + b.discarded
  idle := a.idle + b.idle
  leased := a.leased + b.leased

def shown (stats : Stats) : String :=
  Text.record "PoolStats"
    [("acquired", toString stats.acquired), ("released", toString stats.released),
      ("created", toString stats.created), ("discarded", toString stats.discarded),
      ("idle", toString stats.idle), ("leased", toString stats.leased)]

end Stats

structure Slots where
  capacity : Nat
  leased : Nat := 0
  /--
  The connections that wait to be used again, the last one returned first.
  -/
  idle : List Nat := []
  leases : List Lease := []
  opening : List Ticket := []
  /--
  The acquisitions that wait and were not woken, the longest waiting first.
  -/
  waiting : List Ticket := []
  woken : List Ticket := []
  /--
  Whether somebody was to be woken when nobody waited. The next acquisition takes note of it.
  -/
  permit : Bool := false
  /--
  The connections that are not used again, the last one first.
  -/
  retired : List Nat := []
  acquired : Nat := 0
  released : Nat := 0
  created : Nat := 0
  discarded : Nat := 0
  deriving DecidableEq, Repr

inductive Grant where
  | lease
  | opening
  | full
  deriving DecidableEq, Repr

namespace Slots

def stats (slots : Slots) : Stats where
  acquired := slots.acquired
  released := slots.released
  created := slots.created
  discarded := slots.discarded
  idle := slots.idle.length
  leased := slots.leased

def lease? (slots : Slots) (ticket : Ticket) : Option Lease :=
  slots.leases.find? (·.ticket = ticket)

def lend (slots : Slots) (ticket : Ticket) (connection : Nat) : Slots :=
  { slots with
    leases := { ticket, connection } :: slots.leases
    acquired := slots.acquired + 1 }

def take (slots : Slots) (ticket : Ticket) : Grant × Slots :=
  match slots.idle with
  | connection :: idle =>
    (.lease, { slots with idle, leased := slots.leased + 1 }.lend ticket connection)
  | [] =>
    if slots.leased < slots.capacity then
      (.opening, { slots with leased := slots.leased + 1, opening := ticket :: slots.opening })
    else (.full, slots)

/--
Takes a connection, or blocks until there is one. Whoever blocks tries again each time somebody is
woken, and a last time when the time is up. `others` is what others do up to each of these points.
-/
def takeBlocking (slots : Slots) (ticket : Ticket) (others : List (Slots → Slots)) : Grant × Slots :=
  match others with
  | [] => slots.take ticket
  | other :: others =>
    match slots.take ticket with
    | (.full, slots) => takeBlocking (other slots) ticket others
    | granted => granted

theorem take_full {slots after : Slots} {ticket : Ticket} (h : slots.take ticket = (.full, after))
    : after = slots := by
  unfold take at h
  split at h
  . cases h
  . split at h <;> cases h
    rfl

theorem takeBlocking_of_full {slots : Slots} {ticket : Ticket} (h : (slots.take ticket).1 = .full)
    (other : Slots → Slots) (others : List (Slots → Slots))
    : slots.takeBlocking ticket (other :: others) = (other slots).takeBlocking ticket others := by
  have htake : slots.take ticket = (.full, (slots.take ticket).2) := Prod.ext h rfl
  rw [takeBlocking, htake]
  dsimp only
  rw [take_full htake]

theorem takeBlocking_of_granted {slots : Slots} {ticket : Ticket}
    (h : (slots.take ticket).1 ≠ .full) (others : List (Slots → Slots))
    : slots.takeBlocking ticket others = slots.take ticket := by
  unfold takeBlocking
  split
  . rfl
  . split
    . next after htake => exact absurd (congrArg (·.1) htake) h
    . rfl

/--
If nobody does anything in the meantime, further tries find what the first one did.
-/
theorem takeBlocking_replicate_id (slots : Slots) (ticket : Ticket) (count : Nat)
    : slots.takeBlocking ticket (List.replicate count id) = slots.take ticket := by
  by_cases hfull : (slots.take ticket).1 = .full
  . induction count with
    | zero => rfl
    | succ count ih =>
      rw [List.replicate_succ, takeBlocking_of_full hfull]
      exact ih
  . apply takeBlocking_of_granted hfull

def ask (slots : Slots) (ticket : Ticket) : Grant × Slots :=
  match { slots with permit := false }.take ticket with
  | (.full, slots) => (.full, { slots with waiting := slots.waiting ++ [ticket] })
  | granted => granted

/--
Wakes the longest waiting acquisition. If none waits, the next one to ask takes note.
-/
def wake (slots : Slots) : Option Ticket × Slots :=
  match slots.waiting with
  | ticket :: waiting => (some ticket, { slots with waiting, woken := slots.woken ++ [ticket] })
  | [] => (none, { slots with permit := true })

/--
Goes on with an acquisition that was woken. If another one was faster, it waits again, behind all
others.
-/
def resume (slots : Slots) (ticket : Ticket) : Grant × Slots :=
  { slots with woken := slots.woken.erase ticket }.ask ticket

def withdraw (slots : Slots) (ticket : Ticket) : Option Ticket × Slots :=
  if ticket ∈ slots.woken then { slots with woken := slots.woken.erase ticket }.wake
  else (none, { slots with waiting := slots.waiting.erase ticket })

def opened (slots : Slots) (ticket : Ticket) (connection : Nat) : Slots :=
  if ticket ∈ slots.opening then
    { slots with
      opening := slots.opening.erase ticket
      created := slots.created + 1 }.lend ticket connection
  else slots

def cancelOpening (slots : Slots) (ticket : Ticket) : Option Ticket × Slots :=
  if ticket ∈ slots.opening then
    { slots with
      opening := slots.opening.erase ticket
      leased := slots.leased - 1 }.wake
  else (none, slots)

def markBroken (slots : Slots) (ticket : Ticket) : Slots :=
  { slots with
    leases := slots.leases.map fun lease =>
      if lease.ticket = ticket then { lease with broken := true } else lease }

def giveBack (slots : Slots) (ticket : Ticket) : Option Ticket × Slots :=
  match slots.lease? ticket with
  | none => (none, slots)
  | some lease =>
    let slots := { slots with
      leases := slots.leases.erase lease
      leased := slots.leased - 1
      released := slots.released + 1 }
    if lease.broken then
      { slots with
        retired := lease.connection :: slots.retired
        discarded := slots.discarded + 1 }.wake
    else { slots with idle := lease.connection :: slots.idle }.wake

end Slots

namespace Lease

def shown (flavor : Flavor) (lease : Lease) : String :=
  Text.record "PooledConnection"
    [("flavor", Text.quoted flavor.name), ("broken", Text.bool lease.broken)]

end Lease

end MediaProxy
