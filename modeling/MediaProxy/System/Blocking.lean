import MediaProxy.System.Step

/-!
This module contains the operations that block. Time stands still while they are carried out, so
nobody can give a connection back while one of them waits for it.
-/

namespace MediaProxy

namespace System

def openBlocking (system : System) (c : Nat) (ticket : Ticket) : Except Error Ticket × System :=
  let (opening, server) := (system.link c).server.nextOpening
  let system := system.setServer c server
  match opening.error with
  | none => (.ok ticket, system.connect c .blocking ticket)
  | some error =>
    (.error (.ofRpc error), system.stepSlots c .blocking (·.cancelOpening ticket))

def acquireBlocking (system : System) (c : Nat) : Except Error Ticket × System :=
  let ticket := system.nextTask
  let system := { system with nextTask := ticket + 1 }
  match (system.slots c .blocking).takeBlocking ticket [id] with
  | (.lease, slots) => (.ok ticket, system.setSlots c .blocking slots)
  | (.opening, slots) => (system.setSlots c .blocking slots).openBlocking c ticket
  | (.full, _) => (.error ((system.link c).pool.exhausted .blocking), system)

theorem acquireBlocking_eq (system : System) (c : Nat)
    : system.acquireBlocking c =
        let ticket := system.nextTask
        let system := { system with nextTask := ticket + 1 }
        match (system.slots c .blocking).take ticket with
        | (.lease, slots) => (.ok ticket, system.setSlots c .blocking slots)
        | (.opening, slots) => (system.setSlots c .blocking slots).openBlocking c ticket
        | (.full, _) => (.error ((system.link c).pool.exhausted .blocking), system) := by
  unfold acquireBlocking
  dsimp only
  rw [← Slots.takeBlocking_replicate_id _ _ 1]
  rfl

def operateBlocking (system : System) (o : ObjectId) (operation : Operation) :
    Except Error Value × System :=
  match system.store.start o operation with
  | (.answered result, store) => (result, { system with store })
  | (.asks request, store) =>
    let object := store.object o
    match { system with store }.acquireBlocking object.context with
    | (.error error, system) => (.error error, system)
    | (.ok lease, system) =>
      let (reply, _, system) :=
        system.ask object.context .blocking lease object.reference request
      system.conclude .blocking lease o operation reply

end System

end MediaProxy
