import MediaProxy.System.Basic

/-!
This module contains the steps of tasks. A task goes on until it has to wait, and a step is all that
it does in between.
-/

namespace MediaProxy

namespace System

def contextOf (system : System) : Job → Nat
  | .acquire c => c
  | .call c .. => c
  | .operate o _ => (system.store.object o).context
  | .ownPipeline o => (system.store.object o).context
  | .round c => c
  | .schedule c _ => c

def park (system : System) (task : Task) (stage : Stage) : System :=
  { system.setTask { task with stage, place := system.nextPlace } with
    nextPlace := system.nextPlace + 1 }

def reached (system : System) (due : Option Nat) : Bool :=
  due.any (· ≤ system.now)

/-!
## Calls
-/

def ask (system : System) (c : Nat) (flavor : Flavor) (lease : Ticket) (target : Reference)
    (request : Request) : Except RpcError Reply × Pace × System :=
  let (reply, pace, server) := (system.link c).server.answer target request
  let connection := ((system.slots c flavor).lease? lease).elim 0 (·.connection)
  let record : CallRecord :=
    { time := system.now, flavor, context := c, connection, target, request }
  (reply, pace, (system.setServer c server).note (.call record))

def judge (system : System) (c : Nat) (flavor : Flavor) (lease : Ticket)
    (outcome : Except RpcError Reply) : System :=
  match outcome with
  | .ok _ => system
  | .error error =>
    if error.isFault then
      system.setSlots c flavor ((system.slots c flavor).markBroken lease)
    else system

/--
Ends an operation whose call has ended. Its connection is given back first.
-/
def conclude (system : System) (flavor : Flavor) (lease : Ticket) (o : ObjectId)
    (operation : Operation) (reply : Except RpcError Reply) : Except Error Value × System :=
  let c := (system.store.object o).context
  let request := operation.request (system.store.context c).config
  let outcome := reply.bind (operation.expect request)
  let system := (system.judge c flavor lease outcome).stepSlots c flavor (·.giveBack lease)
  let (result, store) := system.store.conclude o operation outcome
  (result, { system with store })

def complete (system : System) (task : Task) (reply : Except RpcError Reply) : System :=
  match task.job with
  | .operate o operation =>
    let (result, system) := system.conclude .nonBlocking task.id o operation reply
    system.finish task (result.map .value)
  | _ => system.finish task (.ok (.reply reply))

def call (system : System) (task : Task) (lease : Ticket) (target : Reference)
    (request : Request) : System :=
  let c := system.contextOf task.job
  let (reply, pace, system) := system.ask c .nonBlocking lease target request
  let due := pace.due? system.now
  if system.reached due then system.complete task reply
  else system.park task (.calling reply due)

/-!
## Acquisitions
-/

def connect (system : System) (c : Nat) (flavor : Flavor) (ticket : Ticket) : System :=
  let (connection, server) := (system.link c).server.connected
  (system.setServer c server).setSlots c flavor
    ((system.slots c flavor).opened ticket connection)

def leased (system : System) (task : Task) : System :=
  match task.job with
  | .operate o operation =>
    let object := system.store.object o
    let config := (system.store.context object.context).config
    system.call task task.id object.reference (operation.request config)
  | _ => system.finish task (.ok .lease)

def opened (system : System) (task : Task) (error : Option RpcError) : System :=
  let c := system.contextOf task.job
  match error with
  | none => (system.connect c .nonBlocking task.id).leased task
  | some error =>
    (system.stepSlots c .nonBlocking (·.cancelOpening task.id)).finish task
      (.error (.ofRpc error))

def openConnection (system : System) (task : Task) : System :=
  let c := system.contextOf task.job
  let (opening, server) := (system.link c).server.nextOpening
  let system := system.setServer c server
  let due := opening.pace.due? system.now
  if system.reached due then system.opened task opening.error
  else system.park task (.opening opening.error due)

def refuse (system : System) (task : Task) : System :=
  let c := system.contextOf task.job
  (system.stepSlots c .nonBlocking (·.withdraw task.id)).finish task
    (.error ((system.link c).pool.exhausted .nonBlocking))

def granted (system : System) (task : Task) (deadline : Nat) : Grant → System
  | .lease => system.leased task
  | .opening => system.openConnection task
  | .full =>
    if deadline ≤ system.now then system.refuse task
    else system.park task (.waiting deadline)

def acquire (system : System) (task : Task) : System :=
  let c := system.contextOf task.job
  let (grant, slots) := (system.slots c .nonBlocking).ask task.id
  (system.setSlots c .nonBlocking slots).granted task
    (system.now + (system.link c).pool.timeout) grant

def acquireAgain (system : System) (task : Task) (deadline : Nat) : System :=
  let c := system.contextOf task.job
  let (grant, slots) := (system.slots c .nonBlocking).resume task.id
  (system.setSlots c .nonBlocking slots).granted task deadline grant

/-!
## Rounds of keepalives
-/

def beginRound (system : System) (id : TaskId) (c : Nat) : List TaskId × Report × System :=
  let system := system.note (.round system.now id)
  let f := (system.store.context c).factory
  let (swept, store) := system.store.sweep f
  let objects := (store.living f).filter fun o => !(store.object o).released
  let (started, system) := objects.foldl start ([], { system with store })
  (started, { swept }, system)
where
  start (state : List TaskId × System) (o : ObjectId) : List TaskId × System :=
    let (id, system) := state.2.spawn (.operate o .keepAlive) { handler := .channel true } ""
    (state.1 ++ [id], system)

def collect (system : System) : List TaskId → Report → List TaskId × Report × System
  | [], report => ([], report, system)
  | id :: pending, report =>
    match system.collect? id with
    | none => (id :: pending, report, system)
    | some (.ok _, system) => system.collect pending { report with sent := report.sent + 1 }
    | some (.error _, system) => system.collect pending { report with failed := report.failed + 1 }

/--
The time that a period takes, in nanoseconds. It is at least a millisecond.
-/
def periodOf (period : Nat) : Nat :=
  max period 1000000

/--
When the tick after the one that was due at `due` is due. A tick that is more than five milliseconds
late delays all later ones. Times are in nanoseconds.
-/
def nextTick (period now due : Nat) : Nat :=
  if due + 5000000 < now then now + periodOf period else due + periodOf period

theorem lt_nextTick (period now due : Nat) : due < nextTick period now due := by
  unfold nextTick periodOf
  split <;> omega

/--
Lets a scheduler wait for its next tick, or for the end. A round without objects ends at once.
`tickFirst` says what comes first if both are there. Times are in nanoseconds.
-/
def tick (tickFirst : Bool) (system : System) (task : Task) (c period now due : Nat) : System :=
  if due ≤ now ∧ (tickFirst ∨ !task.stopping) then
    let next := nextTick period now due
    match system.beginRound task.id c with
    | ([], _, system) => tick tickFirst system task c period now next
    | (started, report, system) =>
      system.setTask { task with stage := .gathering started report next }
  else if task.stopping then system.finish task (.ok (.value .done))
  else system.park task (.ticking due)
termination_by now + 1 - due
decreasing_by
  have := lt_nextTick period now due
  omega

def gather (tickFirst : Bool) (system : System) (task : Task) (pending : List TaskId)
    (report : Report) (next : Nat) : System :=
  match system.collect pending report with
  | ([], report, system) =>
    match task.job with
    | .schedule c period => system.tick tickFirst task c period (system.now * 1000000) next
    | _ => system.finish task (.ok (.report report))
  | (pending, report, system) =>
    system.setTask { task with stage := .gathering pending report next }

/-!
## Steps
-/

def start (tickFirst : Bool) (system : System) (task : Task) : System :=
  match task.job with
  | .acquire _ => system.acquire task
  | .call _ lease target request => system.call task lease target request
  | .operate o operation =>
    match system.store.start o operation with
    | (.answered result, store) => { system with store }.finish task (result.map .value)
    | (.asks _, store) => { system with store }.acquire task
  | .ownPipeline o =>
    let (result, store) := system.store.ownPipeline o
    { system with store := store.letGo o }.finish task (result.map .value)
  | .round c =>
    let (started, report, system) := system.beginRound task.id c
    system.gather tickFirst task started report 0
  | .schedule c period =>
    let now := system.now * 1000000
    system.tick tickFirst task c period now (now + periodOf period)

/--
A step of a task. `tickFirst` says whether a scheduler whose tick is due begins a round although it
was told to stop.
-/
def step (tickFirst : Bool) (system : System) (id : TaskId) : System :=
  match system.task? id with
  | none => system
  | some task =>
    match task.stage with
    | .fresh => system.start tickFirst task
    | .waiting deadline =>
      if id ∈ (system.slots (system.contextOf task.job) .nonBlocking).woken then
        system.acquireAgain task deadline
      else if deadline ≤ system.now then system.refuse task
      else system
    | .opening error due => if system.reached due then system.opened task error else system
    | .calling reply due => if system.reached due then system.complete task reply else system
    | .ticking due =>
      let now := system.now * 1000000
      match task.job with
      | .schedule c period =>
        if due ≤ now || task.stopping then system.tick tickFirst task c period now due
        else system
      | _ => system
    | .gathering pending report next => system.gather tickFirst task pending report next

/-!
## Ending tasks early
-/

def giveUp (system : System) (task : Task) : System :=
  let c := system.contextOf task.job
  match task.stage, task.job with
  | .waiting _, _ => system.stepSlots c .nonBlocking (·.withdraw task.id)
  | .opening .., _ => system.stepSlots c .nonBlocking (·.cancelOpening task.id)
  | .calling .., .operate .. => system.stepSlots c .nonBlocking (·.giveBack task.id)
  | .fresh, .ownPipeline o => system.letGo [o]
  | .gathering pending .., _ => pending.foldl ignore system
  | _, _ => system

/--
Drops a task wherever it is. What it holds is given back, and who waits for the result of an
operation is told that there will be none.
-/
def dropTask (system : System) (id : TaskId) : System :=
  match system.task? id with
  | none => system
  | some task =>
    let system := (system.giveUp task).removeTask id
    match task.job with
    | .operate .. | .ownPipeline _ =>
      system.resolve id task.name task.continuation (.error .abandoned)
    | _ => system

def stop (system : System) (id : TaskId) : System :=
  match system.task? id with
  | none => system
  | some task =>
    let system := system.setTask { task with stopping := true }
    match task.stage with
    | .ticking _ => system.wake id
    | _ => system

def shutdown (system : System) : System :=
  let stopped := { system with running := false }
  let system := (system.tasks.map (·.id)).foldl dropTask stopped
  { system with ready := [] }

end System

end MediaProxy
