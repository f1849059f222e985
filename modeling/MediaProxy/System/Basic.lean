import MediaProxy.Continuation
import MediaProxy.Object.Operation
import MediaProxy.Pool.Basic
import MediaProxy.Server

/-!
This module contains systems: contexts with their connections and servers, the tasks that carry out
operations without blocking, and the time.

A task is carried out in steps. Between two steps it is in a stage, in which it waits for a
connection, for its opening, for a reply, for a point in time or for other tasks. Steps of different
tasks may follow each other in any order; a step of a task that has nothing to do changes nothing.
-/

namespace MediaProxy

abbrev TaskId := Ticket

structure Report where
  sent : Nat := 0
  failed : Nat := 0
  swept : Nat := 0
  deriving DecidableEq, Repr

def Report.shown (report : Report) : String :=
  Text.record "KeepAliveReport"
    [("sent", toString report.sent), ("failed", toString report.failed),
      ("swept", toString report.swept)]

inductive Outcome where
  | value (value : Value)
  | lease
  | reply (reply : Except RpcError Reply)
  | report (report : Report)

def Outcome.held : Outcome → List ObjectId
  | .value v => v.held
  | _ => []

def heldBy : Except Error Outcome → List ObjectId
  | .ok outcome => outcome.held
  | .error _ => []

inductive Job where
  | acquire (context : Nat)
  | call (context : Nat) (lease : Ticket) (target : Reference) (request : Request)
  | operate (object : ObjectId) (operation : Operation)
  | ownPipeline (object : ObjectId)
  | round (context : Nat)
  | schedule (context : Nat) (period : Nat)
  deriving DecidableEq, Repr

/--
Where a task is. Times are in milliseconds.
-/
inductive Stage where
  | fresh
  | waiting (deadline : Nat)
  | opening (error : Option RpcError) (due : Option Nat)
  | calling (reply : Except RpcError Reply) (due : Option Nat)
  /--
  It waits for the next round, which is due at a time in nanoseconds.
  -/
  | ticking (due : Nat)
  /--
  It waits for other tasks, for one after the other. The round after this one is due at a time in
  nanoseconds.
  -/
  | gathering (pending : List TaskId) (report : Report) (next : Nat)

def Stage.due? : Stage → Option Nat
  | .waiting deadline => some deadline
  | .opening _ due => due
  | .calling _ due => due
  | .ticking due => some ((due + 999999) / 1000000)
  | _ => none

structure Task where
  id : TaskId
  job : Job
  stage : Stage := .fresh
  place : Nat := 0
  continuation : Continuation
  name : String := ""
  /--
  Whether the task is carried out by the one that waits for it. It is not put in line with others.
  -/
  foreground : Bool := false
  stopping : Bool := false

structure CallRecord where
  time : Nat
  flavor : Flavor
  context : Nat
  connection : Nat
  target : Reference
  request : Request
  deriving DecidableEq, Repr

inductive Happening where
  | call (record : CallRecord)
  | resolved (time : Nat) (task : TaskId) (name : String) (result : Except Error Outcome)
  | round (time : Nat) (scheduler : TaskId)

structure Link where
  pool : Pool
  server : Server := {}

instance : Inhabited Link where
  default := { pool := .ofConfig {} }

structure System where
  store : Store := {}
  links : List Link := []
  /--
  The time in milliseconds.
  -/
  now : Nat := 0
  running : Bool := true
  tasks : List Task := []
  /--
  The tasks that have something to do, in the order in which they found out.
  -/
  ready : List TaskId := []
  inbox : List (TaskId × Except Error Outcome) := []
  nextTask : TaskId := 0
  nextPlace : Nat := 0
  /--
  What happened, the last thing first.
  -/
  history : List Happening := []
  deriving Inhabited

namespace System

def link (system : System) (c : Nat) : Link :=
  system.links.getD c default

def slots (system : System) (c : Nat) (flavor : Flavor) : Slots :=
  (system.link c).pool.slots flavor

def task? (system : System) (id : TaskId) : Option Task :=
  system.tasks.find? (·.id = id)

def note (system : System) (happening : Happening) : System :=
  { system with history := happening :: system.history }

def setTask (system : System) (task : Task) : System :=
  { system with tasks := system.tasks.map fun other => if other.id = task.id then task else other }

def removeTask (system : System) (id : TaskId) : System :=
  { system with
    tasks := system.tasks.filter (·.id ≠ id)
    ready := system.ready.filter (· ≠ id) }

def wake (system : System) (id : TaskId) : System :=
  match system.task? id with
  | none => system
  | some task =>
    if task.foreground || system.ready.contains id then system
    else { system with ready := system.ready ++ [id] }

def setServer (system : System) (c : Nat) (server : Server) : System :=
  { system with links := system.links.modify c ({ · with server }) }

def setSlots (system : System) (c : Nat) (flavor : Flavor) (slots : Slots) : System :=
  { system with
    links := system.links.modify c fun link =>
      { link with pool := link.pool.setSlots flavor slots } }

def stepSlots (system : System) (c : Nat) (flavor : Flavor)
    (step : Slots → Option Ticket × Slots) : System :=
  let (woken, slots) := step (system.slots c flavor)
  let system := system.setSlots c flavor slots
  match woken with
  | none => system
  | some id => system.wake id

def letGo (system : System) (proxies : List ObjectId) : System :=
  { system with store := proxies.foldl Store.letGo system.store }

def resolve (system : System) (id : TaskId) (name : String) (continuation : Continuation)
    (result : Except Error Outcome) : System :=
  match (continuation.resolve result).2 with
  | some (.called result) => system.note (.resolved system.now id name result)
  | some (.succeeded outcome) => system.note (.resolved system.now id name (.ok outcome))
  | some (.failed error) => system.note (.resolved system.now id name (.error error))
  | some (.delivered result) =>
    let system := { system with inbox := system.inbox ++ [(id, result)] }
    match system.tasks.find? (awaits id) with
    | none => system
    | some task => system.wake task.id
  | some (.lost result) => system.letGo (heldBy result)
  | none => system
where
  awaits (id : TaskId) (task : Task) : Bool :=
    match task.stage with
    | .gathering (pending :: _) .. => pending == id
    | _ => false

def finish (system : System) (task : Task) (result : Except Error Outcome) : System :=
  (system.removeTask task.id).resolve task.id task.name task.continuation result

def spawn (system : System) (job : Job) (continuation : Continuation) (name : String) :
    TaskId × System :=
  let id := system.nextTask
  let system := { system with nextTask := id + 1 }
  if system.running then
    let task : Task := { id, job, continuation, name }
    (id, { system with tasks := system.tasks ++ [task], ready := system.ready ++ [id] })
  else
    let system := match job with
      | .ownPipeline o => system.letGo [o]
      | _ => system
    (id, system.resolve id name continuation (.error .abandoned))

def attend (system : System) (job : Job) : TaskId × System :=
  let id := system.nextTask
  let task : Task := { id, job, continuation := { handler := .channel true }, foreground := true }
  (id, { system with nextTask := id + 1, tasks := system.tasks ++ [task] })

def ignore (system : System) (id : TaskId) : System :=
  let unheard (task : Task) : Task :=
    if task.id = id then { task with continuation.handler := .channel false } else task
  let system := { system with tasks := system.tasks.map unheard }
  match system.inbox.lookup id with
  | none => system
  | some result =>
    { system with inbox := system.inbox.filter (·.1 ≠ id) }.letGo (heldBy result)

def collect? (system : System) (id : TaskId) : Option (Except Error Outcome × System) :=
  (system.inbox.lookup id).map fun result =>
    (result, { system with inbox := system.inbox.filter (·.1 ≠ id) })

end System

end MediaProxy
