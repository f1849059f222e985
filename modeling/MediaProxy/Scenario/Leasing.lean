import MediaProxy.Scenario.Basic

/-!
This module contains scenarios in which the connections of one pool are leased, used and given back.
-/

namespace MediaProxy

namespace Leasing

inductive Step where
  | acquireBlocking (name : String)
  | acquire (name : String)
  | spawnAcquire (name : String)
  | abort (name : String)
  | waitBlocking (name lease : String)
  | giveBack (lease : String)
  | markBroken (lease : String)
  | isBroken (lease : String)
  | describe (lease : String)
  | call (lease : String) (target : Reference) (request : Request)
  | advance (millis : Nat)
  | script (entries : List ScriptEntry)
  | openings (openings : List Opening)
  | describePool

inductive Answer where
  | nothing
  | leased
  | spawned
  | aborted
  | pending
  | noLease
  | flag (flag : Bool)
  | text (text : String)
  | failed (error : Error)
  | callFailed (error : RpcError)

structure Report where
  answer : Answer
  now : Nat
  blocking : Stats
  nonBlocking : Stats
  all : Stats
  finished : List Scenario.Finished
  calls : List CallRecord

structure State where
  system : System
  leases : Named (Flavor × Ticket) := []
  spawned : Named TaskId := []

namespace State

def ofConfig (config : Config) : State where
  system := { links := [{ pool := .ofConfig config }] }

def pool (state : State) : Pool :=
  (state.system.link 0).pool

def modifyServer (state : State) (change : Server → Server) : State :=
  { state with system := state.system.setServer 0 (change (state.system.link 0).server) }

def lease? (state : State) (name : String) : Option (Flavor × Lease) :=
  match state.leases.lookup name with
  | none => none
  | some (flavor, ticket) => ((state.pool.slots flavor).lease? ticket).map (flavor, ·)

def giveBack (state : State) (name : String) : State :=
  match state.leases.lookup name with
  | none => state
  | some (flavor, ticket) =>
    { state with
      system := state.system.stepSlots 0 flavor (·.giveBack ticket)
      leases := state.leases.erase name }

def keep (state : State) (name : String) (flavor : Flavor) (ticket : Ticket) : State :=
  let state := state.giveBack name
  { state with leases := state.leases.put name (flavor, ticket) }

def keepBlocking (state : State) (name : String) (result : Except Error Ticket) :
    Answer × State :=
  match result with
  | .ok ticket => (.leased, state.keep name .blocking ticket)
  | .error error => (.failed error, state)

def acquireBlocking (state : State) : Except Error Ticket × State :=
  let (result, system) := state.system.acquireBlocking 0
  (result, { state with system })

def waitBlocking (state : State) (lease : String) : Except Error Ticket × State :=
  match state.acquireBlocking with
  | (.error (.resourceExhausted _), state) => (state.giveBack lease).acquireBlocking
  | (result, state) => (result, state.giveBack lease)

def limit (state : State) : Nat :=
  state.system.now + Scenario.patience

def acquire (state : State) (name : String) : Answer × State :=
  match state.system.perform Scenario.tickFirst state.limit (.acquire 0) with
  | (_, none, system) => (.pending, { state with system })
  | (_, some (.error error), system) => (.failed error, { state with system })
  | (ticket, some (.ok _), system) =>
    (.leased, { state with system }.keep name .nonBlocking ticket)

def call (state : State) (flavor : Flavor) (lease : Ticket) (target : Reference)
    (request : Request) : Answer × State :=
  match flavor with
  | .blocking =>
    let (reply, _, system) := state.system.ask 0 .blocking lease target request
    (answer reply, { state with system })
  | .nonBlocking =>
    match state.system.perform Scenario.tickFirst state.limit (.call 0 lease target request) with
    | (_, some (.ok (.reply reply)), system) => (answer reply, { state with system })
    | (_, _, system) => (.pending, { state with system })
where
  answer : Except RpcError Reply → Answer
    | .ok reply => .text reply.shown
    | .error error => .callFailed error

def withLease (state : State) (name : String)
    (act : Flavor → Lease → Answer × State) : Answer × State :=
  match state.lease? name with
  | none => (.noLease, state)
  | some (flavor, lease) => act flavor lease

def perform (state : State) : Step → Answer × State
  | .acquireBlocking name =>
    let (result, state) := state.acquireBlocking
    state.keepBlocking name result
  | .acquire name => state.acquire name
  | .spawnAcquire name =>
    let (task, system) := state.system.spawn (.acquire 0) { handler := .callback } name
    (.spawned, { state with system, spawned := state.spawned.put name task })
  | .abort name =>
    match state.spawned.lookup name with
    | none => (.aborted, state)
    | some task => (.aborted, { state with system := state.system.dropTask task })
  | .waitBlocking name lease =>
    state.withLease lease fun _ _ =>
      let (result, state) := state.waitBlocking lease
      state.keepBlocking name result
  | .giveBack lease => state.withLease lease fun _ _ => (.nothing, state.giveBack lease)
  | .markBroken lease =>
    state.withLease lease fun flavor lease =>
      let slots := (state.pool.slots flavor).markBroken lease.ticket
      (.nothing, { state with system := state.system.setSlots 0 flavor slots })
  | .isBroken lease => state.withLease lease fun _ lease => (.flag lease.broken, state)
  | .describe lease =>
    state.withLease lease fun flavor lease => (.text (lease.shown flavor), state)
  | .call lease target request =>
    state.withLease lease fun flavor lease =>
      state.call flavor lease.ticket target request
  | .advance millis =>
    (.nothing, { state with system := state.system.advance Scenario.tickFirst millis })
  | .script entries =>
    (.nothing, state.modifyServer fun server =>
      { server with script := server.script ++ entries })
  | .openings openings =>
    (.nothing, state.modifyServer fun server =>
      { server with openings := server.openings ++ openings })
  | .describePool => (.text state.pool.shown, state)

def keepFinished (state : State) (finished : Scenario.Finished) : State :=
  match finished.result with
  | .ok _ => state.keep finished.name .nonBlocking finished.task
  | .error _ => state

def step (state : State) (step : Step) : Report × State :=
  let (answer, after) := state.perform step
  let after := { after with system := after.system.settle (Scenario.tickFirst 0) }
  let happenings := Scenario.happened state.system after.system
  let finished := Scenario.finished happenings
  let after := finished.foldl keepFinished after
  let report : Report :=
    { answer
      now := after.system.now
      blocking := after.pool.blocking.stats
      nonBlocking := after.pool.nonBlocking.stats
      all := after.pool.stats
      finished
      calls := Scenario.callsInOrder (Scenario.calls happenings) }
  (report, after)

end State

def run (config : Config) (steps : List Step) : List Report :=
  go (State.ofConfig config) steps
where
  go (state : State) : List Step → List Report
    | [] => []
    | step :: steps =>
      let (report, state) := state.step step
      report :: go state steps

end Leasing

end MediaProxy
