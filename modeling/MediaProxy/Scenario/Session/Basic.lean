import MediaProxy.Object.Dispatch
import MediaProxy.Scenario.Application
import MediaProxy.Scenario.Basic
import MediaProxy.System.Context

/-!
This module contains sessions: several contexts, and the proxies, subscriptions, factories,
schedulers and leases that somebody keeps while working with them.
-/

namespace MediaProxy

namespace Session

structure Plan where
  config : Config := {}
  listeners : Bool := false
  kinds : Bool := false
  decoders : Bool := false
  noKinds : Bool := false
  runtime : Runtime := .given

inductive Handle where
  | proxy (o : ObjectId)
  | object (o : ObjectId)
  deriving DecidableEq, Repr

namespace Handle

def id : Handle → ObjectId
  | .proxy o => o
  | .object o => o

def isProxy (handle : Handle) (o : ObjectId) : Bool :=
  handle == .proxy o

end Handle

structure ProxyView where
  reference : Reference
  type : ProxyType
  released : Bool
  sameAs : List String
  deriving DecidableEq, Repr

structure State where
  system : System := {}
  contexts : List (Option Nat) := []
  handles : Named Handle := []
  subscriptions : Named Subscription := []
  factories : Named Nat := []
  schedulers : Named TaskId := []
  held : List (Nat × Flavor × Ticket) := []
  notices : List Notice := []
  deriving Inhabited

namespace State

def common : Store where
  kindTables := [.standard]
  registries := [[]]
  decoderTables := [[]]

def builder (store : Store) (plan : Plan) : ContextBuilder × Store :=
  let shared (share : Bool) : Option Nat := if share then some 0 else none
  let (kinds, store) : Option Nat × Store :=
    if plan.noKinds && !plan.kinds then
      let (position, store) := store.addKindTable []
      (some position, store)
    else (shared plan.kinds, store)
  ({ config := plan.config, registry := shared plan.listeners, kinds,
     decoders := shared plan.decoders, runtime := plan.runtime }, store)

def build (state : State) (plan : Plan) : (Option Error × String) × State :=
  let (builder, store) := builder state.system.store plan
  match { state.system with store }.build builder with
  | (.ok c, system) =>
    ((none, builder.shown), { state with system, contexts := state.contexts ++ [some c] })
  | (.error error, system) =>
    ((some error, builder.shown), { state with system, contexts := state.contexts ++ [none] })

def ofPlans (plans : List Plan) : List (Option Error × String) × State :=
  plans.foldl (fun (answers, state) plan =>
    let (answer, state) := state.build plan
    (answers ++ [answer], state)) ([], { system := { store := common } })

/-!
## Parts
-/

def store (state : State) : Store :=
  state.system.store

def setStore (state : State) (store : Store) : State :=
  { state with system := { state.system with store } }

def factory (state : State) (c : Nat) : Nat :=
  (state.store.context c).factory

def modifyServer (state : State) (c : Nat) (change : Server → Server) : State :=
  { state with system := state.system.setServer c (change (state.system.link c).server) }

def limit (state : State) : Nat :=
  state.system.now + Scenario.patience

def notice (state : State) (notices : List Notice) : State :=
  { state with notices := state.notices ++ notices }

/-!
## Handles
-/

def view (state : State) (o : ObjectId) : ProxyView :=
  let object := state.store.object o
  { reference := object.reference
    type := .ofClass object.type
    released := object.released
    sameAs := ((state.handles.filter (·.2.isProxy o)).map (·.1)).mergeSort }

def dropHandle (state : State) (name : String) : State :=
  match state.handles.lookup name with
  | none => state
  | some handle =>
    let state := { state with handles := state.handles.erase name }
    match handle with
    | .proxy o => state.setStore (state.store.letGo o)
    | .object _ => state

def keepProxy (state : State) (name : String) (o : ObjectId) : State :=
  if name = "" then state.setStore (state.store.letGo o)
  else
    let state := state.dropHandle name
    { state with handles := state.handles.put name (.proxy o) }

def keepObject (state : State) (name : String) (o : ObjectId) : State :=
  if name = "" then state
  else
    let state := state.dropHandle name
    { state with handles := state.handles.put name (.object o) }

/-!
## Leases
-/

def hold (state : State) (c : Nat) (flavor : Flavor) (limit : Nat) :
    Nat → Option (Except Error Unit) × State
  | 0 => (some (.ok ()), state)
  | count + 1 =>
    let keep (state : State) (ticket : Ticket) : State :=
      { state with held := state.held ++ [(c, flavor, ticket)] }
    match flavor with
    | .blocking =>
      match state.system.acquireBlocking c with
      | (.ok ticket, system) => hold (keep { state with system } ticket) c flavor limit count
      | (.error error, system) => (some (.error error), { state with system })
    | .nonBlocking =>
      match state.system.perform Scenario.tickFirst limit (.acquire c) with
      | (ticket, some (.ok _), system) =>
        hold (keep { state with system } ticket) c flavor limit count
      | (_, some (.error error), system) => (some (.error error), { state with system })
      | (_, none, system) => (none, { state with system })

def unhold (state : State) : State :=
  let leases := state.held.filter (·.2.1 = .blocking) ++ state.held.filter (·.2.1 = .nonBlocking)
  let giveBack (system : System) (lease : Nat × Flavor × Ticket) : System :=
    system.stepSlots lease.1 lease.2.1 (·.giveBack lease.2.2)
  { state with system := leases.foldl giveBack state.system, held := [] }

/-!
## Schedulers
-/

def dropScheduler (state : State) (name : String) : State :=
  match state.schedulers.lookup name with
  | none => state
  | some task =>
    { state with
      system := state.system.dropTask task
      schedulers := state.schedulers.erase name }

def startScheduler (state : State) (c : Nat) (name : String) (period : Nat) : State :=
  let (task, system) :=
    state.system.spawn (.schedule c period) { handler := .channel false } name
  let state := { state with system }.dropScheduler name
  { state with schedulers := state.schedulers.put name task }

def isRunning (state : State) (task : TaskId) : Bool :=
  (state.system.task? task).isSome

end State

end Session

end MediaProxy
