import MediaProxy.Scenario.Session.Step

/-!
This module contains the carrying out of sessions.
-/

namespace MediaProxy

namespace Session

namespace State

/-!
## Factories
-/

def factoryOf (state : State) (c : Nat) : FactoryName → Nat
  | .own => state.factory c
  | .context n => state.factory ((state.contexts.getD n none).getD c)
  | .named name => (state.factories.lookup name).getD (state.factory c)

def newFactory (state : State) (c : Nat) (name : String) (origin : Origin) : State :=
  let (kinds, store) := match origin with
    | .standard => state.store.addKindTable .standard
    | .none => state.store.addKindTable []
    | .shared => ((state.store.factory (state.factory c)).kinds, state.store)
  let (factory, store) := store.addFactory kinds
  let state := state.setStore store
  { state with factories := state.factories.put name factory }

def done (state : State) (outcome : Except Error Unit × Store) : Answer × State :=
  let state := state.setStore outcome.2
  match outcome.1 with
  | .ok _ => (.ok, state)
  | .error error => (.failed error, state)

def showProxy (state : State) (name : String) (o : ObjectId) : Answer × State :=
  (.proxy (state.view o), state.keepProxy name o)

def resolved (state : State) (name : String) (outcome : Except Error ObjectId × Store) :
    Answer × State :=
  let state := state.setStore outcome.2
  match outcome.1 with
  | .ok o => state.showProxy name o
  | .error error => (.failed error, state)

/-!
## Operations
-/

def showValue (state : State) (name : String) : Value → Answer × State
  | .done => (.ok, state)
  | .subscription subscription =>
    (.subscription subscription,
      { state with subscriptions := state.subscriptions.put name subscription })
  | .result result => (.result result, state)
  | .parent none => (.nothing, state)
  | .parent (some o) => state.showProxy name o
  | .pipeline o => state.showProxy name o

def showResult (state : State) (name : String) : Except Error Value → Answer × State
  | .ok value => state.showValue name value
  | .error error => (.failed error, state)

def showOutcome (state : State) (name : String) : Except Error Outcome → Answer × State
  | .ok (.value value) => state.showValue name value
  | .ok _ => (.ok, state)
  | .error error => (.failed error, state)

def narrow (type : Option ResultType) (result : Except Error Value) : Option Answer :=
  match type, result with
  | some type, .ok (.result result) =>
    match result.downcast type.tag with
    | .ok data => some (.value (.ofData type data))
    | .error error => some (.failed error)
  | _, _ => none

def operation? (state : State) (c : Nat) : Act → Option Operation
  | .release => some .release
  | .keepAlive => some .keepAlive
  | .addListener name follows => some (.addListener { name, context := c, follows })
  | .removeListener name => (state.subscriptions.lookup name).map .removeListener
  | .sendCommand command _ => some (.sendCommand command)
  | .getParent => some .getParent
  | .getMediaPipeline _ => some .getMediaPipeline

def isOwnForm (state : State) (handle : Handle) (act : Act) : Bool :=
  match act, handle with
  | .getMediaPipeline true, .proxy o => (state.store.object o).type = .pipeline
  | _, _ => false

def operateBlocking (state : State) (handle : Handle) (act : Act) (operation : Operation)
    (name : String) : Answer × State :=
  let (result, system) :=
    if state.isOwnForm handle act then
      let (result, store) := state.store.ownPipeline handle.id
      (result, { state.system with store })
    else state.system.operateBlocking handle.id operation
  let state := { state with system }
  let type := match act with
    | .sendCommand _ type => type
    | _ => none
  match narrow type result with
  | some answer => (answer, state)
  | none => state.showResult name result

def spawn (state : State) (handle : Handle) (act : Act) (operation : Operation)
    (handler : Handler) (name : String) : TaskId × State :=
  let (job, store) : Job × Store :=
    if state.isOwnForm handle act then
      (.ownPipeline handle.id, state.store.hold handle.id)
    else (.operate handle.id operation, state.store)
  let (task, system) := { state.system with store }.spawn job { handler } name
  (task, { state with system })

def operate (state : State) (handle : Handle) (act : Act) (operation : Operation) (mode : Mode)
    (name : String) : Answer × State :=
  match mode with
  | .blocking => state.operateBlocking handle act operation name
  | .awaited =>
    let limit := state.limit
    let (task, state) := state.spawn handle act operation (.channel true) name
    match state.system.awaitTask Scenario.tickFirst limit task with
    | (some result, system) => { state with system }.showOutcome name result
    | (none, system) => (.pending, { state with system })
  | .spawned =>
    let (_, state) := state.spawn handle act operation .callback name
    (.spawned, state)

/-!
## Handles
-/

def describe (state : State) (handle : Handle) : Description :=
  let object := state.store.object handle.id
  let pipeline := match handle with
    | .proxy _ => if object.type = .pipeline then some object.shownPipeline else none
    | .object _ => none
  { reference := object.reference
    released := object.released
    text := object.reference.text
    shown := object.shown
    pipeline
    maxConnections := (state.store.context object.context).config.maxConnections.toNat }

def compare (state : State) (first second : Handle) : Comparison :=
  let a := state.store.object first.id
  let b := state.store.object second.id
  let same : Bool := a.reference = b.reference
  let proxies := match first, second with
    | .proxy o, .proxy p => some (o == p, same && a.type == b.type, same)
    | _, _ => none
  { proxies, objects := (same, same) }

def withHandle (state : State) (name : String) (act : Handle → Answer × State) : Answer × State :=
  match state.handles.lookup name with
  | none => (.noHandle, state)
  | some handle => act handle

def withSubscription (state : State) (name : String) (act : Subscription → Answer × State) :
    Answer × State :=
  match state.subscriptions.lookup name with
  | none => (.noSubscription, state)
  | some subscription => act subscription

def withScheduler (state : State) (name : String) (act : TaskId → Answer × State) :
    Answer × State :=
  match state.schedulers.lookup name with
  | none => (.noScheduler, state)
  | some task => act task

/-!
## Steps
-/

def stopScheduler (state : State) (name : String) (task : TaskId) : Answer × State :=
  let (ended, system) := (state.system.stop task).awaitEnd Scenario.tickFirst state.limit task
  (if ended then .stopped else .pending,
    { state with system, schedulers := state.schedulers.erase name })

def keepAliveOnce (state : State) (c : Nat) : Answer × State :=
  match state.system.perform Scenario.tickFirst state.limit (.round c) with
  | (_, some (.ok (.report report)), system) => (.report report, { state with system })
  | (_, some (.error error), system) => (.failed error, { state with system })
  | (_, _, system) => (.pending, { state with system })

def perform (state : State) (c : Nat) : Action → Answer × State
  | .script entries =>
    (.nothing, state.modifyServer c fun server =>
      { server with script := server.script ++ entries })
  | .openings openings =>
    (.nothing, state.modifyServer c fun server =>
      { server with openings := server.openings ++ openings })
  | .clear => (.nothing, state.modifyServer c ({ · with script := [], openings := [] }))
  | .newFactory name origin => (.nothing, state.newFactory c name origin)
  | .registerKind factory kind type =>
    state.done (state.store.registerKind (state.factoryOf c factory) kind type.toClass)
  | .kinds factory => (.texts (state.store.kindTable (state.factoryOf c factory)).kinds, state)
  | .describeKinds factory =>
    let f := state.factoryOf c factory
    (.text ((state.store.kindTable f).shown ++ " / " ++ state.store.shownFactory f), state)
  | .resolve factory reference name =>
    state.resolved name (state.store.resolve (state.factoryOf c factory) c reference)
  | .resolveAs factory reference type name =>
    state.resolved name (state.store.resolveAs (state.factoryOf c factory) c reference type.toClass)
  | .pipeline id name =>
    state.resolved name (state.store.resolveAs (state.factory c) c (.pipeline id) .pipeline)
  | .lookup factory reference name =>
    match state.store.lookup? (state.factoryOf c factory) reference with
    | none => (.nothing, state)
    | some o => (state.setStore (state.store.hold o)).showProxy name o
  | .forget factory reference =>
    let (found, store) := state.store.forget (state.factoryOf c factory) reference
    (.flag found, state.setStore store)
  | .sweep factory =>
    let (count, store) := state.store.sweep (state.factoryOf c factory)
    (.count count, state.setStore store)
  | .tracked factory =>
    (.count (state.store.factory (state.factoryOf c factory)).tracked.length, state)
  | .living factory =>
    let objects := state.store.living (state.factoryOf c factory)
    let references := objects.map fun o => (state.store.object o).reference
    (.references (references.mergeSort Reference.before), state)
  | .drop handle =>
    (.flag (state.handles.lookup handle).isSome, state.dropHandle handle)
  | .cloneObject handle name =>
    state.withHandle handle fun handle => (.nothing, state.keepObject name handle.id)
  | .describe handle =>
    state.withHandle handle fun handle => (.description (state.describe handle), state)
  | .compare first second =>
    state.withHandle first fun first =>
      state.withHandle second fun second => (.comparison (state.compare first second), state)
  | .operate act mode handle name =>
    state.withHandle handle fun handle =>
      match state.operation? c act with
      | none => (.noSubscription, state)
      | some operation => state.operate handle act operation mode name
  | .registerDecoder type decoder => state.done (state.store.registerDecoder c type decoder)
  | .hasDecoder type => (.flag ((state.store.decoders c).lookup type).isSome, state)
  | .describeDecoders => (.text (state.store.decoders c).shown, state)
  | .decode type bytes as =>
    match (state.store.decoders c).decode type bytes, as with
    | .error error, _ => (.failed error, state)
    | .ok result, none => (.result result, state)
    | .ok result, some as =>
      (.checked (result.is as) ((result.downcast as.tag).map (.ofData as)), state)
  | .dispatch source token event =>
    let (received, notices, store) :=
      state.store.dispatch state.subscriptions c source token event
    (.flag received, (state.setStore store).notice notices)
  | .countListeners =>
    let registry := state.store.registry c
    (.registry registry.length registry.shown, state)
  | .subscriptionsOf object =>
    let subscriptions := (state.store.registry c).subscriptionsOf object
    (.texts (subscriptions.map (·.token)).mergeSort, state)
  | .hasListener name =>
    state.withSubscription name fun subscription =>
      (.flag ((state.store.registry c).contains subscription), state)
  | .removeListener name =>
    state.withSubscription name fun subscription =>
      (.flag ((state.store.registry c).contains subscription),
        state.setStore (state.store.modifyRegistry c (·.remove subscription)))
  | .addListener name listener follows =>
    state.withSubscription name fun subscription =>
      let listener : Listener := { name := listener, context := c, follows }
      (.nothing, state.setStore (state.store.modifyRegistry c (·.add subscription listener)))
  | .advance millis =>
    (.nothing, { state with system := state.system.advance Scenario.tickFirst millis })
  | .hold flavor count =>
    match state.hold c flavor state.limit count with
    | (some (.ok _), state) => (.held, state)
    | (some (.error error), state) => (.failed error, state)
    | (none, state) => (.pending, state)
  | .unhold => (.nothing, state.unhold)
  | .shutdown => (.nothing, { state with system := state.system.shutdown })
  | .describeContext => (.text (state.system.shownContext c), state)
  | .keepAliveOnce => state.keepAliveOnce c
  | .startScheduler name period =>
    let configured := (state.store.context c).config.keepaliveInterval.toNat * 1000000
    let state := state.startScheduler c name ((period.map (·.nanoseconds)).getD configured)
    let state := { state with system := state.system.settle (Scenario.tickFirst 0) }
    (.flag (((state.schedulers.lookup name).map state.isRunning).getD false), state)
  | .isRunning name =>
    state.withScheduler name fun task => (.flag (state.isRunning task), state)
  | .stopScheduler name => state.withScheduler name (state.stopScheduler name)
  | .dropScheduler name =>
    (.flag (state.schedulers.lookup name).isSome, state.dropScheduler name)

def showFinished (finished : List Scenario.Finished) (state : State) : List Finished × State :=
  finished.foldl (fun (shown, state) finished =>
    let (answer, state) := state.showOutcome finished.name finished.result
    (shown ++ [{ name := finished.name, time := finished.time, answer }], state)) ([], state)

def callsByContext (state : State) (happenings : List Happening) : List (Nat × CallRecord) :=
  let calls := Scenario.calls happenings
  state.contexts.zipIdx.flatMap fun (position, number) =>
    (Scenario.callsInOrder (calls.filter (some ·.context = position))).map (number, ·)

def step (state : State) (step : Step) : Option Report × State :=
  match state.contexts.getD step.context none with
  | none => (none, state)
  | some c =>
    let (answer, after) := { state with notices := [] }.perform c step.action
    let after := { after with system := after.system.settle (Scenario.tickFirst 0) }
    let happenings := Scenario.happened state.system after.system
    let (finished, after) := showFinished (Scenario.finished happenings) after
    let pool := (after.system.link c).pool
    let report : Report :=
      { answer
        now := after.system.now
        blocking := pool.blocking.stats
        nonBlocking := pool.nonBlocking.stats
        finished
        calls := after.callsByContext happenings
        notices := after.notices }
    (some report, after)

def run (state : State) : List Step → List (Option Report)
  | [] => []
  | step :: steps =>
    let (report, state) := state.step step
    report :: run state steps

end State

def run (plans : List Plan) (steps : List Step) :
    List (Option Error × String) × List (Option Report) :=
  let (contexts, state) := State.ofPlans plans
  (contexts, state.run steps)

end Session

end MediaProxy
