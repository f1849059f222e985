import MediaProxy.Object.Store

/-!
This module contains the operations on objects: what each of them asks the server, and what it makes
of the reply. Both forms of an operation, the one that blocks and the one that does not, share these.
-/

namespace MediaProxy

inductive Operation where
  | release
  | keepAlive
  | addListener (listener : Listener)
  | removeListener (subscription : Subscription)
  | sendCommand (command : Command)
  | getParent
  | getMediaPipeline
  deriving DecidableEq, Repr

inductive Value where
  | done
  | subscription (subscription : Subscription)
  | result (result : CommandResult)
  | parent (parent : Option ObjectId)
  | pipeline (pipeline : ObjectId)
  deriving DecidableEq, Repr

def Value.held : Value → List ObjectId
  | .parent (some o) => [o]
  | .pipeline o => [o]
  | _ => []

namespace Operation

def request (config : Config) : Operation → Request
  | .release => .release
  | .keepAlive => .keepAlive
  | .addListener _ => .subscribe config.handlerAddress config.handlerPort
  | .removeListener subscription => .unsubscribe subscription.token
  | .sendCommand command => .sendCommand command
  | .getParent => .getParent
  | .getMediaPipeline => .getMediaPipeline

def expect (operation : Operation) (request : Request) (reply : Reply) : Except RpcError Reply :=
  match operation with
  | .release | .keepAlive | .removeListener _ =>
    (reply.toUnit request.name).map fun _ => .unit
  | .addListener _ => (reply.toToken request.name).map .token
  | .sendCommand _ => (reply.toResult request.name).map .result
  | .getParent => (reply.toReference request.name).map .reference
  | .getMediaPipeline => (reply.toPipeline request.name).map fun r => .reference (some r)

end Operation

inductive Beginning where
  | answered (result : Except Error Value)
  | asks (request : Request)
  deriving Repr

namespace Store

def releasedError (object : MediaObject) : Error :=
  .released (object.reference.text ++ " has already been released")

def resolveFor (store : Store) (o : ObjectId) (reference : Reference) :
    Except Error ObjectId × Store :=
  let c := (store.object o).context
  store.resolve (store.context c).factory c reference

def resolvePipelineFor (store : Store) (o : ObjectId) (reference : Reference) :
    Except Error Value × Store :=
  let c := (store.object o).context
  let (result, store) := store.resolveAs (store.context c).factory c reference .pipeline
  (result.map .pipeline, store)

def resolveParentFor (store : Store) (o : ObjectId) (parent : Option Reference) :
    Except Error Value × Store :=
  match parent with
  | none => (.ok (.parent none), store)
  | some reference =>
    let (result, store) := store.resolveFor o reference
    (result.map fun o => .parent (some o), store)

def start (store : Store) (o : ObjectId) (operation : Operation) : Beginning × Store :=
  let object := store.object o
  let asks : Beginning × Store :=
    (.asks (operation.request (store.context object.context).config), store)
  let answered (answer : Except Error Value × Store) : Beginning × Store :=
    (.answered answer.1, answer.2)
  if object.released then answered (.error (releasedError object), store)
  else match operation with
    | .getParent =>
      match object.parent with
      | some parent => answered (store.resolveParentFor o parent)
      | none => asks
    | .getMediaPipeline =>
      if object.reference.isPipeline then answered (store.resolvePipelineFor o object.reference)
      else match object.pipeline with
        | some pipeline => answered (store.resolvePipelineFor o pipeline)
        | none => asks
    | _ => asks

/--
A released object is not kept track of, and neither is any other with its reference.
-/
def finishRelease (store : Store) (o : ObjectId) : Store :=
  let object := store.object o
  let store := store.modifyObject o ({ · with released := true })
  (store.forget (store.context object.context).factory object.reference).2

def finishSubscribe (store : Store) (o : ObjectId) (token : String) (listener : Listener) :
    Subscription × Store :=
  let object := store.object o
  let subscription : Subscription := ⟨object.reference, token⟩
  (subscription, store.modifyRegistry object.context (·.add subscription listener))

/--
Makes the proxy of a parent that was fetched. The first parent that is fetched is kept: a later one
that differs is dropped in its favor.
-/
def finishParent (store : Store) (o : ObjectId) (parent : Option Reference) :
    Except Error Value × Store :=
  match store.resolveParentFor o parent with
  | (.error error, store) => (.error error, store)
  | (.ok value, store) =>
    match (store.object o).parent with
    | none => (.ok value, store.modifyObject o ({ · with parent := some parent }))
    | some known =>
      if known = parent then (.ok value, store)
      else
        let (result, store) := store.resolveParentFor o known
        (result, value.held.foldl letGo store)

def finishPipeline (store : Store) (o : ObjectId) (pipeline : Reference) :
    Except Error Value × Store :=
  match store.resolvePipelineFor o pipeline with
  | (.error error, store) => (.error error, store)
  | (.ok value, store) =>
    match (store.object o).pipeline with
    | none => (.ok value, store.modifyObject o ({ · with pipeline := some pipeline }))
    | some known =>
      if known = pipeline then (.ok value, store)
      else
        let (result, store) := store.resolvePipelineFor o known
        (result, value.held.foldl letGo store)

def finish (store : Store) (o : ObjectId) (operation : Operation) (reply : Reply) :
    Except Error Value × Store :=
  match operation, reply with
  | .release, .unit => (.ok .done, store.finishRelease o)
  | .keepAlive, .unit => (.ok .done, store)
  | .addListener listener, .token token =>
    let (subscription, store) := store.finishSubscribe o token listener
    (.ok (.subscription subscription), store)
  | .removeListener subscription, .unit =>
    (.ok .done, store.modifyRegistry (store.object o).context (·.remove subscription))
  | .sendCommand command, .result bytes =>
    (((store.decoders (store.object o).context).decode command.type bytes).map .result, store)
  | .getParent, .reference parent => store.finishParent o parent
  | .getMediaPipeline, .reference (some pipeline) => store.finishPipeline o pipeline
  | operation, reply =>
    let request := operation.request (store.context (store.object o).context).config
    (.error (.ofRpc (reply.unexpected request.name)), store)

def conclude (store : Store) (o : ObjectId) (operation : Operation)
    (outcome : Except RpcError Reply) : Except Error Value × Store :=
  match outcome with
  | .error error => (.error (.ofRpc error), store)
  | .ok reply => store.finish o operation reply

def ownPipeline (store : Store) (o : ObjectId) : Except Error Value × Store :=
  let object := store.object o
  if object.released then (.error (releasedError object), store)
  else (.ok (.pipeline o), store.hold o)

end Store

end MediaProxy
