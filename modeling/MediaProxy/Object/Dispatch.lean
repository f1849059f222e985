import MediaProxy.Object.Store

/-!
This module contains the way of an event to its listener, and what the listener does after it was
told: it may take listeners away and pass events on.
-/

namespace MediaProxy

inductive Notice where
  | told (listener : String) (source : Reference) (event : Event)
  | removed (listener : String) (found : Option Bool)
  | dispatched (listener : String) (received : Bool)
  deriving DecidableEq, Repr

namespace Store

def dispatchUpTo (known : List (String × Subscription)) :
    Nat → Store → Nat → Reference → String → Event → Bool × List Notice × Store
  | 0, store, _, _, _, _ => (false, [], store)
  | depth + 1, store, c, source, token, event =>
    match (store.registry c).dispatch? source token with
    | none => (false, [], store)
    | some listener =>
      let follow (state : List Notice × Store) : Follow → List Notice × Store
        | .remove name =>
          match known.lookup name with
          | none => (state.1 ++ [.removed listener.name none], state.2)
          | some subscription =>
            let found := (state.2.registry listener.context).contains subscription
            (state.1 ++ [.removed listener.name (some found)],
              state.2.modifyRegistry listener.context (·.remove subscription))
        | .dispatch source token event =>
          let (received, notices, store) :=
            dispatchUpTo known depth state.2 listener.context source token event
          (state.1 ++ notices ++ [.dispatched listener.name received], store)
      let (notices, store) :=
        listener.follows.foldl follow ([.told listener.name source event], store)
      (true, notices, store)

/--
A depth that no event reaches unless it is passed on without end. Registries only shrink meanwhile,
and a listener that is told a second time before any of them did would be told again and again.
-/
def dispatchDepth (store : Store) : Nat :=
  let listeners := store.registries.flatten.length
  (listeners + 1) * (listeners + 1) + 1

def dispatch (store : Store) (known : List (String × Subscription)) (c : Nat) (source : Reference)
    (token : String) (event : Event) : Bool × List Notice × Store :=
  dispatchUpTo known store.dispatchDepth store c source token event

end Store

end MediaProxy
