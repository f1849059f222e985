import MediaProxy.Command.Result
import MediaProxy.Config
import MediaProxy.Listener
import MediaProxy.Object.Kind

/-!
This module contains what operations on objects share: the objects themselves, the factories that
keep track of the proxies standing for them, and the tables and registries of contexts.

A proxy and its object are made together and share one number. A proxy lives for as long as somebody
holds it. A factory remembers the proxy of a reference without holding it, so at most one living
proxy stands for a reference there.
-/

namespace MediaProxy

abbrev ObjectId := Nat

structure MediaObject where
  reference : Reference
  context : Nat
  type : ProxyClass
  released : Bool := false
  /--
  The parent of the object or its absence, once it is known.
  -/
  parent : Option (Option Reference) := none
  pipeline : Option Reference := none
  deriving DecidableEq, Repr, Inhabited

structure Factory where
  kinds : Nat
  /--
  The proxy of every reference that is kept track of, alive or not.
  -/
  tracked : List (Reference × ObjectId) := []
  deriving DecidableEq, Repr, Inhabited

inductive Follow where
  | remove (subscription : String)
  | dispatch (source : Reference) (token : String) (event : Event)
  deriving DecidableEq, Repr

structure Listener where
  name : String
  context : Nat
  follows : List Follow := []
  deriving DecidableEq, Repr

structure Context where
  config : Config
  factory : Nat
  registry : Nat
  decoders : Nat
  deriving DecidableEq, Repr, Inhabited

/--
Everything that operations on objects share. Contexts, factories, tables and registries are known by
their positions.
-/
structure Store where
  contexts : List Context := []
  objects : List MediaObject := []
  factories : List Factory := []
  kindTables : List KindTable := []
  registries : List (Registry Listener) := []
  decoderTables : List DecoderTable := []
  /--
  The proxies that are held, once for every holder.
  -/
  held : List ObjectId := []
  deriving Inhabited

namespace Store

def context (store : Store) (c : Nat) : Context :=
  store.contexts.getD c default

def object (store : Store) (o : ObjectId) : MediaObject :=
  store.objects.getD o default

def factory (store : Store) (f : Nat) : Factory :=
  store.factories.getD f default

def kindTable (store : Store) (f : Nat) : KindTable :=
  store.kindTables.getD (store.factory f).kinds []

def registry (store : Store) (c : Nat) : Registry Listener :=
  store.registries.getD (store.context c).registry []

def decoders (store : Store) (c : Nat) : DecoderTable :=
  store.decoderTables.getD (store.context c).decoders []

def modifyObject (store : Store) (o : ObjectId) (change : MediaObject → MediaObject) : Store :=
  { store with objects := store.objects.modify o change }

def modifyFactory (store : Store) (f : Nat) (change : Factory → Factory) : Store :=
  { store with factories := store.factories.modify f change }

def modifyRegistry (store : Store) (c : Nat) (change : Registry Listener → Registry Listener) :
    Store :=
  { store with registries := store.registries.modify (store.context c).registry change }

/-!
## Holding proxies
-/

def alive (store : Store) (o : ObjectId) : Bool :=
  store.held.contains o

def hold (store : Store) (o : ObjectId) : Store :=
  { store with held := o :: store.held }

def letGo (store : Store) (o : ObjectId) : Store :=
  { store with held := store.held.erase o }

/-!
## Tracking proxies
-/

def lookup? (store : Store) (f : Nat) (reference : Reference) : Option ObjectId :=
  ((store.factory f).tracked.lookup reference).filter store.alive

def make (store : Store) (f c : Nat) (reference : Reference) (type : ProxyClass) :
    ObjectId × Store :=
  let o := store.objects.length
  let object : MediaObject := { reference, context := c, type }
  let store := { store with objects := store.objects ++ [object] }
  (o, store.modifyFactory f fun factory =>
    { factory with tracked := track reference o factory.tracked })
where
  track (reference : Reference) (o : ObjectId) :
      List (Reference × ObjectId) → List (Reference × ObjectId)
    | [] => [(reference, o)]
    | entry :: entries =>
      if entry.1 = reference then (reference, o) :: entries
      else entry :: track reference o entries

def resolve (store : Store) (f c : Nat) (reference : Reference) : Except Error ObjectId × Store :=
  match store.lookup? f reference with
  | some o => (.ok o, store.hold o)
  | none =>
    match (store.kindTable f).type reference with
    | .error error => (.error error, store)
    | .ok type =>
      let (o, store) := store.make f c reference type
      (.ok o, store.hold o)

def resolveAs (store : Store) (f c : Nat) (reference : Reference) (type : ProxyClass) :
    Except Error ObjectId × Store :=
  match store.resolve f c reference with
  | (.error error, store) => (.error error, store)
  | (.ok o, store) =>
    if (store.object o).type = type then (.ok o, store)
    else
      (.error (.unknownObjectKind (reference.text ++ " is not a " ++ type.label)),
        store.letGo o)

def forget (store : Store) (f : Nat) (reference : Reference) : Bool × Store :=
  (((store.factory f).tracked.lookup reference).isSome,
    store.modifyFactory f fun factory =>
      { factory with tracked := factory.tracked.filter (·.1 ≠ reference) })

def sweep (store : Store) (f : Nat) : Nat × Store :=
  let tracked := (store.factory f).tracked
  let living := tracked.filter (store.alive ·.2)
  (tracked.length - living.length,
    store.modifyFactory f fun factory => { factory with tracked := living })

def living (store : Store) (f : Nat) : List ObjectId :=
  ((store.factory f).tracked.map (·.2)).filter store.alive

def shownFactory (store : Store) (f : Nat) : String :=
  Text.record "ObjectFactory"
    [("kinds", (store.kindTable f).shownKinds),
      ("tracked", toString (store.factory f).tracked.length)]

/-!
## Registering
-/

def registerKind (store : Store) (f : Nat) (kind : String) (type : ProxyClass) :
    Except Error Unit × Store :=
  match (store.kindTable f).register kind type with
  | .error error => (.error error, store)
  | .ok table =>
    (.ok (), { store with kindTables := store.kindTables.set (store.factory f).kinds table })

def registerDecoder (store : Store) (c : Nat) (type : String) (decoder : Decoder) :
    Except Error Unit × Store :=
  match (store.decoders c).register type decoder with
  | .error error => (.error error, store)
  | .ok table =>
    (.ok (),
      { store with decoderTables := store.decoderTables.set (store.context c).decoders table })

end Store

namespace MediaObject

def shown (object : MediaObject) : String :=
  Text.record "MediaObject"
    [("reference", object.reference.shown), ("released", Text.bool object.released)]

def shownPipeline (object : MediaObject) : String :=
  Text.record "MediaPipeline" [("object", object.shown)]

end MediaObject

end MediaProxy
