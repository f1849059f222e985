import MediaProxy.Scenario.Session.Basic

/-!
This module contains the steps of a session and what they come to.
-/

namespace MediaProxy

namespace Session

inductive FactoryName where
  | own
  | context (c : Nat)
  | named (name : String)
  deriving DecidableEq, Repr

inductive Origin where
  | standard
  | none
  | shared
  deriving DecidableEq, Repr

inductive Mode where
  | blocking
  | awaited
  | spawned
  deriving DecidableEq, Repr

inductive Act where
  | release
  | keepAlive
  | addListener (listener : String) (follows : List Follow)
  | removeListener (subscription : String)
  | sendCommand (command : Command) (type : Option ResultType)
  | getParent
  | getMediaPipeline (own : Bool)
  deriving DecidableEq, Repr

inductive Action where
  | script (entries : List ScriptEntry)
  | openings (openings : List Opening)
  | clear
  | newFactory (name : String) (origin : Origin)
  | registerKind (factory : FactoryName) (kind : String) (type : ProxyType)
  | kinds (factory : FactoryName)
  | describeKinds (factory : FactoryName)
  | resolve (factory : FactoryName) (reference : Reference) (name : String)
  | resolveAs (factory : FactoryName) (reference : Reference) (type : ProxyType) (name : String)
  | pipeline (id name : String)
  | lookup (factory : FactoryName) (reference : Reference) (name : String)
  | forget (factory : FactoryName) (reference : Reference)
  | sweep (factory : FactoryName)
  | tracked (factory : FactoryName)
  | living (factory : FactoryName)
  | drop (handle : String)
  | cloneObject (handle name : String)
  | describe (handle : String)
  | compare (first second : String)
  | operate (act : Act) (mode : Mode) (handle name : String)
  | registerDecoder (type : String) (decoder : Decoder)
  | hasDecoder (type : String)
  | describeDecoders
  | decode (type : String) (bytes : Bytes) (as : Option ResultType)
  | dispatch (source : Reference) (token : String) (event : Event)
  | countListeners
  | subscriptionsOf (object : Reference)
  | hasListener (subscription : String)
  | removeListener (subscription : String)
  | addListener (subscription listener : String) (follows : List Follow)
  | advance (millis : Nat)
  | hold (flavor : Flavor) (count : Nat)
  | unhold
  | shutdown
  | describeContext
  | keepAliveOnce
  | startScheduler (name : String) (period : Option Span)
  | isRunning (name : String)
  | stopScheduler (name : String)
  | dropScheduler (name : String)

structure Step where
  context : Nat
  action : Action

structure Description where
  reference : Reference
  released : Bool
  text : String
  shown : String
  pipeline : Option String
  maxConnections : Nat
  deriving DecidableEq, Repr

structure Comparison where
  proxies : Option (Bool × Bool × Bool)
  objects : Bool × Bool
  deriving DecidableEq, Repr

inductive Answer where
  | nothing
  | ok
  | spawned
  | held
  | stopped
  | pending
  | noHandle
  | noSubscription
  | noScheduler
  | flag (flag : Bool)
  | count (count : Nat)
  | text (text : String)
  | texts (texts : List String)
  | references (references : List Reference)
  | failed (error : Error)
  | proxy (proxy : ProxyView)
  | subscription (subscription : Subscription)
  | result (result : CommandResult)
  | value (value : ResultValue)
  | checked (is : Bool) (value : Except Error ResultValue)
  | description (description : Description)
  | comparison (comparison : Comparison)
  | registry (count : Nat) (shown : String)
  | report (report : MediaProxy.Report)

structure Finished where
  name : String
  time : Nat
  answer : Answer

structure Report where
  answer : Answer
  now : Nat
  blocking : Stats
  nonBlocking : Stats
  finished : List Finished
  calls : List (Nat × CallRecord)
  notices : List Notice

end Session

end MediaProxy
