import MediaProxy.Error

/-!
This module contains the configuration of a context, its setters, the rules it has to keep, and its
JSON document.
-/

namespace MediaProxy

/--
How a context reaches its server. Times are in milliseconds.
-/
structure Config where
  handlerAddress : String := "127.0.0.1"
  handlerPort : UInt16 := 9191
  maxConnections : UInt64 := 8
  acquireTimeout : UInt64 := 5000
  keepaliveInterval : UInt64 := 60000
  deriving DecidableEq, Repr

instance : Inhabited Config where
  default := {}

inductive ConfigFault where
  | noConnections
  | noHandler
  | noInterval
  deriving DecidableEq, Repr

def ConfigFault.message : ConfigFault → String
  | .noConnections => "max_connections must be at least 1"
  | .noHandler => "handler_address cannot be empty"
  | .noInterval => "keepalive_interval_ms must be positive"

namespace Config

def fault? (config : Config) : Option ConfigFault :=
  if config.maxConnections = 0 then some .noConnections
  else if config.handlerAddress = "" then some .noHandler
  else if config.keepaliveInterval = 0 then some .noInterval
  else none

def validated (config : Config) : Except Error Config :=
  match config.fault? with
  | some fault => .error (.config fault.message)
  | none => .ok config

def withHandler (config : Config) (address : String) (port : UInt16) : Config :=
  { config with handlerAddress := address, handlerPort := port }

def withMaxConnections (config : Config) (max : UInt64) : Config :=
  { config with maxConnections := max }

/--
Sets how long an acquisition waits. The milliseconds are kept in 64 bits; those beyond are lost.
-/
def withAcquireTimeout (config : Config) (timeout : Span) : Config :=
  { config with acquireTimeout := UInt64.ofNat timeout.millis }

def withKeepaliveInterval (config : Config) (interval : Span) : Config :=
  { config with keepaliveInterval := UInt64.ofNat interval.millis }

def acquireSpan (config : Config) : Span :=
  .ofMillis config.acquireTimeout.toNat

def keepaliveSpan (config : Config) : Span :=
  .ofMillis config.keepaliveInterval.toNat

def shown (config : Config) : String :=
  Text.record "MediaApiConfig"
    [("handler_address", Text.quoted config.handlerAddress),
      ("handler_port", toString config.handlerPort.toNat),
      ("max_connections", toString config.maxConnections.toNat),
      ("acquire_timeout_ms", toString config.acquireTimeout.toNat),
      ("keepalive_interval_ms", toString config.keepaliveInterval.toNat)]

/-!
## Documents
-/

def fields : List Field :=
  [⟨"handler_address", .text⟩, ⟨"handler_port", .natural UInt16.size⟩,
    ⟨"max_connections", .natural UInt64.size⟩, ⟨"acquire_timeout_ms", .natural UInt64.size⟩,
    ⟨"keepalive_interval_ms", .natural UInt64.size⟩]

def ofMembers (members : Members) : Config :=
  let default : Config := {}
  let word (name : String) (otherwise : UInt64) : UInt64 :=
    ((members.natural? name).map UInt64.ofNat).getD otherwise
  { handlerAddress := (members.text? "handler_address").getD default.handlerAddress
    handlerPort := ((members.natural? "handler_port").map UInt16.ofNat).getD default.handlerPort
    maxConnections := word "max_connections" default.maxConnections
    acquireTimeout := word "acquire_timeout_ms" default.acquireTimeout
    keepaliveInterval := word "keepalive_interval_ms" default.keepaliveInterval }

def json (config : Config) : String :=
  (Json.Value.object
    [("handler_address", .text config.handlerAddress),
      ("handler_port", .natural config.handlerPort.toNat),
      ("max_connections", .natural config.maxConnections.toNat),
      ("acquire_timeout_ms", .natural config.acquireTimeout.toNat),
      ("keepalive_interval_ms", .natural config.keepaliveInterval.toNat)]).compact

def ofJson (text : String) : Except Error Config :=
  match Json.document (Json.readRecord fields false) (.ofText text) with
  | .error _ => .error (.config "Invalid JSON")
  | .ok members => (ofMembers members).validated

end Config

end MediaProxy
