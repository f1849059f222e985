import MediaProxy.Rpc

/-!
This module contains the errors of the library, their texts and their codes.
-/

namespace MediaProxy

inductive Error where
  | transport (cause : RpcError)
  | application (message : String) (code : Int)
  | resourceExhausted (detail : String)
  | unknownObjectKind (detail : String)
  | unknownCommandType (detail : String)
  | released (detail : String)
  | cancelled (detail : String)
  | config (detail : String)
  | serialization (problem : Json.Problem)
  deriving DecidableEq, Repr

namespace Error

def message : Error → String
  | .transport cause => "Transport error: " ++ cause.message
  | .application message code => "Media server error " ++ toString code ++ ": " ++ message
  | .resourceExhausted detail => "Resource exhausted: " ++ detail
  | .unknownObjectKind detail => "Unknown media object kind: " ++ detail
  | .unknownCommandType detail => "Unknown command result type: " ++ detail
  | .released detail => "Media object " ++ detail ++ " has been released"
  | .cancelled detail => "Operation cancelled: " ++ detail
  | .config detail => "Configuration error: " ++ detail
  | .serialization _ => "Serialization error"

def code : Error → Int
  | .transport _ => 30000
  | .application _ code => code
  | .resourceExhausted _ => 30001
  | .unknownObjectKind _ => 30002
  | .unknownCommandType _ => 30002
  | .released _ => 30003
  | .cancelled _ => 30004
  | .config _ => 30005
  | .serialization _ => 30006

/--
The number of errors that led to an error, one causing the next.
-/
def causes : Error → Nat
  | .transport cause => 1 + cause.causes
  | .serialization _ => 1
  | _ => 0

def isTransport : Error → Bool
  | .transport _ => true
  | _ => false

def isApplication : Error → Bool
  | .application .. => true
  | _ => false

def isResourceExhausted : Error → Bool
  | .resourceExhausted _ => true
  | _ => false

def ofRpc : RpcError → Error
  | .server message code => .application message code
  | cause => .transport cause

def abandoned : Error :=
  .cancelled "operation dropped before completion"

end Error

end MediaProxy
