import MediaProxy.Command
import MediaProxy.Reference
import MediaProxy.Span

/-!
This module contains what goes over a connection: requests, replies to them, and the ways in which
a call can fail.
-/

namespace MediaProxy

inductive Request where
  | release
  | subscribe (address : String) (port : UInt16)
  | unsubscribe (token : String)
  | sendCommand (command : Command)
  | keepAlive
  | getParent
  | getMediaPipeline
  deriving DecidableEq, Repr

namespace Request

def name : Request → String
  | .release => "release"
  | .subscribe .. => "subscribe"
  | .unsubscribe _ => "unsubscribe"
  | .sendCommand _ => "sendCommand"
  | .keepAlive => "keepAlive"
  | .getParent => "getParent"
  | .getMediaPipeline => "getMediaPipeline"

def shown : Request → String
  | .release => "Release"
  | .subscribe address port =>
    Text.record "Subscribe"
      [("handler_address", Text.quoted address), ("handler_port", toString port.toNat)]
  | .unsubscribe token => Text.record "Unsubscribe" [("token", Text.quoted token)]
  | .sendCommand command => "SendCommand(" ++ command.shown ++ ")"
  | .keepAlive => "KeepAlive"
  | .getParent => "GetParent"
  | .getMediaPipeline => "GetMediaPipeline"

end Request

inductive Reply where
  | unit
  | token (token : String)
  | result (bytes : Bytes)
  | reference (reference : Option Reference)
  deriving DecidableEq, Repr

inductive RpcError where
  | broken (message : String)
  | protocol (message : String)
  | timeout (limit : Span)
  | server (message : String) (code : Int)
  deriving DecidableEq, Repr

namespace RpcError

def message : RpcError → String
  | .broken message => "connection broken: " ++ message
  | .protocol message => "malformed response: " ++ message
  | .timeout limit => "call timed out after " ++ limit.text
  | .server message _ => message

/--
Whether an error leaves its connection unfit for another call. Only a refusal does not.
-/
def isFault : RpcError → Bool
  | .server .. => false
  | _ => true

def causes : RpcError → Nat
  | .broken _ => 1
  | _ => 0

end RpcError

namespace Reply

def shown : Reply → String
  | .unit => "Unit"
  | .token t => "Token(" ++ Text.quoted t ++ ")"
  | .result bytes => "CommandResult(" ++ bytes.quoted ++ ")"
  | .reference r => "Reference(" ++ Text.optional (r.map (·.shown)) ++ ")"

def unexpected (reply : Reply) (request : String) : RpcError :=
  .protocol ("unexpected reply to " ++ request ++ ": " ++ reply.shown)

def toUnit (request : String) : Reply → Except RpcError Unit
  | .unit => .ok ()
  | reply => .error (reply.unexpected request)

def toToken (request : String) : Reply → Except RpcError String
  | .token t => .ok t
  | reply => .error (reply.unexpected request)

def toResult (request : String) : Reply → Except RpcError Bytes
  | .result bytes => .ok bytes
  | reply => .error (reply.unexpected request)

def toReference (request : String) : Reply → Except RpcError (Option Reference)
  | .reference r => .ok r
  | reply => .error (reply.unexpected request)

def toPipeline (request : String) (reply : Reply) : Except RpcError Reference :=
  match reply.toReference request with
  | .error error => .error error
  | .ok (some r) => .ok r
  | .ok none => .error (.protocol (request ++ " returned no pipeline"))

end Reply

end MediaProxy
