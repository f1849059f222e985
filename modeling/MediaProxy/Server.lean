import MediaProxy.Rpc

/-!
This module contains scripted servers: what they answer to a call, how long they take, and how the
opening of a connection to them goes.
-/

namespace MediaProxy

inductive Pace where
  | immediate
  | after (millis : Nat)
  | never
  deriving DecidableEq, Repr

def Pace.due? (now : Nat) : Pace → Option Nat
  | .immediate => some now
  | .after millis => some (now + millis)
  | .never => none

structure ScriptEntry where
  request : Option String
  target : Option Reference
  reply : Except RpcError Reply
  pace : Pace
  times : Option Nat

structure Opening where
  error : Option RpcError
  pace : Pace

structure Server where
  script : List ScriptEntry := []
  /--
  The openings to come. Once they are used up, connections open at once.
  -/
  openings : List Opening := []
  connections : Nat := 0
  tokens : Nat := 0
  deriving Inhabited

namespace ScriptEntry

def answers (entry : ScriptEntry) (target : Reference) (request : Request) : Bool :=
  entry.request.all (· == request.name) && entry.target.all (· == target)

def used (entry : ScriptEntry) : Option ScriptEntry :=
  match entry.times with
  | none => some entry
  | some times => if times ≤ 1 then none else some { entry with times := some (times - 1) }

end ScriptEntry

namespace Server

def unscripted (server : Server) (request : Request) : Reply × Server :=
  match request with
  | .release => (.unit, server)
  | .unsubscribe _ => (.unit, server)
  | .keepAlive => (.unit, server)
  | .subscribe .. =>
    (.token ("tok-" ++ toString (server.tokens + 1)), { server with tokens := server.tokens + 1 })
  | .sendCommand command => (.result command.payload, server)
  | .getParent => (.reference none, server)
  | .getMediaPipeline => (.reference (some (.pipeline "root")), server)

def scripted? (target : Reference) (request : Request) :
    List ScriptEntry → Option (ScriptEntry × List ScriptEntry)
  | [] => none
  | entry :: entries =>
    if entry.answers target request then some (entry, entry.used.toList ++ entries)
    else (scripted? target request entries).map fun (found, rest) => (found, entry :: rest)

def answer (server : Server) (target : Reference) (request : Request) :
    Except RpcError Reply × Pace × Server :=
  match scripted? target request server.script with
  | some (entry, script) => (entry.reply, entry.pace, { server with script })
  | none =>
    let (reply, server) := server.unscripted request
    (.ok reply, .immediate, server)

def nextOpening (server : Server) : Opening × Server :=
  match server.openings with
  | opening :: openings => (opening, { server with openings })
  | [] => (⟨none, .immediate⟩, server)

def connected (server : Server) : Nat × Server :=
  (server.connections + 1, { server with connections := server.connections + 1 })

end Server

end MediaProxy
