import MediaProxy.Json.Typed
import MediaProxy.Json.Value
import MediaProxy.Text.Quoted

/-!
This module contains references, the names of the objects that live on a media server.
-/

namespace MediaProxy

structure Reference where
  kind : String
  id : String
  deriving DecidableEq, Repr, Inhabited

namespace Reference

def pipelineKind : String := "MediaPipeline"

def pipeline (id : String) : Reference :=
  ⟨pipelineKind, id⟩

def isPipeline (reference : Reference) : Bool :=
  reference.kind == pipelineKind

def text (reference : Reference) : String :=
  reference.kind ++ "#" ++ reference.id

def shown (reference : Reference) : String :=
  Text.record "MediaObjectRef"
    [("kind", Text.quoted reference.kind), ("id", Text.quoted reference.id)]

def before (a b : Reference) : Bool :=
  a.kind < b.kind || (a.kind == b.kind && !(b.id < a.id))

def fields : List Field :=
  [⟨"kind", .text⟩, ⟨"id", .text⟩]

def json (reference : Reference) : String :=
  (Json.Value.object [("kind", .text reference.kind), ("id", .text reference.id)]).compact

def ofJson (input : Json.Symbols) : Except Json.Problem Reference :=
  match Json.document (Json.readRecord fields true) input with
  | .error problem => .error problem
  | .ok members =>
    match members.text? "kind", members.text? "id" with
    | some kind, some id => .ok ⟨kind, id⟩
    | _, _ => .error .mismatch

end Reference

end MediaProxy
