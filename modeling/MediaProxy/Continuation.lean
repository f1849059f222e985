import MediaProxy.Error

/-!
This module contains continuations, which take the result of an operation once. A continuation that
is dropped before it is resolved takes a cancellation.
-/

namespace MediaProxy

inductive Handler where
  | callback
  | parts
  | channel (kept : Bool)
  deriving DecidableEq, Repr

inductive Reaction (α : Type) where
  | called (result : Except Error α)
  | succeeded (value : α)
  | failed (error : Error)
  | delivered (result : Except Error α)
  | lost (result : Except Error α)

structure Continuation where
  handler : Handler
  resolved : Bool := false
  deriving DecidableEq, Repr

namespace Handler

def react (result : Except Error α) : Handler → Reaction α
  | .callback => .called result
  | .parts =>
    match result with
    | .ok value => .succeeded value
    | .error error => .failed error
  | .channel kept => if kept then .delivered result else .lost result

end Handler

namespace Continuation

def resolve (continuation : Continuation) (result : Except Error α) :
    Continuation × Option (Reaction α) :=
  if continuation.resolved then (continuation, none)
  else ({ continuation with resolved := true }, some (continuation.handler.react result))

def drop (continuation : Continuation) : Continuation × Option (Reaction α) :=
  continuation.resolve (.error .abandoned)

def shown (continuation : Continuation) : String :=
  Text.record "Continuation" [("resolved", Text.bool continuation.resolved)]

theorem resolve_resolve (continuation : Continuation) (first second : Except Error α) :
    ((continuation.resolve first).1.resolve second).2 = none := by
  unfold resolve
  split <;> simp_all

end Continuation

end MediaProxy
