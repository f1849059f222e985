import MediaProxy.System.Blocking
import MediaProxy.System.Run

/-!
This module contains what all scenarios share. A scenario is a list of steps that are carried out on
a system one after the other. Each of them is reported together with what happened in the meantime.
-/

namespace MediaProxy

abbrev Named (α : Type) := List (String × α)

namespace Named

def put (named : Named α) (name : String) (thing : α) : Named α :=
  (name, thing) :: named.filter (·.1 ≠ name)

def erase (named : Named α) (name : String) : Named α :=
  named.filter (·.1 ≠ name)

end Named

namespace Scenario

/--
How long a step waits for one thing, in milliseconds.
-/
def patience : Nat := 60000

/--
Of a tick that is due and the end of its scheduler, either may come first. In scenarios it is the
tick.
-/
def tickFirst (_ _ : Nat) : Bool :=
  true

def callsInOrder (calls : List CallRecord) : List CallRecord :=
  calls.mergeSort fun a b => (order a b).isLE
where
  order (a b : CallRecord) : Ordering :=
    (compare a.time b.time).then <|
      (compare a.target.kind b.target.kind).then <|
        (compare a.target.id b.target.id).then <|
          compare a.request.name b.request.name

structure Finished where
  name : String
  time : Nat
  task : TaskId
  result : Except Error Outcome

def finishedInOrder (finished : List Finished) : List Finished :=
  finished.mergeSort fun a b => ((compare a.time b.time).then (compare a.name b.name)).isLE

def happened (before after : System) : List Happening :=
  (after.history.take (after.history.length - before.history.length)).reverse

def calls (happenings : List Happening) : List CallRecord :=
  happenings.filterMap fun
    | .call record => some record
    | _ => none

def finished (happenings : List Happening) : List Finished :=
  finishedInOrder <| happenings.filterMap fun
    | .resolved time task name result => some { name, time, task, result }
    | _ => none

end Scenario

end MediaProxy
