import MediaProxy.System.Step

/-!
This module contains the order in which the steps of a system follow each other. Tasks that have
something to do take turns. When none is left, the time moves on to the next point at which a task
has something to do.
-/

namespace MediaProxy

namespace System

/--
Carries out steps in the order in which tasks found something to do, up to a number of steps. When
`count` more may follow, `tickFirst count` says what comes first of a tick that is due and the end.
-/
def steps (tickFirst : Nat → Bool) : Nat → System → System
  | 0, system => system
  | count + 1, system =>
    match system.ready with
    | [] => system
    | id :: ready => steps tickFirst count ({ system with ready }.step (tickFirst count) id)

/--
Carries out steps until all tasks wait. A task ends after a few steps unless it waits. A scheduler
that is late begins a few rounds at a time, with a task for each object.
-/
def settle (tickFirst : Nat → Bool) (system : System) : System :=
  steps tickFirst (64 * (system.tasks.length + 1) * (system.store.objects.length + 1)) system

def dueTasks (system : System) : List TaskId :=
  let due := system.tasks.filter fun task =>
    !task.foreground && system.reached task.stage.due?
  (due.mergeSort fun a b => a.place ≤ b.place).map (·.id)

def leap (system : System) (limit : Nat) : System :=
  let next := (system.tasks.filterMap (·.stage.due?)).foldl min limit
  let system := { system with now := max (system.now + 1) next }
  system.dueTasks.foldl wake system

/--
Waits until something is there, but not beyond a limit. Whoever waits looks first whenever the time
has moved on, and again when all tasks wait. `tickFirst count` is for the steps after which the time
may move on `count` times.
-/
def await (tickFirst : Nat → Nat → Bool) (look : System → Option α × System) (limit : Nat)
    (system : System) : Option α × System :=
  go (limit - system.now) system
where
  go (count : Nat) (system : System) : Option α × System :=
    match look system with
    | (some found, system) => (some found, system)
    | (none, system) =>
      match count with
      | 0 => (none, system)
      | count + 1 =>
        if limit ≤ system.now || !system.running then (none, system)
        else match look (system.settle (tickFirst count)) with
          | (some found, system) => (some found, system)
          | (none, system) => go count (system.leap limit)

def advance (tickFirst : Nat → Nat → Bool) (system : System) (millis : Nat) : System :=
  let look (system : System) : Option Unit × System := (none, system)
  (system.await tickFirst look (system.now + millis)).2.settle (tickFirst millis)

def look (id : TaskId) (system : System) : Option (Except Error Outcome) × System :=
  match system.collect? id with
  | none => (none, system)
  | some (result, system) => (some result, system)

def awaitTask (tickFirst : Nat → Nat → Bool) (system : System) (limit : Nat) (id : TaskId) :
    Option (Except Error Outcome) × System :=
  match system.await tickFirst (look id) limit with
  | (some result, system) => (some result, system)
  | (none, system) => (none, system.ignore id)

def perform (tickFirst : Nat → Nat → Bool) (system : System) (limit : Nat) (job : Job) :
    TaskId × Option (Except Error Outcome) × System :=
  let (id, system) := system.attend job
  match system.await tickFirst (fun system => look id (system.step false id)) limit with
  | (some result, system) => (id, some result, system)
  | (none, system) => (id, none, system.dropTask id)

def awaitEnd (tickFirst : Nat → Nat → Bool) (system : System) (limit : Nat) (id : TaskId) :
    Bool × System :=
  let look (system : System) : Option Unit × System :=
    (if (system.task? id).isNone then some () else none, system)
  let (ended, system) := system.await tickFirst look limit
  (ended.isSome, system)

end System

end MediaProxy
