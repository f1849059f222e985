import MediaProxy.Proofs.Object.Belonging
import MediaProxy.Proofs.System.Affect

/-!
This module contains the borders between contexts: whatever an operation does on a proxy that a context
has made, it does in this context, and all others stay as they are.
-/

namespace MediaProxy

theorem Store.Effect.aside {before after : Store} {o : ObjectId} {job : Job} {result : Except Error Value}
    (h : before.Effect job result after) (hjob : job.IsOn o) (hsound : before.Sound)
    (htyped : before.Typed) (hbound : before.Bound)
    : before.Aside (before.object o).context after ∧
        ∀ p ∈ proxiesOf result, (after.object p).context = (before.object o).context := by
  have hafter := h.grows.typed htyped
  cases job with
  | operate q operation =>
    obtain rfl : q = o := hjob
    exact ⟨h.operates.aside hsound htyped hbound hafter,
      fun p hp => (h.operates.belongs hsound htyped hbound hafter hp).2⟩
  | ownPipeline q =>
    obtain rfl : q = o := hjob
    cases h with
    | owned =>
      unfold Store.ownPipeline
      dsimp only
      split
      . exact ⟨Store.aside_letGo rfl, nofun⟩
      . refine ⟨?_, ?_⟩
        . unfold Store.hold Store.letGo
          dsimp only
          rw [List.erase_cons_head]
          exact .refl _ before
        . intro p hp
          rw [List.mem_singleton.1 hp]
          rfl
  | _ => cases hjob

namespace System

structure Inside (c : Nat) (before after : System) : Prop where
  link_eq : ∀ d, d ≠ c → after.link d = before.link d
  calls : ∃ records, after.calls = records ++ before.calls ∧ ∀ record ∈ records, record.context = c

inductive Acts (system : System) (o : ObjectId) : Action → Prop where
  | blocking (operation : Operation) : system.Acts o (.operateBlocking o operation)
  | acquires : system.Acts o (.acquireBlocking (system.store.object o).context)
  | calls (flavor : Flavor) (lease : Ticket) (target : Reference) (request : Request) :
    system.Acts o (.call (system.store.object o).context flavor lease target request)
  | marks (flavor : Flavor) (lease : Ticket) :
    system.Acts o (.markBroken (system.store.object o).context flavor lease)
  | returns (flavor : Flavor) (lease : Ticket) :
    system.Acts o (.giveBack (system.store.object o).context flavor lease)
  | concludes (operation : Operation) (outcome : Except RpcError Reply) :
    system.Acts o (.concludeBlocking o operation outcome)
  | spawns {job : Job} (hjob : job.IsOn o) (continuation : Continuation) (name : String) :
    system.Acts o (.spawn job continuation name)
  | attends {job : Job} (hjob : job.IsOn o) : system.Acts o (.attend job)
  | steps {tickFirst : Bool} {id : TaskId} {task : Task} (htask : system.task? id = some task)
    (hjob : task.job.IsOn o) :
    system.Acts o (.step tickFirst id)
  | drops {id : TaskId} {task : Task} (htask : system.task? id = some task)
    (hjob : task.job.IsOn o) :
    system.Acts o (.drop id)

/-!
## Connections and calls
-/

namespace Inside

variable {first second third : System} {c : Nat}

theorem of_links_eq (c : Nat) (hlinks : second.links = first.links)
    (hcalls : second.calls = first.calls) : first.Inside c second := by
  refine ⟨?_, [], hcalls, nofun⟩
  intro d _
  unfold link
  rw [hlinks]

theorem refl (c : Nat) (system : System) : system.Inside c system :=
  .of_links_eq c rfl rfl

theorem trans (h : first.Inside c second) (h' : second.Inside c third) : first.Inside c third := by
  obtain ⟨records, hcalls, hrecords⟩ := h.calls
  obtain ⟨records', hcalls', hrecords'⟩ := h'.calls
  refine ⟨fun d hd => (h'.link_eq d hd).trans (h.link_eq d hd), records' ++ records, ?_, ?_⟩
  . rw [hcalls', hcalls, List.append_assoc]
  . intro record hrecord
    exact (List.mem_append.1 hrecord).elim (hrecords' record) (hrecords record)

end Inside

section
variable (system : System) (c : Nat)

theorem inside_setServer (server : Server) : system.Inside c (system.setServer c server) := by
  refine ⟨?_, [], rfl, nofun⟩
  intro d hd
  rw [link_setServer, if_neg fun h => hd h.1.symm]

theorem inside_setSlots (flavor : Flavor) (slots : Slots)
    : system.Inside c (system.setSlots c flavor slots) := by
  refine ⟨?_, [], rfl, nofun⟩
  intro d hd
  exact (getD_modify _ _ _ _ _).trans (if_neg fun h => hd h.1.symm)

theorem inside_wake (id : TaskId) : system.Inside c (system.wake id) := by
  obtain ⟨ready, hwake, _⟩ := system.wake_eq id
  rw [hwake]
  exact .of_links_eq c rfl rfl

theorem inside_stepSlots (flavor : Flavor) (step : Slots → Option Ticket × Slots)
    : system.Inside c (system.stepSlots c flavor step) := by
  have hslots := system.inside_setSlots c flavor (step (system.slots c flavor)).2
  unfold stepSlots
  dsimp only
  split
  . exact hslots
  . exact hslots.trans (inside_wake _ _ _)

theorem inside_connect (flavor : Flavor) (ticket : Ticket)
    : system.Inside c (system.connect c flavor ticket) :=
  (system.inside_setServer c _).trans (inside_setSlots _ _ _ _)

theorem inside_ask (flavor : Flavor) (lease : Ticket) (target : Reference) (request : Request)
    : system.Inside c (system.ask c flavor lease target request).2.2 := by
  have hserver := system.inside_setServer c ((system.link c).server.answer target request).2.2
  refine ⟨hserver.link_eq, [_], rfl, ?_⟩
  intro record hrecord
  rw [List.mem_singleton.1 hrecord]

theorem inside_judge (flavor : Flavor) (lease : Ticket) (outcome : Except RpcError Reply)
    : system.Inside c (system.judge c flavor lease outcome) := by
  unfold judge
  split
  . exact .refl c system
  . split
    . exact system.inside_setSlots c _ _
    . exact .refl c system

theorem inside_resolve (id : TaskId) (name : String) (continuation : Continuation)
    (result : Except Error Outcome)
    : system.Inside c (system.resolve id name continuation result) :=
  .of_links_eq c (system.links_resolve id name continuation result)
    (system.passes_resolve id name continuation result).calls_eq

theorem inside_openBlocking (ticket : Ticket)
    : system.Inside c (system.openBlocking c ticket).2 := by
  have hopening := system.inside_setServer c (system.link c).server.nextOpening.2
  unfold openBlocking
  dsimp only
  split
  . exact hopening.trans (inside_connect _ _ _ _)
  . dsimp only
    exact hopening.trans (inside_stepSlots _ _ _ _)

theorem inside_acquireBlocking : system.Inside c (system.acquireBlocking c).2 := by
  have hnumber : system.Inside c { system with nextTask := system.nextTask + 1 } :=
    .of_links_eq c rfl rfl
  rw [acquireBlocking_eq]
  dsimp only
  split
  . exact hnumber.trans (inside_setSlots _ _ _ _)
  . exact (hnumber.trans (inside_setSlots _ _ _ _)).trans (inside_openBlocking _ _ _)
  . exact hnumber

end

section
variable {system : System} {c : Nat} {o : ObjectId} {operation : Operation} {task : Task}

theorem inside_conclude (hcontext : (system.store.object o).context = c) (flavor : Flavor)
    (lease : Ticket) (reply : Except RpcError Reply)
    : system.Inside c (system.conclude flavor lease o operation reply).2 := by
  unfold conclude
  dsimp only
  rw [hcontext]
  apply (system.inside_judge c _ _ _).trans
  apply (inside_stepSlots _ c _ _).trans
  exact .of_links_eq c rfl rfl

theorem inside_operateBlocking (hcontext : (system.store.object o).context = c)
    : system.Inside c (system.operateBlocking o operation).2 := by
  unfold operateBlocking
  split
  . exact .of_links_eq c rfl rfl
  . next heq =>
    obtain ⟨rfl, _⟩ := Store.start_asks heq
    have hacquire := system.inside_acquireBlocking c
    have hstore := system.store_acquireBlocking c
    dsimp only
    rw [hcontext]
    generalize system.acquireBlocking c = acquired at hacquire hstore
    obtain ⟨error | lease, after⟩ := acquired
    . exact hacquire
    . dsimp only at hacquire hstore ⊢
      apply (hacquire.trans (after.inside_ask c _ _ _ _)).trans
      apply inside_conclude
      rw [store_ask, hstore]
      exact hcontext

/-!
## The work of a task
-/

theorem inside_ending (hcontext : (system.store.object o).context = c)
    (reply : Except RpcError Reply)
    : system.Inside c (system.workEnding task o operation reply).2 :=
  inside_conclude hcontext _ _ _

theorem inside_calling (hcontext : (system.store.object o).context = c)
    : system.Inside c (system.workCalling task o operation).2 := by
  unfold workCalling
  dsimp only
  rw [hcontext]
  split
  . apply (system.inside_ask c _ _ _ _).trans
    exact inside_ending (by rw [store_ask]; exact hcontext) _
  . exact (system.inside_ask c _ _ _ _).trans (.of_links_eq c rfl rfl)

theorem inside_opened (hcontext : (system.store.object o).context = c) (error : Option RpcError)
    : system.Inside c (system.workOpened task o operation error).2 := by
  subst hcontext
  cases error with
  | none =>
    apply (system.inside_connect _ _ _).trans
    apply inside_calling
    rfl
  | some error => exact system.inside_stepSlots _ .nonBlocking (·.cancelOpening task.id)

theorem inside_opening (hcontext : (system.store.object o).context = c)
    : system.Inside c (system.workOpening task o operation).2 := by
  unfold workOpening
  dsimp only
  rw [hcontext]
  split
  . apply (system.inside_setServer c _).trans
    apply inside_opened
    exact hcontext
  . exact (system.inside_setServer c _).trans (.of_links_eq c rfl rfl)

theorem inside_refused (hcontext : (system.store.object o).context = c)
    : system.Inside c (system.workRefused task o).2 := by
  unfold workRefused
  dsimp only
  rw [hcontext]
  exact system.inside_stepSlots c _ _

theorem inside_granted (hcontext : (system.store.object o).context = c) (deadline : Nat)
    (grant : Grant)
    : system.Inside c (system.workGranted task o operation deadline grant).2 := by
  cases grant with
  | lease => exact inside_calling hcontext
  | opening => exact inside_opening hcontext
  | full =>
    unfold workGranted
    dsimp only
    split
    . exact inside_refused hcontext
    . exact .of_links_eq c rfl rfl

theorem inside_asking (hcontext : (system.store.object o).context = c) (deadline : Nat)
    (ask : Slots → Grant × Slots)
    : system.Inside c (system.workAsking task o operation deadline ask).2 := by
  unfold workAsking
  dsimp only
  rw [hcontext]
  apply (system.inside_setSlots c _ _).trans
  apply inside_granted
  exact hcontext

theorem inside_on (hcontext : (system.store.object o).context = c)
    : system.Inside c (system.workOn task o operation).2 := by
  unfold workOn
  dsimp only
  split
  . split
    . exact .of_links_eq c rfl rfl
    . exact inside_asking hcontext _ _
  . split
    . exact inside_asking hcontext _ _
    . split
      . exact inside_refused hcontext
      . exact .refl c system
  . split
    . exact inside_opened hcontext _
    . exact .refl c system
  . split
    . exact inside_ending hcontext _
    . exact .refl c system
  . exact .refl c system

theorem inside_work (hjob : task.job.IsOn o) (hcontext : (system.store.object o).context = c)
    : system.Inside c (system.work task).2 := by
  unfold work
  split
  . next p operation heq =>
    rw [heq] at hjob
    obtain rfl : p = o := hjob
    exact inside_on hcontext
  . exact .of_links_eq c rfl rfl
  . exact .refl c system

theorem inside_told {progress : Progress} (h : system.Inside c progress.2)
    : system.Inside c (progress.told task) := by
  obtain ⟨_ | result, after⟩ := progress
  . exact h
  . have hremove : after.Inside c (after.removeTask task.id) := .of_links_eq c rfl rfl
    exact (h.trans hremove).trans (inside_resolve _ c _ _ _ _)

theorem contextOf_of_isOn (system : System) {job : Job} (h : job.IsOn o)
    : system.contextOf job = (system.store.object o).context := by
  cases job with
  | operate p operation =>
    obtain rfl : p = o := h
    rfl
  | ownPipeline p =>
    obtain rfl : p = o := h
    rfl
  | _ => cases h

theorem inside_giveUp (hjob : task.job.IsOn o) (hfits : task.Fits)
    (hcontext : (system.store.object o).context = c)
    : system.Inside c (system.giveUp task) := by
  unfold giveUp
  dsimp only
  rw [contextOf_of_isOn system hjob, hcontext]
  split
  . exact system.inside_stepSlots c _ _
  . exact system.inside_stepSlots c _ _
  . exact system.inside_stepSlots c _ _
  . exact .of_links_eq c rfl rfl
  . next hstage => exact absurd hstage (hfits.stage_ne_gathering hjob.isOperation)
  . exact .refl c system

theorem inside_dropTask (h : system.Fitting) {id : TaskId} (htask : system.task? id = some task)
    (hjob : task.job.IsOn o) (hcontext : (system.store.object o).context = c)
    : system.Inside c (system.dropTask id) := by
  have hremoved : system.Inside c ((system.giveUp task).removeTask id) :=
    (inside_giveUp hjob (h id task htask) hcontext).trans (.of_links_eq c rfl rfl)
  unfold dropTask
  rw [htask]
  dsimp only
  split
  . exact hremoved.trans (inside_resolve _ c _ _ _ _)
  . exact hremoved.trans (inside_resolve _ c _ _ _ _)
  . exact hremoved

theorem inside_spawn (system : System) (c : Nat) (job : Job) (continuation : Continuation)
    (name : String)
    : system.Inside c (system.spawn job continuation name).2 := by
  unfold spawn
  dsimp only
  split
  . exact .of_links_eq c rfl rfl
  . have hnumber (after : System) (hlinks : after.links = system.links)
        (hcalls : after.calls = system.calls)
        : system.Inside c (after.resolve system.nextTask name continuation (.error .abandoned)) :=
      (Inside.of_links_eq c hlinks hcalls).trans (inside_resolve _ c _ _ _ _)
    apply hnumber
    . split <;> rfl
    . split <;> rfl

theorem inside_act {action : Action} (h : system.Fitting) (hacts : system.Acts o action)
    : system.Inside (system.store.object o).context (system.act action) := by
  cases hacts with
  | blocking operation => exact inside_operateBlocking rfl
  | acquires => apply inside_acquireBlocking
  | calls flavor lease target request => apply inside_ask
  | marks flavor lease => apply inside_setSlots
  | returns flavor lease => exact system.inside_stepSlots _ flavor (·.giveBack lease)
  | concludes operation outcome => exact .of_links_eq _ rfl rfl
  | spawns hjob continuation name => apply inside_spawn
  | attends hjob => exact .of_links_eq _ rfl rfl
  | @steps tickFirst id task htask hjob =>
    change system.Inside _ (system.step tickFirst id)
    rw [h.step_eq htask hjob.isOperation]
    exact inside_told (inside_work hjob rfl)
  | drops htask hjob => exact inside_dropTask h htask hjob rfl

end

/-!
## What operations share
-/

section
variable {system : System} {c : Nat} {o : ObjectId} {task : Task}

theorem eq_of_lost {continuation : Continuation} {result other : Except Error Outcome}
    (h : (continuation.resolve result).2 = some (.lost other)) : other = result := by
  obtain ⟨handler, resolved⟩ := continuation
  cases resolved with
  | true => cases h
  | false =>
    cases handler with
    | callback => cases h
    | parts => cases result <;> cases h
    | channel kept =>
      cases kept with
      | true => cases h
      | false =>
        cases h
        rfl

theorem aside_resolve (system : System) (id : TaskId) (name : String) (continuation : Continuation)
    {result : Except Error Outcome} (h : ∀ p ∈ heldBy result, (system.store.object p).context = c)
    : system.store.Aside c (system.resolve id name continuation result).store := by
  unfold resolve
  split
  . exact .refl c system.store
  . exact .refl c system.store
  . exact .refl c system.store
  . dsimp only
    split
    . exact .refl c system.store
    . rw [store_wake]
      exact .refl c system.store
  . next heq =>
    rw [eq_of_lost heq]
    exact Store.aside_foldl_letGo h
  . exact .refl c system.store

theorem aside_abandon (system : System) (c : Nat) (id : TaskId) (name : String)
    (continuation : Continuation)
    : system.store.Aside c (system.resolve id name continuation (.error .abandoned)).store :=
  system.aside_resolve id name continuation nofun

theorem aside_finish (task : Task) {result : Except Error Value}
    (h : ∀ p ∈ proxiesOf result, (system.store.object p).context = c)
    : system.store.Aside c (system.finish task (result.map .value)).store := by
  apply (system.removeTask task.id).aside_resolve
  rcases result with error | value <;> exact h

theorem aside_giveUp (hjob : task.job.IsOn o) (hfits : task.Fits)
    : system.store.Aside (system.store.object o).context (system.giveUp task).store := by
  unfold giveUp
  dsimp only
  split
  . rw [store_stepSlots]
    exact .refl _ _
  . rw [store_stepSlots]
    exact .refl _ _
  . rw [store_stepSlots]
    exact .refl _ _
  . next heq =>
    rw [heq] at hjob
    obtain rfl := hjob
    exact Store.aside_letGo rfl
  . next hstage => exact absurd hstage (hfits.stage_ne_gathering hjob.isOperation)
  . exact .refl _ _

theorem aside_dropTask (h : system.Fitting) {id : TaskId} (htask : system.task? id = some task)
    (hjob : task.job.IsOn o)
    : system.store.Aside (system.store.object o).context (system.dropTask id).store := by
  have hgiveUp : system.store.Aside _ (system.giveUp task).store := aside_giveUp hjob (h id task htask)
  unfold dropTask
  rw [htask]
  dsimp only
  split
  . exact hgiveUp.trans (aside_abandon ((system.giveUp task).removeTask id) _ _ _ _)
  . exact hgiveUp.trans (aside_abandon ((system.giveUp task).removeTask id) _ _ _ _)
  . exact hgiveUp

theorem aside_spawn {job : Job} (hjob : job.IsOn o) (continuation : Continuation) (name : String)
    : system.store.Aside (system.store.object o).context
        (system.spawn job continuation name).2.store := by
  unfold spawn
  dsimp only
  split
  . exact .refl _ _
  . split
    . next _ p =>
      obtain rfl : p = o := hjob
      let numbered : System := { system with nextTask := system.nextTask + 1 }
      exact (Store.aside_letGo rfl).trans
        (aside_abandon (numbered.letGo [p]) _ system.nextTask name continuation)
    . let numbered : System := { system with nextTask := system.nextTask + 1 }
      exact aside_abandon numbered _ system.nextTask name continuation

theorem aside_step (h : system.Fitting) (hsound : system.store.Sound) (htyped : system.store.Typed)
    (hbound : system.store.Bound) {id : TaskId} (htask : system.task? id = some task)
    (hjob : task.job.IsOn o) (tickFirst : Bool)
    : system.store.Aside (system.store.object o).context (system.step tickFirst id).store := by
  have hsteps := h.steps htask hjob.isOperation tickFirst
  generalize system.step tickFirst id = after at hsteps
  cases hsteps with
  | idle => exact .refl _ _
  | @parked middle _ _ stage _ _ _ hstore =>
    change system.store.Aside _ middle.store
    rw [hstore]
    exact .refl _ _
  | @ended result middle _ _ heffect =>
    obtain ⟨haside, hbelongs⟩ := heffect.aside hjob hsound htyped hbound
    exact haside.trans (aside_finish task hbelongs)

theorem aside_act {action : Action} (h : system.Fitting) (hsound : system.store.Sound)
    (htyped : system.store.Typed) (hbound : system.store.Bound) (hacts : system.Acts o action)
    : system.store.Aside (system.store.object o).context (system.act action).store := by
  have hinterim (hinterim : action.isInterim)
      : system.store.Aside (system.store.object o).context (system.act action).store := by
    rw [system.store_interim hinterim]
    exact .refl _ _
  cases hacts with
  | blocking operation =>
    have heffect := effect_operateBlocking system o operation
    exact (heffect.aside rfl hsound htyped hbound).1
  | concludes operation outcome =>
    have heffect : system.store.Effect (.operate o operation) _ _ := .concluded o operation outcome
    exact (heffect.aside rfl hsound htyped hbound).1
  | spawns hjob continuation name => exact aside_spawn hjob continuation name
  | attends hjob => exact .refl _ _
  | steps htask hjob => exact aside_step h hsound htyped hbound htask hjob _
  | drops htask hjob => exact aside_dropTask h htask hjob
  | _ => exact hinterim rfl

end

/-!
## Runs
-/

def InContexts (system : System) : Action → Prop
  | .share move => move.InContexts system.store
  | _ => True

/--
A proxy that was obtained from a context: the context resolved it, or an operation on another one that was
obtained from the context fetched it.
-/
inductive Obtained (start : System) (c : Nat) : List Action → ObjectId → Prop where
  | resolved {f : Nat} {reference : Reference} {actions : List Action} {p : ObjectId}
    (h : ((start.after actions).store.resolve f c reference).1 = .ok p) :
    start.Obtained c (.share (.resolve f c reference) :: actions) p
  | resolvedAs {f : Nat} {reference : Reference} {type : ProxyClass} {actions : List Action}
    {p : ObjectId} (h : ((start.after actions).store.resolveAs f c reference type).1 = .ok p) :
    start.Obtained c (.share (.resolveAs f c reference type) :: actions) p
  | fetched {action : Action} {actions : List Action} {o p : ObjectId} {fetch : Operation}
    {value : Value} (h : start.Obtained c actions o)
    (hreturns : (start.after actions).Returns o fetch action (.ok value)) (hp : p ∈ value.held) :
    start.Obtained c (action :: actions) p
  | later {action : Action} {actions : List Action} {p : ObjectId}
    (h : start.Obtained c actions p) :
    start.Obtained c (action :: actions) p

structure Bordered (system : System) : Prop where
  sound : system.Sound
  typed : system.store.Typed
  fitting : system.Fitting
  bound : system.store.Bound

structure Spares (before : System) (c : Nat) (after : System) : Prop where
  link_eq : after.link c = before.link c
  factory_eq : after.store.factory (before.store.context c).factory =
    before.store.factory (before.store.context c).factory
  lookup?_eq : ∀ reference, after.store.lookup? (before.store.context c).factory reference =
    before.store.lookup? (before.store.context c).factory reference
  object_eq : ∀ o, o < before.store.objects.length → (before.store.object o).context = c →
    after.store.object o = before.store.object o
  object_old : ∀ o, o < after.store.objects.length → (after.store.object o).context = c →
    o < before.store.objects.length

/--
What contexts promise, however many there are and whatever they share. Each keeps track of its own
proxies only, under their references, of the types of their kinds, and of none that was released. What is
obtained from a context belongs to it, and operations on that call its server alone and leave all other
contexts as they are.
-/
structure Isolation (start : System) : Prop where
  tracked : ∀ actions, start.Obeys InContexts actions →
    ∀ c, c < (start.after actions).store.contexts.length → ∀ f,
    f = ((start.after actions).store.context c).factory → ∀ reference o,
    (reference, o) ∈ ((start.after actions).store.factory f).tracked →
    ((start.after actions).store.object o).reference = reference ∧
    ((start.after actions).store.object o).context = c ∧
    ((start.after actions).store.object o).released = false ∧
    (start.after actions).store.knownType? f reference =
      some ((start.after actions).store.object o).type
  belongs : ∀ actions, start.Obeys InContexts actions → ∀ c o, start.Obtained c actions o →
    o < (start.after actions).store.objects.length ∧
    ((start.after actions).store.object o).context = c
  apart : ∀ action actions, start.Obeys InContexts (action :: actions) →
    ∀ c o, start.Obtained c actions o → (start.after actions).Acts o action →
    (∃ records, (start.after (action :: actions)).calls = records ++ (start.after actions).calls ∧
      ∀ record ∈ records, record.context = c) ∧
    ∀ d, d < (start.after actions).store.contexts.length → d ≠ c →
      (start.after actions).Spares d (start.after (action :: actions))

section
variable {system start : System} {action : Action} {actions : List Action} {c : Nat} {o : ObjectId}

theorem Bordered.act (h : system.Bordered) (hadmits : system.Admits action)
    (hcontexts : system.InContexts action) : (system.act action).Bordered := by
  refine ⟨h.sound.changes (changes_act hadmits), (changes_act hadmits).typed h.sound h.typed,
    h.fitting.act hadmits, ?_⟩
  have haffects := affects_act h.fitting hadmits
  generalize (system.act action).store = after at haffects
  cases haffects with
  | sheds hsheds => exact h.bound.sheds hsheds
  | operates _ hoperates hsheds =>
    exact (h.bound.operates h.sound.store h.typed hoperates).sheds hsheds
  | shares move => exact h.bound.perform h.typed hadmits hcontexts
  | builds builder =>
    rcases system.founds_build builder with heq | ⟨context, hfounds⟩
    . rw [heq]
      exact h.bound
    . obtain ⟨kinds, hfactories⟩ := hfounds.factories
      exact h.bound.add h.typed hfounds.contexts hfounds.objects hfounds.factory hfactories

theorem Bordered.after (h : start.Bordered) (hobeys : start.Obeys InContexts actions)
    : (start.after actions).Bordered := by
  induction actions with
  | nil => exact h
  | cons action actions ih => exact (ih hobeys.tail).act hobeys.head.1 hobeys.head.2

theorem Obtained.belongs (h : start.Bordered) (hobtained : start.Obtained c actions o)
    (hobeys : start.Obeys InContexts actions)
    : o < (start.after actions).store.objects.length ∧
        ((start.after actions).store.object o).context = c := by
  induction hobtained with
  | @resolved f reference actions p hresolve =>
    have hbefore := h.after hobeys.tail
    obtain rfl : f = _ := hobeys.head.2
    exact Store.belongs_resolve hbefore.typed hbefore.bound hobeys.head.1 hresolve
  | @resolvedAs f reference type actions p hresolve =>
    have hbefore := h.after hobeys.tail
    obtain rfl : f = _ := hobeys.head.2
    exact Store.belongs_resolveAs hbefore.typed hbefore.bound hobeys.head.1 hresolve
  | @fetched action actions o p fetch value _ hreturns hp ih =>
    have hbefore := h.after hobeys.tail
    obtain ⟨_, hcontext⟩ := ih hobeys.tail
    obtain ⟨middle, hoperates, hgrows, hsheds⟩ := hreturns.operates hbefore.fitting
    obtain ⟨hlt, hbelongs⟩ := hoperates.belongs hbefore.sound.store hbefore.typed hbefore.bound
      (hgrows.typed hbefore.typed) hp
    have hobjects : (start.after (action :: actions)).store.objects = middle.objects :=
      hsheds.objects_eq
    unfold Store.object
    rw [hobjects]
    exact ⟨hlt, hbelongs.trans hcontext⟩
  | later _ ih =>
    obtain ⟨hlt, hcontext⟩ := ih hobeys.tail
    have hgrows := (changes_act hobeys.head.1).grows
    exact ⟨Nat.lt_of_lt_of_le hlt hgrows.length_objects_le,
      (hgrows.ages _ hlt).context_eq.trans hcontext⟩

theorem Bordered.spares (h : system.Bordered) (hacts : system.Acts o action) {d : Nat}
    (hd : d < system.store.contexts.length) (hne : d ≠ (system.store.object o).context)
    : system.Spares d (system.act action) := by
  have hinside := inside_act h.fitting hacts
  have haside := aside_act h.fitting h.sound.store h.typed h.bound hacts
  have hc := h.sound.store.object_context_lt o
  refine ⟨hinside.link_eq d hne, ?_, ?_, ?_, ?_⟩
  . apply haside.factory_eq
    exact fun heq => hne (h.bound.factory_inj d _ hd hc heq)
  . exact haside.lookup?_eq h.bound h.typed hc hd hne
  . intro p hp hcontext
    apply haside.object_eq p hp
    rw [hcontext]
    exact hne
  . intro p hp hcontext
    apply Nat.lt_of_not_le
    intro hle
    exact hne (hcontext.symm.trans (haside.object_new p hle hp))

theorem isolation_of_bordered (start : System) (h : start.Bordered) : start.Isolation := by
  refine ⟨?_, ?_, ?_⟩
  . rintro actions hobeys c hc _ rfl reference o hmem
    have hafter := h.after hobeys
    obtain ⟨_, hreference, htype⟩ := hafter.typed.tracked _ reference o hmem
    obtain ⟨hcontext, hreleased⟩ := hafter.bound.tracked c hc _ hmem
    exact ⟨hreference, hcontext, hreleased, htype⟩
  . exact fun actions hobeys c o hobtained => hobtained.belongs h hobeys
  . intro action actions hobeys c o hobtained hacts
    have hbefore := h.after hobeys.tail
    obtain ⟨_, rfl⟩ := hobtained.belongs h hobeys.tail
    exact ⟨(inside_act hbefore.fitting hacts).calls, fun d hd hne => hbefore.spares hacts hd hne⟩

end

-- Two contexts that share everything that contexts can share.
def paired : System :=
  ((({} : System).build {}).2.build
    { registry := some 0, kinds := some 0, decoders := some 0 }).2

theorem bordered_paired : paired.Bordered := by
  refine ⟨⟨⟨by decide, ?_⟩, rfl, ?_⟩, ⟨?_, ?_, ?_⟩, ?_, ⟨?_, ?_⟩⟩
  . intro object hobject
    cases hobject
  . intro task htask
    cases htask
  . intro c
    rcases c with _ | _ | c
    . exact Nat.two_pos
    . exact Nat.one_lt_two
    . exact Nat.two_pos
  . intro f reference o hmem
    rcases f with _ | _ | f <;> cases hmem
  . intro o fetch fetched hknown
    cases fetch <;> cases hknown
  . intro id task htask
    cases htask
  . intro c d hc hd heq
    change c < 2 at hc
    change d < 2 at hd
    obtain rfl | rfl : c = 0 ∨ c = 1 := by omega
    all_goals obtain rfl | rfl : d = 0 ∨ d = 1 := by omega
    all_goals first | rfl | cases heq
  . intro c _ entry hentry
    rcases c with _ | _ | c <;> cases hentry

-- The pipeline of one name is resolved in both contexts. The second one is asked for its parent.
def crossing : List Action :=
  [.operateBlocking 1 .getParent, .share (.resolve 1 1 (.pipeline "p")),
    .share (.resolve 0 0 (.pipeline "p"))]

theorem isolation_paired
    : paired.Bordered ∧ paired.Isolation ∧ paired.Obeys InContexts crossing ∧
      paired.Obtained 1 (crossing.drop 1) 1 ∧
      (paired.after crossing).store.lookup? 0 (.pipeline "p") = some 0 ∧
      (paired.after crossing).store.lookup? 1 (.pipeline "p") = some 1 ∧
      (paired.after crossing).calls.map (·.context) = [1] := by
  refine ⟨bordered_paired, isolation_of_bordered paired bordered_paired, ?_, .resolved rfl, rfl, rfl,
    rfl⟩
  refine Obeys.cons ?_ trivial trivial
  refine Obeys.cons ?_ Nat.one_lt_two rfl
  exact Obeys.cons (.nil paired InContexts) Nat.two_pos rfl

end System

end MediaProxy
