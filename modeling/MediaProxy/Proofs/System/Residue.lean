import MediaProxy.Proofs.Object.Residue
import MediaProxy.Proofs.System.Identity
import MediaProxy.Proofs.System.Release
import MediaProxy.Scenario.Application

/-!
This module contains what contexts keep track of after a resolution or an operation that failed: what they did
before, but for the reference of a proxy of the wrong type that was made on the way.
-/

namespace MediaProxy

theorem Store.Effect.remains {before after : Store} (htyped : before.Typed) {o : ObjectId}
    {operation : Operation} {error : Error}
    (h : before.Effect (.operate o operation) (.error error) after)
    : before.Remains (before.homeOf o) error after := by
  generalize hresult : (Except.error error : Except Error Value) = result at h
  cases h with
  | answered hstart =>
    subst hresult
    exact remains_start hstart
  | failed _ _ cause => exact .nothing _
  | concluded _ _ outcome => exact htyped.remains_conclude (Prod.ext hresult.symm rfl)

theorem Store.Effect.of_own {before after : Store} {o : ObjectId} {error : Error}
    (h : before.Effect (.ownPipeline o) (.error error) after) : after = before.letGo o := by
  generalize hresult : (Except.error error : Except Error Value) = result at h
  cases h with
  | owned =>
    have hpair : before.ownPipeline o = (.error error, (before.ownPipeline o).2) :=
      Prod.ext hresult.symm rfl
    rw [ownPipeline_error hpair]

namespace System

section
variable {system start : System} {id : TaskId} {o : ObjectId} {operation : Operation} {error : Error}

/-!
## Tasks
-/

theorem store_spawn_operate (system : System) (o : ObjectId) (operation : Operation)
    (continuation : Continuation) (name : String)
    : (system.spawn (.operate o operation) continuation name).2.store = system.store := by
  unfold spawn
  dsimp only
  split
  . rfl
  . apply store_resolve_error

theorem store_dropTask (h : system.Enlisted id (.operate o operation))
    : (system.dropTask id).store = system.store := by
  unfold dropTask
  split
  . rfl
  . next task htask =>
    obtain ⟨hjob, hfits⟩ := h.task task htask
    have hgiveUp : (system.giveUp task).store = system.store := by
      unfold giveUp
      rw [hjob]
      split
      . apply store_stepSlots
      . apply store_stepSlots
      . apply store_stepSlots
      . next hown => cases hown
      . next hstage =>
        exact absurd hstage (hfits.stage_ne_gathering (by rw [hjob]; rfl))
      . rfl
    rw [hjob]
    exact (store_resolve_error ((system.giveUp task).removeTask id) _ _ _ _).trans hgiveUp

theorem store_dropTask_own (h : system.Enlisted id (.ownPipeline o))
    : (system.dropTask id).store = system.store ∨
        (system.dropTask id).store = system.store.letGo o := by
  unfold dropTask
  split
  . exact .inl rfl
  . next task htask =>
    obtain ⟨hjob, hfits⟩ := h.task task htask
    have hgiveUp : (system.giveUp task).store = system.store ∨
        (system.giveUp task).store = system.store.letGo o := by
      unfold giveUp
      rw [hjob]
      split
      . exact .inl (store_stepSlots _ _ _ _)
      . exact .inl (store_stepSlots _ _ _ _)
      . exact .inl (store_stepSlots _ _ _ _)
      . next hown =>
        cases hown
        exact .inr rfl
      . next hstage =>
        exact absurd hstage (hfits.stage_ne_gathering (by rw [hjob]; rfl))
      . exact .inl rfl
    rw [hjob]
    have hresolve := store_resolve_error ((system.giveUp task).removeTask id) id task.name
      task.continuation .abandoned
    exact hgiveUp.imp hresolve.trans hresolve.trans

theorem remains_step (h : system.Enlisted id (.operate o operation)) (htyped : system.store.Typed)
    {task : Task} (htask : system.task? id = some task)
    (hfails : ∀ result, (system.work task).1 = some result → result = .error error) (tickFirst : Bool)
    : system.store.Remains (system.store.homeOf o) error (system.step tickFirst id).store := by
  have hsteps := h.steps rfl htask tickFirst
  have hjob := (h.task task htask).1
  generalize system.step tickFirst id = after at hsteps
  cases hsteps with
  | idle => exact .nothing error
  | @parked middle _ _ stage _ _ _ hstore =>
    change system.store.Remains _ _ middle.store
    rw [hstore]
    exact .nothing error
  | @ended result middle hwork _ heffect =>
    obtain rfl := hfails result hwork
    rw [hjob] at heffect
    have hstore := middle.store_finish_error task error
    change system.store.Remains _ _ (middle.finish task (.error error)).store
    rw [hstore]
    exact heffect.remains htyped

theorem step_own (h : system.Enlisted id (.ownPipeline o)) {task : Task}
    (htask : system.task? id = some task)
    (hfails : ∀ result, (system.work task).1 = some result → result = .error error) (tickFirst : Bool)
    : (system.step tickFirst id).store = system.store ∨
        (system.step tickFirst id).store = system.store.letGo o := by
  have hsteps := h.steps rfl htask tickFirst
  have hjob := (h.task task htask).1
  generalize system.step tickFirst id = after at hsteps
  cases hsteps with
  | idle => exact .inl rfl
  | parked _ _ _ _ hstore => exact .inl hstore
  | @ended result middle hwork _ heffect =>
    obtain rfl := hfails result hwork
    rw [hjob] at heffect
    right
    change (middle.finish task (.error error)).store = _
    rw [middle.store_finish_error task error, heffect.of_own]

end

/-!
## Both forms
-/

def Action.isTurnOf (id : TaskId) : Action → Prop
  | .step _ other => other = id
  | .drop other => other = id
  | _ => False

/--
What resolutions and operations promise that fail, whether they block, block and are interrupted, or do not
block: they leave what the context keeps track of as it was, but for the reference of a proxy of the wrong
type, which was not kept track of if no proxy was made for it before. An operation that gives back the own
proxy of a pipeline gives up its hold on it, and changes nothing else.
-/
structure FailsTidily (system : System) : Prop where
  resolve : ∀ f c reference error after,
    system.store.resolve f c reference = (.error error, after) → after = system.store
  resolveAs : ∀ f c reference type error after,
    system.store.resolveAs f c reference type = (.error error, after) →
    system.store.Tidy f error after ∧
    (f < system.store.factories.length → system.store.Misfits f reference type →
      reference ∈ after.references f)
  blocking : ∀ o operation error after,
    system.operateBlocking o operation = (.error error, after) →
    system.store.Tidy (system.store.homeOf o) error after.store
  interim : ∀ action : Action, action.isInterim → (system.act action).store = system.store
  interrupted : ∀ o operation outcome error after,
    system.store.conclude o operation outcome = (.error error, after) →
    system.store.Tidy (system.store.homeOf o) error after
  blockingOwn : ∀ o error after,
    system.store.ownPipeline o = (.error error, after) → after = system.store
  spawn : ∀ o operation continuation name,
    (system.spawn (.operate o operation) continuation name).2.store = system.store
  nonBlocking : ∀ o operation continuation name id start,
    system.spawn (.operate o operation) continuation name = (id, start) →
    ∀ actions error, start.Obeys Clones actions → start.Ends id actions (.error error) →
    ∀ action earlier, action :: earlier <:+ actions → action.isTurnOf id →
    (start.after earlier).store.Tidy ((start.after earlier).store.homeOf o) error
      (start.after (action :: earlier)).store
  nonBlockingOwn : ∀ o continuation name id start,
    system.spawn (.ownPipeline o) continuation name = (id, start) →
    ∀ actions error, Legal start actions → start.Ends id actions (.error error) →
    ∀ action earlier, action :: earlier <:+ actions → action.isTurnOf id →
    (start.after (action :: earlier)).store = (start.after earlier).store ∨
    (start.after (action :: earlier)).store = (start.after earlier).store.letGo o

section
variable {system start : System} {id : TaskId} {actions earlier : List Action} {action : Action}
  {o : ObjectId} {error : Error}

theorem Ends.tidy {operation : Operation} (h : start.Enlisted id (.operate o operation))
    (htended : start.Tended) (hobeys : start.Obeys Clones actions)
    (hends : start.Ends id actions (.error error)) (hsuffix : action :: earlier <:+ actions)
    (hturn : action.isTurnOf id)
    : (start.after earlier).store.Tidy ((start.after earlier).store.homeOf o) error
        (start.after (action :: earlier)).store := by
  have hthen := hobeys.of_suffix ((List.suffix_cons _ _).trans hsuffix)
  have htendedThen := htended.after hthen
  have henlisted := h.after hthen.legal
  apply Store.Remains.tidy _ htendedThen.neat
  cases action with
  | step tickFirst other =>
    obtain rfl : other = id := hturn
    change Store.Remains _ _ _ ((start.after earlier).step tickFirst other).store
    cases htask : (start.after earlier).task? other with
    | none =>
      unfold step
      rw [htask]
      exact .nothing error
    | some task =>
      apply remains_step henlisted htendedThen.typed htask
      exact fun result hwork => hends.result_eq h rfl hobeys.legal hsuffix htask hwork
  | drop other =>
    obtain rfl : other = id := hturn
    have hstore : (start.after (.drop other :: earlier)).store = (start.after earlier).store :=
      store_dropTask henlisted
    rw [hstore]
    exact .nothing error
  | _ => cases hturn

theorem Ends.own (h : start.Enlisted id (.ownPipeline o)) (hlegal : Legal start actions)
    (hends : start.Ends id actions (.error error)) (hsuffix : action :: earlier <:+ actions)
    (hturn : action.isTurnOf id)
    : (start.after (action :: earlier)).store = (start.after earlier).store ∨
        (start.after (action :: earlier)).store = (start.after earlier).store.letGo o := by
  have henlisted := h.after (hlegal.of_suffix ((List.suffix_cons _ _).trans hsuffix))
  cases action with
  | step tickFirst other =>
    obtain rfl : other = id := hturn
    cases htask : (start.after earlier).task? other with
    | none =>
      left
      change ((start.after earlier).step tickFirst other).store = _
      unfold step
      rw [htask]
    | some task =>
      exact step_own henlisted htask
        (fun result hwork => hends.result_eq h rfl hlegal hsuffix htask hwork) tickFirst
  | drop other =>
    obtain rfl : other = id := hturn
    exact store_dropTask_own henlisted
  | _ => cases hturn

theorem failsTidily_of_tended (start : System) (h : start.Tended) (actions : List Action)
    (hobeys : start.Obeys Clones actions) : (start.after actions).FailsTidily := by
  have htended := h.after hobeys
  generalize start.after actions = system at htended
  refine ⟨?_, ?_, ?_, fun action => system.store_interim, ?_, ?_, system.store_spawn_operate, ?_, ?_⟩
  . exact fun f c reference error after => Store.resolve_error
  . intro f c reference type error after hresolve
    exact ⟨(Store.remains_resolveAs hresolve).tidy htended.neat,
      fun hf hmisfits => hmisfits.mem_references hf hresolve⟩
  . intro o operation error after hresult
    have heffect := effect_operateBlocking system o operation
    rw [hresult] at heffect
    exact (heffect.remains htended.typed).tidy htended.neat
  . intro o operation outcome error after hresult
    exact (htended.typed.remains_conclude hresult).tidy htended.neat
  . exact fun o error after => Store.ownPipeline_error
  . intro o operation continuation name id start hspawn actions error hobeys hends action earlier
      hsuffix hturn
    have hadmits : system.Admits (.spawn (.operate o operation) continuation name) := trivial
    have hstart : (system.spawn (.operate o operation) continuation name).2.Tended :=
      htended.act hadmits trivial
    rw [hspawn] at hstart
    exact hends.tidy (htended.sound.enlisted hspawn) hstart hobeys hsuffix hturn
  . intro o continuation name id start hspawn actions error hlegal hends action earlier hsuffix hturn
    exact hends.own (htended.sound.enlisted hspawn) hlegal hsuffix hturn

end

-- The pipeline is asked for as a player, and so is one that nobody has a proxy of.
theorem failsTidily_furnished
    : furnished.Tended ∧ furnished.Obeys Clones [] ∧ (furnished.after []).FailsTidily ∧
      furnished.store.resolveAs 0 0 (.pipeline "p") ProxyType.player.toClass =
        (.error (Store.misfitError (.pipeline "p") ProxyType.player.toClass), furnished.store) ∧
      (furnished.store.resolveAs 0 0 (.pipeline "q") ProxyType.player.toClass).2.references 0 =
        [.pipeline "p", .pipeline "q"] :=
  ⟨tended_furnished, .nil furnished Clones,
    failsTidily_of_tended furnished tended_furnished [] (.nil furnished Clones), rfl, rfl⟩

/--
A resolution that failed is kept track of.
-/
theorem untidy_furnished
    : ¬∀ actions, furnished.Obeys Clones actions → ∀ f c reference type error after,
        (furnished.after actions).store.resolveAs f c reference type = (.error error, after) →
        after.references f = (furnished.after actions).store.references f := by
  intro hall
  have hsame := hall [] (.nil furnished Clones) 0 0 (.pipeline "q") ProxyType.player.toClass _ _ rfl
  revert hsame
  decide

end System

end MediaProxy
