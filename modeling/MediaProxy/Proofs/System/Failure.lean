import MediaProxy.Proofs.Object.Failure
import MediaProxy.Proofs.System.Dispatch
import MediaProxy.Proofs.System.Work

/-!
This module contains operations that fail. Whatever they did until then, nobody can notice it: no object
was released or came to know anything, and every listener is where it was.
-/

namespace MediaProxy

theorem Store.Effect.spares {before after : Store} {job : Job} {error : Error}
    (h : before.Effect job (.error error) after) : before.Spares after := by
  generalize hresult : (Except.error error : Except Error Value) = result at h
  cases h with
  | @answered o operation _ _ hstart =>
    have hspares := before.spares_start o operation
    rw [hstart] at hspares
    exact hspares
  | failed => exact .refl before
  | concluded o operation outcome => exact spares_conclude (Prod.ext hresult.symm rfl)
  | owned o => exact (before.spares_ownPipeline o).trans (spares_letGo _ _)

namespace System

section
variable (system : System)

/-!
## Tasks that end
-/

theorem spares_resolve (id : TaskId) (name : String) (continuation : Continuation)
    (result : Except Error Outcome)
    : system.store.Spares (system.resolve id name continuation result).store := by
  rcases system.resolve_cases id name continuation result with
    ⟨said, hsaid, hresolve | ⟨waiter, hresolve⟩⟩ | ⟨proxies, hresolve⟩
  . rw [hresolve, hsaid.same.store_eq]
    exact .refl system.store
  . rw [hresolve, store_wake, hsaid.same.store_eq]
    exact .refl system.store
  . rw [hresolve]
    apply Store.spares_foldl_letGo

theorem spares_ignore (id : TaskId) : system.store.Spares (system.ignore id).store := by
  unfold ignore
  dsimp only
  split
  . exact .refl system.store
  . apply Store.spares_foldl_letGo

theorem spares_foldl_ignore (ids : List TaskId)
    : system.store.Spares (ids.foldl ignore system).store := by
  induction ids generalizing system with
  | nil => exact .refl system.store
  | cons id ids ih => exact (system.spares_ignore id).trans (ih _)

theorem spares_giveUp (task : Task) : system.store.Spares (system.giveUp task).store := by
  have hslots (c : Nat) (step : Slots → Option Ticket × Slots)
      : system.store.Spares (system.stepSlots c .nonBlocking step).store := by
    rw [store_stepSlots]
    exact .refl system.store
  unfold giveUp
  dsimp only
  split
  . apply hslots
  . apply hslots
  . apply hslots
  . apply Store.spares_foldl_letGo
  . apply spares_foldl_ignore
  . exact .refl system.store

theorem spares_dropTask (id : TaskId) : system.store.Spares (system.dropTask id).store := by
  unfold dropTask
  split
  . exact .refl system.store
  . next task _ =>
    have hgiveUp := system.spares_giveUp task
    dsimp only
    split
    . exact hgiveUp.trans (spares_resolve ((system.giveUp task).removeTask id) _ _ _ _)
    . exact hgiveUp.trans (spares_resolve ((system.giveUp task).removeTask id) _ _ _ _)
    . exact hgiveUp

theorem spares_shutdown : system.store.Spares system.shutdown.store := by
  apply shutdown_induction (motive := fun middle => system.store.Spares middle.store)
  . exact .refl system.store
  . exact fun id middle h => h.trans (middle.spares_dropTask id)
  . exact fun _ h => h

theorem spares_spawn (job : Job) (continuation : Continuation) (name : String)
    : system.store.Spares (system.spawn job continuation name).2.store := by
  unfold spawn
  dsimp only
  split
  . exact .refl system.store
  . split
    . next o =>
      exact (Store.spares_foldl_letGo system.store [o]).trans
        (spares_resolve ({ system with nextTask := system.nextTask + 1 }.letGo [o]) _ _ _ _)
    . apply spares_resolve { system with nextTask := system.nextTask + 1 }

end

section
variable {system start : System} {id : TaskId} {job : Job}

theorem spares_step (h : system.Enlisted id job) (hjob : job.isOperation) {task : Task}
    (htask : system.task? id = some task)
    (hfails : ∀ result, (system.work task).1 = some result → ∃ error, result = .error error)
    (tickFirst : Bool) : system.store.Spares (system.step tickFirst id).store := by
  have hsteps := h.steps hjob htask tickFirst
  generalize system.step tickFirst id = after at hsteps
  cases hsteps with
  | idle => exact .refl system.store
  | @parked middle _ _ stage _ _ _ hstore =>
    change system.store.Spares middle.store
    rw [hstore]
    exact .refl system.store
  | @ended result middle hwork _ heffect =>
    obtain ⟨error, rfl⟩ := hfails result hwork
    exact heffect.spares.trans (spares_resolve (middle.removeTask task.id) _ _ _ _)

def Action.concerns (id : TaskId) : Action → Prop
  | .step _ other => other = id
  | .drop other => other = id
  | .shutdown => True
  | _ => False

theorem Ends.result_eq (h : start.Enlisted id job) (hjob : job.isOperation)
    {actions : List Action} {result result' : Except Error Value} (hlegal : Legal start actions)
    (hends : start.Ends id actions result) {tickFirst : Bool} {earlier : List Action}
    (hsuffix : .step tickFirst id :: earlier <:+ actions) {task : Task}
    (htask : (start.after earlier).task? id = some task)
    (hwork : ((start.after earlier).work task).1 = some result') : result' = result := by
  have hearlier := hlegal.of_suffix hsuffix
  have henlisted := h.after hearlier.1
  obtain ⟨later, rfl⟩ := hsuffix
  cases later with
  | nil =>
    cases hends with
    | ran htask' hwork' =>
      cases htask.symm.trans htask'
      exact Option.some.inj (hwork.symm.trans hwork')
  | cons action later =>
    have hran : start.Ends id (.step tickFirst id :: earlier) result' := .ran htask hwork
    have hgone := hran.gone h hjob hearlier
    have hgrows := hlegal.1.grows_of_suffix (List.suffix_append later _)
    obtain ⟨task', htask'⟩ := hends.alive
    have hnone := hgrows.ended id (h.after hearlier).id_lt hgone
    cases hnone.symm.trans htask'

theorem Ends.spares (h : start.Enlisted id job) (hjob : job.isOperation) {actions : List Action}
    {error : Error} (hlegal : Legal start actions) (hends : start.Ends id actions (.error error))
    {action : Action} {earlier : List Action} (hsuffix : action :: earlier <:+ actions)
    (hconcerns : action.concerns id)
    : (start.after earlier).store.Spares (start.after (action :: earlier)).store := by
  cases action with
  | step tickFirst other =>
    obtain rfl : other = id := hconcerns
    have henlisted := h.after (hlegal.of_suffix hsuffix).1
    change (start.after earlier).store.Spares ((start.after earlier).step tickFirst other).store
    cases htask : (start.after earlier).task? other with
    | none =>
      unfold step
      rw [htask]
      exact .refl _
    | some task =>
      apply spares_step henlisted hjob htask
      intro result hwork
      exact ⟨error, hends.result_eq h hjob hlegal hsuffix htask hwork⟩
  | drop other => apply spares_dropTask
  | shutdown => apply spares_shutdown
  | _ => cases hconcerns

end

/-!
## Both forms
-/

def Action.isInterim : Action → Bool
  | .acquireBlocking _ => true
  | .call .. => true
  | .markBroken .. => true
  | .giveBack .. => true
  | _ => false

theorem store_interim (system : System) {action : Action} (h : action.isInterim)
    : (system.act action).store = system.store := by
  cases action with
  | acquireBlocking c => apply store_acquireBlocking
  | call c flavor lease target request => apply store_ask
  | markBroken c flavor lease => rfl
  | giveBack c flavor lease => apply store_stepSlots
  | _ => cases h

/--
What operations promise that fail. One that blocks is carried out at once, or is interrupted between any
two of its steps. One that does not block may be interrupted as well, and may be dropped instead of
taking the next step.
-/
structure FailsHarmlessly (system : System) : Prop where
  blocking : ∀ o operation error after,
    system.operateBlocking o operation = (.error error, after) → system.store.Harmless after.store
  interim : ∀ action : Action, action.isInterim → system.store.Harmless (system.act action).store
  interrupted : ∀ o operation outcome error after,
    system.store.conclude o operation outcome = (.error error, after) → system.store.Harmless after
  blockingOwn : ∀ o error after,
    system.store.ownPipeline o = (.error error, after) → system.store.Harmless after
  spawn : ∀ job continuation name,
    system.store.Harmless (system.spawn job continuation name).2.store
  nonBlocking : ∀ job, job.isOperation → ∀ continuation name id start,
    system.spawn job continuation name = (id, start) →
    ∀ actions error, Legal start actions → start.Ends id actions (.error error) →
    ∀ action earlier, action :: earlier <:+ actions → action.concerns id →
    (start.after earlier).store.Harmless (start.after (action :: earlier)).store

theorem failsHarmlessly_of_sound (system : System) (h : system.Sound) : system.FailsHarmlessly := by
  refine ⟨?_, ?_, ?_, ?_, ?_, ?_⟩
  . intro o operation error after hresult
    have heffect := effect_operateBlocking system o operation
    rw [hresult] at heffect
    exact heffect.spares.harmless
  . intro action hinterim
    rw [system.store_interim hinterim]
    exact (Store.Spares.refl system.store).harmless
  . intro o operation outcome error after hresult
    exact (Store.spares_conclude hresult).harmless
  . intro o error after hresult
    have hspares := system.store.spares_ownPipeline o
    rw [hresult] at hspares
    exact hspares.harmless
  . intro job continuation name
    exact (system.spares_spawn job continuation name).harmless
  . intro job hjob continuation name id start hspawn actions error hlegal hends action earlier
      hsuffix hconcerns
    exact (hends.spares (h.enlisted hspawn) hjob hlegal hsuffix hconcerns).harmless

-- A server that names a parent of a kind that nobody registered.
def estranged : System :=
  furnished.after [.serve 0 [⟨some "getParent", none, .ok (.reference (some ⟨"Robot", "r"⟩)),
    .immediate, none⟩] []]

theorem sound_estranged : estranged.Sound :=
  sound_furnished.after ⟨trivial, trivial⟩

def estrangedError : Error :=
  .unknownObjectKind "no proxy registered for kind 'Robot' (Robot#r)"

theorem failsHarmlessly_estranged
    : estranged.Sound ∧ estranged.FailsHarmlessly ∧
      (estranged.operateBlocking 0 .getParent).1 = .error estrangedError ∧
      (estranged.spawn (.operate 0 .getParent) { handler := .callback } "").2.Ends 0
        [.step false 0] (.error estrangedError) := by
  refine ⟨sound_estranged, failsHarmlessly_of_sound estranged sound_estranged, rfl, ?_⟩
  apply Ends.ran
  . rfl
  . rfl

end System

end MediaProxy
