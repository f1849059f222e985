import MediaProxy.Proofs.Object.Growth

/-!
This module contains what a store looks like after an operation that failed: a proxy may have been made
that nobody holds, but no object and no registry of listeners has changed.
-/

namespace MediaProxy

namespace Store

structure Spares (before after : Store) : Prop where
  extending : before.Extends after
  registries_eq : after.registries = before.registries

namespace Spares

theorem refl (store : Store) : store.Spares store :=
  ⟨.refl store, rfl⟩

theorem trans {first second third : Store} (h : first.Spares second) (h' : second.Spares third)
    : first.Spares third :=
  ⟨h.extending.trans h'.extending, h'.registries_eq.trans h.registries_eq⟩

end Spares

section
variable (store : Store)

theorem spares_hold (o : ObjectId) : store.Spares (store.hold o) :=
  ⟨store.extends_hold o, rfl⟩

theorem spares_letGo (o : ObjectId) : store.Spares (store.letGo o) :=
  ⟨store.extends_letGo o, rfl⟩

theorem spares_foldl_letGo (proxies : List ObjectId) : store.Spares (proxies.foldl letGo store) := by
  induction proxies generalizing store with
  | nil => exact .refl store
  | cons o proxies ih => exact (store.spares_letGo o).trans (ih _)

theorem registries_resolve (f c : Nat) (reference : Reference)
    : (store.resolve f c reference).2.registries = store.registries := by
  rcases store.resolve_cases f c reference with
    ⟨o, _, hresolve⟩ | ⟨error, _, _, hresolve⟩ | ⟨type, _, _, hresolve⟩ <;>
    rw [hresolve] <;> rfl

theorem registries_resolveAs (f c : Nat) (reference : Reference) (type : ProxyClass)
    : (store.resolveAs f c reference type).2.registries = store.registries := by
  have hresolve := store.registries_resolve f c reference
  unfold resolveAs
  split
  . next heq =>
    rw [heq] at hresolve
    exact hresolve
  . next heq =>
    rw [heq] at hresolve
    split <;> exact hresolve

theorem spares_resolveFetched (o : ObjectId) (fetched : Fetched)
    : store.Spares (store.resolveFetched o fetched).2 := by
  refine ⟨store.extends_resolveFetched o fetched, ?_⟩
  cases fetched with
  | parent parent =>
    cases parent with
    | none => rfl
    | some reference => apply store.registries_resolve
  | pipeline reference => apply store.registries_resolveAs

end

theorem spares_start (store : Store) (o : ObjectId) (operation : Operation)
    : store.Spares (store.start o operation).2 := by
  have hstarted := store.started_start o operation
  generalize store.start o operation = started at hstarted
  cases hstarted with
  | refused => exact .refl store
  | own => apply spares_resolveFetched
  | known fetched => apply spares_resolveFetched
  | asks => exact .refl store

section
variable {store after : Store} {o : ObjectId} {error : Error}

theorem spares_finishFetch {fetched : Fetched}
    (h : store.finishFetch o fetched = (.error error, after)) : store.Spares after := by
  have hresolve := store.spares_resolveFetched o fetched
  have hended := store.ended_finishFetch o fetched
  rw [h] at hended
  generalize hend : (Except.error error, after) = ended at hended
  cases hended with
  | failed heq =>
    cases hend
    rw [heq] at hresolve
    exact hresolve
  | kept => cases hend
  | same => cases hend
  | replaced heq =>
    obtain ⟨_, rfl⟩ := Prod.mk.inj hend
    rw [heq] at hresolve
    exact hresolve.trans ((spares_resolveFetched _ _ _).trans (spares_foldl_letGo _ _))

theorem spares_conclude {operation : Operation} {outcome : Except RpcError Reply}
    (h : store.conclude o operation outcome = (.error error, after)) : store.Spares after := by
  have hconcluded := store.concluded_conclude o operation outcome
  rw [h] at hconcluded
  generalize hend : (Except.error error, after) = concluded at hconcluded
  cases hconcluded with
  | failed =>
    cases hend
    exact .refl store
  | fetched fetched => exact spares_finishFetch hend.symm
  | _ => cases hend

theorem spares_ownPipeline (store : Store) (o : ObjectId) : store.Spares (store.ownPipeline o).2 := by
  unfold ownPipeline
  dsimp only
  split
  . exact .refl store
  . apply spares_hold

end

/-!
## What nobody can notice
-/

/--
Nothing happened that could be noticed: no object was released or came to know anything, every listener
is told what it was told before, and the server is asked for whatever it was asked for before.
-/
structure Harmless (before after : Store) : Prop where
  released_eq : ∀ o, o < before.objects.length →
    (after.object o).released = (before.object o).released
  parent_eq : ∀ o, o < before.objects.length → (after.object o).parent = (before.object o).parent
  pipeline_eq : ∀ o, o < before.objects.length →
    (after.object o).pipeline = (before.object o).pipeline
  registries_eq : after.registries = before.registries
  dispatch?_eq : ∀ c source token,
    (after.registry c).dispatch? source token = (before.registry c).dispatch? source token
  asks : ∀ o, o < before.objects.length → ∀ operation request,
    before.start o operation = (.asks request, before) →
    after.start o operation = (.asks request, after)

theorem start_of_asks {before after : Store} {o : ObjectId} {operation : Operation}
    {request : Request} (hobject : after.object o = before.object o)
    (hcontexts : after.contexts = before.contexts)
    (h : before.start o operation = (.asks request, before))
    : after.start o operation = (.asks request, after) := by
  have hbefore := before.started_start o operation
  have hafter := after.started_start o operation
  rw [h] at hbefore
  generalize hstart : (Beginning.asks request, before) = started at hbefore
  generalize after.start o operation = started' at hafter
  cases hbefore with
  | asks hreleased hpipeline hknown =>
    cases hstart
    rw [← hobject] at hreleased hpipeline hknown
    have hcontext : after.context (after.object o).context =
        before.context (before.object o).context := by
      unfold context
      rw [hobject, hcontexts]
    cases hafter with
    | refused h => cases h.symm.trans hreleased
    | own _ hfetch h => cases h.symm.trans (hpipeline hfetch)
    | known fetched _ _ h => cases h.symm.trans hknown
    | asks => rw [hcontext]
  | _ => cases hstart

theorem Spares.harmless {before after : Store} (h : before.Spares after)
    : before.Harmless after := by
  have hobject {o : ObjectId} (ho : o < before.objects.length) := h.extending.object_eq ho
  have hregistry (c : Nat) : after.registry c = before.registry c := by
    unfold registry
    rw [h.registries_eq, h.extending.context_eq]
  refine ⟨?_, ?_, ?_, h.registries_eq, ?_, ?_⟩
  . intro o ho
    rw [hobject ho]
  . intro o ho
    rw [hobject ho]
  . intro o ho
    rw [hobject ho]
  . intro c source token
    rw [hregistry]
  . intro o ho operation request hstart
    exact start_of_asks (hobject ho) h.extending.contexts hstart

end Store

end MediaProxy
