import MediaProxy.Proofs.System.Fetch

/-!
This module contains what becomes of the store by an action: an operation returns, users share
something, or nothing happens but that proxies are let go of. Users may keep to a rule all along.
-/

namespace MediaProxy

theorem lt_length_of_given {α : Type} {given : Option Nat} {k : Nat} {before after : List α} {a : α}
    (h : (given = some k ∧ after = before) ∨ (k = before.length ∧ after = before ++ [a]))
    (hgiven : ∀ k, given = some k → k < before.length) : k < after.length := by
  rcases h with ⟨hk, rfl⟩ | ⟨rfl, rfl⟩
  . exact hgiven k hk
  . rw [List.length_append]
    apply Nat.lt_succ_self

theorem Store.Effect.operates {before after : Store} {o : ObjectId} {operation : Operation}
    {result : Except Error Value} (h : before.Effect (.operate o operation) result after)
    : before.Operates o operation result after := by
  cases h with
  | answered hstart => exact operates_start hstart
  | failed _ _ error => apply operates_failed
  | concluded _ _ outcome => apply operates_conclude

theorem Scope.not_shares_everything (first : TaskId) : ¬(Scope.everything first).Shares := by
  rintro (hshares | ⟨job, hjob, _⟩)
  . exact hshares
  . exact hjob

structure Store.Founds (before : Store) (builder : ContextBuilder) (context : Context)
    (after : Store) : Prop where
  contexts : after.contexts = before.contexts ++ [context]
  objects : after.objects = before.objects
  held : after.held = before.held
  factory : context.factory = before.factories.length
  factories : ∃ kinds, after.factories = before.factories ++ [{ kinds := kinds }]
  registries :
    (builder.registry = some context.registry ∧ after.registries = before.registries) ∨
      (context.registry = before.registries.length ∧ after.registries = before.registries ++ [[]])

namespace Store.Founds

variable {before after : Store} {builder : ContextBuilder} {context : Context}

theorem length_registries_le (h : before.Founds builder context after)
    : before.registries.length ≤ after.registries.length := by
  rcases h.registries with ⟨_, heq⟩ | ⟨_, heq⟩
  . exact Nat.le_of_eq (congrArg List.length heq.symm)
  . rw [heq, List.length_append]
    apply Nat.le_add_right

theorem registry_lt (h : before.Founds builder context after)
    (hgiven : ∀ r, builder.registry = some r → r < before.registries.length)
    : context.registry < after.registries.length :=
  lt_length_of_given h.registries hgiven

end Store.Founds

namespace System

theorem founds_build (system : System) (builder : ContextBuilder)
    : (system.build builder).2 = system ∨
      ∃ context, system.store.Founds builder context (system.build builder).2.store := by
  unfold build
  split
  . exact .inl rfl
  . right
    obtain ⟨config, registry, kinds, decoders, runtime⟩ := builder
    cases registry with
    | none =>
      cases kinds <;> cases decoders <;> exact ⟨_, rfl, rfl, rfl, rfl, ⟨_, rfl⟩, .inr ⟨rfl, rfl⟩⟩
    | some r =>
      cases kinds <;> cases decoders <;> exact ⟨_, rfl, rfl, rfl, rfl, ⟨_, rfl⟩, .inl ⟨rfl, rfl⟩⟩

section
variable {scope : Scope} {before after : System}

theorem Change.sheds (h : before.Change scope after) (hshares : ¬scope.Shares)
    : before.store.Sheds after.store := by
  cases h with
  | share _ hsheds => exact hsheds.resolve_left hshares
  | conclude o operation outcome hjob => exact absurd (Scope.shares_of_job hjob rfl) hshares
  | found _ _ _ _ hfound => exact absurd (.inl hfound) hshares
  | number hsaid =>
    rw [hsaid.same.store_eq]
    exact .refl
  | tell _ _ _ hsaid =>
    rw [hsaid.same.store_eq]
    exact .refl
  | _ => exact .refl

theorem Changes.sheds (h : before.Changes scope after) (hshares : ¬scope.Shares)
    : before.store.Sheds after.store := by
  induction h with
  | refl => exact .refl
  | step _ hchange ih => exact ih.trans (hchange.sheds hshares)

end

inductive Affects (system : System) : Action → Store → Prop where
  | sheds {action : Action} {after : Store} (h : system.store.Sheds after) :
    system.Affects action after
  | operates {o : ObjectId} {operation : Operation} {action : Action}
    {result : Except Error Value} {middle after : Store}
    (hreturns : system.Returns o operation action result)
    (h : system.store.Operates o operation result middle) (hsheds : middle.Sheds after) :
    system.Affects action after
  | shares (move : Store.Move) : system.Affects (.share move) (system.store.perform move)
  | builds (builder : ContextBuilder) :
    system.Affects (.build builder) (system.build builder).2.store

section
variable {system : System} {action : Action}

theorem sheds_finish (system : System) (task : Task) (result : Except Error Outcome)
    : system.store.Sheds (system.finish task result).store := by
  have hfinish : system.Changes (.everything 0) (system.finish task result) :=
    system.changes_finish result trivial
  exact hfinish.sheds (Scope.not_shares_everything 0)

theorem Returns.operates (h : system.Fitting) {o : ObjectId} {operation : Operation}
    {result : Except Error Value} (hreturns : system.Returns o operation action result)
    : ∃ middle, system.store.Operates o operation result middle ∧ system.store.Grows middle ∧
        middle.Sheds (system.act action).store := by
  cases hreturns with
  | blocking =>
    have heffect := effect_operateBlocking system o operation
    exact ⟨_, heffect.operates, heffect.grows, .refl⟩
  | interrupted outcome =>
    have heffect : system.store.Effect (.operate o operation) _ _ := .concluded o operation outcome
    exact ⟨_, heffect.operates, heffect.grows, .refl⟩
  | @nonBlocking tickFirst id task _ htask hjob hwork =>
    have hsteps := h.steps htask (by rw [hjob]; rfl) tickFirst
    change ∃ middle, _ ∧ _ ∧ Store.Sheds middle (system.step tickFirst id).store
    generalize system.step tickFirst id = after at hsteps
    cases hsteps with
    | idle hnone => cases hnone.symm.trans hwork
    | parked _ hnone => cases hnone.symm.trans hwork
    | @ended _ middle hsome _ heffect =>
      cases hsome.symm.trans hwork
      rw [hjob] at heffect
      exact ⟨middle.store, heffect.operates, heffect.grows, middle.sheds_finish task _⟩

theorem affects_step (h : system.Fitting) {id : TaskId} {task : Task}
    (htask : system.task? id = some task) (hjob : task.job.isOperation) (tickFirst : Bool)
    : system.Affects (.step tickFirst id) (system.step tickFirst id).store := by
  have hsteps := h.steps htask hjob tickFirst
  generalize system.step tickFirst id = after at hsteps
  cases hsteps with
  | idle => exact .sheds .refl
  | @parked middle _ _ stage _ _ _ hstore =>
    change system.Affects _ middle.store
    rw [hstore]
    exact .sheds .refl
  | @ended result middle hwork _ heffect =>
    have hfinish := middle.sheds_finish task (result.map .value)
    rcases Job.isOperation_cases hjob with ⟨o, operation, hkind⟩ | ⟨o, hkind⟩
    . rw [hkind] at heffect
      exact .operates (.nonBlocking htask hkind hwork) heffect.operates hfinish
    . rw [hkind] at heffect
      generalize middle.store = store at heffect hfinish
      cases heffect with
      | owned => exact .sheds ((system.store.sheds_ownPipeline o).trans hfinish)

theorem affects_act (h : system.Fitting) (hadmits : system.Admits action)
    : system.Affects action (system.act action).store := by
  by_cases hshares : (action.scope system).Shares
  . cases action with
    | step tickFirst id =>
      obtain hfalse | ⟨job, ⟨task, htask, rfl⟩, hjob⟩ := hshares
      . cases hfalse
      . exact affects_step h htask hjob tickFirst
    | stop id =>
      obtain hfalse | ⟨job, ⟨task, htask, rfl⟩, hjob⟩ := hshares
      . cases hfalse
      . obtain ⟨c, period, hschedule⟩ := hadmits task htask
        rw [hschedule] at hjob
        cases hjob
    | operateBlocking o operation =>
      exact .operates .blocking (effect_operateBlocking system o operation).operates .refl
    | concludeBlocking o operation outcome =>
      exact .operates (.interrupted outcome) (system.store.operates_conclude o operation outcome)
        .refl
    | share move => exact .shares move
    | build builder => exact .builds builder
    | _ =>
      obtain hfalse | ⟨job, hfalse, _⟩ := hshares <;> cases hfalse
  . exact .sheds ((changes_act hadmits).sheds hshares)

end

/-!
## Rules for users
-/

structure Obeys (start : System) (rule : System → Action → Prop) (actions : List Action) : Prop where
  legal : Legal start actions
  rule : ∀ action earlier, action :: earlier <:+ actions → rule (start.after earlier) action

namespace Obeys

variable {start : System} {rule : System → Action → Prop} {action : Action}
  {actions earlier : List Action}

theorem nil (start : System) (rule : System → Action → Prop) : start.Obeys rule [] := by
  refine ⟨trivial, ?_⟩
  intro action earlier hsuffix
  cases List.suffix_nil.1 hsuffix

theorem cons (h : start.Obeys rule actions) (hadmits : (start.after actions).Admits action)
    (hrule : rule (start.after actions) action) : start.Obeys rule (action :: actions) := by
  refine ⟨⟨h.legal, hadmits⟩, ?_⟩
  intro next before hsuffix
  rcases List.suffix_cons_iff.1 hsuffix with heq | hearlier
  . cases heq
    exact hrule
  . exact h.rule next before hearlier

theorem of_suffix (h : start.Obeys rule actions) (hsuffix : earlier <:+ actions)
    : start.Obeys rule earlier :=
  ⟨h.legal.of_suffix hsuffix, fun action before hbefore =>
    h.rule action before (hbefore.trans hsuffix)⟩

theorem tail (h : start.Obeys rule (action :: actions)) : start.Obeys rule actions :=
  h.of_suffix (List.suffix_cons _ _)

theorem head (h : start.Obeys rule (action :: actions))
    : (start.after actions).Admits action ∧ rule (start.after actions) action :=
  ⟨h.legal.2, h.rule action actions List.suffix_rfl⟩

end Obeys

end System

end MediaProxy
