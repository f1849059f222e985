import MediaProxy.Proofs.Object.Arena

/-!
This module contains what factories keep track of after something failed. A proxy is kept track of as soon as
it is made, and only then it turns out whether it is of the type that was asked for.
-/

namespace MediaProxy

namespace Store

def references (store : Store) (f : Nat) : List Reference :=
  (store.factory f).tracked.map (·.1)

structure Misfits (store : Store) (f : Nat) (reference : Reference) (type : ProxyClass) : Prop where
  nobody : store.lookup? f reference = none
  known : ∃ other, store.knownType? f reference = some other ∧ other ≠ type

def misfitError (reference : Reference) (type : ProxyClass) : Error :=
  .unknownObjectKind (reference.text ++ " is not a " ++ type.label)

/--
What is left by something that failed with an error: nothing, or a proxy of the wrong type, which nobody
holds.
-/
inductive Remains (before : Store) (f : Nat) : Error → Store → Prop where
  | nothing (error : Error) : before.Remains f error before
  | proxy {reference : Reference} {type other : ProxyClass} (c : Nat)
    (hnobody : before.lookup? f reference = none)
    (hknown : before.knownType? f reference = some other) (hne : other ≠ type) :
    before.Remains f (misfitError reference type) (before.make f c reference other).2

/--
What becomes of that which a factory keeps track of by something that fails with an error. The living proxies
stay the same, and so do the references, unless a proxy of the wrong type was made: then its reference is kept
track of.
-/
structure Tidy (before : Store) (f : Nat) (error : Error) (after : Store) : Prop where
  lookup?_eq : ∀ reference, after.lookup? f reference = before.lookup? f reference
  references_eq : after.references f = before.references f ∨
    ∃ reference type, before.Misfits f reference type ∧ error = misfitError reference type ∧
      reference ∉ before.references f ∧ after.references f = before.references f ++ [reference]
  factory_eq : ∀ g, g ≠ f → after.factory g = before.factory g

/-!
## Making proxies
-/

section
variable {store before after : Store} {f c : Nat} {reference : Reference} {error : Error}

theorem references_make (store : Store) (f c : Nat) (reference : Reference) (type : ProxyClass)
    : (store.make f c reference type).2.references f =
        if reference ∈ store.references f ∨ store.factories.length ≤ f then store.references f
        else store.references f ++ [reference] := by
  unfold references
  rw [factory_make]
  by_cases hf : f < store.factories.length
  . have hnot : ¬store.factories.length ≤ f := Nat.not_le_of_lt hf
    rw [if_pos ⟨rfl, hf⟩, map_track]
    simp only [hnot, or_false]
  . rw [if_neg fun h => hf h.2, if_pos (.inr (Nat.le_of_not_lt hf))]

theorem Neat.lookup?_make (h : store.Neat) (hnobody : store.lookup? f reference = none) (c : Nat)
    (type : ProxyClass) (other : Reference)
    : (store.make f c reference type).2.lookup? f other = store.lookup? f other := by
  have hheld : (store.make f c reference type).2.held = store.held := rfl
  rw [lookup?_eq, tracked?_make]
  split
  . next hmade =>
    rw [hmade.2, hnobody, Option.filter_some, if_neg]
    unfold alive
    rw [hheld, List.contains_iff_mem]
    exact fun hmem => Nat.lt_irrefl _ (h.held_lt _ hmem)
  . rfl

theorem Remains.tidy (h : before.Remains f error after) (hneat : before.Neat)
    : before.Tidy f error after := by
  cases h with
  | nothing => exact ⟨fun _ => rfl, .inl rfl, fun _ _ => rfl⟩
  | @proxy reference type other c hnobody hknown hne =>
    refine ⟨hneat.lookup?_make hnobody c other, ?_, ?_⟩
    . rw [references_make]
      split
      . exact .inl rfl
      . next hnew =>
        rw [not_or] at hnew
        exact .inr ⟨reference, type, ⟨hnobody, other, hknown, hne⟩, rfl, hnew.1, rfl⟩
    . intro g hg
      rw [factory_make, if_neg fun heq => hg heq.1.symm]

/-!
## Resolving
-/

theorem resolve_error (h : store.resolve f c reference = (.error error, after)) : after = store := by
  rcases store.resolve_cases f c reference with
    ⟨o, _, hresolve⟩ | ⟨cause, _, _, hresolve⟩ | ⟨type, _, _, hresolve⟩
  . cases hresolve.symm.trans h
  . cases hresolve.symm.trans h
    rfl
  . cases hresolve.symm.trans h

theorem resolveAs_error {type : ProxyClass}
    (h : store.resolveAs f c reference type = (.error error, after))
    : (¬store.Misfits f reference type ∧ after = store) ∨
        ∃ other, store.lookup? f reference = none ∧ store.knownType? f reference = some other ∧
          other ≠ type ∧ error = misfitError reference type ∧
          after = (store.make f c reference other).2 := by
  unfold resolveAs at h
  rcases store.resolve_cases f c reference with
    ⟨o, hliving, hresolve⟩ | ⟨cause, _, hunknown, hresolve⟩ | ⟨other, hnobody, hknown, hresolve⟩ <;>
    rw [hresolve] at h <;> dsimp only at h
  . split at h <;> cases h
    refine .inl ⟨fun hmisfits => ?_, letGo_hold _ _⟩
    cases hmisfits.nobody.symm.trans hliving
  . cases h
    refine .inl ⟨?_, rfl⟩
    rintro ⟨_, other, hother, _⟩
    cases hunknown.symm.trans hother
  . split at h
    . cases h
    . next htype =>
      cases h
      have hobject := store.object_make f c reference other store.objects.length
      rw [if_pos rfl] at hobject
      change ¬((store.make f c reference other).2.object store.objects.length).type = type at htype
      rw [hobject] at htype
      exact .inr ⟨other, hnobody, hknown, htype, rfl, letGo_hold _ _⟩

theorem remains_resolveAs {type : ProxyClass}
    (h : store.resolveAs f c reference type = (.error error, after))
    : store.Remains f error after := by
  rcases resolveAs_error h with ⟨_, rfl⟩ | ⟨other, hnobody, hknown, hne, rfl, rfl⟩
  . exact .nothing error
  . exact .proxy c hnobody hknown hne

theorem Misfits.mem_references {type : ProxyClass} (h : store.Misfits f reference type)
    (hf : f < store.factories.length)
    (hresolve : store.resolveAs f c reference type = (.error error, after))
    : reference ∈ after.references f := by
  rcases resolveAs_error hresolve with ⟨hnot, _⟩ | ⟨other, _, _, _, _, rfl⟩
  . exact absurd h hnot
  . rw [references_make]
    split
    . next hold => exact hold.resolve_right (Nat.not_le_of_lt hf)
    . exact List.mem_append_right _ (List.mem_singleton_self reference)

end

/-!
## Operations
-/

section
variable {store after : Store} {o : ObjectId} {error : Error}

theorem remains_resolveFetched {fetched : Fetched}
    (h : store.resolveFetched o fetched = (.error error, after))
    : store.Remains (store.homeOf o) error after := by
  cases fetched with
  | parent parent =>
    cases parent with
    | none => cases h
    | some reference =>
      unfold resolveFetched resolveParentFor resolveFor at h
      dsimp only at h
      generalize hresolve : store.resolve _ _ reference = resolved at h
      obtain ⟨cause | p, middle⟩ := resolved
      . cases h
        obtain rfl := resolve_error hresolve
        exact .nothing error
      . cases h
  | pipeline reference =>
    unfold resolveFetched resolvePipelineFor at h
    dsimp only at h
    generalize hresolve : store.resolveAs _ _ reference _ = resolved at h
    obtain ⟨cause | p, middle⟩ := resolved
    . cases h
      exact remains_resolveAs hresolve
    . cases h

theorem remains_start {operation : Operation}
    (h : store.start o operation = (.answered (.error error), after))
    : store.Remains (store.homeOf o) error after := by
  have hstarted := store.started_start o operation
  rw [h] at hstarted
  generalize hend : (Beginning.answered (.error error), after) = started at hstarted
  cases hstarted with
  | refused =>
    cases hend
    exact .nothing _
  | own =>
    obtain ⟨hanswer, hafter⟩ := Prod.mk.inj hend
    exact remains_resolveFetched (Prod.ext (Beginning.answered.inj hanswer).symm hafter.symm)
  | known fetched =>
    obtain ⟨hanswer, hafter⟩ := Prod.mk.inj hend
    exact remains_resolveFetched (Prod.ext (Beginning.answered.inj hanswer).symm hafter.symm)
  | asks => cases hend

theorem Typed.remains_finishFetch (htyped : store.Typed) {fetched : Fetched}
    (h : store.finishFetch o fetched = (.error error, after))
    : store.Remains (store.homeOf o) error after := by
  have hended := store.ended_finishFetch o fetched
  rw [h] at hended
  generalize hend : (Except.error error, after) = ended at hended
  cases hended with
  | failed hresolve =>
    cases hend
    exact remains_resolveFetched hresolve
  | kept => cases hend
  | same => cases hend
  | @replaced value middle known hresolve hknown =>
    have hextends := store.extends_resolveFetched o fetched
    rw [hresolve] at hextends
    have htypedThen := hextends.typed htyped
    obtain ⟨_, _, hok, _⟩ := htypedThen.resolveFetched_ok (htypedThen.known o _ known hknown)
    rw [hok] at hend
    cases hend

theorem Typed.remains_conclude (htyped : store.Typed) {operation : Operation}
    {outcome : Except RpcError Reply}
    (h : store.conclude o operation outcome = (.error error, after))
    : store.Remains (store.homeOf o) error after := by
  have hconcluded := store.concluded_conclude o operation outcome
  rw [h] at hconcluded
  generalize hend : (Except.error error, after) = concluded at hconcluded
  cases hconcluded with
  | failed =>
    cases hend
    exact .nothing _
  | fetched fetched => exact htyped.remains_finishFetch hend.symm
  | _ => cases hend

theorem ownPipeline_error (h : store.ownPipeline o = (.error error, after)) : after = store := by
  unfold ownPipeline at h
  dsimp only at h
  split at h
  . cases h
    rfl
  . cases h

end

end Store

end MediaProxy
