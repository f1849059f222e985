import MediaProxy.Proofs.Object.Arena

/-!
This module contains what belongs to contexts: a context keeps track of proxies of its own that were not
released, and an operation on one of them leaves alone what belongs to others.
-/

namespace MediaProxy

namespace Store

/--
Every context has a factory of its own, which keeps track of its proxies only, and of none that was
released.
-/
structure Bound (store : Store) : Prop where
  factory_inj : ∀ c d, c < store.contexts.length → d < store.contexts.length →
    (store.context c).factory = (store.context d).factory → c = d
  tracked : ∀ c, c < store.contexts.length → ∀ entry,
    entry ∈ (store.factory (store.context c).factory).tracked →
    (store.object entry.2).context = c ∧ (store.object entry.2).released = false

/--
Nothing changes outside a context: neither the objects of other contexts nor other factories, and
nobody holds proxies of other contexts more or less often.
-/
structure Aside (c : Nat) (before after : Store) : Prop where
  contexts : after.contexts = before.contexts
  length_objects : before.objects.length ≤ after.objects.length
  context_eq : ∀ o, (before.object o).context = c → (after.object o).context = c
  object_eq : ∀ o, o < before.objects.length → (before.object o).context ≠ c →
    after.object o = before.object o
  object_new : ∀ o, before.objects.length ≤ o → o < after.objects.length →
    (after.object o).context = c
  factory_eq : ∀ g, g ≠ (before.context c).factory → after.factory g = before.factory g
  count_eq : ∀ o, o < before.objects.length → (before.object o).context ≠ c →
    after.held.count o = before.held.count o

/-!
## What factories keep track of
-/

section
variable {before after : Store}

theorem context_eq_of_contexts (h : after.contexts = before.contexts) (c : Nat)
    : after.context c = before.context c := by
  unfold context
  rw [h]

theorem Bound.of_contexts_eq (h : before.Bound) (hcontexts : after.contexts = before.contexts)
    (htracked : ∀ c, c < before.contexts.length → ∀ entry,
      entry ∈ (after.factory (before.context c).factory).tracked →
      (after.object entry.2).context = c ∧ (after.object entry.2).released = false)
    : after.Bound := by
  refine ⟨?_, ?_⟩
  . intro c d
    rw [hcontexts, context_eq_of_contexts hcontexts, context_eq_of_contexts hcontexts]
    exact h.factory_inj c d
  . intro c
    rw [hcontexts, context_eq_of_contexts hcontexts]
    exact htracked c

theorem Bound.of_tracked_subset (h : before.Bound) (hcontexts : after.contexts = before.contexts)
    (hobjects : after.objects = before.objects)
    (htracked : ∀ g, (after.factory g).tracked ⊆ (before.factory g).tracked) : after.Bound := by
  apply h.of_contexts_eq hcontexts
  intro c hc entry hentry
  unfold object
  rw [hobjects]
  exact h.tracked c hc entry (htracked _ hentry)

theorem Bound.sheds (h : before.Bound) (hsheds : before.Sheds after) : after.Bound :=
  h.of_tracked_subset hsheds.extending.contexts hsheds.objects_eq
    fun g => (hsheds.tracked_sublist g).subset

theorem Bound.obtains (h : before.Bound) (htyped : before.Typed) {c : Nat} {got : List ObjectId}
    (hc : c < before.contexts.length)
    (hobtains : before.Obtains (before.context c).factory c got after) : after.Bound := by
  apply h.of_contexts_eq hobtains.contexts_eq
  intro d hd entry hentry
  rcases hobtains.mem_tracked hentry with hold | ⟨hfactory, hnew, hlt⟩
  . have ho := (htyped.tracked _ entry.1 entry.2 hold).1
    obtain ⟨hcontext, hreleased⟩ := h.tracked d hd entry hold
    refine ⟨?_, (hobtains.released_eq ho).trans hreleased⟩
    by_cases hsame : d = c
    . rw [hsame]
      apply hobtains.context_eq
      rw [hcontext, hsame]
    . have hne : (before.object entry.2).context ≠ c := by
        rw [hcontext]
        exact hsame
      rw [hobtains.object_eq ho hne]
      exact hcontext
  . rw [h.factory_inj d c hd hc hfactory]
    exact hobtains.object_new hnew hlt

theorem Bound.finishRelease (h : before.Bound) (htyped : before.Typed) (o : ObjectId)
    : (before.finishRelease o).Bound := by
  have hcontexts : (before.finishRelease o).contexts = before.contexts := rfl
  apply h.of_contexts_eq hcontexts
  intro c hc entry hentry
  have hobject : (before.finishRelease o).object entry.2 =
      (before.modifyObject o ({ · with released := true })).object entry.2 := rfl
  have hfactory : ((before.finishRelease o).factory (before.context c).factory).tracked =
      ((before.forget (before.homeOf o) (before.object o).reference).2.factory
        (before.context c).factory).tracked := rfl
  have hold := (before.forget_sublist _ _ _).subset (hfactory ▸ hentry)
  unfold forget at hfactory
  rw [hfactory, factory_modifyFactory] at hentry
  obtain ⟨hcontext, hreleased⟩ := h.tracked c hc entry hold
  have hne : o ≠ entry.2 := by
    rintro rfl
    have hhome : before.homeOf entry.2 = (before.context c).factory := by
      unfold homeOf
      rw [hcontext]
    rw [if_pos ⟨hhome, by rw [hhome]; exact lt_of_mem_tracked hold⟩] at hentry
    have hreference := (htyped.tracked _ entry.1 entry.2 hold).2.1
    exact of_decide_eq_true (List.mem_filter.1 hentry).2 hreference.symm
  rw [hobject, object_modifyObject, if_neg fun heq => hne heq.1]
  exact ⟨hcontext, hreleased⟩

theorem Bound.operates (h : before.Bound) (hsound : before.Sound) (htyped : before.Typed)
    {o : ObjectId} {operation : Operation} {result : Except Error Value}
    (hoperates : before.Operates o operation result after) : after.Bound := by
  cases hoperates with
  | obtained _ hobtains => exact h.obtains htyped (hsound.object_context_lt o) hobtains
  | released => exact h.finishRelease htyped o
  | subscribed => exact h.of_tracked_subset rfl rfl fun _ => List.Subset.refl _
  | unsubscribed => exact h.of_tracked_subset rfl rfl fun _ => List.Subset.refl _

theorem Bound.add (h : before.Bound) (htyped : before.Typed) {context : Context} {kinds : Nat}
    (hcontexts : after.contexts = before.contexts ++ [context])
    (hobjects : after.objects = before.objects)
    (hfactory : context.factory = before.factories.length)
    (hfactories : after.factories = before.factories ++ [{ kinds := kinds }]) : after.Bound := by
  have hcontext (c : Nat) : after.context c =
      if c = before.contexts.length then context else before.context c := by
    unfold Store.context
    rw [hcontexts, getD_concat]
  have hlength : after.contexts.length = before.contexts.length + 1 := by
    rw [hcontexts, List.length_append, List.length_singleton]
  have hold (c : Nat) : (before.context c).factory ≠ context.factory := by
    rw [hfactory]
    exact Nat.ne_of_lt (htyped.factory_lt c)
  refine ⟨?_, ?_⟩
  . intro c d hc hd heq
    rw [hlength] at hc hd
    rw [hcontext, hcontext] at heq
    split at heq
    . next hnew =>
      split at heq
      . next hnew' => rw [hnew, hnew']
      . exact absurd heq.symm (hold d)
    . next hne =>
      split at heq
      . exact absurd heq (hold c)
      . next hne' => exact h.factory_inj c d (by omega) (by omega) heq
  . intro c hc entry hentry
    rw [hlength] at hc
    rw [hcontext, tracked_of_new_factory hfactories] at hentry
    unfold object
    rw [hobjects]
    split at hentry
    . rw [hfactory] at hentry
      exact absurd (lt_of_mem_tracked hentry) (Nat.lt_irrefl _)
    . next hne => exact h.tracked c (by omega) entry hentry

def Move.InContexts (store : Store) : Move → Prop
  | .resolve f c _ => f = (store.context c).factory
  | .resolveAs f c _ _ => f = (store.context c).factory
  | _ => True

theorem Bound.perform (h : before.Bound) (htyped : before.Typed) {move : Move}
    (hadmits : before.Admits move) (hcontexts : move.InContexts before)
    : (before.perform move).Bound := by
  cases move with
  | resolve f c reference =>
    obtain rfl : f = (before.context c).factory := hcontexts
    exact h.obtains htyped hadmits (Obtains.refl.resolve reference)
  | resolveAs f c reference type =>
    obtain rfl : f = (before.context c).factory := hcontexts
    exact h.obtains htyped hadmits (Obtains.refl.resolveAs reference type)
  | letGo o => exact h.sheds (Sheds.refl.letGo o)
  | sweep f => exact h.sheds (Sheds.refl.sweep f)
  | forget f reference =>
    exact h.of_tracked_subset rfl rfl fun g => (before.forget_sublist f reference g).subset
  | ownPipeline o =>
    unfold Store.perform Store.ownPipeline
    dsimp only
    split
    . exact h
    . exact h.of_tracked_subset rfl rfl fun _ => List.Subset.refl _
  | registerKind f kind type =>
    unfold Store.perform Store.registerKind
    dsimp only
    split
    . exact h
    . exact h.of_tracked_subset rfl rfl fun _ => List.Subset.refl _
  | registerDecoder c type decoder =>
    unfold Store.perform Store.registerDecoder
    dsimp only
    split
    . exact h
    . exact h.of_tracked_subset rfl rfl fun _ => List.Subset.refl _
  | dispatch known c source token event =>
    obtain ⟨registries, hdispatch⟩ :=
      dispatchUpTo_eq known before.dispatchDepth before c source token event
    unfold Store.perform Store.dispatch
    dsimp only
    rw [hdispatch]
    exact h.of_tracked_subset rfl rfl fun _ => List.Subset.refl _
  | addFactory kinds =>
    have hcontexts : (before.addFactory kinds).2.contexts = before.contexts := rfl
    have hfactories : (before.addFactory kinds).2.factories =
        before.factories ++ [{ kinds := kinds }] := rfl
    apply h.of_tracked_subset hcontexts rfl
    intro g
    rw [tracked_of_new_factory hfactories]
    apply List.Subset.refl
  | _ => exact h.of_tracked_subset rfl rfl fun _ => List.Subset.refl _

end

/-!
## Where nothing changes
-/

namespace Aside

variable {first second third : Store} {c : Nat}

theorem refl (c : Nat) (store : Store) : store.Aside c store :=
  ⟨rfl, Nat.le_refl _, fun _ h => h, fun _ _ _ => rfl,
    fun _ hle hlt => absurd hlt (Nat.not_lt_of_le hle), fun _ _ => rfl, fun _ _ _ => rfl⟩

theorem trans (h : first.Aside c second) (h' : second.Aside c third) : first.Aside c third where
  contexts := h'.contexts.trans h.contexts
  length_objects := Nat.le_trans h.length_objects h'.length_objects
  context_eq o hcontext := h'.context_eq o (h.context_eq o hcontext)
  object_eq o ho hne := by
    have heq := h.object_eq o ho hne
    rw [h'.object_eq o (Nat.lt_of_lt_of_le ho h.length_objects) (by rw [heq]; exact hne), heq]
  object_new o hle hlt := by
    by_cases ho : o < second.objects.length
    . exact h'.context_eq o (h.object_new o hle ho)
    . exact h'.object_new o (Nat.le_of_not_lt ho) hlt
  factory_eq g hg := by
    have hcontext := context_eq_of_contexts h.contexts c
    rw [h'.factory_eq g (by rw [hcontext]; exact hg), h.factory_eq g hg]
  count_eq o ho hne := by
    have heq := h.object_eq o ho hne
    rw [h'.count_eq o (Nat.lt_of_lt_of_le ho h.length_objects) (by rw [heq]; exact hne),
      h.count_eq o ho hne]

theorem lookup?_eq (h : first.Aside c second) (hbound : first.Bound) (htyped : first.Typed)
    (hc : c < first.contexts.length) {d : Nat} (hd : d < first.contexts.length) (hne : d ≠ c)
    (reference : Reference)
    : second.lookup? (first.context d).factory reference =
        first.lookup? (first.context d).factory reference := by
  have hfactory := h.factory_eq (first.context d).factory
    fun heq => hne (hbound.factory_inj d c hd hc heq)
  rw [Store.lookup?_eq, Store.lookup?_eq]
  unfold tracked?
  rw [hfactory]
  cases hlookup : (first.factory (first.context d).factory).tracked.lookup reference with
  | none => rfl
  | some o =>
    have hmem := mem_of_tracked? hlookup
    have ho := (htyped.tracked _ reference o hmem).1
    have hcontext := (hbound.tracked d hd _ hmem).1
    have hcount := h.count_eq o ho (by rw [hcontext]; exact hne)
    have halive : second.alive o = first.alive o := by
      unfold alive
      rw [Bool.eq_iff_iff, List.contains_iff_mem, List.contains_iff_mem, ← List.count_pos_iff,
        ← List.count_pos_iff, hcount]
    simp [Option.filter, halive]

end Aside

section
variable {store : Store} {c : Nat} {o : ObjectId}

theorem aside_letGo (h : (store.object o).context = c) : store.Aside c (store.letGo o) where
  contexts := rfl
  length_objects := Nat.le_refl _
  context_eq _ hcontext := hcontext
  object_eq _ _ _ := rfl
  object_new _ hle hlt := absurd hlt (Nat.not_lt_of_le hle)
  factory_eq _ _ := rfl
  count_eq p _ hne := by
    apply List.count_erase_of_ne
    rintro rfl
    exact hne h

theorem aside_foldl_letGo {proxies : List ObjectId}
    (h : ∀ o ∈ proxies, (store.object o).context = c)
    : store.Aside c (proxies.foldl letGo store) := by
  induction proxies generalizing store with
  | nil => exact .refl c store
  | cons o proxies ih =>
    apply (aside_letGo (h o List.mem_cons_self)).trans
    exact ih fun p hp => h p (List.mem_cons_of_mem o hp)

theorem aside_modifyRegistry (store : Store) (c d : Nat)
    (change : Registry Listener → Registry Listener)
    : store.Aside c (store.modifyRegistry d change) :=
  ⟨rfl, Nat.le_refl _, fun _ h => h, fun _ _ _ => rfl,
    fun _ hle hlt => absurd hlt (Nat.not_lt_of_le hle), fun _ _ => rfl, fun _ _ _ => rfl⟩

theorem aside_finishRelease (store : Store) (o : ObjectId)
    : store.Aside (store.object o).context (store.finishRelease o) := by
  have hlength : (store.finishRelease o).objects.length = store.objects.length :=
    List.length_modify _ _ _
  have hobject (p : ObjectId) : (store.finishRelease o).object p =
      if o = p ∧ o < store.objects.length then { store.object p with released := true }
      else store.object p :=
    store.object_modifyObject o _ p
  refine ⟨rfl, Nat.le_of_eq hlength.symm, ?_, ?_, ?_, ?_, fun _ _ _ => rfl⟩
  . intro p hcontext
    rw [hobject]
    split <;> exact hcontext
  . intro p _ hne
    rw [hobject, if_neg]
    rintro ⟨rfl, _⟩
    exact hne rfl
  . intro p hle hlt
    rw [hlength] at hlt
    exact absurd hlt (Nat.not_lt_of_le hle)
  . intro g hg
    exact (factory_modifyFactory _ _ _ _).trans (if_neg fun heq => hg heq.1.symm)

theorem Obtains.belongs {after : Store} {got : List ObjectId} (htyped : store.Typed)
    (hbound : store.Bound) (hc : c < store.contexts.length)
    (h : store.Obtains (store.context c).factory c got after) (hafter : after.Typed) (ho : o ∈ got)
    : o < after.objects.length ∧ (after.object o).context = c := by
  obtain ⟨reference, htracked⟩ := h.tracked?_of_mem_got (htyped.factory_lt c) ho
  have hmem := mem_of_tracked? htracked
  refine ⟨(hafter.tracked _ reference o hmem).1, ?_⟩
  have hfinal := (hbound.obtains htyped hc h).tracked c (by rw [h.contexts_eq]; exact hc) (reference, o)
  rw [context_eq_of_contexts h.contexts_eq] at hfinal
  exact (hfinal hmem).1

theorem belongs_resolve (htyped : store.Typed) (hbound : store.Bound)
    (hc : c < store.contexts.length) {reference : Reference}
    (h : (store.resolve (store.context c).factory c reference).1 = .ok o)
    : o < (store.resolve (store.context c).factory c reference).2.objects.length ∧
        ((store.resolve (store.context c).factory c reference).2.object o).context = c := by
  have hafter := (store.extends_resolve (store.context c).factory reference fun _ => hc).typed htyped
  apply (Obtains.refl.resolve reference).belongs htyped hbound hc hafter
  rw [h]
  exact List.mem_singleton_self o

theorem belongs_resolveAs (htyped : store.Typed) (hbound : store.Bound)
    (hc : c < store.contexts.length) {reference : Reference} {type : ProxyClass}
    (h : (store.resolveAs (store.context c).factory c reference type).1 = .ok o)
    : o < (store.resolveAs (store.context c).factory c reference type).2.objects.length ∧
        ((store.resolveAs (store.context c).factory c reference type).2.object o).context = c := by
  have hafter :=
    (store.extends_resolveAs (store.context c).factory reference type fun _ => hc).typed htyped
  apply (Obtains.refl.resolveAs reference type).belongs htyped hbound hc hafter
  rw [h]
  exact List.mem_singleton_self o

theorem Obtains.aside {after : Store} {got : List ObjectId} (htyped : store.Typed)
    (hbound : store.Bound) (hc : c < store.contexts.length)
    (h : store.Obtains (store.context c).factory c got after) (hafter : after.Typed)
    : store.Aside c after := by
  refine ⟨h.contexts_eq, h.length_objects, fun _ => h.context_eq, fun _ => h.object_eq, ?_, ?_, ?_⟩
  . exact fun p hle hlt => (h.object_new hle hlt).1
  . exact fun g => h.factory_eq
  . intro p hp hne
    have hnot : p ∉ got := by
      intro hgot
      have hcontext := (h.belongs htyped hbound hc hafter hgot).2
      rw [h.object_eq hp hne] at hcontext
      exact hne hcontext
    rw [h.held_perm.count_eq, List.count_append, List.count_eq_zero.2 hnot, Nat.zero_add]

section
variable {after : Store} {operation : Operation} {result : Except Error Value}

theorem Operates.aside (h : store.Operates o operation result after) (hsound : store.Sound)
    (htyped : store.Typed) (hbound : store.Bound) (hafter : after.Typed)
    : store.Aside (store.object o).context after := by
  cases h with
  | obtained _ hobtains => exact hobtains.aside htyped hbound (hsound.object_context_lt o) hafter
  | released => apply aside_finishRelease
  | subscribed => apply aside_modifyRegistry
  | unsubscribed => apply aside_modifyRegistry

theorem Operates.belongs (h : store.Operates o operation result after) (hsound : store.Sound)
    (htyped : store.Typed) (hbound : store.Bound) (hafter : after.Typed) {p : ObjectId}
    (hp : p ∈ proxiesOf result)
    : p < after.objects.length ∧ (after.object p).context = (store.object o).context := by
  cases h with
  | obtained _ hobtains =>
    exact hobtains.belongs htyped hbound (hsound.object_context_lt o) hafter hp
  | _ => cases hp

end

end

end Store

end MediaProxy
