import MediaProxy.Object.Dispatch
import MediaProxy.Object.Operation
import MediaProxy.System.Context

/-!
This module contains what is added to a store while its objects stay as they are: proxies are made and
held, kinds are registered and listeners come and go. Proxies always have the types of their kinds.
-/

namespace MediaProxy

theorem getD_modify {α : Type} (as : List α) (i : Nat) (f : α → α) (j : Nat) (default : α)
    : (as.modify i f).getD j default =
        if i = j ∧ i < as.length then f (as.getD j default) else as.getD j default := by
  rw [List.getD_eq_getElem?_getD, List.getD_eq_getElem?_getD, List.getElem?_modify]
  by_cases hi : i = j
  . subst hi
    by_cases hlt : i < as.length
    . rw [List.getElem?_eq_getElem hlt]
      simp [hlt]
    . rw [List.getElem?_eq_none (Nat.le_of_not_lt hlt)]
      simp [hlt]
  . cases as[j]? with
    | none => simp [hi]
    | some a => simp [hi]

theorem getD_concat {α : Type} (as : List α) (a : α) (i : Nat) (default : α)
    : (as ++ [a]).getD i default = if i = as.length then a else as.getD i default := by
  rw [List.getD_eq_getElem?_getD, List.getD_eq_getElem?_getD]
  split
  . next h =>
    rw [h, List.getElem?_concat_length]
    rfl
  . next h =>
    by_cases hlt : i < as.length
    . rw [List.getElem?_append_left hlt]
    . rw [List.getElem?_eq_none (by rw [List.length_append, List.length_singleton]; omega),
        List.getElem?_eq_none (by omega)]

inductive Fetched where
  | parent (parent : Option Reference)
  | pipeline (pipeline : Reference)
  deriving DecidableEq

def Fetched.operation : Fetched → Operation
  | .parent _ => .getParent
  | .pipeline _ => .getMediaPipeline

namespace MediaObject

def known (object : MediaObject) : Operation → Option Fetched
  | .getParent => object.parent.map .parent
  | .getMediaPipeline => object.pipeline.map .pipeline
  | _ => none

end MediaObject

namespace Store

def knownType? (store : Store) (f : Nat) (reference : Reference) : Option ProxyClass :=
  (store.kindTable f).lookup reference.kind

def homeOf (store : Store) (o : ObjectId) : Nat :=
  (store.context (store.object o).context).factory

def Makes (store : Store) (f : Nat) : Fetched → Prop
  | .parent none => True
  | .parent (some reference) => ∃ type, store.knownType? f reference = some type
  | .pipeline reference => store.knownType? f reference = some .pipeline

def Tracks (store : Store) (o : ObjectId) : Prop :=
  ∃ f reference, (reference, o) ∈ (store.factory f).tracked

def Minds (store : Store) (o : ObjectId) : Prop :=
  store.Tracks o ∧ (store.object o).released = false

structure Sound (store : Store) : Prop where
  context_pos : 0 < store.contexts.length
  context_lt : ∀ object ∈ store.objects, object.context < store.contexts.length

structure Typed (store : Store) : Prop where
  factory_lt : ∀ c, (store.context c).factory < store.factories.length
  tracked : ∀ f reference o, (reference, o) ∈ (store.factory f).tracked →
    o < store.objects.length ∧ (store.object o).reference = reference ∧
      store.knownType? f reference = some (store.object o).type
  known : ∀ o fetch fetched, (store.object o).known fetch = some fetched →
    store.Makes (store.homeOf o) fetched

structure Learns (before after : Store) : Prop where
  length_le : before.factories.length ≤ after.factories.length
  knownType?_eq : ∀ f, f < before.factories.length → ∀ reference type,
    before.knownType? f reference = some type → after.knownType? f reference = some type

structure Extends (before after : Store) : Prop where
  contexts : after.contexts = before.contexts
  objects : before.objects <+: after.objects
  learns : before.Learns after
  sound : before.Sound → after.Sound
  typed : before.Typed → after.Typed

/-!
## Finding things
-/

theorem Sound.object_context_lt {store : Store} (h : store.Sound) (o : ObjectId)
    : (store.object o).context < store.contexts.length := by
  unfold object
  rw [List.getD_eq_getElem?_getD]
  by_cases ho : o < store.objects.length
  . rw [List.getElem?_eq_getElem ho]
    exact h.context_lt _ (List.getElem_mem ho)
  . rw [List.getElem?_eq_none (Nat.le_of_not_lt ho)]
    exact h.context_pos

theorem lt_of_mem_tracked {store : Store} {f : Nat} {entry : Reference × ObjectId}
    (h : entry ∈ (store.factory f).tracked) : f < store.factories.length := by
  unfold factory at h
  rw [List.getD_eq_getElem?_getD] at h
  by_cases hf : f < store.factories.length
  . exact hf
  . rw [List.getElem?_eq_none (Nat.le_of_not_lt hf)] at h
    cases h

theorem factory_modifyFactory (store : Store) (f : Nat) (change : Factory → Factory) (g : Nat)
    : (store.modifyFactory f change).factory g =
        if f = g ∧ f < store.factories.length then change (store.factory g)
        else store.factory g :=
  getD_modify _ _ _ _ _

theorem object_modifyObject (store : Store) (o : ObjectId) (change : MediaObject → MediaObject)
    (p : ObjectId)
    : (store.modifyObject o change).object p =
        if o = p ∧ o < store.objects.length then change (store.object p) else store.object p :=
  getD_modify _ _ _ _ _

namespace Learns

theorem refl (store : Store) : store.Learns store :=
  ⟨Nat.le_refl _, fun _ _ _ _ h => h⟩

theorem trans {first second third : Store} (h : first.Learns second) (h' : second.Learns third)
    : first.Learns third where
  length_le := Nat.le_trans h.length_le h'.length_le
  knownType?_eq f hf reference type hknown :=
    h'.knownType?_eq f (Nat.lt_of_lt_of_le hf h.length_le) reference type
      (h.knownType?_eq f hf reference type hknown)

theorem of_tables {before after : Store}
    (hlength : before.factories.length ≤ after.factories.length)
    (hkinds : ∀ f, f < before.factories.length → (after.factory f).kinds = (before.factory f).kinds)
    (htables : ∀ k kind type, (before.kindTables.getD k []).lookup kind = some type →
      (after.kindTables.getD k []).lookup kind = some type)
    : before.Learns after := by
  refine ⟨hlength, ?_⟩
  intro f hf reference type hknown
  unfold knownType? kindTable
  rw [hkinds f hf]
  exact htables _ _ _ hknown

theorem of_eq {before after : Store} (hfactories : after.factories = before.factories)
    (htables : after.kindTables = before.kindTables) : before.Learns after := by
  apply of_tables
  . exact Nat.le_of_eq (congrArg List.length hfactories.symm)
  . intro f _
    unfold factory
    rw [hfactories]
  . intro k kind type h
    rw [htables]
    exact h

theorem makes {before after : Store} (h : before.Learns after) {f : Nat}
    (hf : f < before.factories.length) {fetched : Fetched} (hmakes : before.Makes f fetched)
    : after.Makes f fetched := by
  cases fetched with
  | parent parent =>
    cases parent with
    | none => trivial
    | some reference =>
      obtain ⟨type, htype⟩ := hmakes
      exact ⟨type, h.knownType?_eq f hf reference type htype⟩
  | pipeline reference => exact h.knownType?_eq f hf reference .pipeline hmakes

end Learns

namespace Extends

theorem refl (store : Store) : store.Extends store :=
  ⟨rfl, List.prefix_rfl, .refl store, id, id⟩

theorem trans {first second third : Store} (h : first.Extends second) (h' : second.Extends third)
    : first.Extends third :=
  ⟨h'.contexts.trans h.contexts, h.objects.trans h'.objects, h.learns.trans h'.learns,
    h'.sound ∘ h.sound, h'.typed ∘ h.typed⟩

theorem length_objects {before after : Store} (h : before.Extends after)
    : before.objects.length ≤ after.objects.length :=
  h.objects.length_le

theorem object_eq {before after : Store} (h : before.Extends after) {o : ObjectId}
    (ho : o < before.objects.length) : after.object o = before.object o := by
  have ho' := Nat.lt_of_lt_of_le ho h.length_objects
  unfold object
  rw [List.getD_eq_getElem?_getD, List.getD_eq_getElem?_getD, List.getElem?_eq_getElem ho,
    List.getElem?_eq_getElem ho', h.objects.getElem ho]

theorem context_eq {before after : Store} (h : before.Extends after) (c : Nat)
    : after.context c = before.context c := by
  unfold context
  rw [h.contexts]

theorem of_learns {before after : Store} (hcontexts : after.contexts = before.contexts)
    (hobjects : after.objects = before.objects) (hlearns : before.Learns after)
    (htracked : ∀ f, (after.factory f).tracked ⊆ (before.factory f).tracked)
    : before.Extends after := by
  have hcontext (c : Nat) : after.context c = before.context c := by
    unfold context
    rw [hcontexts]
  have hobject (o : ObjectId) : after.object o = before.object o := by
    unfold object
    rw [hobjects]
  refine ⟨hcontexts, ⟨[], by rw [hobjects, List.append_nil]⟩, hlearns, ?_, ?_⟩
  . intro hsound
    refine ⟨by rw [hcontexts]; exact hsound.context_pos, ?_⟩
    rw [hcontexts, hobjects]
    exact hsound.context_lt
  . intro htyped
    refine ⟨?_, ?_, ?_⟩
    . intro c
      rw [hcontext]
      exact Nat.lt_of_lt_of_le (htyped.factory_lt c) hlearns.length_le
    . intro f reference o hmem
      have hold := htracked f hmem
      obtain ⟨ho, hreference, hknown⟩ := htyped.tracked f reference o hold
      rw [hobjects, hobject]
      exact ⟨ho, hreference, hlearns.knownType?_eq f (lt_of_mem_tracked hold) _ _ hknown⟩
    . intro o fetch fetched hknown
      rw [hobject] at hknown
      unfold homeOf
      rw [hobject, hcontext]
      exact hlearns.makes (htyped.factory_lt _) (htyped.known o fetch fetched hknown)

theorem of_eq {before after : Store} (hcontexts : after.contexts = before.contexts)
    (hobjects : after.objects = before.objects) (hfactories : after.factories = before.factories)
    (htables : after.kindTables = before.kindTables) : before.Extends after := by
  apply of_learns hcontexts hobjects (.of_eq hfactories htables)
  intro f
  unfold factory
  rw [hfactories]
  apply List.Subset.refl

end Extends

/-!
## Holding and tracking proxies
-/

theorem extends_hold (store : Store) (o : ObjectId) : store.Extends (store.hold o) :=
  .of_eq rfl rfl rfl rfl

theorem extends_letGo (store : Store) (o : ObjectId) : store.Extends (store.letGo o) :=
  .of_eq rfl rfl rfl rfl

theorem extends_foldl_letGo (store : Store) (proxies : List ObjectId)
    : store.Extends (proxies.foldl letGo store) := by
  induction proxies generalizing store with
  | nil => exact .refl store
  | cons o proxies ih => exact (store.extends_letGo o).trans (ih _)

theorem foldl_letGo_eq (store : Store) (proxies : List ObjectId)
    : ∃ held, proxies.foldl letGo store = { store with held } := by
  induction proxies generalizing store with
  | nil => exact ⟨store.held, rfl⟩
  | cons o proxies ih => exact ih (store.letGo o)

theorem minds_of_mem_living {store : Store} {f : Nat} {o : ObjectId}
    (h : o ∈ (store.living f).filter fun o => !(store.object o).released) : store.Minds o := by
  obtain ⟨hliving, hreleased⟩ := List.mem_filter.1 h
  obtain ⟨entry, hentry, rfl⟩ := List.mem_map.1 (List.mem_filter.1 hliving).1
  exact ⟨⟨f, entry.1, hentry⟩, by simpa using hreleased⟩

theorem extends_modifyRegistry (store : Store) (c : Nat)
    (change : Registry Listener → Registry Listener)
    : store.Extends (store.modifyRegistry c change) :=
  .of_eq rfl rfl rfl rfl

theorem learns_modifyFactory (store : Store) (f : Nat) {change : Factory → Factory}
    (h : ∀ factory, (change factory).kinds = factory.kinds)
    : store.Learns (store.modifyFactory f change) := by
  apply Learns.of_tables
  . apply Nat.le_of_eq (List.length_modify _ _ _).symm
  . intro g _
    rw [factory_modifyFactory]
    split
    . apply h
    . rfl
  . exact fun _ _ _ h => h

theorem extends_modifyFactory (store : Store) (f : Nat) {change : Factory → Factory}
    (hkinds : ∀ factory, (change factory).kinds = factory.kinds)
    (htracked : ∀ factory, (change factory).tracked ⊆ factory.tracked)
    : store.Extends (store.modifyFactory f change) := by
  refine .of_learns rfl rfl (store.learns_modifyFactory f hkinds) ?_
  intro g
  rw [factory_modifyFactory]
  split
  . apply htracked
  . apply List.Subset.refl

theorem extends_forget (store : Store) (f : Nat) (reference : Reference)
    : store.Extends (store.forget f reference).2 := by
  apply extends_modifyFactory
  . exact fun _ => rfl
  . exact fun factory => (List.filter_sublist (l := factory.tracked)).subset

theorem extends_sweep (store : Store) (f : Nat) : store.Extends (store.sweep f).2 := by
  unfold sweep
  dsimp only
  refine .of_learns rfl rfl (store.learns_modifyFactory f fun _ => rfl) ?_
  intro g
  rw [factory_modifyFactory]
  split
  . next h =>
    rw [← h.1]
    exact List.filter_sublist.subset
  . apply List.Subset.refl

theorem mem_track {reference : Reference} {o : ObjectId} {entries : List (Reference × ObjectId)}
    {entry : Reference × ObjectId} (h : entry ∈ make.track reference o entries)
    : entry = (reference, o) ∨ entry ∈ entries := by
  induction entries with
  | nil => exact .inl (List.mem_singleton.1 h)
  | cons first entries ih =>
    unfold make.track at h
    split at h
    . rcases List.mem_cons.1 h with hnew | hold
      . exact .inl hnew
      . exact .inr (List.mem_cons_of_mem _ hold)
    . rcases List.mem_cons.1 h with hfirst | hrest
      . rw [hfirst]
        exact .inr List.mem_cons_self
      . exact (ih hrest).imp_right (List.mem_cons_of_mem _)

theorem object_append (store : Store) (object : MediaObject) (o : ObjectId)
    : { store with objects := store.objects ++ [object] }.object o =
        if o = store.objects.length then object else store.object o :=
  getD_concat _ _ _ _

theorem extends_make (store : Store) (f : Nat) {c : Nat} {reference : Reference}
    {type : ProxyClass} (hc : store.Sound → c < store.contexts.length)
    (htype : store.knownType? f reference = some type)
    : store.Extends (store.make f c reference type).2 := by
  have hadded : store.Learns
      { store with objects := store.objects ++ [{ reference, context := c, type }] } :=
    .of_eq rfl rfl
  have hlearns : store.Learns (store.make f c reference type).2 :=
    hadded.trans (learns_modifyFactory _ f fun _ => rfl)
  have hobject (o : ObjectId) : (store.make f c reference type).2.object o =
      if o = store.objects.length then { reference, context := c, type } else store.object o :=
    store.object_append _ o
  have hlength : (store.make f c reference type).2.objects.length = store.objects.length + 1 :=
    List.length_append
  refine ⟨rfl, List.prefix_append _ _, hlearns, ?_, ?_⟩
  . intro hsound
    refine ⟨hsound.context_pos, ?_⟩
    intro object hmem
    rcases List.mem_append.1 hmem with hold | hnew
    . exact hsound.context_lt object hold
    . rw [List.mem_singleton.1 hnew]
      exact hc hsound
  . intro htyped
    refine ⟨fun c => Nat.lt_of_lt_of_le (htyped.factory_lt c) hlearns.length_le, ?_, ?_⟩
    . intro g reference' o hmem
      -- An entry is the new one, or an old one of an object that is still there.
      have hentry : (g = f ∧ reference' = reference ∧ o = store.objects.length) ∨
          (reference', o) ∈ (store.factory g).tracked := by
        unfold make at hmem
        rw [factory_modifyFactory] at hmem
        split at hmem
        . next h =>
          rcases mem_track hmem with hnew | hold
          . cases hnew
            exact .inl ⟨h.1.symm, rfl, rfl⟩
          . exact .inr hold
        . exact .inr hmem
      rw [hlength, hobject]
      rcases hentry with ⟨rfl, rfl, rfl⟩ | hold
      . rw [if_pos rfl]
        have hg := lt_of_mem_tracked hmem
        unfold make modifyFactory at hg
        rw [List.length_modify] at hg
        exact ⟨Nat.lt_succ_self _, rfl, hlearns.knownType?_eq _ hg _ _ htype⟩
      . obtain ⟨ho, hreference, hknown⟩ := htyped.tracked g reference' o hold
        rw [if_neg (Nat.ne_of_lt ho)]
        exact ⟨Nat.lt_succ_of_lt ho, hreference,
          hlearns.knownType?_eq g (lt_of_mem_tracked hold) _ _ hknown⟩
    . intro o fetch fetched hknown
      rw [hobject] at hknown
      split at hknown
      . cases fetch <;> cases hknown
      . next hne =>
        have hhome : (store.make f c reference type).2.homeOf o = store.homeOf o := by
          unfold homeOf
          rw [hobject, if_neg hne]
          rfl
        rw [hhome]
        exact hlearns.makes (htyped.factory_lt _) (htyped.known o fetch fetched hknown)

/-!
## Proxies of references
-/

theorem mem_tracked_of_lookup? {store : Store} {f : Nat} {reference : Reference} {o : ObjectId}
    (h : store.lookup? f reference = some o) : (reference, o) ∈ (store.factory f).tracked := by
  obtain ⟨hlookup, _⟩ := Option.filter_eq_some_iff.1 h
  obtain ⟨earlier, later, heq, _⟩ := List.lookup_eq_some_iff.1 hlookup
  simp [heq]

theorem resolve_cases (store : Store) (f c : Nat) (reference : Reference)
    : (∃ o, store.lookup? f reference = some o ∧
        store.resolve f c reference = (.ok o, store.hold o)) ∨
      (∃ error, store.lookup? f reference = none ∧ store.knownType? f reference = none ∧
        store.resolve f c reference = (.error error, store)) ∨
      (∃ type, store.lookup? f reference = none ∧ store.knownType? f reference = some type ∧
        store.resolve f c reference =
          (.ok store.objects.length,
            (store.make f c reference type).2.hold store.objects.length)) := by
  unfold resolve
  split
  . next o hlookup => exact .inl ⟨o, hlookup, rfl⟩
  . next hlookup =>
    right
    unfold knownType? KindTable.type
    cases (store.kindTable f).lookup reference.kind with
    | none => exact .inl ⟨_, hlookup, rfl, rfl⟩
    | some type => exact .inr ⟨type, hlookup, rfl, rfl⟩

theorem extends_resolve (store : Store) (f : Nat) {c : Nat} (reference : Reference)
    (hc : store.Sound → c < store.contexts.length)
    : store.Extends (store.resolve f c reference).2 := by
  rcases store.resolve_cases f c reference with
    ⟨o, _, hresolve⟩ | ⟨error, _, _, hresolve⟩ | ⟨type, _, htype, hresolve⟩
  . rw [hresolve]
    apply extends_hold
  . rw [hresolve]
    exact .refl store
  . rw [hresolve]
    exact (store.extends_make f hc htype).trans (extends_hold _ _)

theorem extends_resolveAs (store : Store) (f : Nat) {c : Nat} (reference : Reference)
    (type : ProxyClass) (hc : store.Sound → c < store.contexts.length)
    : store.Extends (store.resolveAs f c reference type).2 := by
  have hresolve := store.extends_resolve f reference hc
  unfold resolveAs
  split
  . next heq =>
    rw [heq] at hresolve
    exact hresolve
  . next heq =>
    rw [heq] at hresolve
    split
    . exact hresolve
    . exact hresolve.trans (extends_letGo _ _)

theorem extends_resolveFor (store : Store) (o : ObjectId) (reference : Reference)
    : store.Extends (store.resolveFor o reference).2 :=
  store.extends_resolve _ reference (·.object_context_lt o)

theorem extends_resolvePipelineFor (store : Store) (o : ObjectId) (reference : Reference)
    : store.Extends (store.resolvePipelineFor o reference).2 :=
  store.extends_resolveAs _ reference _ (·.object_context_lt o)

theorem extends_resolveParentFor (store : Store) (o : ObjectId) (parent : Option Reference)
    : store.Extends (store.resolveParentFor o parent).2 := by
  unfold resolveParentFor
  split
  . exact .refl _
  . apply store.extends_resolveFor o

theorem extends_start (store : Store) (o : ObjectId) (operation : Operation)
    : store.Extends (store.start o operation).2 := by
  unfold start
  dsimp only
  split
  . exact .refl _
  . split
    . split
      . apply store.extends_resolveParentFor o
      . exact .refl _
    . split
      . apply store.extends_resolvePipelineFor o
      . split
        . apply store.extends_resolvePipelineFor o
        . exact .refl _
    . exact .refl _

theorem extends_ownPipeline (store : Store) (o : ObjectId)
    : store.Extends (store.ownPipeline o).2 := by
  unfold ownPipeline
  dsimp only
  split
  . exact .refl _
  . apply extends_hold

structure Stands (store : Store) (o : ObjectId) (reference : Reference) (type : ProxyClass) : Prop where
  object_lt : o < store.objects.length
  reference_eq : (store.object o).reference = reference
  type_eq : (store.object o).type = type

section
variable {store : Store} {f c : Nat} {reference : Reference}

theorem Typed.resolve (h : store.Typed) (f c : Nat) (reference : Reference)
    : match store.knownType? f reference with
      | some type =>
        ∃ o after, store.resolve f c reference = (.ok o, after) ∧ after.Stands o reference type
      | none => ∃ error, store.resolve f c reference = (.error error, store) := by
  rcases store.resolve_cases f c reference with
    ⟨o, hlookup, hresolve⟩ | ⟨error, _, hnone, hresolve⟩ | ⟨type, _, htype, hresolve⟩
  . obtain ⟨ho, hreference, hknown⟩ := h.tracked f reference o (mem_tracked_of_lookup? hlookup)
    rw [hknown]
    exact ⟨o, _, hresolve, ho, hreference, rfl⟩
  . rw [hnone]
    exact ⟨error, hresolve⟩
  . rw [htype]
    have hobject : ((store.make f c reference type).2.hold store.objects.length).object
        store.objects.length = { reference, context := c, type } :=
      (store.object_append _ _).trans (if_pos rfl)
    refine ⟨_, _, hresolve, ?_, ?_, ?_⟩
    . unfold hold make modifyFactory
      simp
    . rw [hobject]
    . rw [hobject]

theorem Typed.resolve_ok (h : store.Typed) {type : ProxyClass}
    (htype : store.knownType? f reference = some type) (c : Nat)
    : ∃ o after, store.resolve f c reference = (.ok o, after) ∧ after.Stands o reference type := by
  have hresolve := h.resolve f c reference
  rw [htype] at hresolve
  exact hresolve

theorem Typed.of_resolve (h : store.Typed) {o : ObjectId} {after : Store}
    (hresolve : store.resolve f c reference = (.ok o, after))
    : ∃ type, store.knownType? f reference = some type ∧ after.Stands o reference type := by
  have hcases := h.resolve f c reference
  cases htype : store.knownType? f reference with
  | none =>
    rw [htype] at hcases
    obtain ⟨error, heq⟩ := hcases
    rw [hresolve] at heq
    cases heq
  | some type =>
    rw [htype] at hcases
    obtain ⟨p, store', heq, hstands⟩ := hcases
    rw [hresolve] at heq
    cases heq
    exact ⟨type, rfl, hstands⟩

theorem Typed.resolveAs_ok (h : store.Typed) {type : ProxyClass}
    (htype : store.knownType? f reference = some type) (c : Nat)
    : ∃ o after, store.resolveAs f c reference type = (.ok o, after) ∧
        after.Stands o reference type := by
  obtain ⟨o, after, hresolve, hstands⟩ := h.resolve_ok htype c
  unfold Store.resolveAs
  rw [hresolve]
  dsimp only
  rw [if_pos hstands.type_eq]
  exact ⟨o, after, rfl, hstands⟩

theorem Typed.of_resolveAs (h : store.Typed) {type : ProxyClass} {o : ObjectId} {after : Store}
    (hresolve : store.resolveAs f c reference type = (.ok o, after))
    : store.knownType? f reference = some type ∧ after.Stands o reference type := by
  unfold Store.resolveAs at hresolve
  split at hresolve
  . cases hresolve
  . next p store' heq =>
    obtain ⟨type', htype, hstands⟩ := h.of_resolve heq
    split at hresolve
    . next hsame =>
      cases hresolve
      rw [hstands.type_eq] at hsame
      rw [← hsame]
      exact ⟨htype, hstands⟩
    . cases hresolve

end

/-!
## What users do
-/

theorem lookup_register {table after : KindTable} {kind : String} {type : ProxyClass}
    (h : table.register kind type = .ok after) {other : String} {type' : ProxyClass}
    (hlookup : table.lookup other = some type') : after.lookup other = some type' := by
  unfold KindTable.register at h
  split at h
  . cases h
  . cases h
    rw [List.lookup_append, hlookup]
    rfl

theorem extends_registerKind (store : Store) (f : Nat) (kind : String) (type : ProxyClass)
    : store.Extends (store.registerKind f kind type).2 := by
  unfold registerKind
  split
  . exact .refl store
  . next table hregister =>
    refine .of_learns rfl rfl ?_ fun _ => List.Subset.refl _
    refine .of_tables (Nat.le_refl _) (fun _ _ => rfl) ?_
    intro k other type' hlookup
    rw [List.getD_eq_getElem?_getD] at hlookup ⊢
    rw [List.getElem?_set]
    split
    . next hk =>
      split
      . rw [← hk, ← List.getD_eq_getElem?_getD] at hlookup
        apply lookup_register hregister hlookup
      . next hlt =>
        rw [List.getElem?_eq_none (by omega)] at hlookup
        cases hlookup
    . exact hlookup

theorem extends_registerDecoder (store : Store) (c : Nat) (type : String) (decoder : Decoder)
    : store.Extends (store.registerDecoder c type decoder).2 := by
  unfold registerDecoder
  split
  . exact .refl store
  . exact .of_eq rfl rfl rfl rfl

theorem extends_addKindTable (store : Store) (table : KindTable)
    : store.Extends (store.addKindTable table).2 := by
  refine .of_learns rfl rfl ?_ fun _ => List.Subset.refl _
  refine .of_tables (Nat.le_refl _) (fun _ _ => rfl) ?_
  intro k kind type hlookup
  unfold addKindTable
  dsimp only
  rw [List.getD_eq_getElem?_getD] at hlookup ⊢
  by_cases hk : k < store.kindTables.length
  . rw [List.getElem?_append_left hk]
    exact hlookup
  . rw [List.getElem?_eq_none (by omega)] at hlookup
    cases hlookup

theorem extends_addRegistry (store : Store) : store.Extends store.addRegistry.2 :=
  .of_eq rfl rfl rfl rfl

theorem extends_addDecoders (store : Store) : store.Extends store.addDecoders.2 :=
  .of_eq rfl rfl rfl rfl

theorem factory_addFactory (store : Store) (kinds f : Nat)
    : (store.addFactory kinds).2.factory f =
        if f = store.factories.length then { kinds } else store.factory f :=
  getD_concat _ _ _ _

theorem extends_addFactory (store : Store) (kinds : Nat)
    : store.Extends (store.addFactory kinds).2 := by
  refine .of_learns rfl rfl (.of_tables (List.prefix_append _ _).length_le ?_ fun _ _ _ h => h) ?_
  . intro f hf
    rw [factory_addFactory, if_neg (Nat.ne_of_lt hf)]
  . intro f
    rw [factory_addFactory]
    split
    . apply List.nil_subset
    . apply List.Subset.refl

def addContext (store : Store) (context : Context) : Store :=
  { store with contexts := store.contexts ++ [context] }

theorem Sound.addContext {store : Store} (h : store.Sound) (context : Context)
    : (store.addContext context).Sound := by
  have hlength : (store.addContext context).contexts.length = store.contexts.length + 1 :=
    List.length_append
  refine ⟨by rw [hlength]; omega, ?_⟩
  intro object hobject
  have hlt := h.context_lt object hobject
  rw [hlength]
  omega

theorem context_addContext (store : Store) (context : Context) {c : Nat}
    (h : c < store.contexts.length)
    : (store.addContext context).context c = store.context c := by
  unfold addContext Store.context
  dsimp only
  rw [List.getD_eq_getElem?_getD, List.getD_eq_getElem?_getD, List.getElem?_append_left h]

theorem Typed.addContext {store : Store} (h : store.Typed) (hsound : store.Sound)
    {context : Context} (hfactory : context.factory < store.factories.length)
    : (store.addContext context).Typed := by
  refine ⟨?_, h.tracked, ?_⟩
  . intro c
    by_cases hc : c < store.contexts.length
    . rw [context_addContext store context hc]
      exact h.factory_lt c
    . unfold Store.context Store.addContext
      dsimp only
      rw [List.getD_eq_getElem?_getD, List.getElem?_append_right (by omega)]
      cases c - store.contexts.length with
      | zero => exact hfactory
      | succ n => exact Nat.lt_of_le_of_lt (Nat.zero_le _) hfactory
  . intro o fetch fetched hknown
    have hhome : (store.addContext context).homeOf o = store.homeOf o :=
      congrArg Context.factory (context_addContext store context (hsound.object_context_lt o))
    rw [hhome]
    cases fetched <;> exact h.known o fetch _ hknown

theorem extends_dispatchUpTo (known : List (String × Subscription)) (depth : Nat) (store : Store)
    (c : Nat) (source : Reference) (token : String) (event : Event)
    : store.Extends (store.dispatchUpTo known depth c source token event).2.2 := by
  -- A handler may raise events, so the events of one depth raise those of the next.
  induction depth generalizing store c source token event with
  | zero => exact .refl _
  | succ depth ih =>
    unfold dispatchUpTo
    generalize (store.registry c).dispatch? source token = found
    cases found with
    | none => exact .refl _
    | some listener =>
      dsimp only
      -- The notices do not matter to the store.
      generalize [Notice.told listener.name source event] = notices
      generalize listener.follows = follows
      induction follows generalizing store notices with
      | nil => exact .refl _
      | cons follow follows ihFollows =>
        rw [List.foldl_cons]
        cases follow with
        | remove name =>
          dsimp only
          split
          . apply ihFollows
          . exact (extends_modifyRegistry _ _ _).trans (ihFollows _ _)
        | dispatch source token event => exact (ih _ _ _ _ _).trans (ihFollows _ _)

inductive Move where
  | hold (o : ObjectId)
  | letGo (o : ObjectId)
  | resolve (f c : Nat) (reference : Reference)
  | resolveAs (f c : Nat) (reference : Reference) (type : ProxyClass)
  | forget (f : Nat) (reference : Reference)
  | sweep (f : Nat)
  | ownPipeline (o : ObjectId)
  | registerKind (f : Nat) (kind : String) (type : ProxyClass)
  | registerDecoder (c : Nat) (type : String) (decoder : Decoder)
  | addListener (c : Nat) (subscription : Subscription) (listener : Listener)
  | removeListener (c : Nat) (subscription : Subscription)
  | dispatch (known : List (String × Subscription)) (c : Nat) (source : Reference)
    (token : String) (event : Event)
  | addKindTable (table : KindTable)
  | addRegistry
  | addDecoders
  | addFactory (kinds : Nat)

def perform (store : Store) : Move → Store
  | .hold o => store.hold o
  | .letGo o => store.letGo o
  | .resolve f c reference => (store.resolve f c reference).2
  | .resolveAs f c reference type => (store.resolveAs f c reference type).2
  | .forget f reference => (store.forget f reference).2
  | .sweep f => (store.sweep f).2
  | .ownPipeline o => (store.ownPipeline o).2
  | .registerKind f kind type => (store.registerKind f kind type).2
  | .registerDecoder c type decoder => (store.registerDecoder c type decoder).2
  | .addListener c subscription listener => store.modifyRegistry c (·.add subscription listener)
  | .removeListener c subscription => store.modifyRegistry c (·.remove subscription)
  | .dispatch known c source token event => (store.dispatch known c source token event).2.2
  | .addKindTable table => (store.addKindTable table).2
  | .addRegistry => store.addRegistry.2
  | .addDecoders => store.addDecoders.2
  | .addFactory kinds => (store.addFactory kinds).2

def Admits (store : Store) : Move → Prop
  | .resolve _ c _ => c < store.contexts.length
  | .resolveAs _ c _ _ => c < store.contexts.length
  | _ => True

theorem extends_perform {store : Store} {move : Move} (h : store.Admits move)
    : store.Extends (store.perform move) := by
  cases move with
  | hold o => apply store.extends_hold o
  | letGo o => apply store.extends_letGo o
  | resolve f c reference => apply store.extends_resolve f reference fun _ => h
  | resolveAs f c reference type => apply store.extends_resolveAs f reference type fun _ => h
  | forget f reference => apply store.extends_forget f
  | sweep f => apply store.extends_sweep f
  | ownPipeline o => apply store.extends_ownPipeline o
  | registerKind f kind type => apply store.extends_registerKind f kind type
  | registerDecoder c type decoder => apply store.extends_registerDecoder c type decoder
  | addListener c => apply store.extends_modifyRegistry c
  | removeListener c => apply store.extends_modifyRegistry c
  | dispatch known c source token event =>
    apply extends_dispatchUpTo known store.dispatchDepth store c source token event
  | addKindTable table => apply store.extends_addKindTable table
  | addRegistry => apply store.extends_addRegistry
  | addDecoders => apply store.extends_addDecoders
  | addFactory kinds => apply store.extends_addFactory kinds

end Store

end MediaProxy
