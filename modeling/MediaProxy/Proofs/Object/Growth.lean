import MediaProxy.Proofs.Object.Extension

/-!
This module contains what no operation takes away: contexts stay as they were made, an object keeps its
reference, its context and its type, and what is known of its parent and its pipeline stays known.
-/

namespace MediaProxy

namespace MediaObject

def identity (object : MediaObject) : Reference × Nat × ProxyClass :=
  (object.reference, object.context, object.type)

structure Ages (before after : MediaObject) : Prop where
  identity_eq : after.identity = before.identity
  released : before.released = true → after.released = true
  known_eq : ∀ fetch fetched, before.known fetch = some fetched → after.known fetch = some fetched

theorem Ages.refl (object : MediaObject) : object.Ages object :=
  ⟨rfl, id, fun _ _ h => h⟩

theorem Ages.trans {first second third : MediaObject} (h : first.Ages second)
    (h' : second.Ages third) : first.Ages third :=
  ⟨h'.identity_eq.trans h.identity_eq, h'.released ∘ h.released,
    fun fetch fetched hknown => h'.known_eq fetch fetched (h.known_eq fetch fetched hknown)⟩

theorem Ages.context_eq {before after : MediaObject} (h : before.Ages after)
    : after.context = before.context :=
  congrArg (·.2.1) h.identity_eq

theorem Ages.reference_eq {before after : MediaObject} (h : before.Ages after)
    : after.reference = before.reference :=
  congrArg (·.1) h.identity_eq

theorem Ages.type_eq {before after : MediaObject} (h : before.Ages after)
    : after.type = before.type :=
  congrArg (·.2.2) h.identity_eq

def learn (object : MediaObject) : Fetched → MediaObject
  | .parent parent => { object with parent := some parent }
  | .pipeline reference => { object with pipeline := some reference }

theorem known_learn (object : MediaObject) (fetched : Fetched) (fetch : Operation)
    : (object.learn fetched).known fetch =
        if fetch = fetched.operation then some fetched else object.known fetch := by
  cases fetched <;> cases fetch <;> rfl

theorem ages_learn {object : MediaObject} {fetched : Fetched}
    (h : object.known fetched.operation = none) : object.Ages (object.learn fetched) := by
  refine ⟨by cases fetched <;> rfl, fun hreleased => by cases fetched <;> exact hreleased, ?_⟩
  intro fetch other hknown
  rw [known_learn]
  split
  . next heq =>
    rw [heq, h] at hknown
    cases hknown
  . exact hknown

end MediaObject

namespace Store

structure Grows (before after : Store) : Prop where
  contexts : after.contexts = before.contexts
  length_objects : before.objects.length ≤ after.objects.length
  ages : ∀ o, o < before.objects.length → (before.object o).Ages (after.object o)
  learns : before.Learns after
  sound : before.Sound → after.Sound
  typed : before.Typed → after.Typed

theorem Extends.grows {before after : Store} (h : before.Extends after) : before.Grows after := by
  refine ⟨h.contexts, h.length_objects, ?_, h.learns, h.sound, h.typed⟩
  intro o ho
  rw [h.object_eq ho]
  exact .refl _

namespace Grows

theorem refl (store : Store) : store.Grows store :=
  (Extends.refl store).grows

theorem trans {first second third : Store} (h : first.Grows second) (h' : second.Grows third)
    : first.Grows third where
  contexts := h'.contexts.trans h.contexts
  length_objects := Nat.le_trans h.length_objects h'.length_objects
  ages o ho := (h.ages o ho).trans (h'.ages o (Nat.lt_of_lt_of_le ho h.length_objects))
  learns := h.learns.trans h'.learns
  sound := h'.sound ∘ h.sound
  typed := h'.typed ∘ h.typed

theorem context_eq {before after : Store} (h : before.Grows after) (c : Nat)
    : after.context c = before.context c := by
  unfold context
  rw [h.contexts]

end Grows

/-!
## Changing objects
-/

section
variable {store : Store} {o : ObjectId} {change : MediaObject → MediaObject}

theorem mem_modifyObject {object : MediaObject} (h : object ∈ (store.modifyObject o change).objects)
    : object ∈ store.objects ∨ ∃ old ∈ store.objects, object = change old := by
  unfold modifyObject at h
  obtain ⟨i, hi⟩ := List.mem_iff_getElem?.1 h
  rw [List.getElem?_modify, Option.map_eq_map, Option.map_eq_some_iff] at hi
  obtain ⟨old, hold, heq⟩ := hi
  have hmem := List.mem_iff_getElem?.2 ⟨i, hold⟩
  split at heq
  . exact .inr ⟨old, hmem, heq.symm⟩
  . rw [← heq]
    exact .inl hmem

theorem length_modifyObject
    : (store.modifyObject o change).objects.length = store.objects.length :=
  List.length_modify _ _ _

theorem ages_modifyObject (h : (store.object o).Ages (change (store.object o))) (p : ObjectId)
    : (store.object p).Ages ((store.modifyObject o change).object p) := by
  rw [object_modifyObject]
  split
  . next heq =>
    rw [← heq.1]
    exact h
  . exact .refl _

theorem Grows.modifyObject {first : Store} (h : first.Grows store)
    (hages : (store.object o).Ages (change (store.object o)))
    (hcontext : ∀ object, (change object).context = object.context)
    (hknown : first.Typed → ∀ fetch fetched,
      (change (store.object o)).known fetch = some fetched → store.Makes (store.homeOf o) fetched)
    : first.Grows (store.modifyObject o change) := by
  have hall := ages_modifyObject hages
  have hlength : (store.modifyObject o change).objects.length = store.objects.length :=
    length_modifyObject
  refine ⟨h.contexts, Nat.le_trans h.length_objects (Nat.le_of_eq hlength.symm),
    fun p hp => (h.ages p hp).trans (hall p), h.learns.trans (.of_eq rfl rfl), ?_, ?_⟩
  . intro hfirst
    have hsound := h.sound hfirst
    refine ⟨hsound.context_pos, ?_⟩
    intro object hmem
    rcases mem_modifyObject hmem with hold | ⟨old, hold, heq⟩
    . exact hsound.context_lt object hold
    . rw [heq, hcontext]
      exact hsound.context_lt old hold
  . intro hfirst
    have htyped := h.typed hfirst
    refine ⟨htyped.factory_lt, ?_, ?_⟩
    . intro f reference p hmem
      obtain ⟨hp, hreference, htype⟩ := htyped.tracked f reference p hmem
      rw [hlength, (hall p).reference_eq, (hall p).type_eq]
      exact ⟨hp, hreference, htype⟩
    . intro p fetch fetched hp
      have hhome : (store.modifyObject o change).homeOf p = store.homeOf p := by
        unfold homeOf
        rw [(hall p).context_eq]
        rfl
      have hmakes : store.Makes (store.homeOf p) fetched := by
        rw [object_modifyObject] at hp
        split at hp
        . next heq =>
          rw [← heq.1] at hp ⊢
          exact hknown hfirst fetch fetched hp
        . exact htyped.known p fetch fetched hp
      rw [hhome]
      cases fetched <;> exact hmakes

end

theorem grows_finishRelease (store : Store) (o : ObjectId)
    : store.Grows (store.finishRelease o) := by
  have hforget := (extends_forget (store.modifyObject o ({ · with released := true }))
    (store.context (store.object o).context).factory (store.object o).reference).grows
  refine Grows.trans ?_ hforget
  apply (Grows.refl store).modifyObject
  . exact ⟨rfl, fun _ => rfl, fun _ _ h => h⟩
  . exact fun _ => rfl
  . exact fun htyped => htyped.known o

/-!
## Fetches
-/

inductive Shows (store : Store) : Value → Fetched → Prop where
  | absent : store.Shows (.parent none) (.parent none)
  | parent {o : ObjectId} {reference : Reference} {type : ProxyClass}
    (h : store.Stands o reference type) :
    store.Shows (.parent (some o)) (.parent (some reference))
  | pipeline {o : ObjectId} {reference : Reference} (h : store.Stands o reference .pipeline) :
    store.Shows (.pipeline o) (.pipeline reference)

theorem Shows.ages {before after : Store} {value : Value} {fetched : Fetched}
    (h : before.Shows value fetched) (hlength : before.objects.length ≤ after.objects.length)
    (hages : ∀ o, o < before.objects.length → (before.object o).Ages (after.object o))
    : after.Shows value fetched := by
  have hstands {o : ObjectId} {reference : Reference} {type : ProxyClass}
      (h : before.Stands o reference type) : after.Stands o reference type :=
    ⟨Nat.lt_of_lt_of_le h.object_lt hlength,
      (hages o h.object_lt).reference_eq.trans h.reference_eq,
      (hages o h.object_lt).type_eq.trans h.type_eq⟩
  cases h with
  | absent => exact .absent
  | parent h => exact .parent (hstands h)
  | pipeline h => exact .pipeline (hstands h)

theorem Grows.shows {before after : Store} (h : before.Grows after) {value : Value}
    {fetched : Fetched} (hshows : before.Shows value fetched) : after.Shows value fetched :=
  hshows.ages h.length_objects h.ages

def resolveFetched (store : Store) (o : ObjectId) : Fetched → Except Error Value × Store
  | .parent parent => store.resolveParentFor o parent
  | .pipeline reference => store.resolvePipelineFor o reference

theorem resolveFetched_parent (store : Store) (o : ObjectId) (parent : Option Reference)
    : store.resolveFetched o (.parent parent) = store.resolveParentFor o parent :=
  rfl

theorem resolveFetched_pipeline (store : Store) (o : ObjectId) (reference : Reference)
    : store.resolveFetched o (.pipeline reference) = store.resolvePipelineFor o reference :=
  rfl

theorem extends_resolveFetched (store : Store) (o : ObjectId) (fetched : Fetched)
    : store.Extends (store.resolveFetched o fetched).2 := by
  cases fetched with
  | parent parent => apply store.extends_resolveParentFor o
  | pipeline reference => apply store.extends_resolvePipelineFor o

section
variable {store : Store} {o : ObjectId}

theorem Typed.resolveFetched_ok (h : store.Typed) {fetched : Fetched}
    (hmakes : store.Makes (store.homeOf o) fetched)
    : ∃ value after, store.resolveFetched o fetched = (.ok value, after) ∧
        after.Shows value fetched := by
  unfold homeOf at hmakes
  cases fetched with
  | parent parent =>
    cases parent with
    | none => exact ⟨_, _, rfl, .absent⟩
    | some reference =>
      obtain ⟨type, htype⟩ := hmakes
      obtain ⟨p, after, hresolve, hstands⟩ := h.resolve_ok htype (store.object o).context
      unfold resolveFetched resolveParentFor resolveFor
      dsimp only
      rw [hresolve]
      exact ⟨_, _, rfl, .parent hstands⟩
  | pipeline reference =>
    obtain ⟨p, after, hresolve, hstands⟩ := h.resolveAs_ok hmakes (store.object o).context
    unfold resolveFetched resolvePipelineFor
    dsimp only
    rw [hresolve]
    exact ⟨_, _, rfl, .pipeline hstands⟩

theorem Typed.of_resolveFetched (h : store.Typed) {fetched : Fetched} {value : Value}
    {after : Store} (hresolve : store.resolveFetched o fetched = (.ok value, after))
    : store.Makes (store.homeOf o) fetched ∧ after.Shows value fetched := by
  unfold homeOf
  cases fetched with
  | parent parent =>
    cases parent with
    | none =>
      cases hresolve
      exact ⟨trivial, .absent⟩
    | some reference =>
      unfold resolveFetched resolveParentFor resolveFor at hresolve
      dsimp only at hresolve
      generalize heq : store.resolve _ _ reference = resolved at hresolve
      obtain ⟨error | p, store'⟩ := resolved
      . cases hresolve
      . cases hresolve
        obtain ⟨type, htype, hstands⟩ := h.of_resolve heq
        exact ⟨⟨type, htype⟩, .parent hstands⟩
  | pipeline reference =>
    unfold resolveFetched resolvePipelineFor at hresolve
    dsimp only at hresolve
    generalize heq : store.resolveAs _ _ reference _ = resolved at hresolve
    obtain ⟨error | p, store'⟩ := resolved
    . cases hresolve
    . cases hresolve
      obtain ⟨htype, hstands⟩ := h.of_resolveAs heq
      exact ⟨htype, .pipeline hstands⟩

end

inductive Started (store : Store) (o : ObjectId) (operation : Operation) :
    Beginning × Store → Prop where
  | refused (h : (store.object o).released = true) :
    store.Started o operation (.answered (.error (releasedError (store.object o))), store)
  | own (h : (store.object o).released = false) (hfetch : operation = .getMediaPipeline)
    (hpipeline : (store.object o).reference.isPipeline = true) :
    store.Started o operation
      (.answered (store.resolveFetched o (.pipeline (store.object o).reference)).1,
        (store.resolveFetched o (.pipeline (store.object o).reference)).2)
  | known (fetched : Fetched) (h : (store.object o).released = false)
    (hpipeline : operation = .getMediaPipeline → (store.object o).reference.isPipeline = false)
    (hknown : (store.object o).known operation = some fetched) :
    store.Started o operation
      (.answered (store.resolveFetched o fetched).1, (store.resolveFetched o fetched).2)
  | asks (h : (store.object o).released = false)
    (hpipeline : operation = .getMediaPipeline → (store.object o).reference.isPipeline = false)
    (hknown : (store.object o).known operation = none) :
    store.Started o operation
      (.asks (operation.request (store.context (store.object o).context).config), store)

theorem started_start (store : Store) (o : ObjectId) (operation : Operation)
    : store.Started o operation (store.start o operation) := by
  unfold start
  dsimp only
  split
  . next h => exact .refused h
  . next h =>
    have hreleased : (store.object o).released = false := by simpa using h
    split
    . split
      . next parent hparent =>
        refine .known (.parent parent) hreleased nofun ?_
        simp [MediaObject.known, hparent]
      . next hparent =>
        refine .asks hreleased nofun ?_
        simp [MediaObject.known, hparent]
    . split
      . next hpipeline => exact .own hreleased rfl hpipeline
      . next hpipeline =>
        have hnot : (store.object o).reference.isPipeline = false := by simpa using hpipeline
        split
        . next pipeline hknown =>
          refine .known (.pipeline pipeline) hreleased (fun _ => hnot) ?_
          simp [MediaObject.known, hknown]
        . next hknown =>
          refine .asks hreleased (fun _ => hnot) ?_
          simp [MediaObject.known, hknown]
    . next hparent hpipeline =>
      refine .asks hreleased (fun h => absurd h hpipeline) ?_
      cases operation with
      | getParent => exact absurd rfl hparent
      | getMediaPipeline => exact absurd rfl hpipeline
      | _ => rfl

def finishFetch (store : Store) (o : ObjectId) (fetched : Fetched) :
    Except Error Value × Store :=
  match store.resolveFetched o fetched with
  | (.error error, store) => (.error error, store)
  | (.ok value, store) =>
    match (store.object o).known fetched.operation with
    | none => (.ok value, store.modifyObject o (·.learn fetched))
    | some known =>
      if known = fetched then (.ok value, store)
      else
        let (result, store) := store.resolveFetched o known
        (result, value.held.foldl letGo store)

theorem finishParent_eq (store : Store) (o : ObjectId) (parent : Option Reference)
    : store.finishParent o parent = store.finishFetch o (.parent parent) := by
  unfold finishParent finishFetch
  rw [resolveFetched_parent]
  generalize store.resolveParentFor o parent = resolved
  obtain ⟨error | value, after⟩ := resolved
  . rfl
  . unfold MediaObject.known Fetched.operation
    dsimp only
    cases (after.object o).parent with
    | none => rfl
    | some known => by_cases h : known = parent <;> simp [h, resolveFetched]

theorem finishPipeline_eq (store : Store) (o : ObjectId) (pipeline : Reference)
    : store.finishPipeline o pipeline = store.finishFetch o (.pipeline pipeline) := by
  unfold finishPipeline finishFetch
  rw [resolveFetched_pipeline]
  generalize store.resolvePipelineFor o pipeline = resolved
  obtain ⟨error | value, after⟩ := resolved
  . rfl
  . unfold MediaObject.known Fetched.operation
    dsimp only
    cases (after.object o).pipeline with
    | none => rfl
    | some known => by_cases h : known = pipeline <;> simp [h, resolveFetched]

inductive Ended (store : Store) (o : ObjectId) (fetched : Fetched) :
    Except Error Value × Store → Prop where
  | failed {error : Error} {after : Store}
    (h : store.resolveFetched o fetched = (.error error, after)) :
    store.Ended o fetched (.error error, after)
  | kept {value : Value} {after : Store} (h : store.resolveFetched o fetched = (.ok value, after))
    (hknown : (after.object o).known fetched.operation = none) :
    store.Ended o fetched (.ok value, after.modifyObject o (·.learn fetched))
  | same {value : Value} {after : Store} (h : store.resolveFetched o fetched = (.ok value, after))
    (hknown : (after.object o).known fetched.operation = some fetched) :
    store.Ended o fetched (.ok value, after)
  | replaced {value : Value} {after : Store} {known : Fetched}
    (h : store.resolveFetched o fetched = (.ok value, after))
    (hknown : (after.object o).known fetched.operation = some known) :
    store.Ended o fetched
      ((after.resolveFetched o known).1, value.held.foldl letGo (after.resolveFetched o known).2)

theorem ended_finishFetch (store : Store) (o : ObjectId) (fetched : Fetched)
    : store.Ended o fetched (store.finishFetch o fetched) := by
  unfold finishFetch
  split
  . next heq => exact .failed heq
  . next heq =>
    split
    . next hknown => exact .kept heq hknown
    . next hknown =>
      split
      . next hsame =>
        rw [hsame] at hknown
        exact .same heq hknown
      . exact .replaced heq hknown

theorem context_resolve (store : Store) (f : Nat) (reference : Reference) (o : ObjectId)
    : ((store.resolve f (store.object o).context reference).2.object o).context =
        (store.object o).context := by
  rcases store.resolve_cases f (store.object o).context reference with
    ⟨p, _, hresolve⟩ | ⟨error, _, _, hresolve⟩ | ⟨type, _, _, hresolve⟩
  . rw [hresolve]
    rfl
  . rw [hresolve]
  . rw [hresolve]
    change (Store.object { store with objects := store.objects ++ [_] } o).context = _
    rw [object_append]
    split <;> rfl

theorem homeOf_resolveFetched (store : Store) (o : ObjectId) (fetched : Fetched)
    : (store.resolveFetched o fetched).2.homeOf o = store.homeOf o := by
  have hcontexts := (store.extends_resolveFetched o fetched).contexts
  have hcontext : ((store.resolveFetched o fetched).2.object o).context =
      (store.object o).context := by
    cases fetched with
    | parent parent =>
      cases parent with
      | none => rfl
      | some reference => apply store.context_resolve
    | pipeline reference =>
      unfold resolveFetched resolvePipelineFor resolveAs
      dsimp only
      have hresolve := store.context_resolve
        (store.context (store.object o).context).factory reference o
      generalize store.resolve _ (store.object o).context reference = resolved at hresolve ⊢
      obtain ⟨error | p, after⟩ := resolved
      . exact hresolve
      . dsimp only
        split <;> exact hresolve
  unfold homeOf context
  rw [hcontexts, hcontext]

theorem grows_finishFetch (store : Store) (o : ObjectId) (fetched : Fetched)
    : store.Grows (store.finishFetch o fetched).2 := by
  have hresolve := store.extends_resolveFetched o fetched
  have hended := store.ended_finishFetch o fetched
  generalize store.finishFetch o fetched = ended at hended
  cases hended with
  | failed h =>
    rw [h] at hresolve
    exact hresolve.grows
  | same h =>
    rw [h] at hresolve
    exact hresolve.grows
  | replaced h =>
    rw [h] at hresolve
    apply hresolve.grows.trans
    apply (extends_resolveFetched _ _ _).grows.trans
    exact (extends_foldl_letGo _ _).grows
  | @kept value after h hknown =>
    have hhome := store.homeOf_resolveFetched o fetched
    rw [h] at hresolve hhome
    apply hresolve.grows.modifyObject
    . exact MediaObject.ages_learn hknown
    . intro object
      cases fetched <;> rfl
    . intro htyped fetch other hother
      rw [MediaObject.known_learn] at hother
      split at hother
      . cases hother
        have hmakes := (htyped.of_resolveFetched h).1
        rw [← hhome] at hmakes
        apply hresolve.learns.makes _ hmakes
        rw [hhome]
        exact htyped.factory_lt _
      . exact (hresolve.typed htyped).known o fetch other hother

section
variable {store after : Store} {o : ObjectId} {fetched : Fetched}

theorem Typed.of_finishFetch (h : store.Typed) (ho : o < store.objects.length) {value : Value}
    (hfinish : store.finishFetch o fetched = (.ok value, after))
    : ∃ known, (after.object o).known fetched.operation = some known ∧ after.Shows value known := by
  have hended := store.ended_finishFetch o fetched
  rw [hfinish] at hended
  have hgrows := store.grows_finishFetch o fetched
  rw [hfinish] at hgrows
  generalize hend : (Except.ok value, after) = ended at hended
  cases hended with
  | failed => cases hend
  | same hresolve hknown =>
    cases hend
    exact ⟨fetched, hknown, (h.of_resolveFetched hresolve).2⟩
  | @kept value' middle hresolve hknown =>
    cases hend
    have hextends := store.extends_resolveFetched o fetched
    rw [hresolve] at hextends
    have hlt := Nat.lt_of_lt_of_le ho hextends.length_objects
    refine ⟨fetched, ?_, ?_⟩
    . rw [object_modifyObject, if_pos ⟨rfl, hlt⟩, MediaObject.known_learn, if_pos rfl]
    . apply (h.of_resolveFetched hresolve).2.ages (Nat.le_of_eq length_modifyObject.symm)
      exact fun p _ => ages_modifyObject (MediaObject.ages_learn hknown) p
  | @replaced value' middle known hresolve hknown =>
    -- The proxy of what is known can be made, because the factory made one when it became known.
    have hextends := store.extends_resolveFetched o fetched
    rw [hresolve] at hextends
    have hmiddle := hextends.typed h
    obtain ⟨value'', after', hresolve', hshows⟩ :=
      hmiddle.resolveFetched_ok (hmiddle.known o _ known hknown)
    have hextends' := middle.extends_resolveFetched o known
    rw [hresolve'] at hextends' hend
    cases hend
    have hletGo := after'.extends_foldl_letGo value'.held
    have hlt := Nat.lt_of_lt_of_le ho hextends.length_objects
    refine ⟨known, ?_, hletGo.grows.shows hshows⟩
    rw [(hextends'.trans hletGo).object_eq hlt]
    exact hknown

theorem known_finishFetch (fetched : Fetched) {p : ObjectId} (hp : p < store.objects.length)
    (fetch : Operation)
    : ((store.finishFetch o fetched).2.object p).known fetch = (store.object p).known fetch ∨
      (p = o ∧ fetch = fetched.operation ∧ ∃ value, (store.finishFetch o fetched).1 = .ok value) := by
  have hextends := store.extends_resolveFetched o fetched
  have hended := store.ended_finishFetch o fetched
  generalize store.finishFetch o fetched = ended at hended
  cases hended with
  | failed h =>
    rw [h] at hextends
    rw [hextends.object_eq hp]
    exact .inl rfl
  | same h =>
    rw [h] at hextends
    rw [hextends.object_eq hp]
    exact .inl rfl
  | @replaced value middle known h =>
    rw [h] at hextends
    have hreplaced := hextends.trans
      ((middle.extends_resolveFetched o known).trans (extends_foldl_letGo _ value.held))
    rw [hreplaced.object_eq hp]
    exact .inl rfl
  | kept h hknown =>
    rw [h] at hextends
    rw [object_modifyObject]
    split
    . next heq =>
      rw [MediaObject.known_learn, hextends.object_eq hp]
      split
      . next hfetch => exact .inr ⟨heq.1.symm, hfetch, _, rfl⟩
      . exact .inl rfl
    . rw [hextends.object_eq hp]
      exact .inl rfl

end

/-!
## Operations
-/

inductive Concluded (store : Store) (o : ObjectId) :
    Operation → Except Error Value × Store → Prop where
  | failed (operation : Operation) (error : Error) :
    store.Concluded o operation (.error error, store)
  | released : store.Concluded o .release (.ok .done, store.finishRelease o)
  | keptAlive : store.Concluded o .keepAlive (.ok .done, store)
  | subscribed (listener : Listener) (token : String) :
    store.Concluded o (.addListener listener)
      (.ok (.subscription (store.finishSubscribe o token listener).1),
        (store.finishSubscribe o token listener).2)
  | unsubscribed (subscription : Subscription) :
    store.Concluded o (.removeListener subscription)
      (.ok .done, store.modifyRegistry (store.object o).context (·.remove subscription))
  | commanded (command : Command) (result : CommandResult) :
    store.Concluded o (.sendCommand command) (.ok (.result result), store)
  | fetched (fetched : Fetched) :
    store.Concluded o fetched.operation (store.finishFetch o fetched)

theorem concluded_conclude (store : Store) (o : ObjectId) (operation : Operation)
    (outcome : Except RpcError Reply)
    : store.Concluded o operation (store.conclude o operation outcome) := by
  unfold conclude
  split
  . exact .failed operation _
  . unfold finish
    split
    . exact .released
    . exact .keptAlive
    . exact .subscribed _ _
    . exact .unsubscribed _
    . next command bytes =>
      cases (store.decoders (store.object o).context).decode command.type bytes with
      | error error => exact .failed _ error
      | ok result => exact .commanded command result
    . next parent =>
      rw [finishParent_eq]
      exact .fetched (.parent parent)
    . next pipeline =>
      rw [finishPipeline_eq]
      exact .fetched (.pipeline pipeline)
    . exact .failed _ _

theorem grows_conclude (store : Store) (o : ObjectId) (operation : Operation)
    (outcome : Except RpcError Reply)
    : store.Grows (store.conclude o operation outcome).2 := by
  have hconcluded := store.concluded_conclude o operation outcome
  generalize store.conclude o operation outcome = concluded at hconcluded
  cases hconcluded with
  | failed => exact .refl store
  | released => apply store.grows_finishRelease o
  | keptAlive => exact .refl store
  | subscribed => exact (store.extends_modifyRegistry _ _).grows
  | unsubscribed => exact (store.extends_modifyRegistry _ _).grows
  | commanded => exact .refl store
  | fetched fetched => apply store.grows_finishFetch o fetched

theorem known_finishRelease (store : Store) (o p : ObjectId) (fetch : Operation)
    : ((store.finishRelease o).object p).known fetch = (store.object p).known fetch := by
  change ((store.modifyObject o ({ · with released := true })).object p).known fetch = _
  rw [object_modifyObject]
  split
  . cases fetch <;> rfl
  . rfl

theorem known_conclude {store : Store} {o p : ObjectId} (hp : p < store.objects.length)
    (operation fetch : Operation) (outcome : Except RpcError Reply)
    : ((store.conclude o operation outcome).2.object p).known fetch =
        (store.object p).known fetch ∨
      (p = o ∧ fetch = operation ∧
        ∃ value, (store.conclude o operation outcome).1 = .ok value) := by
  have hconcluded := store.concluded_conclude o operation outcome
  generalize store.conclude o operation outcome = concluded at hconcluded
  cases hconcluded with
  | failed => exact .inl rfl
  | released => exact .inl (store.known_finishRelease o p fetch)
  | keptAlive => exact .inl rfl
  | subscribed => exact .inl rfl
  | unsubscribed => exact .inl rfl
  | commanded => exact .inl rfl
  | fetched fetched => apply known_finishFetch fetched hp fetch

end Store

end MediaProxy
