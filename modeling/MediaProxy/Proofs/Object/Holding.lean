import MediaProxy.Proofs.Object.Growth

/-!
This module contains how proxies come to be held and how they are let go of: what is done to a store in
order to obtain them, and what becomes of a store by an operation.
-/

namespace MediaProxy

def Operation.alters : Operation → Bool
  | .release => true
  | .addListener _ => true
  | .removeListener _ => true
  | _ => false

def proxiesOf : Except Error Value → List ObjectId
  | .ok value => value.held
  | .error _ => []

namespace Store

def tracked? (store : Store) (f : Nat) (reference : Reference) : Option ObjectId :=
  (store.factory f).tracked.lookup reference

inductive Sheds (start : Store) : Store → Prop where
  | refl : start.Sheds start
  | letGo {store : Store} (o : ObjectId) (h : start.Sheds store) : start.Sheds (store.letGo o)
  | sweep {store : Store} (f : Nat) (h : start.Sheds store) : start.Sheds (store.sweep f).2

inductive Obtains (f c : Nat) (start : Store) : List ObjectId → Store → Prop where
  | refl : start.Obtains f c [] start
  | found {reference : Reference} {o : ObjectId} {got : List ObjectId} {store : Store}
    (h : start.Obtains f c got store) (hlookup : store.lookup? f reference = some o) :
    start.Obtains f c (o :: got) (store.hold o)
  | made {reference : Reference} {type : ProxyClass} {got : List ObjectId} {store : Store}
    (h : start.Obtains f c got store) (hnone : store.lookup? f reference = none)
    (htype : store.knownType? f reference = some type) :
    start.Obtains f c (store.objects.length :: got)
      ((store.make f c reference type).2.hold store.objects.length)
  | dropped {first second : List ObjectId} {o : ObjectId} {store : Store}
    (h : start.Obtains f c (first ++ o :: second) store) :
    start.Obtains f c (first ++ second) (store.letGo o)
  | learned {got : List ObjectId} {store : Store} (o : ObjectId) (fetched : Fetched)
    (h : start.Obtains f c got store) (hcontext : (store.object o).context = c) :
    start.Obtains f c got (store.modifyObject o (·.learn fetched))

inductive Operates (before : Store) (o : ObjectId) :
    Operation → Except Error Value → Store → Prop where
  | obtained {operation : Operation} {result : Except Error Value} {after : Store}
    (hfails : operation.alters = true → ∃ error, result = .error error)
    (h : before.Obtains (before.homeOf o) (before.object o).context (proxiesOf result) after) :
    before.Operates o operation result after
  | released : before.Operates o .release (.ok .done) (before.finishRelease o)
  | subscribed (listener : Listener) (token : String) :
    before.Operates o (.addListener listener)
      (.ok (.subscription ⟨(before.object o).reference, token⟩))
      (before.modifyRegistry (before.object o).context
        (·.add ⟨(before.object o).reference, token⟩ listener))
  | unsubscribed (subscription : Subscription) :
    before.Operates o (.removeListener subscription) (.ok .done)
      (before.modifyRegistry (before.object o).context (·.remove subscription))

/-!
## References that are kept track of
-/

theorem lookup?_eq (store : Store) (f : Nat) (reference : Reference)
    : store.lookup? f reference = (store.tracked? f reference).filter store.alive :=
  rfl

theorem lookup?_eq_some_iff {store : Store} {f : Nat} {reference : Reference} {o : ObjectId}
    : store.lookup? f reference = some o ↔
        store.tracked? f reference = some o ∧ o ∈ store.held := by
  rw [lookup?_eq, Option.filter_eq_some_iff]
  unfold alive
  rw [List.contains_iff_mem]

theorem mem_of_tracked? {store : Store} {f : Nat} {reference : Reference} {o : ObjectId}
    (h : store.tracked? f reference = some o) : (reference, o) ∈ (store.factory f).tracked := by
  obtain ⟨earlier, later, heq, _⟩ := List.lookup_eq_some_iff.1 h
  simp [heq]

theorem lookup_filter_of_pos {entries : List (Reference × ObjectId)} {reference : Reference}
    {o : ObjectId} {keep : Reference × ObjectId → Bool} (h : entries.lookup reference = some o)
    (hkeep : keep (reference, o)) : (entries.filter keep).lookup reference = some o := by
  obtain ⟨earlier, later, rfl, hne⟩ := List.lookup_eq_some_iff.1 h
  refine List.lookup_eq_some_iff.2 ⟨earlier.filter keep, later.filter keep, ?_, ?_⟩
  . rw [List.filter_append, List.filter_cons_of_pos hkeep]
  . exact fun entry hentry => hne entry (List.mem_filter.1 hentry).1

theorem lookup_track (reference : Reference) (o : ObjectId)
    (entries : List (Reference × ObjectId)) (other : Reference)
    : (make.track reference o entries).lookup other =
        if other = reference then some o else entries.lookup other := by
  induction entries with
  | nil =>
    unfold make.track
    by_cases h : other = reference
    . simp [h]
    . simp [h, List.lookup_cons, beq_eq_false_iff_ne.2 h]
  | cons entry entries ih =>
    obtain ⟨known, p⟩ := entry
    unfold make.track
    dsimp only
    split
    . next h =>
      subst h
      by_cases h' : other = known
      . simp [h']
      . simp [h', List.lookup_cons, beq_eq_false_iff_ne.2 h']
    . next h =>
      rw [List.lookup_cons, List.lookup_cons, ih]
      by_cases h' : other = known
      . have hne : other ≠ reference := by
          rw [h']
          exact h
        simp [h', h]
      . simp [beq_eq_false_iff_ne.2 h']

theorem tracked?_modifyFactory (store : Store) (f : Nat) (change : Factory → Factory) (g : Nat)
    (reference : Reference)
    : (store.modifyFactory f change).tracked? g reference =
        if f = g ∧ f < store.factories.length then (change (store.factory g)).tracked.lookup reference
        else store.tracked? g reference := by
  unfold tracked?
  rw [factory_modifyFactory]
  split <;> rfl

theorem factory_make (store : Store) (f c : Nat) (reference : Reference) (type : ProxyClass) (g : Nat)
    : (store.make f c reference type).2.factory g =
        if f = g ∧ f < store.factories.length then
          { store.factory g with
            tracked := make.track reference store.objects.length (store.factory g).tracked }
        else store.factory g :=
  factory_modifyFactory { store with objects := store.objects ++ [_] } f _ g

theorem object_make (store : Store) (f c : Nat) (reference : Reference) (type : ProxyClass)
    (o : ObjectId)
    : (store.make f c reference type).2.object o =
        if o = store.objects.length then { reference, context := c, type } else store.object o :=
  store.object_append _ o

theorem length_make (store : Store) (f c : Nat) (reference : Reference) (type : ProxyClass)
    : (store.make f c reference type).2.objects.length = store.objects.length + 1 :=
  List.length_append

theorem tracked?_make (store : Store) (f c : Nat) (reference : Reference) (type : ProxyClass) (g : Nat)
    (other : Reference)
    : (store.make f c reference type).2.tracked? g other =
        if (f = g ∧ f < store.factories.length) ∧ other = reference then some store.objects.length
        else store.tracked? g other := by
  unfold tracked?
  rw [factory_make]
  by_cases hg : f = g ∧ f < store.factories.length
  . rw [if_pos hg, lookup_track]
    by_cases hother : other = reference
    . rw [if_pos hother, if_pos ⟨hg, hother⟩]
    . rw [if_neg hother, if_neg fun h => hother h.2]
  . rw [if_neg hg, if_neg fun h => hg h.1]

/-!
## Proxies that are let go of
-/

namespace Sheds

variable {start store : Store}

theorem trans {second third : Store} (h : start.Sheds second) (h' : second.Sheds third)
    : start.Sheds third := by
  induction h' with
  | refl => exact h
  | letGo o _ ih => exact ih.letGo o
  | sweep f _ ih => exact ih.sweep f

theorem foldl_letGo (h : start.Sheds store) (proxies : List ObjectId)
    : start.Sheds (proxies.foldl Store.letGo store) := by
  induction proxies generalizing store with
  | nil => exact h
  | cons o proxies ih => exact ih (h.letGo o)

theorem extending (h : start.Sheds store) : start.Extends store := by
  induction h with
  | refl => exact .refl start
  | letGo o _ ih => exact ih.trans (extends_letGo _ o)
  | sweep f _ ih => exact ih.trans (extends_sweep _ f)

theorem objects_eq (h : start.Sheds store) : store.objects = start.objects := by
  induction h with
  | refl => rfl
  | letGo o _ ih => exact ih
  | sweep f _ ih => exact ih

theorem registries_eq (h : start.Sheds store) : store.registries = start.registries := by
  induction h with
  | refl => rfl
  | letGo o _ ih => exact ih
  | sweep f _ ih => exact ih

theorem contexts_eq (h : start.Sheds store) : store.contexts = start.contexts := by
  induction h with
  | refl => rfl
  | letGo o _ ih => exact ih
  | sweep f _ ih => exact ih

theorem held_sublist (h : start.Sheds store) : store.held.Sublist start.held := by
  induction h with
  | refl => exact .refl _
  | letGo o _ ih => exact List.erase_sublist.trans ih
  | sweep f _ ih => exact ih

theorem tracked_sublist (h : start.Sheds store) (f : Nat)
    : (store.factory f).tracked.Sublist (start.factory f).tracked := by
  induction h with
  | refl => exact .refl _
  | letGo o _ ih => exact ih
  | @sweep store g _ ih =>
    refine List.Sublist.trans ?_ ih
    unfold Store.sweep
    dsimp only
    rw [factory_modifyFactory]
    split
    . next h =>
      rw [← h.1]
      exact List.filter_sublist
    . exact .refl _

theorem tracked?_eq (h : start.Sheds store) {f : Nat} {reference : Reference} {o : ObjectId}
    (htracked : start.tracked? f reference = some o) (halive : o ∈ store.held)
    : store.tracked? f reference = some o := by
  induction h with
  | refl => exact htracked
  | letGo p _ ih => exact ih (List.mem_of_mem_erase halive)
  | @sweep store g _ ih =>
    have hold := ih halive
    unfold Store.sweep
    dsimp only
    rw [tracked?_modifyFactory]
    split
    . next h =>
      obtain ⟨rfl, _⟩ := h
      apply lookup_filter_of_pos hold
      exact List.contains_iff_mem.2 halive
    . exact hold

end Sheds

/-!
## Proxies that are obtained
-/

namespace Obtains

section
variable {f c : Nat} {start store : Store} {got : List ObjectId}

theorem held_perm (h : start.Obtains f c got store) : store.held.Perm (got ++ start.held) := by
  induction h with
  | refl => exact .refl _
  | found _ _ ih => exact ih.cons _
  | made _ _ _ ih => exact ih.cons _
  | @dropped first second o store _ ih =>
    have hmiddle : (first ++ o :: second ++ start.held).Perm
        (o :: (first ++ second ++ start.held)) := by
      rw [List.append_assoc, List.append_assoc]
      exact List.perm_middle
    have herase := (ih.trans hmiddle).erase o
    rw [List.erase_cons_head] at herase
    exact herase
  | learned o fetched _ _ ih => exact ih

theorem mem_held_of_mem_got (h : start.Obtains f c got store) {o : ObjectId} (ho : o ∈ got)
    : o ∈ store.held :=
  h.held_perm.mem_iff.2 (List.mem_append_left _ ho)

theorem mem_held (h : start.Obtains f c got store) {o : ObjectId} (ho : o ∈ start.held)
    : o ∈ store.held :=
  h.held_perm.mem_iff.2 (List.mem_append_right _ ho)

theorem contexts_eq (h : start.Obtains f c got store) : store.contexts = start.contexts := by
  induction h with
  | refl => rfl
  | found _ _ ih => exact ih
  | made _ _ _ ih => exact ih
  | dropped _ ih => exact ih
  | learned o fetched _ _ ih => exact ih

theorem registries_eq (h : start.Obtains f c got store) : store.registries = start.registries := by
  induction h with
  | refl => rfl
  | found _ _ ih => exact ih
  | made _ _ _ ih => exact ih
  | dropped _ ih => exact ih
  | learned o fetched _ _ ih => exact ih

theorem length_factories (h : start.Obtains f c got store)
    : store.factories.length = start.factories.length := by
  induction h with
  | refl => rfl
  | found _ _ ih => exact ih
  | made _ _ _ ih =>
    rw [← ih]
    exact List.length_modify _ _ _
  | dropped _ ih => exact ih
  | learned o fetched _ _ ih => exact ih

theorem context_eq (h : start.Obtains f c got store) {o : ObjectId}
    (hcontext : (start.object o).context = c) : (store.object o).context = c := by
  induction h with
  | refl => exact hcontext
  | found _ _ ih => exact ih
  | made _ _ _ ih =>
    change ((Store.make _ f c _ _).2.object o).context = c
    rw [object_make]
    split
    . rfl
    . exact ih
  | dropped _ ih => exact ih
  | learned p fetched _ _ ih =>
    rw [object_modifyObject]
    split
    . cases fetched <;> exact ih
    . exact ih

theorem homeOf_eq (h : start.Obtains f c got store) {o : ObjectId}
    (hcontext : (start.object o).context = c) (hhome : start.homeOf o = f) : store.homeOf o = f := by
  unfold homeOf context
  rw [h.contexts_eq, h.context_eq hcontext, ← hcontext]
  exact hhome

theorem length_objects (h : start.Obtains f c got store)
    : start.objects.length ≤ store.objects.length := by
  induction h with
  | refl => exact Nat.le_refl _
  | found _ _ ih => exact ih
  | @made reference type got store _ _ _ ih =>
    change _ ≤ (store.make f c reference type).2.objects.length
    rw [length_make]
    exact Nat.le_succ_of_le ih
  | dropped _ ih => exact ih
  | learned o fetched _ _ ih =>
    rw [length_modifyObject]
    exact ih

theorem object_eq (h : start.Obtains f c got store) {o : ObjectId} (ho : o < start.objects.length)
    (hcontext : (start.object o).context ≠ c) : store.object o = start.object o := by
  induction h with
  | refl => rfl
  | found _ _ ih => exact ih
  | made hobtains _ _ ih =>
    have hlt := Nat.lt_of_lt_of_le ho hobtains.length_objects
    change (Store.make _ f c _ _).2.object o = _
    rw [object_make, if_neg (Nat.ne_of_lt hlt)]
    exact ih
  | dropped _ ih => exact ih
  | learned p fetched _ hp ih =>
    rw [object_modifyObject, if_neg]
    . exact ih
    . rintro ⟨rfl, _⟩
      rw [ih] at hp
      exact hcontext hp

theorem released_eq (h : start.Obtains f c got store) {o : ObjectId} (ho : o < start.objects.length)
    : (store.object o).released = (start.object o).released := by
  induction h with
  | refl => rfl
  | found _ _ ih => exact ih
  | made hobtains _ _ ih =>
    have hlt := Nat.lt_of_lt_of_le ho hobtains.length_objects
    change ((Store.make _ f c _ _).2.object o).released = _
    rw [object_make, if_neg (Nat.ne_of_lt hlt)]
    exact ih
  | dropped _ ih => exact ih
  | learned p fetched _ _ ih =>
    rw [object_modifyObject]
    split
    . cases fetched <;> exact ih
    . exact ih

theorem object_new (h : start.Obtains f c got store) {o : ObjectId}
    (hnew : start.objects.length ≤ o) (ho : o < store.objects.length)
    : (store.object o).context = c ∧ (store.object o).released = false := by
  induction h with
  | refl => exact absurd ho (Nat.not_lt_of_le hnew)
  | found _ _ ih => exact ih ho
  | @made reference type got store _ _ _ ih =>
    change o < (store.make f c reference type).2.objects.length at ho
    change ((store.make f c reference type).2.object o).context = c ∧
      ((store.make f c reference type).2.object o).released = false
    rw [length_make] at ho
    rw [object_make]
    split
    . exact ⟨rfl, rfl⟩
    . next hne => exact ih (Nat.lt_of_le_of_ne (Nat.le_of_lt_succ ho) hne)
  | dropped _ ih => exact ih ho
  | learned p fetched _ _ ih =>
    rw [length_modifyObject] at ho
    rw [object_modifyObject]
    split
    . cases fetched <;> exact ih ho
    . exact ih ho

theorem factory_eq (h : start.Obtains f c got store) {g : Nat} (hg : g ≠ f)
    : store.factory g = start.factory g := by
  induction h with
  | refl => rfl
  | found _ _ ih => exact ih
  | made _ _ _ ih =>
    change (Store.make _ f c _ _).2.factory g = _
    rw [factory_make, if_neg fun h => hg h.1.symm]
    exact ih
  | dropped _ ih => exact ih
  | learned o fetched _ _ ih => exact ih

theorem mem_tracked (h : start.Obtains f c got store) {g : Nat} {entry : Reference × ObjectId}
    (hentry : entry ∈ (store.factory g).tracked)
    : entry ∈ (start.factory g).tracked ∨
        (g = f ∧ start.objects.length ≤ entry.2 ∧ entry.2 < store.objects.length) := by
  induction h with
  | refl => exact .inl hentry
  | found _ _ ih => exact ih hentry
  | @made reference type got store hobtains _ _ ih =>
    have hlength := hobtains.length_objects
    change entry ∈ ((store.make f c reference type).2.factory g).tracked at hentry
    change _ ∨ (_ ∧ _ ∧ entry.2 < (store.make f c reference type).2.objects.length)
    rw [length_make]
    rw [factory_make] at hentry
    have hold (h : entry ∈ (store.factory g).tracked)
        : entry ∈ (start.factory g).tracked ∨
          (g = f ∧ start.objects.length ≤ entry.2 ∧ entry.2 < store.objects.length + 1) :=
      (ih h).imp_right fun hnew => ⟨hnew.1, hnew.2.1, Nat.lt_succ_of_lt hnew.2.2⟩
    split at hentry
    . next h =>
      rcases mem_track hentry with rfl | hmem
      . exact .inr ⟨h.1.symm, hlength, Nat.lt_succ_self _⟩
      . exact hold hmem
    . exact hold hentry
  | dropped _ ih => exact ih hentry
  | learned o fetched _ _ ih =>
    rw [length_modifyObject]
    exact ih hentry

theorem tracked?_eq (h : start.Obtains f c got store) {g : Nat} {reference : Reference} {o : ObjectId}
    (htracked : start.tracked? g reference = some o) (halive : o ∈ start.held)
    : store.tracked? g reference = some o := by
  induction h with
  | refl => exact htracked
  | found _ _ ih => exact ih
  | @made other type got store hobtains hnone _ ih =>
    have hlookup := lookup?_eq_some_iff.2 ⟨ih, hobtains.mem_held halive⟩
    change (store.make f c other type).2.tracked? g reference = some o
    rw [tracked?_make, if_neg]
    . exact ih
    . rintro ⟨⟨rfl, _⟩, rfl⟩
      rw [hnone] at hlookup
      cases hlookup
  | dropped _ ih => exact ih
  | learned p fetched _ _ ih => exact ih

theorem tracked?_of_mem_got (h : start.Obtains f c got store) (hf : f < start.factories.length)
    {o : ObjectId} (ho : o ∈ got) : ∃ reference, store.tracked? f reference = some o := by
  induction h with
  | refl => cases ho
  | @found reference p got store hobtains hlookup ih =>
    rcases List.mem_cons.1 ho with rfl | hmem
    . exact ⟨reference, (lookup?_eq_some_iff.1 hlookup).1⟩
    . exact ih hmem
  | @made reference type got store hobtains hnone _ ih =>
    have hlength : f < store.factories.length := by
      rw [hobtains.length_factories]
      exact hf
    change ∃ other, (store.make f c reference type).2.tracked? f other = some o
    rcases List.mem_cons.1 ho with rfl | hmem
    . refine ⟨reference, ?_⟩
      rw [tracked?_make, if_pos ⟨⟨rfl, hlength⟩, rfl⟩]
    . -- A proxy that was obtained before is alive, so the new one has another reference.
      obtain ⟨other, hother⟩ := ih hmem
      have hlookup := lookup?_eq_some_iff.2 ⟨hother, hobtains.mem_held_of_mem_got hmem⟩
      refine ⟨other, ?_⟩
      rw [tracked?_make, if_neg]
      . exact hother
      . rintro ⟨_, rfl⟩
        rw [hnone] at hlookup
        cases hlookup
  | @dropped first second p store _ ih =>
    apply ih
    rw [List.mem_append, List.mem_cons]
    exact (List.mem_append.1 ho).imp_right .inr
  | learned p fetched _ _ ih => exact ih ho

end

/-!
## Ways to obtain proxies
-/

section
variable {f c : Nat} {start store : Store} {got : List ObjectId}

theorem foldl_letGo (proxies : List ObjectId) (h : start.Obtains f c (got ++ proxies) store)
    : start.Obtains f c got (proxies.foldl letGo store) := by
  induction proxies generalizing store with
  | nil =>
    rw [List.append_nil] at h
    exact h
  | cons o proxies ih => exact ih h.dropped

theorem resolve (h : start.Obtains f c got store) (reference : Reference)
    : start.Obtains f c ((store.resolve f c reference).1.toOption.toList ++ got)
        (store.resolve f c reference).2 := by
  unfold Store.resolve
  split
  . next hlookup => exact h.found hlookup
  . next hnone =>
    unfold KindTable.type
    split
    . exact h
    . next type htype =>
      split at htype
      . next hknown =>
        cases htype
        exact h.made hnone hknown
      . cases htype

theorem resolveAs (h : start.Obtains f c got store) (reference : Reference) (type : ProxyClass)
    : start.Obtains f c ((store.resolveAs f c reference type).1.toOption.toList ++ got)
        (store.resolveAs f c reference type).2 := by
  have hresolve := h.resolve reference
  unfold Store.resolveAs
  split
  . next heq =>
    rw [heq] at hresolve
    exact hresolve
  . next heq =>
    rw [heq] at hresolve
    split
    . exact hresolve
    . have hdropped : start.Obtains f c ([] ++ got) (Store.letGo _ _) := .dropped hresolve
      exact hdropped

theorem resolveFetched (h : start.Obtains f c got store) {o : ObjectId}
    (hcontext : (store.object o).context = c) (hhome : store.homeOf o = f) (fetched : Fetched)
    : start.Obtains f c (proxiesOf (store.resolveFetched o fetched).1 ++ got)
        (store.resolveFetched o fetched).2 := by
  unfold homeOf at hhome
  cases fetched with
  | parent parent =>
    cases parent with
    | none => exact h
    | some reference =>
      have hresolve := h.resolve reference
      unfold Store.resolveFetched resolveParentFor resolveFor
      dsimp only
      rw [hhome, hcontext]
      generalize store.resolve f c reference = resolved at hresolve
      obtain ⟨error | p, after⟩ := resolved <;> exact hresolve
  | pipeline reference =>
    have hresolve := h.resolveAs reference .pipeline
    unfold Store.resolveFetched resolvePipelineFor
    dsimp only
    rw [hhome, hcontext]
    generalize store.resolveAs f c reference .pipeline = resolved at hresolve
    obtain ⟨error | p, after⟩ := resolved <;> exact hresolve

end

theorem of_resolveFetched (store : Store) (o : ObjectId) (fetched : Fetched)
    : store.Obtains (store.homeOf o) (store.object o).context
        (proxiesOf (store.resolveFetched o fetched).1) (store.resolveFetched o fetched).2 := by
  have hnone : store.Obtains (store.homeOf o) (store.object o).context [] store := .refl
  have hresolve := hnone.resolveFetched rfl rfl fetched
  rw [List.append_nil] at hresolve
  exact hresolve

theorem of_finishFetch (store : Store) (o : ObjectId) (fetched : Fetched)
    : store.Obtains (store.homeOf o) (store.object o).context
        (proxiesOf (store.finishFetch o fetched).1) (store.finishFetch o fetched).2 := by
  have hresolve := of_resolveFetched store o fetched
  have hended := store.ended_finishFetch o fetched
  generalize store.finishFetch o fetched = ended at hended
  cases hended with
  | failed heq =>
    rw [heq] at hresolve
    exact hresolve
  | kept heq =>
    rw [heq] at hresolve
    exact hresolve.learned o fetched (hresolve.context_eq rfl)
  | same heq =>
    rw [heq] at hresolve
    exact hresolve
  | @replaced value middle known heq =>
    rw [heq] at hresolve
    apply foldl_letGo
    apply hresolve.resolveFetched
    . exact hresolve.context_eq rfl
    . exact hresolve.homeOf_eq rfl rfl

end Obtains

/-!
## Operations
-/

section
variable {store after : Store} {o : ObjectId} {operation : Operation}

theorem operates_failed (store : Store) (o : ObjectId) (operation : Operation) (error : Error)
    : store.Operates o operation (.error error) store :=
  .obtained (fun _ => ⟨error, rfl⟩) .refl

theorem alters_of_known {object : MediaObject} {fetched : Fetched}
    (h : object.known operation = some fetched) : operation.alters = false := by
  cases operation <;> first | rfl | cases h

theorem operates_start {result : Except Error Value}
    (h : store.start o operation = (.answered result, after))
    : store.Operates o operation result after := by
  have hstarted := store.started_start o operation
  rw [h] at hstarted
  generalize hend : (Beginning.answered result, after) = started at hstarted
  cases hstarted with
  | refused =>
    cases hend
    apply operates_failed
  | own _ hfetch =>
    cases hend
    subst hfetch
    exact .obtained nofun (Obtains.of_resolveFetched store o _)
  | known fetched _ _ hknown =>
    cases hend
    refine .obtained ?_ (Obtains.of_resolveFetched store o fetched)
    rw [alters_of_known hknown]
    exact nofun
  | asks => cases hend

theorem operates_conclude (store : Store) (o : ObjectId) (operation : Operation)
    (outcome : Except RpcError Reply)
    : store.Operates o operation (store.conclude o operation outcome).1
        (store.conclude o operation outcome).2 := by
  have hconcluded := store.concluded_conclude o operation outcome
  generalize store.conclude o operation outcome = concluded at hconcluded
  cases hconcluded with
  | failed _ error => apply operates_failed
  | released => exact .released
  | keptAlive => exact .obtained nofun .refl
  | subscribed listener token => exact .subscribed listener token
  | unsubscribed subscription => exact .unsubscribed subscription
  | commanded => exact .obtained nofun .refl
  | fetched fetched =>
    refine .obtained ?_ (Obtains.of_finishFetch store o fetched)
    cases fetched <;> exact nofun

theorem letGo_hold (store : Store) (o : ObjectId) : (store.hold o).letGo o = store := by
  unfold hold letGo
  dsimp only
  rw [List.erase_cons_head]

theorem sheds_ownPipeline (store : Store) (o : ObjectId)
    : store.Sheds ((store.ownPipeline o).2.letGo o) := by
  unfold ownPipeline
  dsimp only
  split
  . exact Sheds.refl.letGo o
  . dsimp only
    rw [letGo_hold]
    exact .refl

end

end Store

end MediaProxy
