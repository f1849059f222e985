import MediaProxy.Proofs.Object.Registration

/-!
This module contains what factories keep track of: a reference is kept track of once, and its proxy
stays there as long as somebody holds it and nobody has it forgotten.
-/

namespace MediaProxy

namespace Store

/--
Every reference is kept track of once, and proxies that are held exist.
-/
structure Neat (store : Store) : Prop where
  nodup : ∀ f, ((store.factory f).tracked.map (·.1)).Nodup
  held_lt : ∀ o ∈ store.held, o < store.objects.length

/--
What becomes of proxies: some are given out, which may be kept track of in one factory from then on, and
some references may be forgotten.
-/
structure Tends (before : Store) (f : Nat) (given : List ObjectId)
    (forgets : Nat → Reference → Prop) (after : Store) : Prop where
  length_objects : before.objects.length ≤ after.objects.length
  length_factories : before.factories.length ≤ after.factories.length
  given_cases : ∀ o ∈ given, o ∈ before.held ∨
    (before.objects.length ≤ o ∧ o < after.objects.length)
  count_le : ∀ o, after.held.count o ≤ given.count o + before.held.count o
  kept : ∀ g reference o, ¬forgets g reference → before.tracked? g reference = some o →
    o ∈ before.held → o ∈ after.held → after.tracked? g reference = some o
  mem_tracked : ∀ g entry, entry ∈ (after.factory g).tracked →
    entry ∈ (before.factory g).tracked ∨ (g = f ∧ before.objects.length ≤ entry.2)
  nodup : (∀ g, ((before.factory g).tracked.map (·.1)).Nodup) →
    ∀ g, ((after.factory g).tracked.map (·.1)).Nodup

/-!
## Entries
-/

theorem lookup_of_mem {entries : List (Reference × ObjectId)} {reference : Reference} {o : ObjectId}
    (hnodup : (entries.map (·.1)).Nodup) (h : (reference, o) ∈ entries)
    : entries.lookup reference = some o := by
  induction entries with
  | nil => cases h
  | cons entry entries ih =>
    rw [List.map_cons, List.nodup_cons] at hnodup
    rcases List.mem_cons.1 h with rfl | hmem
    . exact List.lookup_cons_self
    . have hne : reference ≠ entry.1 := by
        rintro rfl
        exact hnodup.1 (List.mem_map.2 ⟨_, hmem, rfl⟩)
      rw [List.lookup_cons, beq_eq_false_iff_ne.2 hne]
      exact ih hnodup.2 hmem

theorem Neat.tracked?_eq_some_iff {store : Store} (h : store.Neat) {f : Nat} {reference : Reference}
    {o : ObjectId}
    : store.tracked? f reference = some o ↔ (reference, o) ∈ (store.factory f).tracked :=
  ⟨mem_of_tracked?, lookup_of_mem (h.nodup f)⟩

theorem map_track (reference : Reference) (o : ObjectId) (entries : List (Reference × ObjectId))
    : (make.track reference o entries).map (·.1) =
        if reference ∈ entries.map (·.1) then entries.map (·.1)
        else entries.map (·.1) ++ [reference] := by
  induction entries with
  | nil => rfl
  | cons entry entries ih =>
    unfold make.track
    by_cases h : entry.1 = reference
    . simp [h]
    . rw [if_neg h, List.map_cons, ih, List.map_cons]
      by_cases hmem : reference ∈ entries.map (·.1)
      . rw [if_pos hmem, if_pos (List.mem_cons_of_mem _ hmem)]
      . have hnot : reference ∉ entry.1 :: entries.map (·.1) := by
          rw [List.mem_cons]
          rintro (rfl | hrest)
          . exact h rfl
          . exact hmem hrest
        rw [if_neg hmem, if_neg hnot, List.cons_append]

theorem nodup_track (reference : Reference) (o : ObjectId) {entries : List (Reference × ObjectId)}
    (h : (entries.map (·.1)).Nodup)
    : ((make.track reference o entries).map (·.1)).Nodup := by
  rw [map_track]
  split
  . exact h
  . next hnot => exact ((List.perm_append_singleton _ _).nodup_iff).2 (List.nodup_cons.2 ⟨hnot, h⟩)

theorem forget_sublist (store : Store) (f : Nat) (reference : Reference) (g : Nat)
    : ((store.forget f reference).2.factory g).tracked.Sublist (store.factory g).tracked := by
  unfold forget
  dsimp only
  rw [factory_modifyFactory]
  split
  . exact List.filter_sublist
  . exact .refl _

section
variable (store : Store) (f : Nat)

theorem fst_sweep
    : (store.sweep f).1 = ((store.factory f).tracked.filter (!store.alive ·.2)).length := by
  have hlength := List.length_eq_countP_add_countP (store.alive ·.2) (l := (store.factory f).tracked)
  rw [List.countP_eq_length_filter, List.countP_eq_length_filter] at hlength
  unfold sweep
  dsimp only
  rw [hlength, Nat.add_sub_cancel_left]
  simp

theorem snd_sweep
    : (store.sweep f).2 =
        store.modifyFactory f fun factory =>
          { factory with tracked := factory.tracked.filter (store.alive ·.2) } := by
  have hfactories (g : Nat) : (store.sweep f).2.factories[g]? =
      (store.factories.modify f fun factory =>
        { factory with tracked := factory.tracked.filter (store.alive ·.2) })[g]? := by
    unfold sweep modifyFactory factory
    dsimp only
    rw [List.getElem?_modify, List.getElem?_modify]
    split
    . next hfg =>
      subst hfg
      cases hfactory : store.factories[f]? with
      | none => rfl
      | some factory => simp [List.getD_eq_getElem?_getD, hfactory]
    . rfl
  unfold modifyFactory
  rw [← List.ext_getElem? hfactories]
  rfl

theorem tracked_sweep (g : Nat)
    : ((store.sweep f).2.factory g).tracked =
        if f = g then (store.factory g).tracked.filter (store.alive ·.2)
        else (store.factory g).tracked := by
  rw [snd_sweep, factory_modifyFactory]
  by_cases hfg : f = g
  . subst hfg
    by_cases hf : f < store.factories.length
    . simp [hf]
    . have hnone : store.factory f = default := by
        unfold factory
        rw [List.getD_eq_getElem?_getD, List.getElem?_eq_none (Nat.le_of_not_lt hf)]
        rfl
      rw [if_neg (by simp [hf]), if_pos rfl, hnone]
      rfl
  . simp [hfg]

theorem living_sweep : (store.sweep f).2.living f = store.living f := by
  unfold living
  rw [tracked_sweep, if_pos rfl, List.filter_map, List.filter_map]
  congr 1
  change (((store.factory f).tracked.filter (store.alive ·.2)).filter (store.alive ·.2)) = _
  rw [List.filter_filter]
  simp [Function.comp_def]

end

theorem not_mem_tracked_sweep {store : Store} (f : Nat) (reference : Reference) {o : ObjectId}
    (h : o ∉ store.held) : (reference, o) ∉ ((store.sweep f).2.factory f).tracked := by
  intro hmem
  rw [tracked_sweep, if_pos rfl] at hmem
  exact h (List.contains_iff_mem.1 (List.mem_filter.1 hmem).2)

/-!
## Ways to tend proxies
-/

section
variable {before after : Store} {f : Nat} {forgets : Nat → Reference → Prop}

theorem Sheds.tends (h : before.Sheds after) (f : Nat) (forgets : Nat → Reference → Prop)
    : before.Tends f [] forgets after where
  length_objects := Nat.le_of_eq (congrArg List.length h.objects_eq).symm
  length_factories := h.extending.learns.length_le
  given_cases := nofun
  count_le o := by
    rw [List.count_nil, Nat.zero_add]
    exact h.held_sublist.count_le o
  kept _ _ _ _ htracked _ halive := h.tracked?_eq htracked halive
  mem_tracked g _ hentry := .inl ((h.tracked_sublist g).subset hentry)
  nodup hnodup g := (hnodup g).sublist ((h.tracked_sublist g).map _)

theorem Obtains.mem_got_cases {c : Nat} {got : List ObjectId} (h : before.Obtains f c got after)
    {o : ObjectId} (ho : o ∈ got)
    : o ∈ before.held ∨ (before.objects.length ≤ o ∧ o < after.objects.length) := by
  induction h with
  | refl => cases ho
  | @found reference p got store hobtains hlookup ih =>
    rcases List.mem_cons.1 ho with rfl | hmem
    . -- A proxy that is found was held before, or it was obtained a moment ago.
      have hheld := hobtains.held_perm.mem_iff.1 (lookup?_eq_some_iff.1 hlookup).2
      exact (List.mem_append.1 hheld).elim ih .inl
    . exact ih hmem
  | @made reference type got store hobtains _ _ ih =>
    have hlength := hobtains.length_objects
    change _ ∨ (_ ∧ o < (store.make f c reference type).2.objects.length)
    rw [length_make]
    rcases List.mem_cons.1 ho with rfl | hmem
    . exact .inr ⟨hlength, Nat.lt_succ_self _⟩
    . exact (ih hmem).imp_right fun hnew => ⟨hnew.1, Nat.lt_succ_of_lt hnew.2⟩
  | @dropped first second p store _ ih =>
    apply ih
    rw [List.mem_append, List.mem_cons]
    exact (List.mem_append.1 ho).imp_right .inr
  | learned p fetched _ _ ih =>
    rw [length_modifyObject]
    exact ih ho

theorem Obtains.nodup {c : Nat} {got : List ObjectId} (h : before.Obtains f c got after)
    (hnodup : ∀ g, ((before.factory g).tracked.map (·.1)).Nodup) (g : Nat)
    : ((after.factory g).tracked.map (·.1)).Nodup := by
  induction h with
  | refl => exact hnodup g
  | found _ _ ih => exact ih
  | @made reference type _ store _ _ _ ih =>
    change (((store.make f c reference type).2.factory g).tracked.map (·.1)).Nodup
    rw [factory_make]
    split
    . exact nodup_track reference _ ih
    . exact ih
  | dropped _ ih => exact ih
  | learned _ _ _ _ ih => exact ih

theorem Obtains.tends {c : Nat} {got : List ObjectId} (h : before.Obtains f c got after)
    (forgets : Nat → Reference → Prop) : before.Tends f got forgets after where
  length_objects := h.length_objects
  length_factories := Nat.le_of_eq h.length_factories.symm
  given_cases _ ho := h.mem_got_cases ho
  count_le o := by
    apply Nat.le_of_eq
    rw [h.held_perm.count_eq, List.count_append]
  kept _ _ _ _ htracked halive _ := h.tracked?_eq htracked halive
  mem_tracked _ _ hentry := (h.mem_tracked hentry).imp_right fun hnew => ⟨hnew.1, hnew.2.1⟩
  nodup := h.nodup

theorem Tends.of_tracked_eq (hobjects : after.objects.length = before.objects.length)
    (hheld : after.held = before.held) (hlength : before.factories.length ≤ after.factories.length)
    (htracked : ∀ g, (after.factory g).tracked = (before.factory g).tracked)
    : before.Tends f [] forgets after where
  length_objects := Nat.le_of_eq hobjects.symm
  length_factories := hlength
  given_cases := nofun
  count_le o := by
    apply Nat.le_of_eq
    rw [hheld, List.count_nil, Nat.zero_add]
  kept g reference o _ hold _ _ := by
    unfold tracked?
    rw [htracked]
    exact hold
  mem_tracked g entry hentry := by
    rw [htracked] at hentry
    exact .inl hentry
  nodup hnodup g := by
    rw [htracked]
    exact hnodup g

theorem Tends.of_factories_eq (hobjects : after.objects.length = before.objects.length)
    (hheld : after.held = before.held) (hfactories : after.factories = before.factories)
    : before.Tends f [] forgets after := by
  apply Tends.of_tracked_eq hobjects hheld (Nat.le_of_eq (congrArg List.length hfactories.symm))
  intro g
  unfold factory
  rw [hfactories]

theorem tends_modifyRegistry (store : Store) (c : Nat)
    (change : Registry Listener → Registry Listener)
    : store.Tends f [] forgets (store.modifyRegistry c change) :=
  .of_factories_eq rfl rfl rfl

theorem tracked_of_new_factory {kinds : Nat}
    (hfactories : after.factories = before.factories ++ [{ kinds := kinds }]) (g : Nat)
    : (after.factory g).tracked = (before.factory g).tracked := by
  unfold factory
  rw [hfactories, getD_concat]
  split
  . next heq =>
    rw [heq, List.getD_eq_getElem?_getD, List.getElem?_eq_none (Nat.le_refl _)]
    rfl
  . rfl

theorem Tends.of_new_factory {kinds : Nat} (hobjects : after.objects = before.objects)
    (hheld : after.held = before.held)
    (hfactories : after.factories = before.factories ++ [{ kinds := kinds }])
    : before.Tends f [] forgets after := by
  apply Tends.of_tracked_eq (congrArg List.length hobjects) hheld
  . rw [hfactories]
    exact (List.prefix_append _ _).length_le
  . exact tracked_of_new_factory hfactories

theorem tends_hold {store : Store} {o : ObjectId} (h : o ∈ store.held)
    : store.Tends f [o] forgets (store.hold o) where
  length_objects := Nat.le_refl _
  length_factories := Nat.le_refl _
  given_cases p hp := .inl (by rw [List.mem_singleton.1 hp]; exact h)
  count_le p := by
    unfold hold
    rw [← List.count_append]
    exact Nat.le_refl _
  kept _ _ _ _ htracked _ _ := htracked
  mem_tracked _ _ hentry := .inl hentry
  nodup hnodup := hnodup

theorem tends_ownPipeline {store : Store} {o : ObjectId} (h : o ∈ store.held)
    : store.Tends f [o] forgets (store.ownPipeline o).2 := by
  have hhold : store.Tends f [o] forgets (store.hold o) := tends_hold h
  unfold ownPipeline
  dsimp only
  split
  . exact { hhold with
      count_le := fun p => Nat.le_add_left _ _
      kept := fun _ _ _ _ htracked _ _ => htracked }
  . exact hhold

theorem tends_forget (store : Store) (home : Nat) (reference : Reference)
    (hforgets : forgets home reference)
    : store.Tends f [] forgets (store.forget home reference).2 := by
  refine ⟨Nat.le_refl _, (store.extends_forget home reference).learns.length_le, nofun, ?_, ?_, ?_, ?_⟩
  . exact fun _ => Nat.le_add_left _ _
  . intro g other o hnot htracked _ _
    unfold forget
    dsimp only
    rw [tracked?_modifyFactory]
    split
    . next heq =>
      apply lookup_filter_of_pos htracked
      apply decide_eq_true
      rintro rfl
      rw [heq.1] at hforgets
      exact hnot hforgets
    . exact htracked
  . exact fun g _ hentry => .inl ((store.forget_sublist home reference g).subset hentry)
  . exact fun hnodup g => (hnodup g).sublist ((store.forget_sublist home reference g).map _)

theorem tends_finishRelease (store : Store) (o : ObjectId)
    (hforgets : forgets (store.homeOf o) (store.object o).reference)
    : store.Tends f [] forgets (store.finishRelease o) := by
  have hforget := tends_forget (f := f) (store.modifyObject o ({ · with released := true }))
    (store.homeOf o) (store.object o).reference hforgets
  have hlength : (store.modifyObject o ({ · with released := true })).objects.length =
      store.objects.length := length_modifyObject
  exact { hforget with
    length_objects := Nat.le_of_eq hlength.symm
    given_cases := nofun
    mem_tracked := fun g entry hentry =>
      (hforget.mem_tracked g entry hentry).imp_right fun hnew => ⟨hnew.1, by
        rw [← hlength]
        exact hnew.2⟩ }

end

/-!
## What users do
-/

def Move.Clones (store : Store) : Move → Prop
  | .hold o => o ∈ store.held
  | .ownPipeline o => o ∈ store.held
  | _ => True

def Move.home : Move → Nat
  | .resolve f .. => f
  | .resolveAs f .. => f
  | _ => 0

def Move.given (store : Store) : Move → List ObjectId
  | .hold o => [o]
  | .ownPipeline o => [o]
  | .resolve f c reference => (store.resolve f c reference).1.toOption.toList
  | .resolveAs f c reference type => (store.resolveAs f c reference type).1.toOption.toList
  | _ => []

theorem tends_perform {store : Store} {move : Move} {forgets : Nat → Reference → Prop}
    (h : move.Clones store)
    (hforgets : ∀ f reference, move = .forget f reference → forgets f reference)
    : store.Tends move.home (move.given store) forgets (store.perform move) := by
  cases move with
  | hold o => exact tends_hold h
  | letGo o => exact (Sheds.refl.letGo o).tends _ _
  | resolve f c reference =>
    have hnone : store.Obtains f c [] store := .refl
    have hobtains := hnone.resolve reference
    rw [List.append_nil] at hobtains
    exact hobtains.tends forgets
  | resolveAs f c reference type =>
    have hnone : store.Obtains f c [] store := .refl
    have hobtains := hnone.resolveAs reference type
    rw [List.append_nil] at hobtains
    exact hobtains.tends forgets
  | forget f reference => exact store.tends_forget f reference (hforgets f reference rfl)
  | sweep f => exact (Sheds.refl.sweep f).tends _ _
  | ownPipeline o => exact tends_ownPipeline h
  | registerKind f kind type =>
    unfold perform registerKind
    dsimp only
    split <;> exact .of_factories_eq rfl rfl rfl
  | registerDecoder c type decoder =>
    unfold perform registerDecoder
    dsimp only
    split <;> exact .of_factories_eq rfl rfl rfl
  | dispatch known c source token event =>
    obtain ⟨registries, hdispatch⟩ :=
      dispatchUpTo_eq known store.dispatchDepth store c source token event
    unfold perform dispatch
    dsimp only
    rw [hdispatch]
    exact .of_factories_eq rfl rfl rfl
  | addFactory kinds => exact .of_new_factory rfl rfl rfl
  | _ => exact .of_factories_eq rfl rfl rfl

/-!
## What follows
-/

namespace Tends

section
variable {before middle after : Store} {f : Nat} {given : List ObjectId}
  {forgets : Nat → Reference → Prop} {o : ObjectId}

theorem sheds (h : before.Tends f given forgets middle) (hsheds : middle.Sheds after)
    : before.Tends f given forgets after where
  length_objects := by
    rw [hsheds.objects_eq]
    exact h.length_objects
  length_factories := Nat.le_trans h.length_factories hsheds.extending.learns.length_le
  given_cases := by
    rw [hsheds.objects_eq]
    exact h.given_cases
  count_le p := Nat.le_trans (hsheds.held_sublist.count_le p) (h.count_le p)
  kept g reference p hnot htracked hbefore hafter :=
    hsheds.tracked?_eq
      (h.kept g reference p hnot htracked hbefore (hsheds.held_sublist.subset hafter)) hafter
  mem_tracked g entry hentry := h.mem_tracked g entry ((hsheds.tracked_sublist g).subset hentry)
  nodup hnodup g := (h.nodup hnodup g).sublist ((hsheds.tracked_sublist g).map _)

theorem mem_held (h : before.Tends f given forgets after) (ho : o ∈ after.held)
    : o ∈ given ∨ o ∈ before.held := by
  have hcount := h.count_le o
  have hpos := List.count_pos_iff.2 ho
  by_cases hgiven : o ∈ given
  . exact .inl hgiven
  . rw [List.count_eq_zero.2 hgiven] at hcount
    exact .inr (List.count_pos_iff.1 (by omega))

theorem held_of_held (h : before.Tends f given forgets after) (hlt : o < before.objects.length)
    (ho : o ∈ after.held) : o ∈ before.held := by
  rcases h.mem_held ho with hgiven | hheld
  . exact (h.given_cases o hgiven).resolve_right fun hnew => Nat.not_lt_of_le hnew.1 hlt
  . exact hheld

theorem neat (h : before.Tends f given forgets after) (hneat : before.Neat) : after.Neat := by
  refine ⟨h.nodup hneat.nodup, ?_⟩
  intro p hp
  have hheld (hold : p ∈ before.held) : p < after.objects.length :=
    Nat.lt_of_lt_of_le (hneat.held_lt p hold) h.length_objects
  rcases h.mem_held hp with hgiven | hold
  . exact (h.given_cases p hgiven).elim hheld And.right
  . exact hheld hold

end

end Tends

end Store

end MediaProxy
