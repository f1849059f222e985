import MediaProxy.Proofs.Object.Residue

/-!
This module contains tables that several contexts share: of the types of proxies by kinds, and of decoders by
types of commands. Entries are only added, and only for what has none.
-/

namespace MediaProxy

abbrev Tables (α : Type) := List (List (String × α))

namespace Tables

variable {α : Type}

def holds? (tables : Tables α) (k : Nat) (tag : String) : Option α :=
  (tables.getD k []).lookup tag

inductive Amends (before : Tables α) (registers : Nat → String → α → Prop) : Tables α → Prop where
  | same : before.Amends registers before
  | entered {k : Nat} {tag : String} {a : α} (h : registers k tag a) (hnew : before.holds? k tag = none) :
    before.Amends registers (before.set k (before.getD k [] ++ [(tag, a)]))
  | added (table : List (String × α)) : before.Amends registers (before ++ [table])

section
variable {before after : Tables α} {registers : Nat → String → α → Prop} {k : Nat} {tag : String}
  {a : α}

theorem lt_of_holds? (h : before.holds? k tag = some a) : k < before.length := by
  unfold holds? at h
  rw [List.getD_eq_getElem?_getD] at h
  by_cases hk : k < before.length
  . exact hk
  . rw [List.getElem?_eq_none (Nat.le_of_not_lt hk)] at h
    cases h

theorem holds?_set (tables : Tables α) (k : Nat) (table : List (String × α)) (j : Nat) (tag : String)
    : Tables.holds? (tables.set k table) j tag =
        if k = j ∧ k < tables.length then table.lookup tag else tables.holds? j tag := by
  unfold holds?
  rw [List.getD_eq_getElem?_getD, List.getD_eq_getElem?_getD, List.getElem?_set]
  by_cases hk : k = j
  . subst hk
    by_cases hlt : k < tables.length
    . simp [hlt]
    . simp [hlt]
  . simp [hk]

theorem holds?_concat (tables : Tables α) (table : List (String × α)) (j : Nat) (tag : String)
    : Tables.holds? (tables ++ [table]) j tag =
        if j = tables.length then table.lookup tag else tables.holds? j tag := by
  unfold holds?
  rw [getD_concat]
  split <;> rfl

theorem Amends.of_given {given : Option Nat} {table : List (String × α)}
    (h : (given = some k ∧ after = before) ∨ (k = before.length ∧ after = before ++ [table]))
    : before.Amends registers after := by
  rcases h with ⟨_, rfl⟩ | ⟨_, rfl⟩
  . exact .same
  . exact .added table

theorem Amends.length_le (h : before.Amends registers after) : before.length ≤ after.length := by
  cases h with
  | same => exact Nat.le_refl _
  | entered => exact Nat.le_of_eq List.length_set.symm
  | added table => exact (List.prefix_append _ _).length_le

theorem Amends.holds?_eq (h : before.Amends registers after) (hentry : before.holds? k tag = some a)
    : after.holds? k tag = some a := by
  cases h with
  | same => exact hentry
  | @entered j other b _ hnew =>
    rw [holds?_set]
    split
    . next heq =>
      rw [heq.1]
      unfold holds? at hentry
      rw [List.lookup_append, hentry]
      rfl
    . exact hentry
  | added table =>
    rw [holds?_concat, if_neg (Nat.ne_of_lt (lt_of_holds? hentry))]
    exact hentry

theorem Amends.new (h : before.Amends registers after) (hnone : before.holds? k tag = none)
    (hentry : after.holds? k tag = some a) : registers k tag a ∨ k = before.length := by
  cases h with
  | same => cases hnone.symm.trans hentry
  | @entered j other b hregisters hnew =>
    rw [holds?_set] at hentry
    split at hentry
    . next heq =>
      obtain ⟨rfl, _⟩ := heq
      unfold holds? at hnone
      rw [List.lookup_append, hnone, Option.none_or, List.lookup_cons] at hentry
      split at hentry
      . next hsame =>
        cases hentry
        rw [eq_of_beq hsame]
        exact .inl hregisters
      . cases hentry
    . cases hnone.symm.trans hentry
  | added table =>
    rw [holds?_concat] at hentry
    split at hentry
    . next heq => exact .inr heq
    . cases hnone.symm.trans hentry

end

end Tables

namespace Store

structure Supplied (store : Store) : Prop where
  kinds_lt : ∀ f, (store.factory f).kinds < store.kindTables.length
  decoders_lt : ∀ c, (store.context c).decoders < store.decoderTables.length

structure KeepsTables (before after : Store) : Prop where
  kindTables_eq : after.kindTables = before.kindTables
  decoderTables_eq : after.decoderTables = before.decoderTables
  contexts_eq : after.contexts = before.contexts
  length_factories : after.factories.length = before.factories.length
  kinds_eq : ∀ f, (after.factory f).kinds = (before.factory f).kinds

/-!
## Operations
-/

section
variable {before after : Store}

namespace KeepsTables

theorem refl (store : Store) : store.KeepsTables store :=
  ⟨rfl, rfl, rfl, rfl, fun _ => rfl⟩

theorem trans {first second third : Store} (h : first.KeepsTables second)
    (h' : second.KeepsTables third) : first.KeepsTables third :=
  ⟨h'.kindTables_eq.trans h.kindTables_eq, h'.decoderTables_eq.trans h.decoderTables_eq,
    h'.contexts_eq.trans h.contexts_eq, h'.length_factories.trans h.length_factories,
    fun f => (h'.kinds_eq f).trans (h.kinds_eq f)⟩

theorem of_eq (hkinds : after.kindTables = before.kindTables)
    (hdecoders : after.decoderTables = before.decoderTables)
    (hcontexts : after.contexts = before.contexts) (hfactories : after.factories = before.factories)
    : before.KeepsTables after := by
  refine ⟨hkinds, hdecoders, hcontexts, congrArg List.length hfactories, ?_⟩
  intro f
  unfold factory
  rw [hfactories]

theorem modifyFactory (store : Store) (f : Nat) {change : Factory → Factory}
    (h : ∀ factory, (change factory).kinds = factory.kinds)
    : store.KeepsTables (store.modifyFactory f change) := by
  refine ⟨rfl, rfl, rfl, List.length_modify _ _ _, ?_⟩
  intro g
  rw [factory_modifyFactory]
  split
  . apply h
  . rfl

theorem make (store : Store) (f c : Nat) (reference : Reference) (type : ProxyClass)
    : store.KeepsTables (store.make f c reference type).2 := by
  have hadded : store.KeepsTables
      { store with objects := store.objects ++ [{ reference, context := c, type }] } :=
    .of_eq rfl rfl rfl rfl
  exact hadded.trans (modifyFactory _ f fun _ => rfl)

end KeepsTables

theorem Sheds.keepsTables (h : before.Sheds after) : before.KeepsTables after := by
  induction h with
  | refl => exact .refl before
  | letGo o _ ih => exact ih.trans (.of_eq rfl rfl rfl rfl)
  | sweep f _ ih => exact ih.trans (.modifyFactory _ f fun _ => rfl)

theorem Obtains.keepsTables {f c : Nat} {got : List ObjectId} (h : before.Obtains f c got after)
    : before.KeepsTables after := by
  induction h with
  | refl => exact .refl before
  | @made reference type _ store _ _ _ ih =>
    exact ih.trans ((KeepsTables.make store f c reference type).trans (.of_eq rfl rfl rfl rfl))
  | _ => next ih => exact ih.trans (.of_eq rfl rfl rfl rfl)

theorem Operates.keepsTables {o : ObjectId} {operation : Operation} {result : Except Error Value}
    (h : before.Operates o operation result after) : before.KeepsTables after := by
  cases h with
  | obtained _ hobtains => exact hobtains.keepsTables
  | released =>
    have hmarked : before.KeepsTables (before.modifyObject o ({ · with released := true })) :=
      .of_eq rfl rfl rfl rfl
    exact hmarked.trans (.modifyFactory _ _ fun _ => rfl)
  | _ => exact .of_eq rfl rfl rfl rfl

/-!
## What users do
-/

theorem registerKind_of_known {store : Store} {f : Nat} {kind : String}
    (h : ((store.kindTable f).lookup kind).isSome) (type : ProxyClass)
    : store.registerKind f kind type =
        (.error (.config ("Proxy kind '" ++ kind ++ "' already registered")), store) := by
  unfold registerKind KindTable.register
  rw [if_pos h]

theorem registerKind_of_new {store : Store} {f : Nat} {kind : String}
    (h : (store.kindTable f).lookup kind = none) (type : ProxyClass)
    : store.registerKind f kind type =
        (.ok (), { store with
          kindTables := store.kindTables.set (store.factory f).kinds
            (store.kindTable f ++ [(kind, type)]) }) := by
  unfold registerKind KindTable.register
  rw [if_neg (by simp [h])]

theorem registerDecoder_of_known {store : Store} {c : Nat} {tag : String}
    (h : ((store.decoders c).lookup tag).isSome) (decoder : Decoder)
    : store.registerDecoder c tag decoder =
        (.error (.config ("Command type '" ++ tag ++ "' already registered")), store) := by
  unfold registerDecoder DecoderTable.register
  rw [if_pos h]

theorem registerDecoder_of_new {store : Store} {c : Nat} {tag : String}
    (h : (store.decoders c).lookup tag = none) (decoder : Decoder)
    : store.registerDecoder c tag decoder =
        (.ok (), { store with
          decoderTables := store.decoderTables.set (store.context c).decoders
            (store.decoders c ++ [(tag, decoder)]) }) := by
  unfold registerDecoder DecoderTable.register
  rw [if_neg (by simp [h])]

def Move.stocks : Move → Bool
  | .registerKind .. => true
  | .registerDecoder .. => true
  | .addKindTable _ => true
  | .addDecoders => true
  | .addFactory _ => true
  | _ => false

theorem keepsTables_perform (store : Store) {move : Move} (h : move.stocks = false)
    : store.KeepsTables (store.perform move) := by
  cases move with
  | resolve f c reference => exact (Obtains.refl.resolve reference).keepsTables
  | resolveAs f c reference type => exact (Obtains.refl.resolveAs reference type).keepsTables
  | forget f reference => exact .modifyFactory store f fun _ => rfl
  | sweep f => exact (Sheds.refl.sweep f).keepsTables
  | ownPipeline o =>
    unfold perform ownPipeline
    dsimp only
    split <;> exact .of_eq rfl rfl rfl rfl
  | dispatch known c source token event =>
    obtain ⟨registries, hdispatch⟩ :=
      dispatchUpTo_eq known store.dispatchDepth store c source token event
    unfold perform dispatch
    dsimp only
    rw [hdispatch]
    exact .of_eq rfl rfl rfl rfl
  | registerKind => cases h
  | registerDecoder => cases h
  | addKindTable => cases h
  | addDecoders => cases h
  | addFactory => cases h
  | _ => exact .of_eq rfl rfl rfl rfl

end

/-!
## Answers that do not change
-/

/--
What was resolved and decoded once is resolved and decoded in the same way, wherever the same tables are
used: a reference of a kind that was registered gets a proxy of its type, a proxy is of the type that is asked
for or is not, as it was before, and a parent or pipeline that became known can be resolved.
-/
structure Upholds (before after : Store) : Prop where
  resolved : ∀ f g, (after.factory g).kinds = (before.factory f).kinds → ∀ reference type,
    before.knownType? f reference = some type →
    ∀ c, ∃ o later, after.resolve g c reference = (.ok o, later) ∧ later.Stands o reference type
  decoded : ∀ c d, (after.context d).decoders = (before.context c).decoders → ∀ tag decoder,
    (before.decoders c).lookup tag = some decoder →
    ∀ bytes, (after.decoders d).decode tag bytes =
      (decoder.decode bytes).map fun decoded => { type := tag, decoded }
  commanded : ∀ c o, (after.context (after.object o).context).decoders = (before.context c).decoders →
    ∀ command decoder, (before.decoders c).lookup command.type = some decoder →
    ∀ bytes, after.conclude o (.sendCommand command) (.ok (.result bytes)) =
      ((decoder.decode bytes).map fun decoded => .result { type := command.type, decoded }, after)
  fits : ∀ f g, (after.factory g).kinds = (before.factory f).kinds → ∀ c reference type o middle,
    before.resolveAs f c reference type = (.ok o, middle) →
    ∀ d other, other.kind = reference.kind →
    ∃ p later, after.resolveAs g d other type = (.ok p, later) ∧ later.Stands p other type
  misfits : ∀ f g, (after.factory g).kinds = (before.factory f).kinds → ∀ c reference type middle,
    before.resolveAs f c reference type = (.error (misfitError reference type), middle) →
    ∀ d other, other.kind = reference.kind →
    ∃ later, after.resolveAs g d other type = (.error (misfitError other type), later)
  parent : ∀ o reference, (before.object o).parent = some (some reference) →
    ∀ g, (after.factory g).kinds = (before.factory (before.homeOf o)).kinds →
    ∀ d, ∃ p later, after.resolve g d reference = (.ok p, later)
  pipeline : ∀ o reference, (before.object o).pipeline = some reference →
    ∀ g, (after.factory g).kinds = (before.factory (before.homeOf o)).kinds →
    ∀ d, ∃ p later, after.resolveAs g d reference .pipeline = (.ok p, later) ∧
      later.Stands p reference .pipeline

theorem misfitError_ne (reference other : Reference) (type : ProxyClass) (kind : String)
    : misfitError reference type ≠
        .unknownObjectKind ("no proxy registered for kind '" ++ kind ++ "' (" ++ other.text ++ ")") := by
  intro h
  have htext := congrArg (·.toList.getLast?) (Error.unknownObjectKind.inj h)
  simp only [String.toList_append, List.getLast?_append] at htext
  -- One text ends with the label of a type, the other one with a parenthesis.
  have hlabel := type.no_tuple
  cases hlast : type.label.toList.getLast? with
  | none => simp [hlast] at htext
  | some c =>
    rw [hlast] at hlabel
    simp [hlast] at htext
    exact hlabel (congrArg some htext)

section
variable {store : Store} {f : Nat} {reference : Reference} {type other : ProxyClass}

theorem Typed.resolveAs_misfit (h : store.Typed) (hknown : store.knownType? f reference = some other)
    (hne : other ≠ type) (c : Nat)
    : ∃ after, store.resolveAs f c reference type = (.error (misfitError reference type), after) := by
  obtain ⟨o, middle, hresolve, hstands⟩ := h.resolve_ok hknown c
  unfold Store.resolveAs
  rw [hresolve]
  dsimp only
  rw [hstands.type_eq, if_neg hne]
  exact ⟨_, rfl⟩

theorem Typed.of_misfit (h : store.Typed) {c : Nat} {after : Store}
    (hresolve : store.resolveAs f c reference type = (.error (misfitError reference type), after))
    : ∃ other, store.knownType? f reference = some other ∧ other ≠ type := by
  cases hknown : store.knownType? f reference with
  | some other =>
    refine ⟨other, rfl, ?_⟩
    rintro rfl
    obtain ⟨_, _, hok, _⟩ := h.resolveAs_ok hknown c
    cases hok.symm.trans hresolve
  | none =>
    have hlookup : store.lookup? f reference = none := by
      rw [Option.eq_none_iff_forall_ne_some]
      intro o ho
      cases hknown.symm.trans (h.tracked f reference o (mem_tracked_of_lookup? ho)).2.2
    have htype : (store.kindTable f).lookup reference.kind = none := hknown
    unfold Store.resolveAs Store.resolve KindTable.type at hresolve
    rw [hlookup, htype] at hresolve
    exact absurd (Except.error.inj (Prod.mk.inj hresolve).1).symm (misfitError_ne _ _ _ _)

theorem Typed.knownType?_parent (h : store.Typed) {o : ObjectId}
    (hparent : (store.object o).parent = some (some reference))
    : ∃ type, store.knownType? (store.homeOf o) reference = some type := by
  have hfetched : (store.object o).known .getParent = some (.parent (some reference)) := by
    unfold MediaObject.known
    rw [hparent]
    rfl
  exact h.known o _ _ hfetched

theorem Typed.knownType?_pipeline (h : store.Typed) {o : ObjectId}
    (hpipeline : (store.object o).pipeline = some reference)
    : store.knownType? (store.homeOf o) reference = some .pipeline := by
  have hfetched : (store.object o).known .getMediaPipeline = some (.pipeline reference) := by
    unfold MediaObject.known
    rw [hpipeline]
    rfl
  exact h.known o _ _ hfetched

end

theorem upholds_of_entries {before after : Store} (hbefore : before.Typed) (hafter : after.Typed)
    (hkinds : ∀ k tag type, Tables.holds? before.kindTables k tag = some type →
      Tables.holds? after.kindTables k tag = some type)
    (hdecoders : ∀ k tag decoder, Tables.holds? before.decoderTables k tag = some decoder →
      Tables.holds? after.decoderTables k tag = some decoder)
    : before.Upholds after := by
  have hknown : ∀ f g, (after.factory g).kinds = (before.factory f).kinds →
      ∀ reference other type, other.kind = reference.kind →
      before.knownType? f reference = some type → after.knownType? g other = some type := by
    intro f g hshared reference other type hkind htype
    have hentry := hkinds _ _ _ htype
    rw [← hshared, ← hkind] at hentry
    exact hentry
  have hdecode : ∀ c d, (after.context d).decoders = (before.context c).decoders → ∀ tag decoder,
      (before.decoders c).lookup tag = some decoder → (after.decoders d).lookup tag = some decoder := by
    intro c d hshared tag decoder hdecoder
    have hentry := hdecoders _ _ _ hdecoder
    rw [← hshared] at hentry
    exact hentry
  -- Everything that users see of a table goes through one of these two lookups.
  refine ⟨?_, ?_, ?_, ?_, ?_, ?_, ?_⟩
  . intro f g hshared reference type htype c
    exact hafter.resolve_ok (hknown f g hshared _ _ _ rfl htype) c
  . intro c d hshared tag decoder hdecoder bytes
    unfold DecoderTable.decode
    rw [hdecode c d hshared tag decoder hdecoder]
  . intro c o hshared command decoder hdecoder bytes
    unfold conclude finish
    dsimp only
    unfold DecoderTable.decode
    rw [hdecode c _ hshared command.type decoder hdecoder]
    dsimp only
    cases decoder.decode bytes <;> rfl
  . intro f g hshared c reference type o middle hresolve d other hkind
    have htype := (hbefore.of_resolveAs hresolve).1
    exact hafter.resolveAs_ok (hknown f g hshared _ _ _ hkind htype) d
  . intro f g hshared c reference type middle hresolve d other hkind
    obtain ⟨found, hfound, hne⟩ := hbefore.of_misfit hresolve
    exact hafter.resolveAs_misfit (hknown f g hshared _ _ _ hkind hfound) hne d
  . intro o reference hparent g hshared d
    obtain ⟨type, htype⟩ := hbefore.knownType?_parent hparent
    obtain ⟨p, later, hresolve, _⟩ :=
      hafter.resolve_ok (hknown _ g hshared reference reference type rfl htype) d
    exact ⟨p, later, hresolve⟩
  . intro o reference hpipeline g hshared d
    have htype := hbefore.knownType?_pipeline hpipeline
    exact hafter.resolveAs_ok (hknown _ g hshared reference reference .pipeline rfl htype) d

end Store

end MediaProxy
