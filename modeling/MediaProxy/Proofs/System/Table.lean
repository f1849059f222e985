import MediaProxy.Proofs.Object.Table
import MediaProxy.Proofs.System.Identity
import MediaProxy.Scenario.Application

/-!
This module contains the tables of a run: what is registered for a tag first is what everybody gets for it who
shares the table, however the registrations, resolutions and commands follow each other.
-/

namespace MediaProxy

structure Store.Equips (before : Store) (builder : ContextBuilder) (kinds : Nat) (context : Context)
    (after : Store) : Prop where
  factories : after.factories = before.factories ++ [{ kinds := kinds }]
  contexts : after.contexts = before.contexts ++ [context]
  kindTables : (builder.kinds = some kinds ∧ after.kindTables = before.kindTables) ∨
    (kinds = before.kindTables.length ∧ after.kindTables = before.kindTables ++ [.standard])
  decoderTables :
    (builder.decoders = some context.decoders ∧ after.decoderTables = before.decoderTables) ∨
    (context.decoders = before.decoderTables.length ∧
      after.decoderTables = before.decoderTables ++ [[]])

namespace System

theorem equips_build (system : System) (builder : ContextBuilder)
    : (system.build builder).2 = system ∨
      ∃ kinds context, system.store.Equips builder kinds context (system.build builder).2.store := by
  unfold build
  split
  . exact .inl rfl
  . right
    obtain ⟨config, registry, kinds, decoders, runtime⟩ := builder
    cases kinds with
    | none =>
      cases decoders with
      | none => cases registry <;> exact ⟨_, _, rfl, rfl, .inr ⟨rfl, rfl⟩, .inr ⟨rfl, rfl⟩⟩
      | some d => cases registry <;> exact ⟨_, _, rfl, rfl, .inr ⟨rfl, rfl⟩, .inl ⟨rfl, rfl⟩⟩
    | some k =>
      cases decoders with
      | none => cases registry <;> exact ⟨_, _, rfl, rfl, .inl ⟨rfl, rfl⟩, .inr ⟨rfl, rfl⟩⟩
      | some d => cases registry <;> exact ⟨_, _, rfl, rfl, .inl ⟨rfl, rfl⟩, .inl ⟨rfl, rfl⟩⟩

def RegistersKind (system : System) (action : Action) (k : Nat) (kind : String) (type : ProxyClass) :
    Prop :=
  ∃ f, action = .share (.registerKind f kind type) ∧ (system.store.factory f).kinds = k

def RegistersDecoder (system : System) (action : Action) (k : Nat) (tag : String) (decoder : Decoder) :
    Prop :=
  ∃ c, action = .share (.registerDecoder c tag decoder) ∧ (system.store.context c).decoders = k

def Supplies (system : System) (action : Action) : Prop :=
  system.Clones action ∧
    match action with
    | .share (.addFactory kinds) => kinds < system.store.kindTables.length
    | .build builder =>
      (∀ k, builder.kinds = some k → k < system.store.kindTables.length) ∧
        ∀ k, builder.decoders = some k → k < system.store.decoderTables.length
    | _ => True

structure Stocked (system : System) : Prop extends system.Tended where
  supplied : system.store.Supplied

/-!
## Actions
-/

section
variable {system : System} {action : Action}

def Action.stocks : Action → Bool
  | .share move => move.stocks
  | .build _ => true
  | _ => false

theorem keepsTables_act (h : system.Fitting) (hadmits : system.Admits action)
    (hstocks : action.stocks = false) : system.store.KeepsTables (system.act action).store := by
  have haffects := affects_act h hadmits
  generalize (system.act action).store = after at haffects
  cases haffects with
  | sheds hsheds => exact hsheds.keepsTables
  | operates _ hoperates hsheds => exact hoperates.keepsTables.trans hsheds.keepsTables
  | shares move => exact system.store.keepsTables_perform hstocks
  | builds => cases hstocks

theorem amends_kinds (h : system.Fitting) (hadmits : system.Admits action)
    : Tables.Amends system.store.kindTables (system.RegistersKind action)
        (system.act action).store.kindTables := by
  have hkeeps (hstocks : action.stocks = false)
      : Tables.Amends system.store.kindTables (system.RegistersKind action)
          (system.act action).store.kindTables := by
    rw [(keepsTables_act h hadmits hstocks).kindTables_eq]
    exact .same
  cases action with
  | share move =>
    cases move with
    | registerKind f kind type =>
      change Tables.Amends _ _ (system.store.registerKind f kind type).2.kindTables
      cases hknown : (system.store.kindTable f).lookup kind with
      | none =>
        rw [Store.registerKind_of_new hknown]
        exact .entered ⟨f, rfl, rfl⟩ hknown
      | some known =>
        rw [Store.registerKind_of_known (Option.isSome_of_eq_some hknown)]
        exact .same
    | registerDecoder c tag decoder =>
      change Tables.Amends _ _ (system.store.registerDecoder c tag decoder).2.kindTables
      unfold Store.registerDecoder
      split <;> exact .same
    | addKindTable table => exact .added table
    | addDecoders => exact .same
    | addFactory kinds => exact .same
    | _ => exact hkeeps rfl
  | build builder =>
    change Tables.Amends _ _ (system.build builder).2.store.kindTables
    rcases system.equips_build builder with heq | ⟨kinds, context, hequips⟩
    . rw [heq]
      exact .same
    . exact .of_given hequips.kindTables
  | _ => exact hkeeps rfl

theorem amends_decoders (h : system.Fitting) (hadmits : system.Admits action)
    : Tables.Amends system.store.decoderTables (system.RegistersDecoder action)
        (system.act action).store.decoderTables := by
  have hkeeps (hstocks : action.stocks = false)
      : Tables.Amends system.store.decoderTables (system.RegistersDecoder action)
          (system.act action).store.decoderTables := by
    rw [(keepsTables_act h hadmits hstocks).decoderTables_eq]
    exact .same
  cases action with
  | share move =>
    cases move with
    | registerKind f kind type =>
      change Tables.Amends _ _ (system.store.registerKind f kind type).2.decoderTables
      unfold Store.registerKind
      split <;> exact .same
    | registerDecoder c tag decoder =>
      change Tables.Amends _ _ (system.store.registerDecoder c tag decoder).2.decoderTables
      cases hknown : (system.store.decoders c).lookup tag with
      | none =>
        rw [Store.registerDecoder_of_new hknown]
        exact .entered ⟨c, rfl, rfl⟩ hknown
      | some known =>
        rw [Store.registerDecoder_of_known (Option.isSome_of_eq_some hknown)]
        exact .same
    | addKindTable table => exact .same
    | addDecoders => exact .added []
    | addFactory kinds => exact .same
    | _ => exact hkeeps rfl
  | build builder =>
    change Tables.Amends _ _ (system.build builder).2.store.decoderTables
    rcases system.equips_build builder with heq | ⟨kinds, context, hequips⟩
    . rw [heq]
      exact .same
    . exact .of_given hequips.decoderTables
  | _ => exact hkeeps rfl

theorem kinds_act (h : system.Fitting) (hadmits : system.Admits action)
    (hsupplies : system.Supplies action) (f : Nat)
    : ((system.act action).store.factory f).kinds = (system.store.factory f).kinds ∨
        (system.store.factories.length ≤ f ∧
          ((system.act action).store.factory f).kinds < (system.act action).store.kindTables.length) := by
  have hkeeps (hstocks : action.stocks = false) :=
    Or.inl (b := system.store.factories.length ≤ f ∧
      ((system.act action).store.factory f).kinds < (system.act action).store.kindTables.length)
      ((keepsTables_act h hadmits hstocks).kinds_eq f)
  cases action with
  | share move =>
    cases move with
    | registerKind g kind type =>
      left
      change ((system.store.registerKind g kind type).2.factory f).kinds = _
      unfold Store.registerKind
      split <;> rfl
    | registerDecoder c tag decoder =>
      left
      change ((system.store.registerDecoder c tag decoder).2.factory f).kinds = _
      unfold Store.registerDecoder
      split <;> rfl
    | addKindTable table => exact .inl rfl
    | addDecoders => exact .inl rfl
    | addFactory kinds =>
      change ((system.store.addFactory kinds).2.factory f).kinds = _ ∨
        _ ∧ ((system.store.addFactory kinds).2.factory f).kinds < system.store.kindTables.length
      rw [Store.factory_addFactory]
      split
      . next hnew => exact .inr ⟨Nat.le_of_eq hnew.symm, hsupplies.2⟩
      . exact .inl rfl
    | _ => exact hkeeps rfl
  | build builder =>
    change ((system.build builder).2.store.factory f).kinds = _ ∨
      _ ∧ ((system.build builder).2.store.factory f).kinds <
        (system.build builder).2.store.kindTables.length
    rcases system.equips_build builder with heq | ⟨kinds, context, hequips⟩
    . rw [heq]
      exact .inl rfl
    . unfold Store.factory
      rw [hequips.factories, getD_concat]
      split
      . next hnew =>
        exact .inr ⟨Nat.le_of_eq hnew.symm, lt_length_of_given hequips.kindTables hsupplies.2.1⟩
      . exact .inl rfl
  | _ => exact hkeeps rfl

theorem decoders_act (h : system.Fitting) (hadmits : system.Admits action)
    (hsupplies : system.Supplies action) (c : Nat)
    : ((system.act action).store.context c).decoders = (system.store.context c).decoders ∨
        ((system.act action).store.context c).decoders <
          (system.act action).store.decoderTables.length := by
  cases action with
  | build builder =>
    change ((system.build builder).2.store.context c).decoders = _ ∨
      ((system.build builder).2.store.context c).decoders <
        (system.build builder).2.store.decoderTables.length
    rcases system.equips_build builder with heq | ⟨kinds, context, hequips⟩
    . rw [heq]
      exact .inl rfl
    . unfold Store.context
      rw [hequips.contexts, getD_concat]
      split
      . exact .inr (lt_length_of_given hequips.decoderTables hsupplies.2.2)
      . exact .inl rfl
  | share move =>
    left
    change ((system.store.perform move).context c).decoders = _
    rw [(Store.extends_perform hadmits).context_eq]
  | _ =>
    left
    unfold Store.context
    rw [(keepsTables_act h hadmits rfl).contexts_eq]

theorem Stocked.act (h : system.Stocked) (hadmits : system.Admits action)
    (hsupplies : system.Supplies action) : (system.act action).Stocked := by
  refine ⟨h.toTended.act hadmits hsupplies.1, ?_, ?_⟩
  . intro f
    have hle := (amends_kinds h.fitting hadmits).length_le
    rcases kinds_act h.fitting hadmits hsupplies f with heq | ⟨_, hlt⟩
    . rw [heq]
      exact Nat.lt_of_lt_of_le (h.supplied.kinds_lt f) hle
    . exact hlt
  . intro c
    have hle := (amends_decoders h.fitting hadmits).length_le
    rcases decoders_act h.fitting hadmits hsupplies c with heq | hlt
    . rw [heq]
      exact Nat.lt_of_lt_of_le (h.supplied.decoders_lt c) hle
    . exact hlt

end

/-!
## Runs
-/

theorem lookup_concat {α : Type} {table : List (String × α)} {tag : String}
    (h : table.lookup tag = none) (a : α) : (table ++ [(tag, a)]).lookup tag = some a := by
  rw [List.lookup_append, h, Option.none_or, List.lookup_cons_self]

section
variable {α : Type} (tables : System → Tables α)
  (registers : System → Action → Nat → String → α → Prop)

structure FirstWins (start : System) (actions : List Action) : Prop where
  kept : ∀ earlier, earlier <:+ actions → ∀ k tag a,
    (tables (start.after earlier)).holds? k tag = some a →
    (tables (start.after actions)).holds? k tag = some a
  refused : ∀ action earlier, action :: earlier <:+ actions → ∀ k tag a known,
    registers (start.after earlier) action k tag a →
    (tables (start.after earlier)).holds? k tag = some known →
    start.after (action :: earlier) = start.after earlier
  entered : ∀ action earlier, action :: earlier <:+ actions → ∀ k tag a,
    registers (start.after earlier) action k tag a →
    (tables (start.after earlier)).holds? k tag = none →
    (tables (start.after (action :: earlier))).holds? k tag = some a
  once : ∀ action earlier action' earlier', action :: earlier <:+ actions →
    action' :: earlier' <:+ actions → ∀ k tag a a',
    registers (start.after earlier) action k tag a →
    (tables (start.after earlier)).holds? k tag = none →
    registers (start.after earlier') action' k tag a' →
    (tables (start.after earlier')).holds? k tag = none → action :: earlier = action' :: earlier'
  origin : ∀ k tag a, (tables (start.after actions)).holds? k tag = some a →
    (tables start).holds? k tag = some a ∨
      ∃ action earlier, action :: earlier <:+ actions ∧
        (tables (start.after earlier)).holds? k tag = none ∧
        (tables (start.after (action :: earlier))).holds? k tag = some a ∧
        (registers (start.after earlier) action k tag a ∨ k = (tables (start.after earlier)).length)

structure Amending (start : System) (actions : List Action) : Prop where
  amends : ∀ action earlier, action :: earlier <:+ actions →
    (tables (start.after earlier)).Amends (registers (start.after earlier) action)
      (tables (start.after (action :: earlier)))
  refused : ∀ action earlier, action :: earlier <:+ actions → ∀ k tag a known,
    registers (start.after earlier) action k tag a →
    (tables (start.after earlier)).holds? k tag = some known →
    start.after (action :: earlier) = start.after earlier
  entered : ∀ action earlier, action :: earlier <:+ actions → ∀ k tag a,
    registers (start.after earlier) action k tag a →
    (tables (start.after earlier)).holds? k tag = none →
    (tables (start.after (action :: earlier))).holds? k tag = some a

variable {tables registers} {start : System} {action : Action} {actions earlier later : List Action}
  {k : Nat} {tag : String} {a : α}

theorem Amending.of_suffix (h : start.Amending tables registers actions) (hsuffix : later <:+ actions)
    : start.Amending tables registers later where
  amends action earlier hearlier := h.amends action earlier (hearlier.trans hsuffix)
  refused action earlier hearlier := h.refused action earlier (hearlier.trans hsuffix)
  entered action earlier hearlier := h.entered action earlier (hearlier.trans hsuffix)

theorem Amending.kept (h : start.Amending tables registers actions) (hsuffix : earlier <:+ actions)
    (hentry : (tables (start.after earlier)).holds? k tag = some a)
    : (tables (start.after actions)).holds? k tag = some a := by
  apply suffix_induction
    (motive := fun moment => (tables (start.after moment)).holds? k tag = some a) hsuffix hentry
  exact fun action before _ hbefore hthen => (h.amends action before hbefore).holds?_eq hthen

theorem Amending.holds?_ne (h : start.Amending tables registers actions)
    (hsuffix : action :: earlier <:+ actions) (hregisters : registers (start.after earlier) action k tag a)
    (hnone : (tables (start.after earlier)).holds? k tag = none)
    : (tables (start.after actions)).holds? k tag ≠ none := by
  rw [h.kept hsuffix (h.entered action earlier hsuffix k tag a hregisters hnone)]
  exact nofun

theorem Amending.origin (h : start.Amending tables registers actions)
    (hentry : (tables (start.after actions)).holds? k tag = some a)
    : (tables start).holds? k tag = some a ∨
        ∃ action earlier, action :: earlier <:+ actions ∧
          (tables (start.after earlier)).holds? k tag = none ∧
          (tables (start.after (action :: earlier))).holds? k tag = some a ∧
          (registers (start.after earlier) action k tag a ∨
            k = (tables (start.after earlier)).length) := by
  induction actions with
  | nil => exact .inl hentry
  | cons action actions ih =>
    have hbefore := List.suffix_cons action actions
    cases hold : (tables (start.after actions)).holds? k tag with
    | none =>
      exact .inr ⟨action, actions, List.suffix_rfl, hold, hentry,
        (h.amends action actions List.suffix_rfl).new hold hentry⟩
    | some known =>
      obtain rfl : known = a := Option.some.inj ((h.kept hbefore hold).symm.trans hentry)
      refine (ih (h.of_suffix hbefore) hold).imp_right ?_
      rintro ⟨next, earlier, hearlier, hnew⟩
      exact ⟨next, earlier, hearlier.trans hbefore, hnew⟩

theorem Amending.firstWins (h : start.Amending tables registers actions)
    : start.FirstWins tables registers actions := by
  refine ⟨fun earlier hsuffix k tag a => h.kept hsuffix, h.refused, h.entered, ?_,
    fun k tag a => h.origin⟩
  intro action earlier action' earlier' hsuffix hsuffix' k tag a a' hregisters hnone hregisters' hnone'
  have hthen := (List.suffix_cons action earlier).trans hsuffix
  have hthen' := (List.suffix_cons action' earlier').trans hsuffix'
  rcases List.suffix_or_suffix_of_suffix hsuffix hsuffix' with hbefore | hbefore
  . rcases List.suffix_cons_iff.1 hbefore with heq | hstrictly
    . exact heq
    . exact absurd hnone' ((h.of_suffix hthen').holds?_ne hstrictly hregisters hnone)
  . rcases List.suffix_cons_iff.1 hbefore with heq | hstrictly
    . exact heq.symm
    . exact absurd hnone ((h.of_suffix hthen).holds?_ne hstrictly hregisters' hnone')

end

/--
What registering promises in a run, in whatever order users register, resolve, forget and let go of things and
send commands: the first registration for a tag wins, others are refused and change nothing, and what is
resolved or decoded once is so for good wherever the tables are used.
-/
structure RegistersForGood (start : System) : Prop where
  kinds : ∀ actions, start.Obeys Supplies actions →
    start.FirstWins (·.store.kindTables) RegistersKind actions
  decoders : ∀ actions, start.Obeys Supplies actions →
    start.FirstWins (·.store.decoderTables) RegistersDecoder actions
  kindRefused : ∀ actions, start.Obeys Supplies actions → ∀ f kind type,
    (((start.after actions).store.kindTable f).lookup kind).isSome →
    (start.after actions).store.registerKind f kind type =
      (.error (.config ("Proxy kind '" ++ kind ++ "' already registered")), (start.after actions).store)
  decoderRefused : ∀ actions, start.Obeys Supplies actions → ∀ c tag decoder,
    (((start.after actions).store.decoders c).lookup tag).isSome →
    (start.after actions).store.registerDecoder c tag decoder =
      (.error (.config ("Command type '" ++ tag ++ "' already registered")), (start.after actions).store)
  shared : ∀ actions, start.Obeys Supplies actions → ∀ earlier, earlier <:+ actions →
    (∀ f, f < (start.after earlier).store.factories.length →
      ((start.after actions).store.factory f).kinds = ((start.after earlier).store.factory f).kinds) ∧
    ∀ c, c < (start.after earlier).store.contexts.length →
      (start.after actions).store.context c = (start.after earlier).store.context c
  upheld : ∀ actions, start.Obeys Supplies actions → ∀ earlier, earlier <:+ actions →
    (start.after earlier).store.Upholds (start.after actions).store
  made : ∀ action earlier, start.Obeys Supplies (action :: earlier) → ∀ f,
    f < (start.after earlier).store.factories.length → ∀ reference type,
    (start.after earlier).store.knownType? f reference = some type → ∀ p,
    (start.after earlier).Resolves f reference action p →
    (start.after (action :: earlier)).store.Stands p reference type
  recalled : ∀ actions, start.Obeys Supplies actions → ∀ earlier, earlier <:+ actions →
    ∀ o, o < (start.after earlier).store.objects.length → ∀ fetch fetched,
    ((start.after earlier).store.object o).known fetch = some fetched →
    ((start.after actions).store.object o).Remembers fetch →
    ((start.after actions).store.object o).released = false →
    ∃ value later, (start.after actions).store.start o fetch = (.answered (.ok value), later) ∧
      later.Shows value fetched

section
variable {start : System} {action : Action} {actions earlier : List Action}

theorem Stocked.after (h : start.Stocked) (hobeys : start.Obeys Supplies actions)
    : (start.after actions).Stocked := by
  induction actions with
  | nil => exact h
  | cons action actions ih => exact (ih hobeys.tail).act hobeys.head.1 hobeys.head.2

theorem Stocked.kinds (h : start.Stocked) (hobeys : start.Obeys Supplies actions)
    : start.FirstWins (·.store.kindTables) RegistersKind actions := by
  apply Amending.firstWins
  constructor
  . intro action earlier hsuffix
    have hthen := hobeys.of_suffix hsuffix
    exact amends_kinds (h.after hthen.tail).fitting hthen.head.1
  . rintro action earlier hsuffix k kind type known ⟨f, rfl, rfl⟩ hknown
    change { start.after earlier with
      store := ((start.after earlier).store.registerKind f kind type).2 } = start.after earlier
    rw [Store.registerKind_of_known (Option.isSome_of_eq_some hknown)]
  . rintro action earlier hsuffix k kind type ⟨f, rfl, rfl⟩ hnone
    have hlt := (h.after (hobeys.of_suffix hsuffix).tail).supplied.kinds_lt f
    change Tables.holds? ((start.after earlier).store.registerKind f kind type).2.kindTables _ kind =
      some type
    rw [Store.registerKind_of_new hnone, Tables.holds?_set, if_pos ⟨rfl, hlt⟩]
    exact lookup_concat hnone type

theorem Stocked.decoders (h : start.Stocked) (hobeys : start.Obeys Supplies actions)
    : start.FirstWins (·.store.decoderTables) RegistersDecoder actions := by
  apply Amending.firstWins
  constructor
  . intro action earlier hsuffix
    have hthen := hobeys.of_suffix hsuffix
    exact amends_decoders (h.after hthen.tail).fitting hthen.head.1
  . rintro action earlier hsuffix k tag decoder known ⟨c, rfl, rfl⟩ hknown
    change { start.after earlier with
      store := ((start.after earlier).store.registerDecoder c tag decoder).2 } = start.after earlier
    rw [Store.registerDecoder_of_known (Option.isSome_of_eq_some hknown)]
  . rintro action earlier hsuffix k tag decoder ⟨c, rfl, rfl⟩ hnone
    have hlt := (h.after (hobeys.of_suffix hsuffix).tail).supplied.decoders_lt c
    change Tables.holds? ((start.after earlier).store.registerDecoder c tag decoder).2.decoderTables _
      tag = some decoder
    rw [Store.registerDecoder_of_new hnone, Tables.holds?_set, if_pos ⟨rfl, hlt⟩]
    exact lookup_concat hnone decoder

theorem Stocked.kinds_eq (h : start.Stocked) (hobeys : start.Obeys Supplies actions)
    (hsuffix : earlier <:+ actions) {f : Nat} (hf : f < (start.after earlier).store.factories.length)
    : ((start.after actions).store.factory f).kinds = ((start.after earlier).store.factory f).kinds := by
  have hkept : f < (start.after actions).store.factories.length ∧
      ((start.after actions).store.factory f).kinds =
        ((start.after earlier).store.factory f).kinds := by
    apply suffix_induction (motive := fun later => f < (start.after later).store.factories.length ∧
      ((start.after later).store.factory f).kinds = ((start.after earlier).store.factory f).kinds)
      hsuffix ⟨hf, rfl⟩
    intro next before _ hnext ⟨hlt, hsame⟩
    have hthen := hobeys.of_suffix hnext
    have hfitting := (h.after hthen.tail).fitting
    obtain ⟨_, _, _, htends⟩ := tends_act hfitting hthen.head.1 hthen.head.2.1
    refine ⟨Nat.lt_of_lt_of_le hlt htends.length_factories, ?_⟩
    rcases kinds_act hfitting hthen.head.1 hthen.head.2 f with heq | ⟨hnew, _⟩
    . exact heq.trans hsame
    . exact absurd hlt (Nat.not_lt_of_le hnew)
  exact hkept.2

theorem Resolves.stands {system : System} (h : system.Tended) {f : Nat}
    (hf : f < system.store.factories.length) (hadmits : system.Admits action) {reference : Reference}
    {type : ProxyClass} (htype : system.store.knownType? f reference = some type) {p : ObjectId}
    (hresolves : system.Resolves f reference action p)
    : (system.act action).store.Stands p reference type := by
  obtain ⟨c, got, middle, hobtains, hp, htyped, hreference, hsheds⟩ := hresolves.obtains h hadmits
  obtain ⟨other, hother⟩ := hobtains.tracked?_of_mem_got hf hp
  obtain ⟨hlt, hsame, hknown⟩ := htyped.tracked f other p (Store.mem_of_tracked? hother)
  obtain rfl : other = reference := hsame.symm.trans hreference
  have hkeeps := hobtains.keepsTables
  unfold Store.knownType? Store.kindTable at hknown htype
  rw [hkeeps.kinds_eq, hkeeps.kindTables_eq, htype] at hknown
  refine ⟨?_, ?_, ?_⟩
  . rw [hsheds.objects_eq]
    exact hlt
  . unfold Store.object
    rw [hsheds.objects_eq]
    exact hreference
  . unfold Store.object
    rw [hsheds.objects_eq]
    exact (Option.some.inj hknown).symm

theorem registersForGood_of_stocked (start : System) (h : start.Stocked) : start.RegistersForGood := by
  refine ⟨fun actions => h.kinds, fun actions => h.decoders, ?_, ?_, ?_, ?_, ?_, ?_⟩
  . exact fun actions hobeys f kind type hknown => Store.registerKind_of_known hknown type
  . exact fun actions hobeys c tag decoder hknown => Store.registerDecoder_of_known hknown decoder
  . intro actions hobeys earlier hsuffix
    exact ⟨fun f => h.kinds_eq hobeys hsuffix, (hobeys.legal.grows_of_suffix hsuffix).context_eq⟩
  . intro actions hobeys earlier hsuffix
    exact Store.upholds_of_entries (h.after (hobeys.of_suffix hsuffix)).typed (h.after hobeys).typed
      ((h.kinds hobeys).kept earlier hsuffix) ((h.decoders hobeys).kept earlier hsuffix)
  . intro action earlier hobeys f hf reference type htype p hresolves
    exact hresolves.stands (h.after hobeys.tail).toTended hf hobeys.head.1 htype
  . intro actions hobeys earlier hsuffix o ho fetch fetched hknown hremembers hreleased
    have hages := (hobeys.legal.grows_of_suffix hsuffix).ages o ho
    exact (h.after hobeys).typed.start_known hreleased hremembers
      (hages.known_eq fetch fetched hknown)

end

theorem stocked_furnished : furnished.Stocked := by
  refine ⟨tended_furnished, ?_, ?_⟩
  . intro f
    rcases f with _ | f <;> exact Nat.one_pos
  . intro c
    rcases c with _ | c <;> exact Nat.one_pos

-- A second context gets the tables of the first one, and each registers something for the same tags.
def allied : List Action :=
  [.share (.resolve 0 0 ⟨"PlayerEndpoint", "e"⟩),
    .share (.registerDecoder 0 "position" .raw),
    .share (.registerKind 0 "PlayerEndpoint" ProxyType.recorder.toClass),
    .share (.registerDecoder 1 "position" (.json .position)),
    .share (.registerKind 1 "PlayerEndpoint" ProxyType.player.toClass),
    .build { kinds := some 0, decoders := some 0 }]

theorem obeys_allied : furnished.Obeys Supplies allied := by
  have hbuild : furnished.Obeys Supplies (allied.drop 5) := by
    refine Obeys.cons (.nil furnished Supplies) trivial ⟨trivial, ?_, ?_⟩ <;>
    . rintro k ⟨⟩
      exact Nat.one_pos
  refine Obeys.cons ?_ Nat.two_pos ⟨trivial, trivial⟩
  refine Obeys.cons ?_ trivial ⟨trivial, trivial⟩
  refine Obeys.cons ?_ trivial ⟨trivial, trivial⟩
  refine Obeys.cons ?_ trivial ⟨trivial, trivial⟩
  exact hbuild.cons trivial ⟨trivial, trivial⟩

theorem registersForGood_furnished
    : furnished.Stocked ∧ furnished.RegistersForGood ∧ furnished.Obeys Supplies allied ∧
      furnished.after (allied.drop 1) = furnished.after (allied.drop 3) ∧
      ((furnished.after allied).store.decoders 0).lookup "position" = some (.json .position) ∧
      (furnished.after allied).store.Stands 1 ⟨"PlayerEndpoint", "e"⟩ ProxyType.player.toClass :=
  ⟨stocked_furnished, registersForGood_of_stocked furnished stocked_furnished, obeys_allied, rfl, rfl,
    Nat.one_lt_two, rfl, rfl⟩

end System

end MediaProxy
