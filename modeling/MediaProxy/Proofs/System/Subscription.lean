import MediaProxy.Proofs.Object.Registration
import MediaProxy.Proofs.System.Hearing

/-!
This module contains the listeners of a run: whoever is registered for a subscription was named by the
last operation on it that succeeded, and is the one who is told of its events.
-/

namespace MediaProxy

namespace System

inductive Confirms (system : System) (c : Nat) (subscription : Subscription) :
    Action → Option Listener → Prop where
  | added {o : ObjectId} {listener : Listener} {action : Action}
    (hcontext : (system.store.object o).context = c)
    (h : system.Returns o (.addListener listener) action (.ok (.subscription subscription))) :
    system.Confirms c subscription action (some listener)
  | removed {o : ObjectId} {action : Action} (hcontext : (system.store.object o).context = c)
    (h : system.Returns o (.removeListener subscription) action (.ok .done)) :
    system.Confirms c subscription action none

def ConfirmsAt (system : System) (r : Nat) (subscription : Subscription) (action : Action)
    (found : Option Listener) : Prop :=
  ∃ c, (system.store.context c).registry = r ∧ system.Confirms c subscription action found

inductive Latest (start : System) (confirms : System → Action → Option Listener → Prop) :
    List Action → Option Listener → Prop where
  | now {action : Action} {actions : List Action} {found : Option Listener}
    (h : confirms (start.after actions) action found) :
    start.Latest confirms (action :: actions) found
  | before {action : Action} {actions : List Action} {found : Option Listener}
    (h : start.Latest confirms actions found)
    (hnone : ∀ other, ¬confirms (start.after actions) action other) :
    start.Latest confirms (action :: actions) found

def Regular (system : System) : Action → Prop
  | .share move => move.LeavesRegistries system.store
  | .build builder => ∀ r, builder.registry = some r → r < system.store.registries.length
  | .spawn job _ _ => system.Houses job
  | .attend job => system.Houses job
  | _ => True

structure Ordinary (start : System) (actions : List Action) : Prop
    extends start.Obeys Regular actions where
  heeds : start.Heeds actions

structure Blank (start : System) : Prop where
  sound : start.Sound
  typed : start.store.Typed
  tasks : start.tasks = []
  registryAt : ∀ r, start.store.registryAt r = []
  registry_lt : ∀ c, (start.store.context c).registry < start.store.registries.length

def LeavesRegistries (system : System) : Action → Prop
  | .share move => move.LeavesRegistries system.store
  | _ => True

/-!
## Actions
-/

section
variable {system : System} {action : Action} {r : Nat} {subscription : Subscription}

theorem Regular.leaves (h : system.Regular action) : system.LeavesRegistries action := by
  cases action with
  | share => exact h
  | _ => trivial

theorem Regular.addressed (h : system.Regular action) : system.Addressed action := by
  cases action with
  | spawn => exact h
  | attend => exact h
  | _ => trivial

theorem registries_of_sheds {middle after : Store} (h : middle.Sheds after) (r : Nat)
    : after.registryAt r = middle.registryAt r :=
  Store.registryAt_of_registries (.inl h.registries_eq) r

theorem ConfirmsAt.lookup (h : system.Fitting)
    (hregistry : ∀ c, (system.store.context c).registry < system.store.registries.length)
    {found : Option Listener} (hconfirms : system.ConfirmsAt r subscription action found)
    : ((system.act action).store.registryAt r).lookup subscription = found := by
  obtain ⟨c, rfl, hconfirms⟩ := hconfirms
  cases hconfirms with
  | added hcontext hreturns =>
    obtain ⟨middle, hoperates, _, hsheds⟩ := hreturns.operates h
    rw [registries_of_sheds hsheds, hoperates.of_subscription, Store.registryAt_modifyRegistry,
      hcontext, if_pos ⟨rfl, hregistry c⟩, Registry.lookup_add, if_pos rfl]
  | removed hcontext hreturns =>
    obtain ⟨middle, hoperates, _, hsheds⟩ := hreturns.operates h
    rw [registries_of_sheds hsheds, hoperates.of_unsubscribed, Store.registryAt_modifyRegistry,
      hcontext, if_pos ⟨rfl, hregistry c⟩, Registry.lookup_remove, if_pos rfl]

inductive Registering (system : System) (r : Nat) (action : Action) : Registry Listener → Prop where
  | same : system.Registering r action (system.store.registryAt r)
  | added {subscription : Subscription} {listener : Listener}
    (h : system.ConfirmsAt r subscription action (some listener)) :
    system.Registering r action ((system.store.registryAt r).add subscription listener)
  | removed {subscription : Subscription} (h : system.ConfirmsAt r subscription action none) :
    system.Registering r action ((system.store.registryAt r).remove subscription)

theorem Returns.registering {o : ObjectId} {operation : Operation} {result : Except Error Value}
    {middle : Store} (hreturns : system.Returns o operation action result)
    (h : system.store.Operates o operation result middle) (r : Nat)
    : system.Registering r action (middle.registryAt r) := by
  have hmodify (change : Registry Listener → Registry Listener)
      (hchange : (system.store.context (system.store.object o).context).registry = r →
        system.Registering r action (change (system.store.registryAt r)))
      : system.Registering r action
          ((system.store.modifyRegistry (system.store.object o).context change).registryAt r) := by
    rw [Store.registryAt_modifyRegistry]
    split
    . next heq => exact hchange heq.1
    . exact .same
  cases h with
  | obtained _ hobtains =>
    rw [Store.registryAt_of_registries (.inl hobtains.registries_eq)]
    exact .same
  | released => exact .same
  | subscribed listener token => exact hmodify _ fun heq => .added ⟨_, heq, .added rfl hreturns⟩
  | unsubscribed subscription => exact hmodify _ fun heq => .removed ⟨_, heq, .removed rfl hreturns⟩

theorem registries_build (system : System) (builder : ContextBuilder)
    : (system.build builder).2.store.registries = system.store.registries ∨
      (system.build builder).2.store.registries = system.store.registries ++ [[]] := by
  rcases system.founds_build builder with heq | ⟨context, hfounds⟩
  . rw [heq]
    exact .inl rfl
  . exact hfounds.registries.imp And.right And.right

theorem registering_act (h : system.Fitting) (hadmits : system.Admits action)
    (hleaves : system.LeavesRegistries action) (r : Nat)
    : system.Registering r action ((system.act action).store.registryAt r) := by
  have haffects := affects_act h hadmits
  generalize (system.act action).store = after at haffects
  cases haffects with
  | sheds hsheds =>
    rw [registries_of_sheds hsheds]
    exact .same
  | operates hreturns hoperates hsheds =>
    rw [registries_of_sheds hsheds]
    exact hreturns.registering hoperates r
  | shares move =>
    rw [Store.registryAt_of_registries (Store.registries_perform hleaves)]
    exact .same
  | builds builder =>
    rw [Store.registryAt_of_registries (system.registries_build builder)]
    exact .same

theorem Registering.eq {registry : Registry Listener} (h : system.Registering r action registry)
    (hnone : ∀ subscription found, ¬system.ConfirmsAt r subscription action found)
    : registry = system.store.registryAt r := by
  cases h with
  | same => rfl
  | added hconfirms => exact absurd hconfirms (hnone _ _)
  | removed hconfirms => exact absurd hconfirms (hnone _ _)

theorem Registering.lookup_eq {registry : Registry Listener}
    (h : system.Registering r action registry)
    (hnone : ∀ found, ¬system.ConfirmsAt r subscription action found)
    : registry.lookup subscription = (system.store.registryAt r).lookup subscription := by
  cases h with
  | same => rfl
  | added hconfirms =>
    rw [Registry.lookup_add, if_neg]
    rintro rfl
    exact hnone _ hconfirms
  | removed hconfirms =>
    rw [Registry.lookup_remove, if_neg]
    rintro rfl
    exact hnone _ hconfirms

theorem registry_lt_act (h : system.Fitting)
    (hregistry : ∀ c, (system.store.context c).registry < system.store.registries.length)
    (hadmits : system.Admits action) (hregular : system.Regular action) (c : Nat)
    : ((system.act action).store.context c).registry <
        (system.act action).store.registries.length := by
  have haffects := affects_act h hadmits
  generalize (system.act action).store = after at haffects
  cases haffects with
  | sheds hsheds =>
    rw [hsheds.extending.context_eq, hsheds.registries_eq]
    exact hregistry c
  | operates _ hoperates hsheds =>
    rw [hsheds.extending.context_eq, hsheds.registries_eq, hoperates.length_registries]
    unfold Store.context
    rw [hoperates.contexts_eq]
    exact hregistry c
  | shares move =>
    rw [(Store.extends_perform hadmits).context_eq]
    rcases Store.registries_perform hregular with heq | heq
    . rw [heq]
      exact hregistry c
    . rw [heq, List.length_append]
      exact Nat.lt_add_right _ (hregistry c)
  | builds builder =>
    rcases system.founds_build builder with heq | ⟨context, hfounds⟩
    . rw [heq]
      exact hregistry c
    . unfold Store.context
      rw [hfounds.contexts, getD_concat]
      split
      . exact hfounds.registry_lt hregular
      . exact Nat.lt_of_lt_of_le (hregistry c) hfounds.length_registries_le

end

/-!
## Runs
-/

section
variable {start : System} {action : Action} {actions earlier : List Action}

theorem Heeds.of_suffix (h : start.Heeds actions) (hsuffix : earlier <:+ actions)
    : start.Heeds earlier :=
  fun o operation reply before hbefore => h o operation reply before (hbefore.trans hsuffix)

theorem Heeds.nil (start : System) : start.Heeds [] := by
  intro o operation reply earlier hsuffix
  cases List.suffix_nil.1 hsuffix

theorem Heeds.cons (h : start.Heeds actions)
    (hconclude : ∀ o operation reply, action ≠ .concludeBlocking o operation (.ok reply))
    : start.Heeds (action :: actions) := by
  intro o operation reply before hsuffix
  rcases List.suffix_cons_iff.1 hsuffix with heq | hearlier
  . cases heq
    exact absurd rfl (hconclude o operation reply)
  . exact h o operation reply before hearlier

theorem Ordinary.of_suffix (h : start.Ordinary actions) (hsuffix : earlier <:+ actions)
    : start.Ordinary earlier :=
  ⟨h.toObeys.of_suffix hsuffix, h.heeds.of_suffix hsuffix⟩

theorem Ordinary.tail (h : start.Ordinary (action :: actions)) : start.Ordinary actions :=
  h.of_suffix (List.suffix_cons _ _)

theorem Ordinary.nil (start : System) : start.Ordinary [] :=
  ⟨.nil start Regular, .nil start⟩

theorem Ordinary.cons (h : start.Ordinary actions) (hadmits : (start.after actions).Admits action)
    (hregular : (start.after actions).Regular action)
    (hconclude : ∀ o operation reply, action ≠ .concludeBlocking o operation (.ok reply))
    : start.Ordinary (action :: actions) :=
  ⟨h.toObeys.cons hadmits hregular, h.heeds.cons hconclude⟩

theorem Blank.fitting (h : start.Blank) : start.Fitting := by
  intro id task htask
  unfold task? at htask
  rw [h.tasks] at htask
  cases htask

theorem Blank.housed (h : start.Blank) : start.Housed := by
  intro id task htask
  unfold task? at htask
  rw [h.tasks] at htask
  cases htask

structure Lists (start : System) (actions : List Action) : Prop where
  sound : (start.after actions).Sound
  typed : (start.after actions).store.Typed
  fitting : (start.after actions).Fitting
  housed : (start.after actions).Housed
  registry_lt : ∀ c, ((start.after actions).store.context c).registry <
    (start.after actions).store.registries.length
  traced : start.Traced actions

theorem Blank.lists (h : start.Blank) (hordinary : start.Ordinary actions)
    : start.Lists actions := by
  induction actions with
  | nil =>
    refine ⟨h.sound, h.typed, h.fitting, h.housed, h.registry_lt, ?_⟩
    intro id task o operation reply due htask
    unfold task? at htask
    change start.tasks.find? _ = _ at htask
    rw [h.tasks] at htask
    cases htask
  | cons action actions ih =>
    obtain ⟨hsound, htyped, hfitting, hhoused, hregistry, htraced⟩ := ih hordinary.tail
    obtain ⟨hadmits, hregular⟩ := hordinary.head
    exact ⟨h.sound.after hordinary.legal, hordinary.legal.typed h.sound h.typed,
      h.fitting.after hordinary.legal, hhoused.act hsound htyped hadmits (fun job => hregular.addressed.births),
      registry_lt_act hfitting hregistry hadmits hregular,
      htraced.cons hsound hfitting hhoused hadmits⟩

theorem Blank.lookup_iff (h : start.Blank) (hordinary : start.Ordinary actions) (r : Nat)
    (subscription : Subscription) (listener : Listener)
    : ((start.after actions).store.registryAt r).lookup subscription = some listener ↔
        start.Latest (·.ConfirmsAt r subscription) actions (some listener) := by
  induction actions with
  | nil =>
    constructor
    . intro hlookup
      change (start.store.registryAt r).lookup subscription = _ at hlookup
      rw [h.registryAt] at hlookup
      cases hlookup
    . intro hlatest
      cases hlatest
  | cons action actions ih =>
    have hlists := h.lists hordinary.tail
    obtain ⟨hadmits, hregular⟩ := hordinary.head
    change (((start.after actions).act action).store.registryAt r).lookup subscription = _ ↔ _
    -- Whatever confirms nothing for this subscription leaves its entry alone.
    by_cases hconfirms : ∃ found, (start.after actions).ConfirmsAt r subscription action found
    . obtain ⟨found, hfound⟩ := hconfirms
      rw [hfound.lookup hlists.fitting hlists.registry_lt]
      constructor
      . rintro rfl
        exact .now hfound
      . intro hlatest
        cases hlatest with
        | now hother =>
          exact (hfound.lookup hlists.fitting hlists.registry_lt).symm.trans
            (hother.lookup hlists.fitting hlists.registry_lt)
        | before _ hnone => exact absurd hfound (hnone found)
    . rw [not_exists] at hconfirms
      rw [(registering_act hlists.fitting hadmits hregular.leaves r).lookup_eq hconfirms,
        ih hordinary.tail]
      constructor
      . exact fun hlatest => .before hlatest hconfirms
      . intro hlatest
        cases hlatest with
        | now hother => exact absurd hother (hconfirms _)
        | before hlatest => exact hlatest

theorem Blank.replied (h : start.Blank) (hordinary : start.Ordinary actions) {r : Nat}
    {subscription : Subscription} {listener : Listener}
    (hlatest : start.Latest (·.ConfirmsAt r subscription) actions (some listener))
    : ∃ address port, start.Replied actions subscription.object (.subscribe address port)
        (.ok (.token subscription.token)) := by
  induction actions with
  | nil => cases hlatest
  | cons action actions ih =>
    cases hlatest with
    | before hlatest =>
      obtain ⟨address, port, hreplied⟩ := ih hordinary.tail hlatest
      exact ⟨address, port, hreplied.mono (List.suffix_cons _ _)⟩
    | now hconfirms =>
      have hlists := h.lists hordinary.tail
      obtain ⟨c, _, hconfirms⟩ := hconfirms
      generalize hfound : some listener = found at hconfirms
      cases hconfirms with
      | removed => cases hfound
      | added _ hreturns =>
        obtain ⟨reply, hreplied, hconclude⟩ :=
          hreturns.replied hlists.traced hlists.fitting hordinary.heeds rfl
        obtain ⟨rfl, hobject⟩ := token_of_conclude hconclude
        rw [hobject]
        exact ⟨_, _, hreplied⟩

end

/-!
## Who is told
-/

/--
What registries promise, whatever happens in a run and in whichever order: they list what was confirmed
last, and an event is told to the listener that they list for it, and to nobody else. A listener that is
told does what it wants to.
-/
structure Registers (start : System) : Prop where
  mapped : ∀ actions, start.Ordinary actions → ∀ r subscription listener,
    ((start.after actions).store.registryAt r).lookup subscription = some listener ↔
      start.Latest (·.ConfirmsAt r subscription) actions (some listener)
  granted : ∀ actions, start.Ordinary actions → ∀ r subscription listener,
    ((start.after actions).store.registryAt r).lookup subscription = some listener →
    ∃ address port, start.Replied actions subscription.object (.subscribe address port)
      (.ok (.token subscription.token))
  kept : ∀ action earlier, start.Ordinary (action :: earlier) → ∀ r,
    (∀ subscription found, ¬(start.after earlier).ConfirmsAt r subscription action found) →
    (start.after (action :: earlier)).store.registryAt r = (start.after earlier).store.registryAt r
  told : ∀ actions, start.Ordinary actions → ∀ c source token listener,
    start.Latest (·.ConfirmsAt ((start.after actions).store.context c).registry ⟨source, token⟩)
      actions (some listener) →
    ∀ known event,
    (∃ depth, (start.after actions).store.dispatch known c source token event =
      (true,
        .told listener.name source event ::
          (Store.reaction known depth (start.after actions).store listener).1,
        (Store.reaction known depth (start.after actions).store listener).2)) ∧
    (listener.follows = [] → (start.after actions).store.dispatch known c source token event =
      (true, [.told listener.name source event], (start.after actions).store))
  untold : ∀ actions, start.Ordinary actions → ∀ c source token,
    (∀ listener, ¬start.Latest
      (·.ConfirmsAt ((start.after actions).store.context c).registry ⟨source, token⟩)
      actions (some listener)) →
    ∀ known event, (start.after actions).store.dispatch known c source token event =
      (false, [], (start.after actions).store)

theorem registers_of_blank (start : System) (h : start.Blank) : start.Registers := by
  refine ⟨?_, ?_, ?_, ?_, ?_⟩
  . exact fun actions hordinary => h.lookup_iff hordinary
  . intro actions hordinary r subscription listener hlookup
    exact h.replied hordinary ((h.lookup_iff hordinary r subscription listener).1 hlookup)
  . intro action earlier hordinary r hnone
    have hlists := h.lists hordinary.tail
    exact (registering_act hlists.fitting hordinary.head.1 hordinary.head.2.leaves r).eq hnone
  . intro actions hordinary c source token listener hlatest known event
    have hlookup := (h.lookup_iff hordinary _ _ _).2 hlatest
    obtain ⟨depth, hdispatch⟩ := Store.dispatch_of_some known hlookup event
    refine ⟨⟨depth, hdispatch⟩, ?_⟩
    intro hfollows
    rw [hdispatch, Store.reaction_of_nil known hfollows]
  . intro actions hordinary c source token hnone known event
    apply Store.dispatch_of_none
    rw [Option.eq_none_iff_forall_ne_some]
    exact fun listener hlookup => hnone listener ((h.lookup_iff hordinary _ _ _).1 hlookup)

-- Two contexts that share a registry, with the proxy of a pipeline of the same name in each.
def shared : System :=
  ((({} : System).build {}).2.build { registry := some 0 }).2.after
    [.share (.resolve 1 1 (.pipeline "p")), .share (.resolve 0 0 (.pipeline "p"))]

theorem sound_shared : shared.Sound := by
  apply Sound.after
  . refine ⟨⟨by decide, ?_⟩, rfl, ?_⟩
    . intro object hobject
      cases hobject
    . intro task htask
      cases htask
  . exact ⟨⟨trivial, Nat.two_pos⟩, Nat.one_lt_two⟩

theorem typed_shared : shared.store.Typed := by
  refine ⟨?_, ?_, ?_⟩
  . intro c
    rcases c with _ | _ | c
    . exact Nat.two_pos
    . exact Nat.one_lt_two
    . exact Nat.two_pos
  . intro f reference o hmem
    rcases f with _ | _ | f
    . cases List.mem_singleton.1 hmem
      decide
    . cases List.mem_singleton.1 hmem
      decide
    . cases hmem
  . intro o fetch fetched hknown
    rcases o with _ | _ | o <;> cases fetch <;> cases hknown

theorem blank_shared : shared.Blank := by
  refine ⟨sound_shared, typed_shared, rfl, ?_, ?_⟩
  . intro r
    rcases r with _ | r <;> rfl
  . intro c
    rcases c with _ | _ | c <;> exact Nat.one_pos

def listening (name : String) : Listener :=
  { name, context := 0 }

-- Somebody listens to the pipeline in the first context.
def subscribing : List Action :=
  [.operateBlocking 0 (.addListener (listening "first"))]

theorem ordinary_subscribing : shared.Ordinary subscribing :=
  (Ordinary.nil shared).cons trivial trivial nofun

theorem registers_shared
    : shared.Blank ∧ shared.Registers ∧ shared.Ordinary subscribing ∧
      ((shared.after subscribing).store.registryAt 0).lookup ⟨.pipeline "p", "tok-1"⟩ =
        some (listening "first") :=
  ⟨blank_shared, registers_of_blank shared blank_shared, ordinary_subscribing, rfl⟩

end System

end MediaProxy
