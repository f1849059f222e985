import MediaProxy.Proofs.System.Release
import MediaProxy.Proofs.System.Subscription

/-!
This module contains the end of subscriptions: who takes a listener away, and what the server was asked for
before. The server is asked for the object that the operation is carried out on, and the registry for the one
that the subscription names, so that the two only agree if these are the same.
-/

namespace MediaProxy

namespace System

def TakesAway (system : System) (r : Nat) (subscription : Subscription) (o : ObjectId)
    (action : Action) : Prop :=
  (system.store.context (system.store.object o).context).registry = r ∧
    system.Returns o (.removeListener subscription) action (.ok .done)

section
variable {system : System} {action : Action} {r : Nat} {subscription : Subscription}

theorem Registering.taken {registry : Registry Listener} (h : system.Registering r action registry)
    {listener : Listener}
    (hbefore : (system.store.registryAt r).lookup subscription = some listener)
    (hafter : registry.lookup subscription = none) : ∃ o, system.TakesAway r subscription o action := by
  cases h with
  | same => cases hbefore.symm.trans hafter
  | @added other _ hconfirms =>
    rw [Registry.lookup_add, hbefore] at hafter
    split at hafter
    . cases hafter
    . cases hafter
  | @removed other hconfirms =>
    rw [Registry.lookup_remove, hbefore] at hafter
    split at hafter
    . next heq =>
      subst heq
      obtain ⟨c, hregistry, hconfirms⟩ := hconfirms
      generalize hnone : (none : Option Listener) = found at hconfirms
      cases hconfirms with
      | added => cases hnone
      | @removed o _ hcontext hreturns =>
        rw [← hcontext] at hregistry
        exact ⟨o, hregistry, hreturns⟩
    . cases hafter

end

/-!
## Runs
-/

structure Heedful (start : System) (actions : List Action) : Prop
    extends start.Obeys Addressed actions where
  heeds : start.Heeds actions

/--
What registries and servers promise of the end of a subscription, whatever happens in a run. An operation
that takes a listener away was confirmed by the server, which was asked to end the subscription of the object
that the operation is on. Listeners whose subscriptions are only ended by operations on their own objects are
told of events until the server has confirmed that the subscription is at its end.
-/
structure Unsubscribes (start : System) : Prop where
  taken : ∀ action earlier, start.Heedful (action :: earlier) →
    (start.after earlier).LeavesRegistries action → ∀ r subscription listener,
    ((start.after earlier).store.registryAt r).lookup subscription = some listener →
    ((start.after (action :: earlier)).store.registryAt r).lookup subscription = none →
    ∃ o, (start.after earlier).TakesAway r subscription o action ∧
      start.Replied (action :: earlier) ((start.after earlier).store.object o).reference
        (.unsubscribe subscription.token) (.ok .unit)
  told : ∀ actions, start.Heedful actions → ∀ earlier, earlier <:+ actions → ∀ r subscription listener,
    ((start.after earlier).store.registryAt r).lookup subscription = some listener →
    (∀ next before, earlier <:+ before → next :: before <:+ actions →
      (start.after before).LeavesRegistries next ∧
      ∀ o, (start.after before).TakesAway r subscription o next →
        ((start.after before).store.object o).reference = subscription.object) →
    ¬start.Replied actions subscription.object (.unsubscribe subscription.token) (.ok .unit) →
    ∀ c, ((start.after actions).store.context c).registry = r → ∀ known event,
    ((start.after actions).store.dispatch known c subscription.object subscription.token event).1 = true

section
variable {start : System} {action : Action} {actions earlier : List Action}

theorem Heedful.of_suffix (h : start.Heedful actions) (hsuffix : earlier <:+ actions)
    : start.Heedful earlier :=
  ⟨h.toObeys.of_suffix hsuffix, h.heeds.of_suffix hsuffix⟩

theorem Heedful.nil (start : System) : start.Heedful [] :=
  ⟨.nil start Addressed, .nil start⟩

theorem Heedful.cons (h : start.Heedful actions) (hadmits : (start.after actions).Admits action)
    (haddressed : (start.after actions).Addressed action)
    (hconclude : ∀ o operation reply, action ≠ .concludeBlocking o operation (.ok reply))
    : start.Heedful (action :: actions) :=
  ⟨h.toObeys.cons hadmits haddressed, h.heeds.cons hconclude⟩

theorem Heedful.replied (h : start.Heedful (action :: actions)) (hsound : start.Sound)
    (htyped : start.store.Typed) (hfitting : start.Fitting) (hhoused : start.Housed)
    (htraced : start.Traced []) {r : Nat} {subscription : Subscription} {o : ObjectId}
    (htakes : (start.after actions).TakesAway r subscription o action)
    : start.Replied (action :: actions) ((start.after actions).store.object o).reference
        (.unsubscribe subscription.token) (.ok .unit) := by
  have hfittingNow := hfitting.after h.tail.legal
  obtain ⟨_, htracedNow⟩ := h.tail.traced hsound htyped hfitting hhoused htraced
  obtain ⟨reply, hreplied, hconclude⟩ := htakes.2.replied htracedNow hfittingNow h.heeds rfl
  obtain rfl := (done_iff_of_conclude rfl).1 hconclude
  exact hreplied

theorem unsubscribes_of_sound (start : System) (h : start.Sound) (htyped : start.store.Typed)
    (hfitting : start.Fitting) (hhoused : start.Housed) (htraced : start.Traced [])
    : start.Unsubscribes := by
  have htaken : ∀ action earlier, start.Heedful (action :: earlier) →
      (start.after earlier).LeavesRegistries action → ∀ r subscription listener,
      ((start.after earlier).store.registryAt r).lookup subscription = some listener →
      ((start.after (action :: earlier)).store.registryAt r).lookup subscription = none →
      ∃ o, (start.after earlier).TakesAway r subscription o action := by
    intro action earlier hheedful hleaves r subscription listener hbefore hafter
    have hfittingNow := hfitting.after hheedful.tail.legal
    exact (registering_act hfittingNow hheedful.head.1 hleaves r).taken hbefore hafter
  refine ⟨?_, ?_⟩
  . intro action earlier hheedful hleaves r subscription listener hbefore hafter
    obtain ⟨o, htakes⟩ := htaken action earlier hheedful hleaves r subscription listener hbefore hafter
    exact ⟨o, htakes, hheedful.replied h htyped hfitting hhoused htraced htakes⟩
  . intro actions hheedful earlier hsuffix r subscription listener hearlier hown hnever c hregistry known
      event
    -- The entry may change hands when the token is confirmed again, but it is there all the time.
    have hlisted : ∃ found,
        ((start.after actions).store.registryAt r).lookup subscription = some found := by
      apply suffix_induction
        (motive := fun later => ∃ found,
          ((start.after later).store.registryAt r).lookup subscription = some found) hsuffix
      . exact ⟨listener, hearlier⟩
      . rintro next before hbefore hnext ⟨found, hfound⟩
        rw [← Option.ne_none_iff_exists']
        intro hnone
        have hheedfulThen := hheedful.of_suffix hnext
        obtain ⟨hleaves, hreference⟩ := hown next before hbefore hnext
        obtain ⟨o, htakes⟩ :=
          htaken next before hheedfulThen hleaves r subscription found hfound hnone
        have hreplied := hheedfulThen.replied h htyped hfitting hhoused htraced htakes
        rw [hreference o htakes] at hreplied
        exact hnever (hreplied.mono hnext)
    obtain ⟨found, hfound⟩ := hlisted
    rw [← hregistry] at hfound
    obtain ⟨depth, hdispatch⟩ := Store.dispatch_of_some known hfound event
    rw [hdispatch]

end

theorem housed_furnished : furnished.Housed := by
  intro id task htask
  cases htask

theorem traced_furnished : furnished.Traced [] := by
  intro id task o operation reply due htask
  cases htask

-- Somebody listens to the pipeline for a while.
def parting : List Action :=
  [.operateBlocking 0 (.removeListener ⟨.pipeline "p", "tok-1"⟩),
    .operateBlocking 0 (.addListener (listening "first"))]

theorem heedful_parting : furnished.Heedful parting :=
  have hfirst : furnished.Heedful (parting.drop 1) :=
    (Heedful.nil furnished).cons trivial trivial nofun
  hfirst.cons trivial trivial nofun

theorem unsubscribes_furnished
    : furnished.Sound ∧ furnished.store.Typed ∧ furnished.Fitting ∧ furnished.Housed ∧
      furnished.Traced [] ∧ furnished.Unsubscribes ∧ furnished.Heedful parting ∧
      ((furnished.after (parting.drop 1)).store.registryAt 0).lookup ⟨.pipeline "p", "tok-1"⟩ =
        some (listening "first") ∧
      ((furnished.after parting).store.registryAt 0).lookup ⟨.pipeline "p", "tok-1"⟩ = none :=
  ⟨sound_furnished, typed_furnished, fitting_furnished, housed_furnished, traced_furnished,
    unsubscribes_of_sound furnished sound_furnished typed_furnished fitting_furnished housed_furnished
      traced_furnished,
    heedful_parting, rfl, rfl⟩

-- Somebody listens to the pipeline, and another one is asked to end the subscription.
def straying : List Action :=
  [.operateBlocking 1 (.removeListener ⟨.pipeline "p", "tok-1"⟩),
    .operateBlocking 0 (.addListener (listening "first")),
    .share (.resolve 0 0 (.pipeline "q"))]

theorem heedful_straying : furnished.Heedful straying :=
  have hfirst : furnished.Heedful (straying.drop 2) :=
    (Heedful.nil furnished).cons Nat.one_pos trivial nofun
  have hsecond : furnished.Heedful (straying.drop 1) := hfirst.cons trivial trivial nofun
  hsecond.cons trivial trivial nofun

/--
A listener is taken away through another object, while the server still holds its subscription.
-/
theorem strayed_furnished
    : ¬∀ action earlier, furnished.Heedful (action :: earlier) → ∀ r subscription listener o,
        ((furnished.after earlier).store.registryAt r).lookup subscription = some listener →
        (furnished.after earlier).TakesAway r subscription o action →
        ((furnished.after (action :: earlier)).store.registryAt r).lookup subscription = none →
        furnished.Replied (action :: earlier) subscription.object (.unsubscribe subscription.token)
          (.ok .unit) := by
  intro hall
  obtain ⟨action, earlier, record, hsuffix, hrecord, htarget, hrequest⟩ :=
    hall _ _ heedful_straying 0 ⟨.pipeline "p", "tok-1"⟩ (listening "first") 1 rfl ⟨rfl, .blocking⟩ rfl
  -- One of three actions would have begun the call.
  rcases List.suffix_cons_iff.1 hsuffix with heq | hsuffix
  . cases heq
    obtain ⟨rfl, _⟩ := Prod.mk.inj (List.mem_singleton.1 hrecord)
    revert htarget
    decide
  rcases List.suffix_cons_iff.1 hsuffix with heq | hsuffix
  . cases heq
    obtain ⟨rfl, _⟩ := Prod.mk.inj (List.mem_singleton.1 hrecord)
    cases hrequest
  rcases List.suffix_cons_iff.1 hsuffix with heq | hsuffix
  . cases heq
    cases hrecord
  . cases List.suffix_nil.1 hsuffix

end System

end MediaProxy
