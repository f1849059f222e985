import MediaProxy.Proofs.System.Subscription

/-!
This module contains contexts that share a registry of listeners. A subscription is known by its object
and its token there and not by its context, so that a context keeps its listeners only as long as no
other one is given the same token for an object of the same name.
-/

namespace MediaProxy

namespace System

section
variable {start : System} {action : Action} {actions earlier : List Action}

theorem Latest.of_suffix {confirms : System → Action → Option Listener → Prop}
    {found : Option Listener} (h : confirms (start.after earlier) action found)
    (hsuffix : action :: earlier <:+ actions)
    (hsince : ∀ next before, action :: earlier <:+ before → next :: before <:+ actions →
      ∀ other, ¬confirms (start.after before) next other)
    : start.Latest confirms actions found := by
  apply suffix_induction (motive := fun later => start.Latest confirms later found) hsuffix
  . exact .now h
  . exact fun next before hbefore hnext hlatest => hlatest.before (hsince next before hbefore hnext)

end

/--
What a context promises to a listener that it registered, whoever else uses the registry: as long as the
subscription is not confirmed again, neither in this context nor in another one with the registry, the
listener is the one who is told of its events.
-/
structure Undisturbed (start : System) : Prop where
  told : ∀ actions, start.Ordinary actions → ∀ c subscription listener action earlier,
    action :: earlier <:+ actions →
    (start.after earlier).Confirms c subscription action (some listener) →
    (∀ next before, action :: earlier <:+ before → next :: before <:+ actions →
      ∀ d found, ((start.after before).store.context d).registry =
        ((start.after before).store.context c).registry →
      ¬(start.after before).Confirms d subscription next found) →
    ∀ known event, ∃ depth,
      (start.after actions).store.dispatch known c subscription.object subscription.token event =
        (true,
          .told listener.name subscription.object event ::
            (Store.reaction known depth (start.after actions).store listener).1,
          (Store.reaction known depth (start.after actions).store listener).2)

theorem context_lt_of_confirms {system : System} (h : system.Sound) {c : Nat}
    {subscription : Subscription} {action : Action} {found : Option Listener}
    (hconfirms : system.Confirms c subscription action found) : c < system.store.contexts.length := by
  cases hconfirms with
  | added hcontext =>
    rw [← hcontext]
    exact h.store.object_context_lt _
  | removed hcontext =>
    rw [← hcontext]
    exact h.store.object_context_lt _

theorem undisturbed_of_blank (start : System) (h : start.Blank) : start.Undisturbed := by
  refine ⟨?_⟩
  intro actions hordinary c subscription listener action earlier hsuffix hconfirms hsince known event
  have hthen := hordinary.legal.of_suffix hsuffix
  have hc := context_lt_of_confirms (h.sound.after hthen.1) hconfirms
  have hcontext {later : List Action} (hlater : later <:+ actions) (hearlier : earlier <:+ later)
      : (start.after later).store.context c = (start.after earlier).store.context c :=
    ((hordinary.legal.of_suffix hlater).grows_of_suffix hearlier).context_eq c hc
  have hlatest : start.Latest
      (·.ConfirmsAt ((start.after earlier).store.context c).registry subscription) actions
      (some listener) := by
    apply Latest.of_suffix ⟨c, rfl, hconfirms⟩ hsuffix
    rintro next before hbefore hnext found ⟨d, hregistry, hother⟩
    apply hsince next before hbefore hnext d found _ hother
    have hlater : before <:+ actions := (List.suffix_cons _ _).trans hnext
    rw [hregistry, hcontext hlater ((List.suffix_cons _ _).trans hbefore)]
  have hlookup := (h.lookup_iff hordinary _ _ _).2 hlatest
  rw [← hcontext List.suffix_rfl ((List.suffix_cons _ _).trans hsuffix)] at hlookup
  exact Store.dispatch_of_some known hlookup event

theorem undisturbed_shared
    : shared.Blank ∧ shared.Undisturbed ∧
      shared.Confirms 0 ⟨.pipeline "p", "tok-1"⟩ (.operateBlocking 0 (.addListener (listening "first")))
        (some (listening "first")) :=
  ⟨blank_shared, undisturbed_of_blank shared blank_shared, .added rfl .blocking⟩

-- Somebody listens to the pipeline in each of the two contexts. Both servers give out the same token.
def clashing : List Action :=
  .operateBlocking 1 (.addListener (listening "second")) :: subscribing

theorem ordinary_clashing : shared.Ordinary clashing :=
  ordinary_subscribing.cons trivial trivial nofun

/--
A subscription in one context takes the place of another one's.
-/
theorem disturbed_clashing
    : ¬∀ actions, shared.Ordinary actions → ∀ c subscription listener,
        shared.Latest (·.Confirms c subscription) actions (some listener) →
        ((shared.after actions).store.registry c).dispatch? subscription.object subscription.token =
          some listener := by
  intro hall
  have hlatest : shared.Latest (·.Confirms 0 ⟨.pipeline "p", "tok-1"⟩) clashing
      (some (listening "first")) := by
    apply Latest.before
    . exact .now (.added rfl .blocking)
    . intro other hother
      cases hother with
      | added hcontext hreturns =>
        cases hreturns
        cases hcontext
      | removed _ hreturns => cases hreturns
  have hdispatch := hall clashing ordinary_clashing 0 _ _ hlatest
  revert hdispatch
  decide

end System

end MediaProxy
