import MediaProxy.Reference

/-!
This module contains subscriptions to the events of objects, and registries of who listens to them.
-/

namespace MediaProxy

structure Event where
  type : String
  payload : Bytes
  deriving DecidableEq, Repr

structure Subscription where
  object : Reference
  token : String
  deriving DecidableEq, Repr

namespace Subscription

def shown (subscription : Subscription) : String :=
  Text.record "Subscription"
    [("object", subscription.object.shown), ("token", Text.quoted subscription.token)]

end Subscription

abbrev Registry (Listener : Type) := List (Subscription × Listener)

namespace Registry

def add (registry : Registry Listener) (subscription : Subscription) (listener : Listener) :
    Registry Listener :=
  match registry with
  | [] => [(subscription, listener)]
  | entry :: registry =>
    if entry.1 = subscription then (subscription, listener) :: registry
    else entry :: add registry subscription listener

def contains (registry : Registry Listener) (subscription : Subscription) : Bool :=
  (registry.lookup subscription).isSome

def remove (registry : Registry Listener) (subscription : Subscription) : Registry Listener :=
  registry.filter (·.1 ≠ subscription)

def dispatch? (registry : Registry Listener) (source : Reference) (token : String) :
    Option Listener :=
  registry.lookup ⟨source, token⟩

def subscriptionsOf (registry : Registry Listener) (object : Reference) : List Subscription :=
  (registry.map (·.1)).filter (·.object = object)

def shown (registry : Registry Listener) : String :=
  Text.record "ListenerRegistry" [("subscriptions", toString registry.length)]

theorem lookup_add (registry : Registry Listener) (subscription other : Subscription)
    (listener : Listener) :
    (registry.add subscription listener).lookup other =
      if other = subscription then some listener else registry.lookup other := by
  induction registry with
  | nil =>
    by_cases h : other = subscription
    . simp [add, h]
    . simp [add, List.lookup_cons, h, beq_eq_false_iff_ne.2 h]
  | cons entry registry ih =>
    obtain ⟨known, held⟩ := entry
    by_cases h : known = subscription
    . by_cases h' : other = subscription
      . simp [add, h, h']
      . simp [add, h, h', List.lookup_cons, beq_eq_false_iff_ne.2 h']
    . simp only [add, h, if_false, List.lookup_cons]
      by_cases h' : other = known
      . have : other ≠ subscription := fun h'' => h (h' ▸ h'')
        simp [h', h]
      . simp only [beq_eq_false_iff_ne.2 h', ih]

theorem lookup_remove (registry : Registry Listener) (subscription other : Subscription) :
    (registry.remove subscription).lookup other =
      if other = subscription then none else registry.lookup other := by
  induction registry with
  | nil => simp [remove]
  | cons entry registry ih =>
    obtain ⟨known, held⟩ := entry
    simp only [remove] at ih
    by_cases h : known = subscription
    . simp only [remove, h, List.filter, ne_eq, not_true_eq_false, decide_false, ih]
      by_cases h' : other = subscription
      . simp [h']
      . simp [h', List.lookup_cons, beq_eq_false_iff_ne.2 h']
    . simp only [remove, List.filter, ne_eq, h, not_false_eq_true, decide_true, List.lookup_cons, ih]
      by_cases h' : other = known
      . simp [h', h]
      . simp [beq_eq_false_iff_ne.2 h']

end Registry

end MediaProxy
