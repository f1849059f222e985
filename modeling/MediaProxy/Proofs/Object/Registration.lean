import MediaProxy.Proofs.Object.Holding

/-!
This module contains what becomes of registries of listeners: only subscriptions that are confirmed
change them, and an event reaches the one listener that is registered for it.
-/

namespace MediaProxy

theorem modify_eq_self {α : Type} {as : List α} {i : Nat} {default : α} {f : α → α}
    (h : f (as.getD i default) = as.getD i default) : as.modify i f = as := by
  apply List.ext_getElem?
  intro j
  rw [List.getElem?_modify]
  rw [List.getD_eq_getElem?_getD] at h
  cases hj : as[j]? with
  | none => rfl
  | some a =>
    by_cases hi : i = j
    . rw [hi, hj] at h
      simpa [hi] using h
    . simp [hi]

theorem Registry.remove_of_not_contains {registry : Registry Listener} {subscription : Subscription}
    (h : registry.contains subscription = false) : registry.remove subscription = registry := by
  have hnone : registry.lookup subscription = none := by simpa [contains] using h
  unfold remove
  rw [List.filter_eq_self]
  intro entry hentry
  have hne := bne_iff_ne.1 (List.lookup_eq_none_iff.1 hnone entry hentry)
  exact decide_eq_true hne.symm

namespace Store

def registryAt (store : Store) (r : Nat) : Registry Listener :=
  store.registries.getD r []

theorem registryAt_modifyRegistry (store : Store) (c : Nat)
    (change : Registry Listener → Registry Listener) (r : Nat)
    : (store.modifyRegistry c change).registryAt r =
        if (store.context c).registry = r ∧ (store.context c).registry < store.registries.length then
          change (store.registryAt r)
        else store.registryAt r :=
  getD_modify _ _ _ _ _

theorem registryAt_of_registries {before after : Store}
    (h : after.registries = before.registries ∨ after.registries = before.registries ++ [[]])
    (r : Nat) : after.registryAt r = before.registryAt r := by
  unfold registryAt
  rcases h with h | h
  . rw [h]
  . rw [h, getD_concat]
    split
    . next heq =>
      rw [heq, List.getD_eq_getElem?_getD, List.getElem?_eq_none (Nat.le_refl _)]
      rfl
    . rfl

/-!
## Operations
-/

section
variable {before after : Store} {o : ObjectId} {operation : Operation} {result : Except Error Value}

theorem Operates.contexts_eq (h : before.Operates o operation result after)
    : after.contexts = before.contexts := by
  cases h with
  | obtained _ hobtains => exact hobtains.contexts_eq
  | _ => rfl

theorem Operates.length_registries (h : before.Operates o operation result after)
    : after.registries.length = before.registries.length := by
  cases h with
  | obtained _ hobtains => rw [hobtains.registries_eq]
  | released => rfl
  | subscribed => exact List.length_modify _ _ _
  | unsubscribed => exact List.length_modify _ _ _

theorem Operates.of_subscription {listener : Listener} {subscription : Subscription}
    (h : before.Operates o (.addListener listener) (.ok (.subscription subscription)) after)
    : after = before.modifyRegistry (before.object o).context (·.add subscription listener) := by
  generalize hresult : (Except.ok (Value.subscription subscription) : Except Error Value) = result
    at h
  cases h with
  | obtained hfails =>
    obtain ⟨error, rfl⟩ := hfails rfl
    cases hresult
  | subscribed =>
    cases hresult
    rfl

theorem Operates.of_unsubscribed {subscription : Subscription}
    (h : before.Operates o (.removeListener subscription) (.ok .done) after)
    : after = before.modifyRegistry (before.object o).context (·.remove subscription) := by
  generalize hresult : (Except.ok Value.done : Except Error Value) = result at h
  cases h with
  | obtained hfails =>
    obtain ⟨error, rfl⟩ := hfails rfl
    cases hresult
  | unsubscribed => rfl

end

/-!
## Events
-/

section
variable (known : List (String × Subscription))

def follow (depth : Nat) (listener : Listener) (state : List Notice × Store) :
    Follow → List Notice × Store
  | .remove name =>
    match known.lookup name with
    | none => (state.1 ++ [.removed listener.name none], state.2)
    | some subscription =>
      (state.1 ++
          [.removed listener.name
            (some ((state.2.registry listener.context).contains subscription))],
        state.2.modifyRegistry listener.context (·.remove subscription))
  | .dispatch source token event =>
    let dispatched := dispatchUpTo known depth state.2 listener.context source token event
    (state.1 ++ dispatched.2.1 ++ [.dispatched listener.name dispatched.1], dispatched.2.2)

def reaction (depth : Nat) (store : Store) (listener : Listener) : List Notice × Store :=
  listener.follows.foldl (follow known depth listener) ([], store)

theorem fst_follow (depth : Nat) (listener : Listener) (notices : List Notice) (store : Store)
    (next : Follow)
    : follow known depth listener (notices, store) next =
        (notices ++ (follow known depth listener ([], store) next).1,
          (follow known depth listener ([], store) next).2) := by
  unfold follow
  cases next with
  | remove name =>
    dsimp only
    split <;> rfl
  | dispatch source token event => simp

theorem foldl_follow (depth : Nat) (listener : Listener) (follows : List Follow)
    (notices : List Notice) (store : Store)
    : follows.foldl (follow known depth listener) (notices, store) =
        (notices ++ (follows.foldl (follow known depth listener) ([], store)).1,
          (follows.foldl (follow known depth listener) ([], store)).2) := by
  induction follows generalizing notices store with
  | nil => simp
  | cons next follows ih =>
    rw [List.foldl_cons, List.foldl_cons, fst_follow]
    generalize follow known depth listener ([], store) next = followed
    obtain ⟨noticed, store⟩ := followed
    rw [ih, ih noticed, List.append_assoc]

theorem dispatchUpTo_succ (depth : Nat) (store : Store) (c : Nat) (source : Reference)
    (token : String) (event : Event)
    : store.dispatchUpTo known (depth + 1) c source token event =
        match (store.registry c).lookup ⟨source, token⟩ with
        | none => (false, [], store)
        | some listener =>
          (true, .told listener.name source event :: (reaction known depth store listener).1,
            (reaction known depth store listener).2) := by
  unfold dispatchUpTo Registry.dispatch?
  cases (store.registry c).lookup ⟨source, token⟩ with
  | none => rfl
  | some listener =>
    have hfollows := foldl_follow known depth listener listener.follows
      [.told listener.name source event] store
    exact congrArg (Prod.mk true) hfollows

section
variable {store : Store} {c : Nat} {source : Reference} {token : String}

theorem dispatch_of_some {listener : Listener}
    (h : (store.registry c).lookup ⟨source, token⟩ = some listener) (event : Event)
    : ∃ depth, store.dispatch known c source token event =
        (true, .told listener.name source event :: (reaction known depth store listener).1,
          (reaction known depth store listener).2) := by
  unfold dispatch dispatchDepth
  dsimp only
  rw [dispatchUpTo_succ, h]
  exact ⟨_, rfl⟩

theorem dispatch_of_none (h : (store.registry c).lookup ⟨source, token⟩ = none) (event : Event)
    : store.dispatch known c source token event = (false, [], store) := by
  unfold dispatch dispatchDepth
  dsimp only
  rw [dispatchUpTo_succ, h]

theorem reaction_of_nil {listener : Listener} (h : listener.follows = []) (depth : Nat)
    : reaction known depth store listener = ([], store) := by
  unfold reaction
  rw [h]
  rfl

end

theorem follow_eq {depth : Nat}
    (hdispatch : ∀ store c source token event, ∃ registries,
      (dispatchUpTo known depth store c source token event).2.2 = { store with registries })
    (listener : Listener) (state : List Notice × Store) (next : Follow)
    : ∃ registries, (follow known depth listener state next).2 = { state.2 with registries } := by
  unfold follow
  cases next with
  | remove name =>
    dsimp only
    split <;> exact ⟨_, rfl⟩
  | dispatch source token event => exact hdispatch _ _ _ _ _

theorem dispatchUpTo_eq (depth : Nat) (store : Store) (c : Nat) (source : Reference)
    (token : String) (event : Event)
    : ∃ registries,
        (dispatchUpTo known depth store c source token event).2.2 = { store with registries } := by
  -- A listener may raise events, so the events of one depth raise those of the next.
  induction depth generalizing store c source token event with
  | zero => exact ⟨_, rfl⟩
  | succ depth ih =>
    have hreaction (listener : Listener) (follows : List Follow) (state : List Notice × Store)
        : ∃ registries, (follows.foldl (follow known depth listener) state).2 =
          { state.2 with registries } := by
      induction follows generalizing state with
      | nil => exact ⟨_, rfl⟩
      | cons next follows ihFollows =>
        obtain ⟨first, hfirst⟩ := follow_eq known ih listener state next
        obtain ⟨second, hsecond⟩ := ihFollows (follow known depth listener state next)
        rw [hfirst] at hsecond
        exact ⟨second, hsecond⟩
    rw [dispatchUpTo_succ]
    cases (store.registry c).lookup ⟨source, token⟩ with
    | none => exact ⟨_, rfl⟩
    | some listener => exact hreaction listener _ _

theorem follow_store {depth : Nat} {store : Store} (listener : Listener) (next : Follow)
    (hdispatch : ∀ c source token event,
      (∀ name, Notice.removed name (some true) ∉
        (store.dispatchUpTo known depth c source token event).2.1) →
      (store.dispatchUpTo known depth c source token event).2.2 = store)
    (h : ∀ name, Notice.removed name (some true) ∉ (follow known depth listener ([], store) next).1)
    : (follow known depth listener ([], store) next).2 = store := by
  unfold follow at h ⊢
  cases next with
  | remove name =>
    dsimp only at h ⊢
    split at h
    . rfl
    . next subscription _ =>
      have hcontains : (store.registry listener.context).contains subscription = false := by
        have hnot := h listener.name
        simpa using hnot
      have hsame : store.registries.modify (store.context listener.context).registry
          (·.remove subscription) = store.registries :=
        modify_eq_self (Registry.remove_of_not_contains hcontains)
      dsimp only
      unfold modifyRegistry
      rw [hsame]
  | dispatch source token event =>
    dsimp only at h ⊢
    apply hdispatch
    intro name hmem
    apply h name
    simp [hmem]

theorem store_foldl_follow {depth : Nat} {listener : Listener} {store : Store}
    (hdispatch : ∀ c source token event,
      (∀ name, Notice.removed name (some true) ∉
        (store.dispatchUpTo known depth c source token event).2.1) →
      (store.dispatchUpTo known depth c source token event).2.2 = store)
    (follows : List Follow)
    (h : ∀ name, Notice.removed name (some true) ∉
      (follows.foldl (follow known depth listener) ([], store)).1)
    : (follows.foldl (follow known depth listener) ([], store)).2 = store := by
  induction follows with
  | nil => rfl
  | cons next follows ih =>
    rw [List.foldl_cons] at h ⊢
    have hfollow := follow_store known listener next hdispatch
    generalize follow known depth listener ([], store) next = followed at h hfollow ⊢
    obtain ⟨noticed, store'⟩ := followed
    rw [foldl_follow] at h ⊢
    obtain rfl : store' = store := hfollow fun name hmem => h name (List.mem_append_left _ hmem)
    exact ih fun name hmem => h name (List.mem_append_right _ hmem)

theorem store_dispatchUpTo (depth : Nat) (store : Store) (c : Nat) (source : Reference)
    (token : String) (event : Event)
    (h : ∀ name, Notice.removed name (some true) ∉
      (store.dispatchUpTo known depth c source token event).2.1)
    : (store.dispatchUpTo known depth c source token event).2.2 = store := by
  -- A listener may raise events, so the events of one depth raise those of the next.
  induction depth generalizing c source token event with
  | zero => rfl
  | succ depth ih =>
    rw [dispatchUpTo_succ] at h ⊢
    cases hfound : (store.registry c).lookup ⟨source, token⟩ with
    | none => rfl
    | some listener =>
      rw [hfound] at h
      exact store_foldl_follow known ih listener.follows
        fun name hmem => h name (List.mem_cons_of_mem _ hmem)

end

/-!
## What users share
-/

def Move.LeavesRegistries (store : Store) : Move → Prop
  | .addListener .. => False
  | .removeListener .. => False
  | .dispatch known c source token event =>
    ∀ listener, .removed listener (some true) ∉ (store.dispatch known c source token event).2.1
  | _ => True

theorem registries_perform {store : Store} {move : Move} (h : move.LeavesRegistries store)
    : (store.perform move).registries = store.registries ∨
      (store.perform move).registries = store.registries ++ [[]] := by
  cases move with
  | resolve f c reference => exact .inl (Obtains.refl.resolve reference).registries_eq
  | resolveAs f c reference type => exact .inl (Obtains.refl.resolveAs reference type).registries_eq
  | ownPipeline o =>
    unfold perform ownPipeline
    dsimp only
    split <;> exact .inl rfl
  | registerKind f kind type =>
    unfold perform registerKind
    dsimp only
    split <;> exact .inl rfl
  | registerDecoder c type decoder =>
    unfold perform registerDecoder
    dsimp only
    split <;> exact .inl rfl
  | addListener => cases h
  | removeListener => cases h
  | dispatch known c source token event =>
    exact .inl (congrArg registries (store_dispatchUpTo known _ store c source token event h))
  | addRegistry => exact .inr rfl
  | _ => exact .inl rfl

end Store

end MediaProxy
