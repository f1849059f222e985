import MediaProxy.Proofs.Object.Arena
import MediaProxy.Proofs.System.Affect
import MediaProxy.Proofs.System.Seat

/-!
This module contains the identity of proxies: as long as somebody holds the proxy of a reference, every
resolution of the reference gives this one, and when nobody does any more it is gone for good.
-/

namespace MediaProxy

namespace System

inductive Resolves (system : System) (f : Nat) (reference : Reference) :
    Action → ObjectId → Prop where
  | resolved {c : Nat} {p : ObjectId} (h : (system.store.resolve f c reference).1 = .ok p) :
    system.Resolves f reference (.share (.resolve f c reference)) p
  | resolvedAs {c : Nat} {type : ProxyClass} {p : ObjectId}
    (h : (system.store.resolveAs f c reference type).1 = .ok p) :
    system.Resolves f reference (.share (.resolveAs f c reference type)) p
  | fetched {o : ObjectId} {fetch : Operation} {action : Action} {value : Value} {p : ObjectId}
    (hhome : system.store.homeOf o = f) (h : system.Returns o fetch action (.ok value))
    (hp : p ∈ value.held)
    (hreference : ((system.act action).store.object p).reference = reference) :
    system.Resolves f reference action p

inductive Forgets (system : System) (f : Nat) (reference : Reference) : Action → Prop where
  | forgotten : system.Forgets f reference (.share (.forget f reference))
  | released {o : ObjectId} {action : Action} (hhome : system.store.homeOf o = f)
    (hreference : (system.store.object o).reference = reference)
    (h : system.Returns o .release action (.ok .done)) :
    system.Forgets f reference action

inductive Sweeps (system : System) (f : Nat) : Action → Prop where
  | swept : system.Sweeps f (.share (.sweep f))
  | round {tickFirst : Bool} {id : TaskId} {task : Task} {c : Nat}
    (htask : system.task? id = some task) (hjob : task.job = .round c)
    (hfactory : (system.store.context c).factory = f) (hstage : task.stage = .fresh) :
    system.Sweeps f (.step tickFirst id)
  | ticked {tickFirst : Bool} {id : TaskId} {task : Task} {c period due : Nat}
    (htask : system.task? id = some task) (hjob : task.job = .schedule c period)
    (hfactory : (system.store.context c).factory = f) (hstage : task.stage = .ticking due)
    (hdue : due ≤ system.now * 1000000) (hgoes : tickFirst ∨ !task.stopping) :
    system.Sweeps f (.step tickFirst id)
  | gathered {tickFirst : Bool} {id : TaskId} {task : Task} {c period next : Nat}
    {pending : List TaskId} {report : Report}
    (htask : system.task? id = some task) (hjob : task.job = .schedule c period)
    (hfactory : (system.store.context c).factory = f)
    (hstage : task.stage = .gathering pending report next)
    (hcollected : (system.collect pending report).1 = [])
    (hdue : next ≤ system.now * 1000000) (hgoes : tickFirst ∨ !task.stopping) :
    system.Sweeps f (.step tickFirst id)

def Clones (system : System) : Action → Prop
  | .share move => move.Clones system.store
  | _ => True

structure Tended (system : System) : Prop where
  sound : system.Sound
  typed : system.store.Typed
  fitting : system.Fitting
  neat : system.store.Neat

inductive Hands (system : System) : Action → Nat → List ObjectId → Prop where
  | nothing {action : Action} (f : Nat) : system.Hands action f []
  | moved (move : Store.Move) : system.Hands (.share move) move.home (move.given system.store)
  | fetched {o : ObjectId} {operation : Operation} {action : Action} {result : Except Error Value}
    (h : system.Returns o operation action result) :
    system.Hands action (system.store.homeOf o) (proxiesOf result)

/-!
## Actions
-/

theorem eq_ok_of_mem {result : Except Error ObjectId} {p : ObjectId}
    (h : p ∈ result.toOption.toList) : result = .ok p := by
  cases result with
  | error error => cases h
  | ok o => rw [List.mem_singleton.1 h]

section
variable {system : System} {action : Action} {f : Nat} {reference : Reference} {p q : ObjectId}

theorem tends_act (h : system.Fitting) (hadmits : system.Admits action)
    (hclones : system.Clones action)
    : ∃ f given, system.Hands action f given ∧
        system.store.Tends f given (fun g reference => system.Forgets g reference action)
          (system.act action).store := by
  have haffects := affects_act h hadmits
  generalize (system.act action).store = after at haffects
  cases haffects with
  | sheds hsheds => exact ⟨0, [], .nothing 0, hsheds.tends _ _⟩
  | @operates o operation _ result middle _ hreturns hoperates hsheds =>
    cases hoperates with
    | obtained _ hobtains => exact ⟨_, _, .fetched hreturns, (hobtains.tends _).sheds hsheds⟩
    | released =>
      have hforgets : system.Forgets (system.store.homeOf o) (system.store.object o).reference _ :=
        .released rfl rfl hreturns
      exact ⟨0, [], .nothing 0, (Store.tends_finishRelease _ o hforgets).sheds hsheds⟩
    | subscribed => exact ⟨0, [], .nothing 0, (Store.tends_modifyRegistry _ _ _).sheds hsheds⟩
    | unsubscribed => exact ⟨0, [], .nothing 0, (Store.tends_modifyRegistry _ _ _).sheds hsheds⟩
  | shares move =>
    refine ⟨_, _, .moved move, Store.tends_perform hclones ?_⟩
    rintro g other rfl
    exact .forgotten
  | builds builder =>
    refine ⟨0, [], .nothing 0, ?_⟩
    rcases system.founds_build builder with heq | ⟨context, hfounds⟩
    . rw [heq]
      exact .of_factories_eq rfl rfl rfl
    . obtain ⟨kinds, hfactories⟩ := hfounds.factories
      exact .of_new_factory hfounds.objects hfounds.held hfactories

theorem Tended.act (h : system.Tended) (hadmits : system.Admits action)
    (hclones : system.Clones action) : (system.act action).Tended := by
  obtain ⟨f, given, _, htends⟩ := tends_act h.fitting hadmits hclones
  exact ⟨h.sound.changes (changes_act hadmits), (changes_act hadmits).typed h.sound h.typed,
    h.fitting.act hadmits, htends.neat h.neat⟩

theorem Resolves.obtains (h : system.Tended) (hadmits : system.Admits action)
    (hresolves : system.Resolves f reference action p)
    : ∃ c got middle, system.store.Obtains f c got middle ∧ p ∈ got ∧ middle.Typed ∧
        (middle.object p).reference = reference ∧ middle.Sheds (system.act action).store := by
  cases hresolves with
  | @resolved c _ hresolve =>
    have htyped := (system.store.extends_resolve f reference fun _ => hadmits).typed h.typed
    obtain ⟨type, _, hstands⟩ := h.typed.of_resolve (Prod.ext hresolve rfl)
    refine ⟨c, _, _, Store.Obtains.refl.resolve reference, ?_, htyped, hstands.reference_eq, .refl⟩
    rw [hresolve]
    exact List.mem_singleton_self p
  | @resolvedAs c type _ hresolve =>
    have htyped := (system.store.extends_resolveAs f reference type fun _ => hadmits).typed h.typed
    obtain ⟨_, hstands⟩ := h.typed.of_resolveAs (Prod.ext hresolve rfl)
    refine ⟨c, _, _, Store.Obtains.refl.resolveAs reference type, ?_, htyped, hstands.reference_eq,
      .refl⟩
    rw [hresolve]
    exact List.mem_singleton_self p
  | @fetched o fetch _ value _ hhome hreturns hp hreference =>
    obtain ⟨middle, hoperates, hgrows, hsheds⟩ := hreturns.operates h.fitting
    generalize hresult : (Except.ok value : Except Error Value) = result at hoperates
    cases hoperates with
    | obtained _ hobtains =>
      subst hresult hhome
      refine ⟨_, _, middle, hobtains, hp, hgrows.typed h.typed, ?_, hsheds⟩
      rw [← hreference]
      unfold Store.object
      rw [hsheds.objects_eq]
    | _ =>
      cases hresult
      cases hp

theorem Resolves.tracked (h : system.Tended) (hf : f < system.store.factories.length)
    (hadmits : system.Admits action) (hresolves : system.Resolves f reference action p)
    : ∃ middle : Store, middle.tracked? f reference = some p ∧ middle.Neat ∧
        middle.Sheds (system.act action).store ∧
        ∀ o, system.store.lookup? f reference = some o → o = p := by
  obtain ⟨c, got, middle, hobtains, hp, htyped, hreference, hsheds⟩ := hresolves.obtains h hadmits
  obtain ⟨other, hother⟩ := hobtains.tracked?_of_mem_got hf hp
  obtain ⟨_, heq, _⟩ := htyped.tracked f other p (Store.mem_of_tracked? hother)
  obtain rfl : other = reference := heq.symm.trans hreference
  refine ⟨middle, hother, (hobtains.tends fun _ _ => False).neat h.neat, hsheds, ?_⟩
  intro o hlookup
  obtain ⟨htracked, hheld⟩ := Store.lookup?_eq_some_iff.1 hlookup
  exact Option.some.inj ((hobtains.tracked?_eq htracked hheld).symm.trans hother)

theorem Resolves.reference_eq (h : system.Tended) (hadmits : system.Admits action)
    (hresolves : system.Resolves f reference action p)
    : ((system.act action).store.object p).reference = reference := by
  obtain ⟨_, _, middle, _, _, _, hreference, hsheds⟩ := hresolves.obtains h hadmits
  unfold Store.object
  rw [hsheds.objects_eq]
  exact hreference

theorem Hands.gives {given : List ObjectId} (hhands : system.Hands action f given)
    (hclones : system.Clones action) (hp : p ∈ given)
    : (p ∈ system.store.held ∧ (action = .share (.hold p) ∨ action = .share (.ownPipeline p))) ∨
        ∃ reference, system.Resolves f reference action p := by
  cases hhands with
  | nothing => cases hp
  | @fetched o operation _ result hreturns =>
    cases result with
    | error error => cases hp
    | ok value => exact .inr ⟨_, .fetched rfl hreturns hp rfl⟩
  | moved move =>
    cases move with
    | hold o =>
      obtain rfl := List.mem_singleton.1 hp
      exact .inl ⟨hclones, .inl rfl⟩
    | ownPipeline o =>
      obtain rfl := List.mem_singleton.1 hp
      exact .inl ⟨hclones, .inr rfl⟩
    | resolve g c reference => exact .inr ⟨reference, .resolved (eq_ok_of_mem hp)⟩
    | resolveAs g c reference type => exact .inr ⟨reference, .resolvedAs (eq_ok_of_mem hp)⟩
    | _ => cases hp

theorem Hands.length_le {given : List ObjectId} (hhands : system.Hands action f given)
    : given.length ≤ 1 := by
  have hoption (result : Except Error ObjectId) : result.toOption.toList.length ≤ 1 := by
    cases result with
    | error error => exact Nat.zero_le 1
    | ok o => exact Nat.le_refl 1
  cases hhands with
  | nothing => exact Nat.zero_le 1
  | @fetched o operation _ result =>
    rcases result with error | value
    . exact Nat.zero_le 1
    . unfold proxiesOf Value.held
      dsimp only
      split <;> simp
  | moved move =>
    cases move with
    | hold o => exact Nat.le_refl 1
    | ownPipeline o => exact Nat.le_refl 1
    | resolve g c reference => apply hoption
    | resolveAs g c reference type => apply hoption
    | _ => exact Nat.zero_le 1

end

/-!
## Rounds of keepalives
-/

theorem Scope.not_shares_only {task : Task} (h : ¬task.job.isOperation)
    : ¬(Scope.only task).Shares := by
  rintro (hshares | ⟨job, rfl, hjob⟩)
  . exact hshares
  . exact h hjob

theorem sheds_beginRound (system : System) (id : TaskId) (c : Nat)
    : (system.store.sweep (system.store.context c).factory).2.Sheds
        (system.beginRound id c).2.2.store := by
  have hstart (objects : List ObjectId) (state : List TaskId × System) (hnil : state.1 = [])
      (hminds : ∀ o ∈ objects, state.2.store.Minds o)
      : state.2.store.Sheds (objects.foldl beginRound.start state).2.store := by
    have hnone : ∀ other ∈ state.1, 0 ≤ other ∧ other < state.2.nextTask := by
      rw [hnil]
      exact nofun
    obtain ⟨hchanges, _⟩ := foldl_start_spec (.everything 0) objects state hnone (Nat.zero_le _) hminds
    exact hchanges.sheds (Scope.not_shares_everything 0)
  let swept : System :=
    { system.note (.round system.now id) with
      store := (system.store.sweep (system.store.context c).factory).2 }
  exact hstart _ ([], swept) rfl
    fun o ho => Store.minds_of_mem_living ho

section
variable {system : System} {tickFirst : Bool} {task : Task} {c period now due f : Nat}

theorem sheds_tick (system : System) (hjob : ¬task.job.isOperation) (hdue : due ≤ now)
    (hgoes : tickFirst ∨ !task.stopping)
    : (system.store.sweep (system.store.context c).factory).2.Sheds
        (system.tick tickFirst task c period now due).store := by
  have hround := system.sheds_beginRound task.id c
  unfold tick
  rw [if_pos ⟨hdue, hgoes⟩]
  dsimp only
  split
  . next report after heq =>
    rw [heq] at hround
    have hrest := changes_tick tickFirst after c period now (nextTick period now due)
      (Scope.serves_only task) (Nat.zero_le _)
    exact hround.trans (hrest.sheds (Scope.not_shares_only hjob))
  . next heq =>
    rw [heq] at hround
    exact hround

theorem step_round {id : TaskId} (htask : system.task? id = some task) (hjob : task.job = .round c)
    (hstage : task.stage = .fresh)
    : system.step tickFirst id =
        (system.beginRound task.id c).2.2.gather tickFirst task (system.beginRound task.id c).1
          (system.beginRound task.id c).2.1 0 := by
  unfold step
  rw [htask]
  dsimp only
  rw [hstage]
  dsimp only
  unfold start
  rw [hjob]

theorem step_ticked {id : TaskId} {period : Nat} (htask : system.task? id = some task)
    (hjob : task.job = .schedule c period) (hstage : task.stage = .ticking due)
    (hdue : due ≤ system.now * 1000000)
    : system.step tickFirst id =
        system.tick tickFirst task c period (system.now * 1000000) due := by
  unfold step
  rw [htask]
  dsimp only
  rw [hstage]
  dsimp only
  rw [hjob]
  dsimp only
  rw [if_pos (by simp [hdue])]

theorem step_gathered (tickFirst : Bool) {id : TaskId} {period next : Nat} {pending : List TaskId} {report : Report}
    (htask : system.task? id = some task) (hjob : task.job = .schedule c period)
    (hstage : task.stage = .gathering pending report next)
    (hcollected : (system.collect pending report).1 = [])
    : ∃ inbox, system.step tickFirst id =
        tick tickFirst { system with inbox } task c period (system.now * 1000000) next := by
  obtain ⟨inbox, hcollect⟩ := system.collect_eq pending report
  refine ⟨inbox, ?_⟩
  unfold step
  rw [htask]
  dsimp only
  rw [hstage]
  dsimp only
  unfold gather
  generalize system.collect pending report = collected at hcollected hcollect
  obtain ⟨rest, report', after⟩ := collected
  obtain rfl : rest = [] := hcollected
  obtain rfl : after = { system with inbox } := hcollect
  dsimp only
  rw [hjob]

theorem Sweeps.sheds {action : Action} (h : system.Sweeps f action)
    : (system.store.sweep f).2.Sheds (system.act action).store := by
  cases h with
  | swept => exact .refl
  | @round tickFirst id task c htask hjob hfactory hstage =>
    subst hfactory
    have hround := system.sheds_beginRound task.id c
    obtain ⟨_, _, hstarted⟩ := system.beginRound_spec c (Scope.serves_only task)
    have hgather := changes_gather (system.beginRound task.id c).2.2 tickFirst
      (system.beginRound task.id c).1 (system.beginRound task.id c).2.1 0 (Scope.serves_only task)
      (fun other hother => .inr ⟨Nat.zero_le _, (hstarted other hother).2⟩) (Nat.zero_le _)
    change Store.Sheds _ (system.step tickFirst id).store
    rw [step_round htask hjob hstage]
    exact hround.trans (hgather.sheds (Scope.not_shares_only (by rw [hjob]; exact nofun)))
  | @ticked tickFirst id task c period due htask hjob hfactory hstage hdue hgoes =>
    subst hfactory
    change Store.Sheds _ (system.step tickFirst id).store
    rw [step_ticked htask hjob hstage hdue]
    exact system.sheds_tick (by rw [hjob]; exact nofun) hdue hgoes
  | @gathered tickFirst id task c period next pending report htask hjob hfactory hstage hcollected
      hdue hgoes =>
    subst hfactory
    obtain ⟨inbox, hstep⟩ := step_gathered tickFirst htask hjob hstage hcollected
    change Store.Sheds _ (system.step tickFirst id).store
    rw [hstep]
    exact System.sheds_tick { system with inbox } (by rw [hjob]; exact nofun) hdue hgoes

end

/-!
## Runs
-/

/--
What a factory promises, whatever happens in a run and in whichever order. The references of its living
proxies are distinct. A proxy that is held stays the one of its reference unless that is forgotten. One
that nobody holds any more is found no more and never comes back, and a sweep clears it away. Nobody
holds proxies but users, who have got them from the factory or from each other.
-/
structure Identity (start : System) (f : Nat) : Prop where
  single : ∀ actions, start.Obeys Clones actions →
    (((start.after actions).store.living f).map
      fun o => ((start.after actions).store.object o).reference).Nodup
  kept : ∀ actions, start.Obeys Clones actions → ∀ reference p action earlier,
    action :: earlier <:+ actions → (start.after earlier).Resolves f reference action p →
    (∀ later, action :: earlier <:+ later → later <:+ actions →
      p ∈ (start.after later).store.held) →
    (∀ next before, action :: earlier <:+ before → next :: before <:+ actions →
      ¬(start.after before).Forgets f reference next) →
    (start.after actions).store.lookup? f reference = some p ∧
    (∀ c, (start.after actions).store.resolve f c reference =
      (.ok p, (start.after actions).store.hold p)) ∧
    ∀ next q, (start.after actions).Admits next →
      (start.after actions).Resolves f reference next q → q = p
  dropped : ∀ actions, start.Obeys Clones actions → ∀ reference p action earlier,
    action :: earlier <:+ actions → (start.after earlier).Resolves f reference action p →
    p ∉ (start.after actions).store.held →
    (∀ next before q, action :: earlier <:+ before → next :: before <:+ actions → q ≠ p →
      ¬(start.after before).Resolves f reference next q) →
    (start.after actions).store.lookup? f reference = none
  gone : ∀ actions, start.Obeys Clones actions → ∀ earlier, earlier <:+ actions → ∀ p,
    p < (start.after earlier).store.objects.length → p ∉ (start.after earlier).store.held →
    p ∉ (start.after actions).store.held
  swept : ∀ actions, start.Obeys Clones actions → ∀ p action earlier, action :: earlier <:+ actions →
    p < (start.after earlier).store.objects.length → p ∉ (start.after earlier).store.held →
    (start.after earlier).Sweeps f action →
    ∀ reference, (reference, p) ∉ ((start.after actions).store.factory f).tracked
  unowned : ∀ action earlier, start.Obeys Clones (action :: earlier) → ∀ p,
    (start.after (action :: earlier)).store.held.count p ≤
      (start.after earlier).store.held.count p ∨
    ((start.after (action :: earlier)).store.held.count p =
        (start.after earlier).store.held.count p + 1 ∧
      ((p ∈ (start.after earlier).store.held ∧
          (action = .share (.hold p) ∨ action = .share (.ownPipeline p))) ∨
        ∃ g reference, (start.after earlier).Resolves g reference action p))

section
variable {system start : System} {action : Action} {actions earlier : List Action} {f : Nat}
  {reference : Reference} {p q : ObjectId}

theorem Tended.after (h : start.Tended) (hobeys : start.Obeys Clones actions)
    : (start.after actions).Tended := by
  induction actions with
  | nil => exact h
  | cons action actions ih => exact (ih hobeys.tail).act hobeys.head.1 hobeys.head.2

theorem Tended.tends (h : start.Tended) (hobeys : start.Obeys Clones (action :: actions))
    : ∃ f given, (start.after actions).Hands action f given ∧
        (start.after actions).store.Tends f given
          (fun g reference => (start.after actions).Forgets g reference action)
          (start.after (action :: actions)).store :=
  tends_act (h.after hobeys.tail).fitting hobeys.head.1 hobeys.head.2

theorem Tended.factory_lt (h : start.Tended) (hobeys : start.Obeys Clones actions)
    (hf : f < start.store.factories.length) : f < (start.after actions).store.factories.length := by
  induction actions with
  | nil => exact hf
  | cons action actions ih =>
    obtain ⟨_, _, _, htends⟩ := h.tends hobeys
    exact Nat.lt_of_lt_of_le (ih hobeys.tail) htends.length_factories

theorem Tended.lookup?_cons (h : start.Tended) (hobeys : start.Obeys Clones (action :: actions))
    (hlookup : (start.after (action :: actions)).store.lookup? f reference = some q)
    : (start.after actions).store.lookup? f reference = some q ∨
        (start.after actions).Resolves f reference action q := by
  have hbefore := h.after hobeys.tail
  have hafter := h.after hobeys
  obtain ⟨g, given, hhands, htends⟩ := h.tends hobeys
  obtain ⟨htracked, hheld⟩ := Store.lookup?_eq_some_iff.1 hlookup
  have hmem := hafter.neat.tracked?_eq_some_iff.1 htracked
  rcases htends.mem_tracked f _ hmem with hold | ⟨rfl, hnew⟩
  . have hlt := (hbefore.typed.tracked f reference q hold).1
    exact .inl (Store.lookup?_eq_some_iff.2
      ⟨hbefore.neat.tracked?_eq_some_iff.2 hold, htends.held_of_held hlt hheld⟩)
  . have hnot : q ∉ (start.after actions).store.held :=
      fun hold => Nat.not_lt_of_le hnew (hbefore.neat.held_lt q hold)
    have hgiven := (htends.mem_held hheld).resolve_right hnot
    obtain ⟨hold, _⟩ | ⟨other, hresolves⟩ := hhands.gives hobeys.head.2 hgiven
    . exact absurd hold hnot
    . obtain rfl : other = reference := (hresolves.reference_eq hbefore hobeys.head.1).symm.trans
        (hafter.typed.tracked f reference q hmem).2.1
      exact .inr hresolves

theorem Tended.single (h : system.Tended) (f : Nat)
    : ((system.store.living f).map fun o => (system.store.object o).reference).Nodup := by
  have hsublist : ((system.store.living f).map fun o => (system.store.object o).reference).Sublist
      ((system.store.factory f).tracked.map (·.1)) := by
    have hkeys : (system.store.factory f).tracked.map (·.1) =
        ((system.store.factory f).tracked.map (·.2)).map
          fun o => (system.store.object o).reference := by
      rw [List.map_map]
      apply List.map_congr_left
      exact fun entry hentry => (h.typed.tracked f entry.1 entry.2 hentry).2.1.symm
    rw [hkeys]
    exact List.filter_sublist.map _
  exact (h.neat.nodup f).sublist hsublist

theorem Tended.kept_of_lt (h : start.Tended) (hf : f < (start.after earlier).store.factories.length)
    (hobeys : start.Obeys Clones actions) (hsuffix : action :: earlier <:+ actions)
    (hresolves : (start.after earlier).Resolves f reference action p)
    (hheld : ∀ later, action :: earlier <:+ later → later <:+ actions →
      p ∈ (start.after later).store.held)
    (hforgets : ∀ next before, action :: earlier <:+ before → next :: before <:+ actions →
      ¬(start.after before).Forgets f reference next)
    : (start.after actions).store.tracked? f reference = some p := by
  apply suffix_induction
    (motive := fun later => (start.after later).store.tracked? f reference = some p) hsuffix
  . have hthen := hobeys.of_suffix hsuffix
    obtain ⟨middle, htracked, _, hsheds, _⟩ :=
      hresolves.tracked (h.after hthen.tail) hf hthen.head.1
    exact hsheds.tracked?_eq htracked (hheld _ List.suffix_rfl hsuffix)
  . intro next before hbefore hnext htracked
    obtain ⟨_, _, _, htends⟩ := h.tends (hobeys.of_suffix hnext)
    have hlater := (List.suffix_cons next before).trans hnext
    exact htends.kept f reference p (hforgets next before hbefore hnext) htracked
      (hheld before hbefore hlater) (hheld _ (hbefore.trans (List.suffix_cons _ _)) hnext)

theorem Tended.kept (h : start.Tended) (hf : f < start.store.factories.length)
    (hobeys : start.Obeys Clones actions) (hsuffix : action :: earlier <:+ actions)
    (hresolves : (start.after earlier).Resolves f reference action p)
    (hheld : ∀ later, action :: earlier <:+ later → later <:+ actions →
      p ∈ (start.after later).store.held)
    (hforgets : ∀ next before, action :: earlier <:+ before → next :: before <:+ actions →
      ¬(start.after before).Forgets f reference next)
    : (start.after actions).store.tracked? f reference = some p :=
  h.kept_of_lt (h.factory_lt (hobeys.of_suffix hsuffix).tail hf) hobeys hsuffix hresolves hheld hforgets

theorem Tended.dropped (h : start.Tended) (hf : f < start.store.factories.length)
    (hobeys : start.Obeys Clones actions) (hsuffix : action :: earlier <:+ actions)
    (hresolves : (start.after earlier).Resolves f reference action p)
    (hnone : ∀ next before q, action :: earlier <:+ before → next :: before <:+ actions → q ≠ p →
      ¬(start.after before).Resolves f reference next q) (hq : q ≠ p)
    : (start.after actions).store.lookup? f reference ≠ some q := by
  apply suffix_induction
    (motive := fun later => (start.after later).store.lookup? f reference ≠ some q) hsuffix
  . intro hlookup
    have hthen := hobeys.of_suffix hsuffix
    obtain ⟨middle, htracked, hneat, hsheds, _⟩ := hresolves.tracked (h.after hthen.tail)
      (h.factory_lt hthen.tail hf) hthen.head.1
    have hmem := Store.mem_of_tracked? (Store.lookup?_eq_some_iff.1 hlookup).1
    have hmiddle := hneat.tracked?_eq_some_iff.2 ((hsheds.tracked_sublist f).subset hmem)
    exact hq (Option.some.inj (hmiddle.symm.trans htracked))
  . intro next before hbefore hnext hnot hlookup
    exact (h.lookup?_cons (hobeys.of_suffix hnext) hlookup).elim hnot
      (hnone next before q hbefore hnext hq)

theorem Tended.gone (h : start.Tended) (hobeys : start.Obeys Clones actions)
    (hsuffix : earlier <:+ actions) (hlt : p < (start.after earlier).store.objects.length)
    (hp : p ∉ (start.after earlier).store.held) : p ∉ (start.after actions).store.held := by
  apply suffix_induction (motive := fun later => p ∉ (start.after later).store.held) hsuffix hp
  intro next before hbefore hnext hnot hheld
  obtain ⟨_, _, _, htends⟩ := h.tends (hobeys.of_suffix hnext)
  have hlegal := hobeys.legal.of_suffix ((List.suffix_cons _ _).trans hnext)
  have hlater := (hlegal.grows_of_suffix hbefore).length_objects_le
  exact hnot (htends.held_of_held (Nat.lt_of_lt_of_le hlt hlater) hheld)

theorem Tended.swept (h : start.Tended) (hobeys : start.Obeys Clones actions)
    (hsuffix : action :: earlier <:+ actions)
    (hlt : p < (start.after earlier).store.objects.length)
    (hp : p ∉ (start.after earlier).store.held) (hsweeps : (start.after earlier).Sweeps f action)
    (reference : Reference)
    : (reference, p) ∉ ((start.after actions).store.factory f).tracked := by
  apply suffix_induction (motive := fun later =>
    (reference, p) ∉ ((start.after later).store.factory f).tracked) hsuffix
  . intro hmem
    exact Store.not_mem_tracked_sweep f reference hp ((hsweeps.sheds.tracked_sublist f).subset hmem)
  . intro next before hbefore hnext hnot hmem
    obtain ⟨_, _, _, htends⟩ := h.tends (hobeys.of_suffix hnext)
    have hlegal := hobeys.legal.of_suffix ((List.suffix_cons _ _).trans hnext)
    have hlater := (hlegal.grows_of_suffix ((List.suffix_cons _ _).trans hbefore)).length_objects_le
    rcases htends.mem_tracked f _ hmem with hold | ⟨_, hnew⟩
    . exact hnot hold
    . exact Nat.not_lt_of_le hnew (Nat.lt_of_lt_of_le hlt hlater)

theorem Tended.unowned (h : start.Tended) (hobeys : start.Obeys Clones (action :: earlier)) (p : ObjectId)
    : (start.after (action :: earlier)).store.held.count p ≤
        (start.after earlier).store.held.count p ∨
      ((start.after (action :: earlier)).store.held.count p =
          (start.after earlier).store.held.count p + 1 ∧
        ((p ∈ (start.after earlier).store.held ∧
            (action = .share (.hold p) ∨ action = .share (.ownPipeline p))) ∨
          ∃ g reference, (start.after earlier).Resolves g reference action p)) := by
  obtain ⟨g, given, hhands, htends⟩ := h.tends hobeys
  have hcount := htends.count_le p
  have hone := Nat.le_trans (List.count_le_length (a := p)) hhands.length_le
  by_cases hp : p ∈ given
  . by_cases hmore : (start.after (action :: earlier)).store.held.count p ≤
        (start.after earlier).store.held.count p
    . exact .inl hmore
    . refine .inr ⟨by omega, ?_⟩
      exact (hhands.gives hobeys.head.2 hp).imp_right fun hresolves => ⟨g, hresolves⟩
  . rw [List.count_eq_zero.2 hp] at hcount
    exact .inl (by omega)

theorem identity_of_tended (start : System) (h : start.Tended) (f : Nat)
    (hf : f < start.store.factories.length) : start.Identity f := by
  refine ⟨?_, ?_, ?_, ?_, ?_, ?_⟩
  . exact fun actions hobeys => (h.after hobeys).single f
  . intro actions hobeys reference p action earlier hsuffix hresolves hheld hforgets
    have htracked := h.kept hf hobeys hsuffix hresolves hheld hforgets
    have hlookup : (start.after actions).store.lookup? f reference = some p :=
      Store.lookup?_eq_some_iff.2 ⟨htracked, hheld actions hsuffix List.suffix_rfl⟩
    refine ⟨hlookup, ?_, ?_⟩
    . intro c
      unfold Store.resolve
      rw [hlookup]
    . intro next q hadmits hagain
      obtain ⟨_, _, _, _, heq⟩ := hagain.tracked (h.after hobeys) (h.factory_lt hobeys hf) hadmits
      exact (heq p hlookup).symm
  . intro actions hobeys reference p action earlier hsuffix hresolves hp hnone
    rw [Option.eq_none_iff_forall_ne_some]
    intro q hlookup
    refine h.dropped hf hobeys hsuffix hresolves hnone ?_ hlookup
    rintro rfl
    exact hp (Store.lookup?_eq_some_iff.1 hlookup).2
  . exact fun actions hobeys earlier hsuffix p hlt hp => h.gone hobeys hsuffix hlt hp
  . exact fun actions hobeys p action earlier hsuffix hlt hp hsweeps =>
      h.swept hobeys hsuffix hlt hp hsweeps
  . exact fun action earlier hobeys p => h.unowned hobeys p

end

theorem tended_furnished : furnished.Tended := by
  refine ⟨sound_furnished, typed_furnished, fitting_furnished, ?_, ?_⟩
  . intro f
    cases f with
    | zero => exact List.nodup_cons.2 ⟨List.not_mem_nil, List.nodup_nil⟩
    | succ f => exact List.nodup_nil
  . intro o ho
    cases List.mem_singleton.1 ho
    exact Nat.one_pos

-- A pipeline is resolved, and again by itself after a sweep.
def returning : List Action :=
  [.operateBlocking 0 .getMediaPipeline, .share (.sweep 0), .share (.resolve 0 0 (.pipeline "p"))]

-- Its proxy is let go of by all of its three holders, and a round of keepalives begins.
def abandoning : List Action :=
  .step false 0 :: .spawn (.round 0) { handler := .channel true } "" ::
    .share (.letGo 0) :: .share (.letGo 0) :: .share (.letGo 0) :: returning

theorem obeys_returning : furnished.Obeys Clones returning := by
  refine Obeys.cons ?_ trivial trivial
  refine Obeys.cons ?_ trivial trivial
  exact Obeys.cons (.nil furnished Clones) Nat.one_pos trivial

theorem obeys_abandoning : furnished.Obeys Clones abandoning := by
  refine Obeys.cons ?_ trivial trivial
  refine Obeys.cons ?_ trivial trivial
  refine Obeys.cons ?_ trivial trivial
  refine Obeys.cons ?_ trivial trivial
  exact Obeys.cons obeys_returning trivial trivial

theorem identity_furnished
    : furnished.Tended ∧ 0 < furnished.store.factories.length ∧ furnished.Identity 0 ∧
      furnished.Obeys Clones returning ∧ furnished.Obeys Clones abandoning ∧
      (furnished.after returning).store.held = [0, 0, 0] ∧
      (furnished.after returning).store.lookup? 0 (.pipeline "p") = some 0 ∧
      (furnished.after (abandoning.drop 2)).store.tracked? 0 (.pipeline "p") = some 0 ∧
      (furnished.after abandoning).store.tracked? 0 (.pipeline "p") = none :=
  ⟨tended_furnished, Nat.one_pos, identity_of_tended furnished tended_furnished 0 Nat.one_pos,
    obeys_returning, obeys_abandoning, rfl, rfl, rfl, rfl⟩

end System

end MediaProxy
