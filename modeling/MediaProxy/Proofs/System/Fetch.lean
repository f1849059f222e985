import MediaProxy.Proofs.System.Failure

/-!
This module contains fetches: what an object knows of its parent or its pipeline comes from the first
fetch that succeeded, and every fetch that succeeds gives the same answer.
-/

namespace MediaProxy

def MediaObject.Remembers (object : MediaObject) : Operation → Prop
  | .getParent => True
  | .getMediaPipeline => object.reference.isPipeline = false
  | _ => False

namespace Store

section
variable {store before after : Store} {o : ObjectId} {fetch : Operation}

theorem Effect.grows {job : Job} {result : Except Error Value}
    (h : before.Effect job result after) : before.Grows after := by
  cases h with
  | @answered p operation _ _ hstart =>
    have hextends := before.extends_start p operation
    rw [hstart] at hextends
    exact hextends.grows
  | failed => exact .refl before
  | concluded p operation outcome => exact grows_conclude before p operation outcome
  | owned p => exact ((before.extends_ownPipeline p).trans (extends_letGo _ p)).grows

theorem Effect.known_cases {job : Job} {result : Except Error Value}
    (h : before.Effect job result after) (ho : o < before.objects.length) (fetch : Operation)
    : (after.object o).known fetch = (before.object o).known fetch ∨
      (job = .operate o fetch ∧ ∃ value, result = .ok value) := by
  cases h with
  | @answered p operation _ _ hstart =>
    have hextends := before.extends_start p operation
    rw [hstart] at hextends
    rw [hextends.object_eq ho]
    exact .inl rfl
  | failed => exact .inl rfl
  | concluded p operation outcome =>
    rcases known_conclude (o := p) ho operation fetch outcome with heq | ⟨rfl, rfl, hok⟩
    . exact .inl heq
    . exact .inr ⟨rfl, hok⟩
  | owned p =>
    rw [((before.extends_ownPipeline p).trans (extends_letGo _ p)).object_eq ho]
    exact .inl rfl

theorem Typed.start_known (h : store.Typed) (hreleased : (store.object o).released = false)
    (hremembers : (store.object o).Remembers fetch) {known : Fetched}
    (hknown : (store.object o).known fetch = some known)
    : ∃ value after, store.start o fetch = (.answered (.ok value), after) ∧
        after.Shows value known := by
  have hstarted := store.started_start o fetch
  generalize store.start o fetch = started at hstarted
  cases hstarted with
  | refused hrefused => cases hrefused.symm.trans hreleased
  | own _ hfetch hpipeline =>
    subst hfetch
    cases hpipeline.symm.trans hremembers
  | asks _ _ hnone => cases hnone.symm.trans hknown
  | known fetched _ _ hsome =>
    obtain rfl : fetched = known := Option.some.inj (hsome.symm.trans hknown)
    obtain ⟨value, after, hresolve, hshows⟩ := h.resolveFetched_ok (h.known o fetch fetched hsome)
    rw [hresolve]
    exact ⟨value, after, rfl, hshows⟩

theorem Typed.of_start (h : before.Typed) (ho : o < before.objects.length)
    (hremembers : (before.object o).Remembers fetch) {value : Value}
    (hstart : before.start o fetch = (.answered (.ok value), after))
    : ∃ known, (after.object o).known fetch = some known ∧ after.Shows value known := by
  have hextends := before.extends_start o fetch
  have hstarted := before.started_start o fetch
  rw [hstart] at hextends hstarted
  generalize hend : (Beginning.answered (.ok value), after) = started at hstarted
  cases hstarted with
  | refused => cases hend
  | own _ hfetch hpipeline =>
    subst hfetch
    cases hpipeline.symm.trans hremembers
  | asks => cases hend
  | known fetched _ _ hknown =>
    obtain ⟨hvalue, hafter⟩ := Prod.mk.inj hend
    have hresolve : before.resolveFetched o fetched = (.ok value, after) :=
      Prod.ext (Beginning.answered.inj hvalue).symm hafter.symm
    refine ⟨fetched, ?_, (h.of_resolveFetched hresolve).2⟩
    rw [hextends.object_eq ho]
    exact hknown

theorem Typed.of_conclude (h : before.Typed) (ho : o < before.objects.length)
    (hremembers : (before.object o).Remembers fetch) {outcome : Except RpcError Reply}
    {value : Value} (hconclude : before.conclude o fetch outcome = (.ok value, after))
    : ∃ known, (after.object o).known fetch = some known ∧ after.Shows value known := by
  have hconcluded := before.concluded_conclude o fetch outcome
  rw [hconclude] at hconcluded
  generalize hend : (Except.ok value, after) = concluded at hconcluded
  cases hconcluded with
  | failed => cases hend
  | fetched fetched => exact h.of_finishFetch ho hend.symm
  | _ => cases hremembers

theorem Typed.of_effect (h : before.Typed) (ho : o < before.objects.length)
    (hremembers : (before.object o).Remembers fetch) {value : Value}
    (heffect : before.Effect (.operate o fetch) (.ok value) after)
    : ∃ known, (after.object o).known fetch = some known ∧ after.Shows value known := by
  generalize hresult : (Except.ok value : Except Error Value) = result at heffect
  cases heffect with
  | answered hstart =>
    subst hresult
    exact h.of_start ho hremembers hstart
  | failed => cases hresult
  | concluded _ _ outcome => exact h.of_conclude ho hremembers (Prod.ext hresult.symm rfl)

end

end Store

namespace System

/-!
## Fetches that begin and return
-/

inductive Begins (system : System) (o : ObjectId) (fetch : Operation) : Action → Prop where
  | blocking : system.Begins o fetch (.operateBlocking o fetch)
  | nonBlocking {tickFirst : Bool} {id : TaskId} {task : Task}
    (htask : system.task? id = some task) (hjob : task.job = .operate o fetch)
    (hstage : task.stage = .fresh) :
    system.Begins o fetch (.step tickFirst id)

inductive Returns (system : System) (o : ObjectId) (fetch : Operation) :
    Action → Except Error Value → Prop where
  | blocking :
    system.Returns o fetch (.operateBlocking o fetch) (system.operateBlocking o fetch).1
  | interrupted (outcome : Except RpcError Reply) :
    system.Returns o fetch (.concludeBlocking o fetch outcome)
      (system.store.conclude o fetch outcome).1
  | nonBlocking {tickFirst : Bool} {id : TaskId} {task : Task} {result : Except Error Value}
    (htask : system.task? id = some task) (hjob : task.job = .operate o fetch)
    (h : (system.work task).1 = some result) :
    system.Returns o fetch (.step tickFirst id) result

section
variable {system : System} {o : ObjectId} {fetch : Operation} {action : Action}

theorem extends_finish (system : System) (task : Task) (result : Except Error Outcome)
    : system.store.Extends (system.finish task result).store :=
  (spares_resolve (system.removeTask task.id) _ _ _ _).extending

theorem links_resolve (system : System) (id : TaskId) (name : String)
    (continuation : Continuation) (result : Except Error Outcome)
    : (system.resolve id name continuation result).links = system.links := by
  rcases system.resolve_cases id name continuation result with
    ⟨said, hsaid, hresolve | ⟨waiter, hresolve⟩⟩ | ⟨proxies, hresolve⟩
  . rw [hresolve, hsaid.same.links_eq]
  . obtain ⟨ready, hwake, _⟩ := said.wake_eq waiter
    rw [hresolve, hwake]
    exact hsaid.same.links_eq
  . rw [hresolve]
    rfl

theorem Returns.effect (h : system.Fitting) {result : Except Error Value}
    (hreturns : system.Returns o fetch action result)
    : ∃ store, system.store.Effect (.operate o fetch) result store ∧
        store.Extends (system.act action).store := by
  cases hreturns with
  | blocking => exact ⟨_, effect_operateBlocking system o fetch, .refl _⟩
  | interrupted outcome => exact ⟨_, .concluded o fetch outcome, .refl _⟩
  | @nonBlocking tickFirst id task _ htask hjob hwork =>
    have hsteps := h.steps htask (by rw [hjob]; rfl) tickFirst
    change ∃ store : Store, _ ∧ store.Extends (system.step tickFirst id).store
    generalize system.step tickFirst id = after at hsteps
    cases hsteps with
    | idle hnone => cases hnone.symm.trans hwork
    | parked _ hnone => cases hnone.symm.trans hwork
    | @ended _ middle hsome _ heffect =>
      cases hsome.symm.trans hwork
      rw [hjob] at heffect
      exact ⟨middle.store, heffect, middle.extends_finish task _⟩

theorem Returns.known_cases {result : Except Error Value} {after : Store}
    (h : system.Returns o fetch action result) (ho : o < system.store.objects.length)
    (heffect : system.store.Effect (.operate o fetch) result after)
    : (after.object o).known fetch = (system.store.object o).known fetch ∨
        ∃ value, system.Returns o fetch action (.ok value) := by
  rcases heffect.known_cases ho fetch with heq | ⟨_, value, rfl⟩
  . exact .inl heq
  . exact .inr ⟨value, h⟩

theorem known_act (h : system.Fitting) (hadmits : system.Admits action)
    (ho : o < system.store.objects.length) (fetch : Operation)
    : ((system.act action).store.object o).known fetch = (system.store.object o).known fetch ∨
      ∃ value, system.Returns o fetch action (.ok value) := by
  by_cases hjobs : (action.scope system).jobs (.operate o fetch)
  . cases action with
    | step tickFirst id =>
      obtain ⟨task, htask, hjob⟩ := hjobs
      have hsteps := h.steps htask (by rw [hjob]; rfl) tickFirst
      change ((system.step tickFirst id).store.object o).known fetch = _ ∨ _
      generalize system.step tickFirst id = after at hsteps
      cases hsteps with
      | idle => exact .inl rfl
      | @parked middle _ _ stage _ _ _ hstore =>
        change (middle.store.object o).known fetch = _ ∨ _
        rw [hstore]
        exact .inl rfl
      | @ended result middle hwork _ heffect =>
        have hreturns : system.Returns o fetch (.step tickFirst id) result :=
          .nonBlocking htask hjob hwork
        have hlt := Nat.lt_of_lt_of_le ho heffect.grows.length_objects
        rw [(middle.extends_finish task _).object_eq hlt]
        rw [hjob] at heffect
        exact hreturns.known_cases ho heffect
    | operateBlocking p operation =>
      cases hjobs
      exact Returns.blocking.known_cases ho (effect_operateBlocking system o fetch)
    | concludeBlocking p operation outcome =>
      cases hjobs
      exact (Returns.interrupted outcome).known_cases ho (.concluded o fetch outcome)
    | stop id =>
      obtain ⟨task, htask, hjob⟩ := hjobs
      obtain ⟨c, period, hschedule⟩ := hadmits task htask
      cases hjob.symm.trans hschedule
    | _ => cases hjobs
  . exact .inl ((changes_act hadmits).known_eq ho hjobs)

end

/-!
## Runs
-/

/--
What the fetches about an object promise, however many there are and whatever else is going on.
-/
structure WriteOnce (start : System) (o : ObjectId) (fetch : Operation) : Prop where
  kept : ∀ actions, Legal start actions → ∀ earlier, earlier <:+ actions → ∀ known,
    ((start.after earlier).store.object o).known fetch = some known →
    ((start.after actions).store.object o).known fetch = some known
  learned : ∀ action earlier, Legal start (action :: earlier) →
    ((start.after earlier).store.object o).known fetch = none →
    ∀ known, ((start.after (action :: earlier)).store.object o).known fetch = some known →
    ∃ value, (start.after earlier).Returns o fetch action (.ok value) ∧
      (start.after (action :: earlier)).store.Shows value known
  agree : ∀ actions, Legal start actions → ∀ action earlier, action :: earlier <:+ actions →
    ∀ value, (start.after earlier).Returns o fetch action (.ok value) →
    ∃ known, ((start.after actions).store.object o).known fetch = some known ∧
      (start.after actions).store.Shows value known
  recalled : ∀ earlier, Legal start earlier →
    ((start.after earlier).store.object o).released = false →
    ∀ known, ((start.after earlier).store.object o).known fetch = some known →
    ∀ action, (start.after earlier).Begins o fetch action →
    ∃ value, (start.after earlier).Returns o fetch action (.ok value) ∧
      (start.after (action :: earlier)).store.Shows value known ∧
      (start.after (action :: earlier)).links = (start.after earlier).links ∧
      (start.after (action :: earlier)).calls = (start.after earlier).calls

section
variable {system start : System} {o : ObjectId} {fetch : Operation} {action : Action}

theorem Returns.shows (h : system.Fitting) (htyped : system.store.Typed)
    (ho : o < system.store.objects.length) (hremembers : (system.store.object o).Remembers fetch)
    {value : Value} (hreturns : system.Returns o fetch action (.ok value))
    : ∃ known, ((system.act action).store.object o).known fetch = some known ∧
        (system.act action).store.Shows value known := by
  obtain ⟨store, heffect, hextends⟩ := hreturns.effect h
  obtain ⟨known, hknown, hshows⟩ := htyped.of_effect ho hremembers heffect
  refine ⟨known, ?_, hextends.grows.shows hshows⟩
  rw [hextends.object_eq (Nat.lt_of_lt_of_le ho heffect.grows.length_objects)]
  exact hknown

theorem recalled_act (h : system.Fitting) (htyped : system.store.Typed)
    (hremembers : (system.store.object o).Remembers fetch)
    (hreleased : (system.store.object o).released = false) {known : Fetched}
    (hknown : (system.store.object o).known fetch = some known)
    (hbegins : system.Begins o fetch action)
    : ∃ value, system.Returns o fetch action (.ok value) ∧
        (system.act action).store.Shows value known ∧ (system.act action).links = system.links ∧
        (system.act action).calls = system.calls := by
  obtain ⟨value, store, hstart, hshows⟩ := htyped.start_known hreleased hremembers hknown
  cases hbegins with
  | blocking =>
    have hoperate : system.operateBlocking o fetch = (.ok value, { system with store }) := by
      unfold operateBlocking
      rw [hstart]
    refine ⟨value, ?_, ?_⟩
    . have hreturns : system.Returns o fetch _ _ := .blocking
      rw [hoperate] at hreturns
      exact hreturns
    . unfold act
      dsimp only
      rw [hoperate]
      exact ⟨hshows, rfl, rfl⟩
  | @nonBlocking tickFirst id task htask hjob hstage =>
    have hwork : system.work task = (some (.ok value), { system with store }) := by
      unfold work workOn
      rw [hjob, hstage]
      dsimp only
      rw [hstart]
    have hstep : system.step tickFirst id = _ := h.step_eq htask (by rw [hjob]; rfl) tickFirst
    rw [hwork] at hstep
    refine ⟨value, .nonBlocking htask hjob (by rw [hwork]), ?_⟩
    unfold act
    dsimp only
    rw [hstep]
    refine ⟨(extends_finish { system with store } task _).grows.shows hshows, ?_, ?_⟩
    . exact links_resolve ({ system with store }.removeTask task.id) _ _ _ _
    . exact (passes_finish { system with store } task _).calls_eq

theorem writeOnce_of_sound (start : System) (h : start.Sound) (htyped : start.store.Typed)
    (hfitting : start.Fitting) (o : ObjectId) (ho : o < start.store.objects.length)
    (fetch : Operation) (hremembers : (start.store.object o).Remembers fetch)
    : start.WriteOnce o fetch := by
  have hlt {actions : List Action} (hlegal : Legal start actions)
      : o < (start.after actions).store.objects.length :=
    Nat.lt_of_lt_of_le ho hlegal.grows.length_objects_le
  have hremembers {actions : List Action} (hlegal : Legal start actions)
      : ((start.after actions).store.object o).Remembers fetch := by
    have hreference := (hlegal.grows.ages o ho).reference_eq
    cases fetch with
    | getParent => trivial
    | getMediaPipeline =>
      change ((start.after actions).store.object o).reference.isPipeline = false
      rw [hreference]
      exact hremembers
    | _ => cases hremembers
  have hshows {action : Action} {earlier : List Action} (hlegal : Legal start earlier)
      {value : Value} (hreturns : (start.after earlier).Returns o fetch action (.ok value)) :=
    hreturns.shows (hfitting.after hlegal) (hlegal.typed h htyped) (hlt hlegal) (hremembers hlegal)
  refine ⟨?_, ?_, ?_, ?_⟩
  . intro actions hlegal earlier hsuffix known hknown
    have hages := (hlegal.grows_of_suffix hsuffix).ages o (hlt (hlegal.of_suffix hsuffix))
    exact hages.known_eq fetch known hknown
  . intro action earlier hlegal hnone known hknown
    rcases known_act (hfitting.after hlegal.1) hlegal.2 (hlt hlegal.1) fetch with
      heq | ⟨value, hreturns⟩
    . cases hnone.symm.trans (heq.symm.trans hknown)
    . obtain ⟨known', hknown', hvalue⟩ := hshows hlegal.1 hreturns
      obtain rfl : known' = known := Option.some.inj (hknown'.symm.trans hknown)
      exact ⟨value, hreturns, hvalue⟩
  . intro actions hlegal action earlier hsuffix value hreturns
    have hthen := hlegal.of_suffix hsuffix
    obtain ⟨known, hknown, hvalue⟩ := hshows hthen.1 hreturns
    have hgrows := hlegal.grows_of_suffix hsuffix
    refine ⟨known, (hgrows.ages o (hlt hthen)).known_eq fetch known hknown, ?_⟩
    exact hvalue.ages hgrows.length_objects_le hgrows.ages
  . intro earlier hlegal hreleased known hknown action hbegins
    exact recalled_act (hfitting.after hlegal) (hlegal.typed h htyped) (hremembers hlegal) hreleased
      hknown hbegins

end

theorem typed_furnished : furnished.store.Typed := by
  refine ⟨?_, ?_, ?_⟩
  . intro c
    cases c <;> exact Nat.one_pos
  . intro f reference o hmem
    cases f with
    | zero =>
      cases List.mem_singleton.1 hmem
      decide
    | succ f => cases hmem
  . intro o fetch fetched hknown
    cases o <;> cases fetch <;> cases hknown

theorem fitting_furnished : furnished.Fitting := by
  intro id task htask
  cases htask

theorem leap_of_tasks_eq {system : System} {task : Task} (h : system.tasks = [task]) (limit : Nat)
    : let later := { system with
        now := max (system.now + 1) ((system.tasks.filterMap (·.stage.due?)).foldl min limit) }
      system.leap limit =
        if !task.foreground && later.reached task.stage.due? then later.wake task.id else later := by
  intro later
  have hdue : later.dueTasks =
      if !task.foreground && later.reached task.stage.due? then [task.id] else [] := by
    have htasks : later.tasks = [task] := h
    unfold dueTasks
    rw [htasks, List.filter_cons, List.filter_nil]
    dsimp only
    split
    . rw [List.mergeSort_singleton]
      rfl
    . rw [List.mergeSort_nil]
      rfl
  change later.dueTasks.foldl wake later = _
  rw [hdue]
  split <;> rfl

def disputing : Action :=
  .serve 0
    [⟨some "getParent", none, .ok (.reference (some (.pipeline "q"))), .after 10, some 1⟩,
      ⟨some "getParent", none, .ok (.reference none), .immediate, none⟩] []

def contested : System :=
  furnished.after [disputing]

def race : List Action :=
  [.step false 0, .leap 20, .step false 1, .step false 0,
    .spawn (.operate 0 .getParent) { handler := .callback } "late",
    .spawn (.operate 0 .getParent) { handler := .callback } "early"]

theorem writeOnce_contested
    : contested.WriteOnce 0 .getParent ∧ Legal contested race ∧
      (contested.after race).noted 0 = [.ok (.value (.parent none))] ∧
      (contested.after race).noted 1 = [.ok (.value (.parent none))] := by
  have hserve : Legal furnished [disputing] := ⟨trivial, trivial⟩
  have hleap := (contested.after (race.drop 2)).leap_of_tasks_eq rfl 20
  refine ⟨?_, ?_, ?_, ?_⟩
  . apply writeOnce_of_sound contested
    . exact sound_furnished.after hserve
    . exact hserve.typed sound_furnished typed_furnished
    . exact fitting_furnished.after hserve
    . decide
    . trivial
  . exact ⟨⟨⟨⟨⟨⟨trivial, trivial⟩, trivial⟩, trivial⟩, trivial⟩, trivial⟩, trivial⟩
  . exact congrArg (fun later => (later.step false 0).noted 0) hleap
  . exact congrArg (fun later => (later.step false 0).noted 1) hleap

end System

end MediaProxy
