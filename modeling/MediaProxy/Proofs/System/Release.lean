import MediaProxy.Proofs.System.Hearing

/-!
This module contains objects that are released: which operations release them, and what is still done for
an object from then on, which is nothing.
-/

namespace MediaProxy

namespace Store

section
variable {store before after : Store} {o p : ObjectId} {operation : Operation}

theorem start_of_released (h : (store.object o).released = true) (operation : Operation)
    : store.start o operation = (.answered (.error (releasedError (store.object o))), store) := by
  unfold start
  dsimp only
  rw [if_pos h]

theorem ownPipeline_of_released (h : (store.object o).released = true)
    : store.ownPipeline o = (.error (releasedError (store.object o)), store) := by
  unfold ownPipeline
  dsimp only
  rw [if_pos h]

theorem released_finishRelease (o : ObjectId) (hp : p < store.objects.length)
    : ((store.finishRelease o).object p).released = true ↔
        (store.object p).released = true ∨ p = o := by
  change ((store.modifyObject o _).object p).released = true ↔ _
  rw [object_modifyObject]
  by_cases hp : o = p
  . subst hp
    simp [hp]
  . rw [if_neg fun hsame => hp hsame.1, or_iff_left (Ne.symm hp)]

theorem Operates.released_iff {result : Except Error Value}
    (h : before.Operates o operation result after) (hp : p < before.objects.length)
    : (after.object p).released = true ↔
        (before.object p).released = true ∨ p = o ∧ operation = .release ∧ result = .ok .done := by
  cases h with
  | obtained hfails hobtains =>
    rw [hobtains.released_eq hp, or_iff_left]
    rintro ⟨_, rfl, rfl⟩
    obtain ⟨error, herror⟩ := hfails rfl
    cases herror
  | released => simp [released_finishRelease o hp]
  | subscribed listener token =>
    change (before.object p).released = true ↔ _
    simp
  | unsubscribed subscription =>
    change (before.object p).released = true ↔ _
    simp

end

end Store

namespace System

/-!
## Becoming released
-/

inductive Acknowledges (system : System) (o : ObjectId) : Action → Prop where
  | blocking (h : system.AsksFor (system.operateBlocking o .release).2 o .release (.ok .unit)) :
    system.Acknowledges o (.operateBlocking o .release)
  | interrupted : system.Acknowledges o (.concludeBlocking o .release (.ok .unit))
  | nonBlocking {tickFirst : Bool} {id : TaskId} {task : Task}
    (htask : system.task? id = some task) (hjob : task.job = .operate o .release)
    (h : system.Receives (system.step tickFirst id) task o .release (.ok .unit))
    (hend : (system.step tickFirst id).task? id = none) :
    system.Acknowledges o (.step tickFirst id)

section
variable {system : System} {action : Action} {o : ObjectId}

theorem conclude_release_iff (store : Store) (o : ObjectId) (outcome : Except RpcError Reply)
    : (store.conclude o .release outcome).1 = .ok .done ↔ outcome = .ok .unit := by
  cases outcome with
  | error error => simp [Store.conclude]
  | ok reply => cases reply <;> simp [Store.conclude, Store.finish]

theorem expect_release_iff (request : Request) (reply : Except RpcError Reply)
    : reply.bind (Operation.release.expect request) = .ok .unit ↔ reply = .ok .unit := by
  cases reply with
  | error error => simp [Except.bind]
  | ok reply =>
    cases reply <;> simp [Except.bind, Except.map, Operation.expect, Reply.toUnit, Reply.unexpected]

theorem Asked.calls_ne {before after : System} {target : Reference} {request : Request}
    {reply : Except RpcError Reply} (h : before.Asked after target request reply)
    : after.calls ≠ before.calls := by
  obtain ⟨record, hcalls, _⟩ := h
  rw [hcalls]
  exact List.cons_ne_self record before.calls

theorem Asked.reply_eq {before after : System} {target target' : Reference}
    {request request' : Request} {reply reply' : Except RpcError Reply}
    (h : before.Asked after target request reply)
    (h' : before.Asked after target' request' reply') : reply' = reply := by
  obtain ⟨record, hcalls, _, _, hreply⟩ := h
  obtain ⟨record', hcalls', _, _, hreply'⟩ := h'
  obtain ⟨rfl, _⟩ := List.cons.inj (hcalls'.symm.trans hcalls)
  exact hreply'.symm.trans hreply

theorem work_of_calling {task : Task} {operation : Operation} {reply : Except RpcError Reply}
    {due : Option Nat} (hjob : task.job = .operate o operation)
    (hstage : task.stage = .calling reply due) (hdue : system.reached due = true)
    : system.work task = system.workEnding task o operation reply := by
  unfold work workOn
  rw [hjob]
  dsimp only
  rw [hstage]
  dsimp only
  rw [if_pos hdue]

theorem Fitting.work_of_none (h : system.Fitting) {id : TaskId} {task : Task}
    (htask : system.task? id = some task) (hjob : task.job.isOperation) {tickFirst : Bool}
    (hend : (system.step tickFirst id).task? id = none)
    : ∃ result, (system.work task).1 = some result := by
  have hid := task?_id htask
  subst hid
  have hsteps := h.steps htask hjob tickFirst
  generalize system.step tickFirst task.id = after at hsteps hend
  cases hsteps with
  | idle => cases hend.symm.trans htask
  | parked _ _ _ huntold =>
    rw [task?_park (by rw [huntold.task?_eq]; exact htask)] at hend
    cases hend
  | ended hwork => exact ⟨_, hwork⟩

theorem Acknowledges.returns (h : system.Fitting) (hacknowledges : system.Acknowledges o action)
    : system.Returns o .release action (.ok .done) := by
  cases hacknowledges with
  | blocking hasks =>
    have hends := system.endsAtOnce_operateBlocking o .release
    have hreturns : system.Returns o .release (.operateBlocking o .release)
        (system.operateBlocking o .release).1 := .blocking
    generalize system.operateBlocking o .release = ended at hasks hends hreturns
    cases hends with
    | failed _ hcalls => exact absurd hcalls hasks.calls_ne
    | answered _ hcalls => exact absurd hcalls hasks.calls_ne
    | concluded reply hasks' =>
      obtain rfl := hasks.reply_eq hasks'
      exact hreturns
  | interrupted => exact .interrupted (.ok .unit)
  | @nonBlocking tickFirst id task htask hjob hreceives hend =>
    have hoperation : task.job.isOperation := by
      rw [hjob]
      rfl
    obtain ⟨result, hwork⟩ := h.work_of_none htask hoperation hend
    have hfinish (middle : System) (result : Except Error Outcome)
        : (middle.finish task result).calls = middle.calls :=
      (passes_finish middle task result).calls_eq
    apply Returns.nonBlocking htask hjob
    cases hreceives with
    | earlier hstage hdue =>
      rw [work_of_calling hjob hstage hdue]
      unfold workEnding
      dsimp only
      rw [fst_conclude]
      rfl
    | now hasks =>
      -- The step makes one call only, so the acknowledged one is what its work heard.
      have hhears := system.hears_work hjob
      rw [h.step_eq htask hoperation tickFirst] at hasks
      generalize system.work task = progress at hasks hwork hhears ⊢
      cases hhears with
      | idle => cases hwork
      | parked => cases hwork
      | failed _ hcalls => exact absurd ((hfinish _ _).trans hcalls) hasks.calls_ne
      | answered _ hcalls => exact absurd ((hfinish _ _).trans hcalls) hasks.calls_ne
      | concluded reply hreceives' =>
        cases hreceives' with
        | earlier _ _ hcalls => exact absurd ((hfinish _ _).trans hcalls) hasks.calls_ne
        | now hasks' =>
          obtain rfl := hasks.reply_eq (hasks'.of_calls_eq (hfinish _ _))
          rfl

theorem Returns.acknowledges (h : system.Fitting)
    (hreturns : system.Returns o .release action (.ok .done)) : system.Acknowledges o action := by
  generalize hresult : (Except.ok .done : Except Error Value) = result at hreturns
  cases hreturns with
  | blocking =>
    have hends := system.endsAtOnce_operateBlocking o .release
    apply Acknowledges.blocking
    generalize system.operateBlocking o .release = ended at hresult hends ⊢
    cases hends with
    | failed => cases hresult
    | answered hstart =>
      dsimp only at hresult
      subst hresult
      cases not_alters_of_start hstart
    | concluded reply hasks =>
      obtain rfl := (expect_release_iff _ _).1 ((conclude_release_iff _ _ _).1 hresult.symm)
      exact hasks
  | interrupted outcome =>
    obtain rfl := (conclude_release_iff _ _ _).1 hresult.symm
    exact .interrupted
  | @nonBlocking tickFirst id task _ htask hjob hwork =>
    have hstep := h.step_eq htask (by rw [hjob]; rfl) tickFirst
    have hhears := system.hears_work hjob
    rw [← hresult] at hwork
    apply Acknowledges.nonBlocking htask hjob
    . rw [hstep]
      generalize system.work task = progress at hwork hhears ⊢
      cases hhears with
      | idle => cases hwork
      | parked => cases hwork
      | failed => cases hwork
      | answered hstart =>
        cases hwork
        cases not_alters_of_start hstart
      | @concluded middle reply hreceives =>
        obtain rfl := (expect_release_iff _ _).1
          ((conclude_release_iff _ _ _).1 (Option.some.inj hwork))
        exact hreceives.of_calls_eq (passes_finish middle task _).calls_eq
    . rw [hstep]
      have hid := task?_id htask
      generalize system.work task = progress at hwork ⊢
      obtain ⟨result, middle⟩ := progress
      dsimp only at hwork
      rw [hwork, ← hid]
      exact middle.task?_finish task _

theorem released_act (h : system.Fitting) (hadmits : system.Admits action)
    (ho : o < system.store.objects.length)
    : ((system.act action).store.object o).released = true ↔
        (system.store.object o).released = true ∨ system.Acknowledges o action := by
  constructor
  . have haffects := affects_act h hadmits
    intro hreleased
    generalize (system.act action).store = after at haffects hreleased
    cases haffects with
    | sheds hsheds =>
      unfold Store.object at hreleased
      rw [hsheds.objects_eq] at hreleased
      exact .inl hreleased
    | @operates p operation _ _ middle _ hreturns hoperates hsheds =>
      have hmiddle : (middle.object o).released = true := by
        unfold Store.object at hreleased ⊢
        rwa [hsheds.objects_eq] at hreleased
      rcases (hoperates.released_iff ho).1 hmiddle with hbefore | ⟨rfl, rfl, rfl⟩
      . exact .inl hbefore
      . exact .inr (hreturns.acknowledges h)
    | shares move =>
      rw [(Store.extends_perform hadmits).object_eq ho] at hreleased
      exact .inl hreleased
    | builds builder =>
      rcases system.founds_build builder with heq | ⟨context, hfounds⟩
      . rw [heq] at hreleased
        exact .inl hreleased
      . unfold Store.object at hreleased
        rw [hfounds.objects] at hreleased
        exact .inl hreleased
  . rintro (hreleased | hacknowledges)
    . exact ((changes_act hadmits).grows.ages o ho).released hreleased
    . obtain ⟨middle, hoperates, _, hsheds⟩ := (hacknowledges.returns h).operates h
      unfold Store.object
      rw [hsheds.objects_eq]
      exact (hoperates.released_iff ho).2 (.inr ⟨rfl, rfl, rfl⟩)

end

/-!
## Being released
-/

theorem store_finish_error (system : System) (task : Task) (error : Error)
    : (system.finish task (.error error)).store = system.store :=
  (system.removeTask task.id).store_resolve_error _ _ _ error

structure Refused (before : System) (task : Task) (o : ObjectId) (after : System) : Prop where
  told : after.Told task (.error (Store.releasedError (before.store.object o)))
  links_eq : after.links = before.links
  calls_eq : after.calls = before.calls
  store_eq : after.store =
    if task.job = .ownPipeline o then before.store.letGo o else before.store

theorem refused_finish {system : System} {task : Task} {o : ObjectId} {store : Store}
    (hstore : store = if task.job = .ownPipeline o then system.store.letGo o else system.store)
    : system.Refused task o
        ({ system with store }.finish task
          (.error (Store.releasedError (system.store.object o)))) where
  told := told_finish _ task _
  links_eq := links_resolve _ _ _ _ _
  calls_eq := (passes_finish { system with store } task _).calls_eq
  store_eq := by
    rw [store_finish_error]
    exact hstore

structure Rejects (system : System) (o : ObjectId) : Prop where
  start : ∀ operation, system.store.start o operation =
    (.answered (.error (Store.releasedError (system.store.object o))), system.store)
  blocking : ∀ operation, system.operateBlocking o operation =
    (.error (Store.releasedError (system.store.object o)), system)
  blockingOwn : system.store.ownPipeline o =
    (.error (Store.releasedError (system.store.object o)), system.store)
  nonBlocking : ∀ tickFirst id task, system.task? id = some task → task.job.IsOn o →
    task.stage = .fresh →
    (system.step tickFirst id).task? id = none ∧
      system.Refused task o (system.step tickFirst id)
  unkept : ∀ tickFirst id new task, system.nextTask ≤ new →
    (system.step tickFirst id).task? new = some task → task.job ≠ .operate o .keepAlive

section
variable {scope : Scope} {system before after : System} {o : ObjectId}

theorem step_fresh {id : TaskId} {task : Task} (htask : system.task? id = some task)
    (hstage : task.stage = .fresh) (tickFirst : Bool)
    : system.step tickFirst id = system.start tickFirst task := by
  unfold step
  rw [htask]
  dsimp only
  rw [hstage]

theorem operateBlocking_of_released (h : (system.store.object o).released = true)
    (operation : Operation)
    : system.operateBlocking o operation =
        (.error (Store.releasedError (system.store.object o)), system) := by
  unfold operateBlocking
  rw [Store.start_of_released h]

theorem start_of_released (h : (system.store.object o).released = true) {task : Task}
    (hjob : task.job.IsOn o) (tickFirst : Bool)
    : ∃ store, (store = if task.job = .ownPipeline o then system.store.letGo o else system.store) ∧
        system.start tickFirst task =
          { system with store }.finish task
            (.error (Store.releasedError (system.store.object o))) := by
  unfold start
  cases hkind : task.job with
  | operate p operation =>
    rw [hkind] at hjob
    obtain rfl : p = o := hjob
    refine ⟨system.store, (if_neg nofun).symm, ?_⟩
    dsimp only
    rw [Store.start_of_released h]
    rfl
  | ownPipeline p =>
    rw [hkind] at hjob
    obtain rfl : p = o := hjob
    refine ⟨system.store.letGo p, (if_pos rfl).symm, ?_⟩
    dsimp only
    rw [Store.ownPipeline_of_released h]
    rfl
  | _ =>
    rw [hkind] at hjob
    cases hjob

theorem Changes.job_ne_keepAlive (h : before.Changes scope after) (hsound : before.Sound)
    (ho : o < before.store.objects.length) (hreleased : (before.store.object o).released = true)
    (hbirths : ¬scope.births (.operate o .keepAlive)) {id : TaskId} (hid : before.nextTask ≤ id)
    (htasks : ¬scope.tasks id) {task : Task} (htask : after.task? id = some task)
    : task.job ≠ .operate o .keepAlive := by
  induction h generalizing task with
  | refl => exact absurd (hsound.lt_of_task? htask) (Nat.not_lt_of_le hid)
  | step hearlier hchange ih =>
    rcases hchange.origin htask with
      ⟨old, hold, hcore⟩ | ⟨hgoes, _⟩ | ⟨_, _, hborn | ⟨p, hkeep, _, hspared⟩⟩
    . have hjob : task.job = old.job := congrArg Prod.fst hcore
      rw [hjob]
      exact ih hold
    . exact absurd hgoes htasks
    . rintro hjob
      rw [hjob] at hborn
      exact hbirths hborn
    . rintro hjob
      cases hkeep.symm.trans hjob
      cases hspared.symm.trans ((hearlier.grows.ages o ho).released hreleased)

theorem Sound.rejects (hsound : system.Sound) (ho : o < system.store.objects.length)
    (h : (system.store.object o).released = true) : system.Rejects o := by
  refine ⟨Store.start_of_released h, operateBlocking_of_released h,
    Store.ownPipeline_of_released h, ?_, ?_⟩
  . intro tickFirst id task htask hjob hstage
    obtain ⟨store, hstore, hstart⟩ := start_of_released h hjob tickFirst
    have hid := task?_id htask
    rw [step_fresh htask hstage tickFirst, hstart, ← hid]
    exact ⟨task?_finish _ task _, refused_finish hstore⟩
  . intro tickFirst id new task hnew htask
    apply (system.changes_step tickFirst id).job_ne_keepAlive hsound ho h not_false hnew _ htask
    rintro ⟨rfl, old, hold⟩
    exact absurd (hsound.lt_of_task? hold) (Nat.not_lt_of_le hnew)

end

/-!
## Runs
-/

/--
What the release of an object promises, whatever happens in a run and in whichever order. The object is
released as soon as a release through it is acknowledged, because its server said so, and not before. It
stays released, and whatever is begun for it later is refused.
-/
structure ReleasesForGood (start : System) (o : ObjectId) : Prop where
  marked : ∀ actions, Legal start actions →
    (((start.after actions).store.object o).released = true ↔
      (start.store.object o).released = true ∨
        ∃ action earlier, action :: earlier <:+ actions ∧
          (start.after earlier).Acknowledges o action)
  granted : start.store.Typed → start.Housed → start.Traced [] →
    ∀ action earlier, start.Obeys Addressed (action :: earlier) → start.Heeds (action :: earlier) →
    (start.after earlier).Acknowledges o action →
    start.Replied (action :: earlier) (start.store.object o).reference .release (.ok .unit)
  kept : ∀ actions, Legal start actions → ∀ earlier, earlier <:+ actions →
    ((start.after earlier).store.object o).released = true →
    ((start.after actions).store.object o).released = true
  rejects : ∀ actions, Legal start actions → ∀ earlier, earlier <:+ actions →
    ((start.after earlier).store.object o).released = true →
    (start.after actions).Rejects o

section
variable {start : System} {actions : List Action} {o : ObjectId}

theorem Obeys.traced (h : start.Obeys Addressed actions) (hsound : start.Sound)
    (htyped : start.store.Typed) (hfitting : start.Fitting) (hhoused : start.Housed)
    (htraced : start.Traced []) : (start.after actions).Housed ∧ start.Traced actions := by
  induction actions with
  | nil => exact ⟨hhoused, htraced⟩
  | cons action actions ih =>
    obtain ⟨hadmits, haddressed⟩ := h.head
    obtain ⟨hhousedNow, htracedNow⟩ := ih h.tail
    have hsoundNow := hsound.after h.tail.legal
    exact ⟨hhousedNow.act hsoundNow (h.tail.legal.typed hsound htyped) hadmits
        (fun job hborn => haddressed.births hborn),
      htracedNow.cons hsoundNow (hfitting.after h.tail.legal) hhousedNow hadmits⟩

theorem Legal.released_iff (h : Legal start actions) (hfitting : start.Fitting)
    (ho : o < start.store.objects.length)
    : ((start.after actions).store.object o).released = true ↔
        (start.store.object o).released = true ∨
          ∃ action earlier, action :: earlier <:+ actions ∧
            (start.after earlier).Acknowledges o action := by
  induction actions with
  | nil =>
    rw [or_iff_left]
    . rfl
    . rintro ⟨action, earlier, hsuffix, _⟩
      cases List.suffix_nil.1 hsuffix
  | cons action actions ih =>
    have hstep := released_act (hfitting.after h.1) h.2
      (Nat.lt_of_lt_of_le ho h.1.grows.length_objects_le)
    apply hstep.trans
    rw [ih h.1, or_assoc]
    apply or_congr_right
    constructor
    . rintro (⟨next, earlier, hsuffix, hacknowledges⟩ | hacknowledges)
      . exact ⟨next, earlier, hsuffix.trans (List.suffix_cons _ _), hacknowledges⟩
      . exact ⟨action, actions, List.suffix_rfl, hacknowledges⟩
    . rintro ⟨next, earlier, hsuffix, hacknowledges⟩
      rcases List.suffix_cons_iff.1 hsuffix with heq | hearlier
      . cases heq
        exact .inr hacknowledges
      . exact .inl ⟨next, earlier, hearlier, hacknowledges⟩

theorem Legal.released_of_suffix (h : Legal start actions) (ho : o < start.store.objects.length)
    {earlier : List Action} (hsuffix : earlier <:+ actions)
    (hreleased : ((start.after earlier).store.object o).released = true)
    : ((start.after actions).store.object o).released = true := by
  have hearlier := (h.of_suffix hsuffix).grows
  exact ((h.grows_of_suffix hsuffix).ages o
    (Nat.lt_of_lt_of_le ho hearlier.length_objects_le)).released hreleased

theorem releasesForGood_of_fitting (start : System) (h : start.Sound) (hfitting : start.Fitting)
    (o : ObjectId) (ho : o < start.store.objects.length) : start.ReleasesForGood o := by
  refine ⟨fun actions hlegal => hlegal.released_iff hfitting ho, ?_,
    fun actions hlegal earlier => hlegal.released_of_suffix ho, ?_⟩
  . intro htyped hhoused htraced action earlier hobeys hheeds hacknowledges
    have hfittingNow := hfitting.after hobeys.tail.legal
    obtain ⟨_, htracedNow⟩ := hobeys.tail.traced h htyped hfitting hhoused htraced
    obtain ⟨reply, hreplied, hconclude⟩ :=
      (hacknowledges.returns hfittingNow).replied htracedNow hfittingNow hheeds rfl
    obtain rfl := (expect_release_iff _ _).1 ((conclude_release_iff _ _ _).1 hconclude)
    rw [(hobeys.tail.legal.grows.ages o ho).reference_eq] at hreplied
    exact hreplied
  . intro actions hlegal earlier hsuffix hreleased
    exact (h.after hlegal).rejects (Nat.lt_of_lt_of_le ho hlegal.grows.length_objects_le)
      (hlegal.released_of_suffix ho hsuffix hreleased)

end

-- A keepalive of the pipeline is started, and the pipeline is released before it takes its first step.
def releasing : List Action :=
  [.operateBlocking 0 .release, .spawn (.operate 0 .keepAlive) { handler := .callback } "late"]

theorem releasesForGood_furnished
    : furnished.Sound ∧ furnished.Fitting ∧ 0 < furnished.store.objects.length ∧
      furnished.ReleasesForGood 0 ∧ Legal furnished releasing ∧
      ((furnished.after (releasing.drop 1)).store.object 0).released = false ∧
      ((furnished.after releasing).store.object 0).released = true ∧
      (furnished.after (.step false 0 :: releasing)).noted 0 =
        [.error (.released "MediaPipeline#p has already been released")] :=
  ⟨sound_furnished, fitting_furnished, by decide,
    releasesForGood_of_fitting furnished sound_furnished fitting_furnished 0 (by decide),
    ⟨⟨trivial, trivial⟩, trivial⟩, rfl, rfl, rfl⟩

end System

end MediaProxy
