import MediaProxy.Proofs.System.Fetch
import MediaProxy.Proofs.System.Level
import MediaProxy.Proofs.System.Post

/-!
This module contains operations that are carried out alone. If nobody else takes a step, an operation
that does not block comes to what it would have come to had it blocked.
-/

namespace MediaProxy

def Handler.drops (result : Except Error Outcome) : Handler → List ObjectId
  | .channel false => heldBy result
  | _ => []

theorem Store.ownPipeline_hold (store : Store) (o : ObjectId)
    : ((store.hold o).ownPipeline o).1 = (store.ownPipeline o).1 ∧
        ((store.hold o).ownPipeline o).2.letGo o = (store.ownPipeline o).2 := by
  have hobject : (store.hold o).object o = store.object o := rfl
  unfold ownPipeline
  rw [hobject]
  dsimp only
  split
  . simp [hold, letGo]
  . simp [hold, letGo]

def Stage.remaining : Stage → Nat
  | .fresh => 4
  | .waiting _ => 3
  | .opening .. => 2
  | .calling .. => 1
  | _ => 0

namespace System

/-!
## Being alone
-/

def Action.isAlone (id : TaskId) : Action → Bool
  | .step _ other => other = id
  | .line _ => true
  | .leap _ => true
  | _ => false

/--
Whether nobody but one task takes steps. Tasks may stand in line meanwhile, and the time moves on.
-/
def Alone (id : TaskId) (actions : List Action) : Prop :=
  ∀ action ∈ actions, action.isAlone id = true

def Stalls (system : System) (id : TaskId) : Prop :=
  ∃ task, system.task? id = some task ∧
    ((∃ error, task.stage = .opening error none) ∨ ∃ reply, task.stage = .calling reply none)

section
variable {system start : System} {id : TaskId} {handler : Handler} {action : Action}
  {actions : List Action}

theorem alone_nil (id : TaskId) : Alone id [] :=
  fun _ hmem => absurd hmem List.not_mem_nil

theorem Alone.legal (h : Alone id actions) : Legal start actions := by
  induction actions with
  | nil => trivial
  | cons action actions ih =>
    refine ⟨ih fun other hother => h other (List.mem_cons_of_mem _ hother), ?_⟩
    have halone := h action List.mem_cons_self
    cases action with
    | step => trivial
    | line => trivial
    | leap => trivial
    | _ => cases halone

theorem calm_resolve (system : System) (id : TaskId) (name : String) (handler : Handler)
    (result : Except Error Outcome)
    : (system.letGo (handler.drops result)).Calm (system.resolve id name { handler } result) := by
  cases handler with
  | callback => exact ⟨rfl, rfl, rfl⟩
  | parts => cases result <;> exact ⟨rfl, rfl, rfl⟩
  | channel kept =>
    cases kept with
    | false => exact ⟨rfl, rfl, rfl⟩
    | true =>
      obtain ⟨ready, hresolve⟩ := system.resolve_kept id name result
      rw [hresolve]
      exact ⟨rfl, rfl, rfl⟩

end

/-!
## Both forms
-/

structure Concurs (start : System) (c : Nat) (target : Except Error Value × System) (id : TaskId)
    (handler : Handler) (system : System) (result : Except Error Value) : Prop where
  alike : Alike target.1 result
  heard : system.Heard id handler (result.map .value)
  level : start.Level c (target.2.letGo (handler.drops (result.map .value))) system

structure Parallels (start : System) (c : Nat) (job : Job) (target : Except Error Value × System)
    (id : TaskId) (pending : System → Stage → Prop) : Prop where
  calm : ∀ before after stage, pending before stage → before.Calm after → pending after stage
  work : ∀ system task, system.task? id = some task → task.job = job →
    pending system task.stage → start.Reaches c target pending id (system.work task)

inductive Carried (start : System) (c : Nat) (target : Except Error Value × System)
    (pending : System → Stage → Prop) (id : TaskId) (handler : Handler) (system : System) :
    Prop where
  | underway (task : Task) (hexpects : system.Expects id handler task)
    (h : pending system task.stage) :
    start.Carried c target pending id handler system
  | ended (result : Except Error Value) (h : start.Concurs c target id handler system result) :
    start.Carried c target pending id handler system

section
variable {start system after : System} {c : Nat} {job : Job} {target : Except Error Value × System}
  {id : TaskId} {handler : Handler} {pending : System → Stage → Prop} {action : Action}
  {actions : List Action}

theorem Level.letGo {direct : System} (h : start.Level c direct system) (proxies : List ObjectId)
    : start.Level c (direct.letGo proxies) (system.letGo proxies) := by
  unfold System.letGo
  rw [h.store_eq]
  apply h.withStore

theorem Concurs.unmoved {result : Except Error Value}
    (h : start.Concurs c target id handler system result) (hcalm : system.Calm after)
    (hunmoved : Unmoved id system after) : start.Concurs c target id handler after result :=
  ⟨h.alike, h.heard.unmoved hunmoved, h.level.calm (.refl _) hcalm⟩

theorem Carried.unmoved (h : start.Carried c target pending id handler system)
    (hparallels : start.Parallels c job target id pending) (hcalm : system.Calm after)
    (hunmoved : Unmoved id system after) : start.Carried c target pending id handler after := by
  cases h with
  | underway task hexpects h =>
    exact .underway task (hexpects.unmoved hunmoved) (hparallels.calm _ _ _ h hcalm)
  | ended result h => exact .ended result (h.unmoved hcalm hunmoved)

theorem Carried.step (h : start.Carried c target pending id handler system)
    (hparallels : start.Parallels c job target id pending) (henlisted : system.Enlisted id job)
    (hjob : job.isOperation) (tickFirst : Bool)
    : start.Carried c target pending id handler (system.step tickFirst id) := by
  cases h with
  | ended result h =>
    have hstep : system.step tickFirst id = system := by
      unfold System.step
      rw [h.heard.task?_eq]
    rw [hstep]
    exact .ended result h
  | underway task hexpects h =>
    have htask := hexpects.task?_eq
    have hreaches := hparallels.work system task htask (henlisted.task task htask).1 h
    have hstep := henlisted.step_eq hjob htask tickFirst
    have hexpects' := hexpects.step henlisted hjob tickFirst
    rw [hstep] at hexpects' ⊢
    generalize system.work task = progress at hreaches hexpects'
    cases hreaches with
    | waits h =>
      rcases hexpects' with ⟨next, hnext⟩ | ⟨_, hnone, _⟩
      . exact .underway next hnext (h next hnext.task?_eq)
      . cases hnone
    | @ended result middle halike hlevel =>
      rcases hexpects' with ⟨next, hnext⟩ | ⟨_, hsome, hheard⟩
      . have hid := task?_id htask
        subst hid
        cases (middle.task?_finish task _).symm.trans hnext.task?_eq
      . cases hsome
        refine .ended result ⟨halike, hheard, ?_⟩
        have hresolve := (middle.removeTask task.id).calm_resolve task.id task.name handler
          (result.map .value)
        rw [← hexpects.continuation_eq] at hresolve
        have hremove (proxies : List ObjectId)
            : (middle.letGo proxies).Calm ((middle.removeTask task.id).letGo proxies) :=
          ⟨rfl, rfl, rfl⟩
        exact (hlevel.letGo _).calm (.refl _) ((hremove _).trans hresolve)

theorem Carried.act (h : start.Carried c target pending id handler system)
    (hparallels : start.Parallels c job target id pending) (henlisted : system.Enlisted id job)
    (hjob : job.isOperation) (halone : action.isAlone id = true)
    : start.Carried c target pending id handler (system.act action) := by
  cases action with
  | step tickFirst other =>
    obtain rfl : other = id := by simpa [Action.isAlone] using halone
    exact h.step hparallels henlisted hjob tickFirst
  | line ready => exact h.unmoved hparallels ⟨rfl, rfl, rfl⟩ ⟨rfl, rfl, rfl⟩
  | leap limit =>
    obtain ⟨now, ready, _, hleap⟩ := system.leap_eq limit
    unfold System.act
    dsimp only
    rw [hleap]
    exact h.unmoved hparallels ⟨rfl, rfl, rfl⟩ ⟨rfl, rfl, rfl⟩
  | _ => cases halone

theorem Carried.of_alone {first : System} (h : start.Carried c target pending id handler first)
    (hparallels : start.Parallels c job target id pending) (henlisted : first.Enlisted id job)
    (hjob : job.isOperation) (halone : Alone id actions)
    : start.Carried c target pending id handler (first.after actions) := by
  induction actions with
  | nil => exact h
  | cons action actions ih =>
    have hrest : Alone id actions := fun other hother => halone other (List.mem_cons_of_mem _ hother)
    exact (ih hrest).act hparallels (henlisted.after hrest.legal) hjob
      (halone action List.mem_cons_self)

end

/-!
## Getting on
-/

inductive Advances (task : Task) (bound : Nat) : Progress → Prop where
  | parked (system : System) (stage : Stage) (h : stage.remaining < bound) :
    Advances task bound (none, system.park task stage)
  | ended (result : Except Error Value) (system : System) :
    Advances task bound (some result, system)

theorem Advances.mono {task : Task} {bound larger : Nat} {progress : Progress}
    (h : Advances task bound progress) (hle : bound ≤ larger) : Advances task larger progress := by
  cases h with
  | parked system stage hstage => exact .parked system stage (Nat.lt_of_lt_of_le hstage hle)
  | ended result system => exact .ended result system

section
variable (system : System) (task : Task) (o : ObjectId) (operation : Operation)

theorem advances_calling : Advances task 2 (system.workCalling task o operation) := by
  unfold workCalling
  dsimp only
  split
  . apply Advances.ended
  . apply Advances.parked
    exact Nat.one_lt_two

theorem advances_opened (error : Option RpcError)
    : Advances task 2 (system.workOpened task o operation error) := by
  cases error with
  | none => apply advances_calling
  | some error => apply Advances.ended

theorem advances_opening : Advances task 3 (system.workOpening task o operation) := by
  unfold workOpening
  dsimp only
  split
  . exact (advances_opened _ _ _ _ _).mono (by decide)
  . apply Advances.parked
    exact Nat.lt_succ_self 2

theorem advances_granted (deadline : Nat) (grant : Grant)
    : Advances task (if deadline ≤ system.now then 3 else 4)
        (system.workGranted task o operation deadline grant) := by
  cases grant with
  | lease =>
    apply (advances_calling _ _ _ _).mono
    split <;> decide
  | opening =>
    apply (advances_opening _ _ _ _).mono
    split <;> decide
  | full =>
    unfold workGranted
    dsimp only
    split
    . apply Advances.ended
    . apply Advances.parked
      exact Nat.lt_succ_self 3

theorem advances_asking (deadline : Nat) (ask : Slots → Grant × Slots)
    : Advances task (if deadline ≤ system.now then 3 else 4)
        (system.workAsking task o operation deadline ask) := by
  unfold workAsking
  exact advances_granted (system.setSlots _ _ _) task o operation deadline _

theorem advances_on
    (h : task.stage = .fresh ∨ task.stage.isPassing ∧ system.reached task.stage.due? = true)
    : Advances task task.stage.remaining (system.workOn task o operation) := by
  unfold workOn
  dsimp only
  cases hstage : task.stage with
  | fresh =>
    dsimp only
    split
    . apply Advances.ended
    . apply (advances_asking _ _ _ _ _ _).mono
      split <;> decide
  | waiting deadline =>
    rw [hstage] at h
    have hdue : deadline ≤ system.now := by simpa [reached, Stage.due?, Stage.isPassing] using h
    dsimp only
    rw [if_pos hdue]
    split
    . apply (advances_asking _ _ _ _ _ _).mono
      rw [if_pos hdue]
      exact Nat.le_refl 3
    . apply Advances.ended
  | opening error due =>
    rw [hstage] at h
    have hdue : system.reached due = true := by simpa [Stage.due?, Stage.isPassing] using h
    dsimp only
    rw [if_pos hdue]
    apply advances_opened
  | calling reply due =>
    rw [hstage] at h
    have hdue : system.reached due = true := by simpa [Stage.due?, Stage.isPassing] using h
    dsimp only
    rw [if_pos hdue]
    apply Advances.ended
  | _ =>
    rw [hstage] at h
    simp [Stage.isPassing] at h

theorem remaining_lt_of_advances {bound : Nat} {progress : Progress} {next : Task}
    (h : Advances task bound progress) (hnext : (progress.told task).task? task.id = some next)
    : next.stage.remaining < bound := by
  cases h with
  | parked system stage hstage =>
    rw [stage_of_park hnext]
    exact hstage
  | ended result system => cases (system.task?_finish task _).symm.trans hnext

end

section
variable {start : System} {id : TaskId} {o : ObjectId} {operation : Operation} {task : Task}
  {actions : List Action}

theorem after_leaps (start : System) (id : TaskId) (actions : List Action) (count : Nat)
    : (start.after (List.replicate count (.leap 0) ++ actions)).task? id =
        (start.after actions).task? id ∧
      count ≤ (start.after (List.replicate count (.leap 0) ++ actions)).now := by
  induction count with
  | zero => exact ⟨rfl, Nat.zero_le _⟩
  | succ count ih =>
    obtain ⟨htask, hnow⟩ := ih
    rw [List.replicate_succ, List.cons_append]
    generalize List.replicate count (.leap 0) ++ actions = leaps at htask hnow
    obtain ⟨now, ready, hlt, hleap⟩ := (start.after leaps).leap_eq 0
    have hafter : start.after (.leap 0 :: leaps) = { start.after leaps with now, ready } := hleap
    rw [hafter]
    exact ⟨htask, Nat.lt_of_le_of_lt hnow hlt⟩

theorem alone_leaps (id : TaskId) (count : Nat) (halone : Alone id actions)
    : Alone id (List.replicate count (.leap 0) ++ actions) := by
  intro action hmem
  rcases List.mem_append.1 hmem with hleap | hearlier
  . rw [List.eq_of_mem_replicate hleap]
    rfl
  . exact halone action hearlier

theorem alone_step (tickFirst : Bool) (halone : Alone id actions)
    : Alone id (.step tickFirst id :: actions) := by
  intro action hmem
  rcases List.mem_cons.1 hmem with rfl | hearlier
  . exact decide_eq_true rfl
  . exact halone action hearlier

theorem Enlisted.advances {system : System} (h : system.Enlisted id (.operate o operation))
    (htask : system.task? id = some task)
    (hdue : task.stage = .fresh ∨ task.stage.isPassing ∧ system.reached task.stage.due? = true)
    {tickFirst : Bool} {next : Task} (hnext : (system.step tickFirst id).task? id = some next)
    : next.stage.remaining < task.stage.remaining := by
  have hstep := h.step_eq rfl htask tickFirst
  have hjob := (h.task task htask).1
  have hid := task?_id htask
  subst hid
  rw [hstep] at hnext
  unfold work at hnext
  rw [hjob] at hnext
  dsimp only at hnext
  exact remaining_lt_of_advances task (system.advances_on task o operation hdue) hnext

theorem Enlisted.ends (h : start.Enlisted id (.operate o operation))
    : ∃ actions, Alone id actions ∧
        ((start.after actions).task? id = none ∨ (start.after actions).Stalls id) := by
  suffices hbound : ∀ bound actions, Alone id actions →
      (∀ task, (start.after actions).task? id = some task → task.stage.remaining < bound) →
      ∃ later, Alone id later ∧
        ((start.after later).task? id = none ∨ (start.after later).Stalls id) by
    apply hbound 5 [] (alone_nil id)
    intro task _
    cases task.stage <;> simp [Stage.remaining]
  intro bound
  induction bound with
  | zero =>
    intro actions halone hremaining
    refine ⟨actions, halone, .inl ?_⟩
    cases htask : (start.after actions).task? id with
    | none => rfl
    | some task => exact absurd (hremaining task htask) (Nat.not_lt_zero _)
  | succ bound ih =>
    intro actions halone hremaining
    cases htask : (start.after actions).task? id with
    | none => exact ⟨actions, halone, .inl htask⟩
    | some task =>
      have hlt := hremaining task htask
      -- A step that is taken when it is time is one of those that remain.
      have hgoes (earlier : List Action) (hearlier : Alone id earlier)
          (hsame : (start.after earlier).task? id = some task)
          (hdue : task.stage = .fresh ∨
            task.stage.isPassing ∧ (start.after earlier).reached task.stage.due? = true)
          : ∃ later, Alone id later ∧
              ((start.after later).task? id = none ∨ (start.after later).Stalls id) := by
        apply ih _ (alone_step false hearlier)
        intro next hnext
        have hless := (h.after hearlier.legal).advances hsame hdue hnext
        omega
      obtain ⟨hjob, hfits⟩ := (h.after halone.legal).task task htask
      rcases hfits.fresh_or_passing (by rw [hjob]; rfl) with hfresh | hpassing
      . exact hgoes actions halone htask (.inl hfresh)
      . cases hdue : task.stage.due? with
        | some due =>
          obtain ⟨hsame, hnow⟩ := start.after_leaps id actions due
          apply hgoes _ (alone_leaps id due halone) (hsame.trans htask)
          rw [hdue]
          exact .inr ⟨hpassing, by simpa [reached] using hnow⟩
        | none =>
          exact ⟨actions, halone, .inr ⟨task, htask, Stage.endless_of_passing hpassing hdue⟩⟩

end

/-!
## Agreement
-/

def ownBlocking (system : System) (o : ObjectId) : Except Error Value × System :=
  let (result, store) := system.store.ownPipeline o
  (result, { system with store })

section
variable {system start : System} {c : Nat} {o : ObjectId} {job : Job} {continuation : Continuation}
  {id : TaskId}

theorem parallels_operate (h : start.Paired c o) (operation : Operation) (id : TaskId)
    : start.Parallels c (.operate o operation) (start.operateBlocking o operation) id
        (start.Pending c o operation id) := by
  constructor
  . intro before after stage hpending hcalm
    exact hpending.calm hcalm
  . intro system task htask hjob hpending
    have hid := task?_id htask
    subst hid
    unfold work
    rw [hjob]
    exact abreast_on h htask hpending

theorem parallels_own (start : System) (c : Nat) (o : ObjectId) (id : TaskId)
    : start.Parallels c (.ownPipeline o) (start.ownBlocking o) id
        (fun system _ => { start with store := start.store.hold o }.Calm system) := by
  constructor
  . intro before after stage hbefore hcalm
    exact hbefore.trans hcalm
  . intro system task htask hjob hcalm
    obtain ⟨hresult, hstore⟩ := start.store.ownPipeline_hold o
    unfold work ownBlocking
    rw [hjob]
    dsimp only
    rw [hcalm.store_eq]
    dsimp only
    rw [hresult, hstore]
    apply Reaches.ended
    . apply Alike.same
    . have hlevel : start.Level c start { system with store := start.store } :=
        (Level.self start c).calm (.refl _) ⟨rfl, hcalm.links_eq, hcalm.calls_eq⟩
      exact hlevel.withStore _

theorem Issues.expects (h : system.Issues job continuation id start) (hsound : system.Sound)
    (hnumbered : system.Numbered) (hrunning : system.running)
    : ∃ task, start.Expects id continuation.handler task ∧ task.stage = .fresh ∧
        system.Calm start := by
  obtain ⟨_, hfresh, name, hspawn⟩ := h
  obtain ⟨handler, resolved⟩ := continuation
  obtain rfl : resolved = false := hfresh
  obtain ⟨hnoted, hletters, _⟩ := hnumbered system.nextTask (Nat.le_refl _)
  have htask := task?_spawn hsound job { handler } name
  rw [hspawn, if_pos hrunning] at htask
  unfold spawn at hspawn
  dsimp only at hspawn
  rw [if_pos hrunning] at hspawn
  obtain ⟨rfl, rfl⟩ := Prod.mk.inj hspawn
  exact ⟨_, ⟨htask, rfl, rfl, hnoted, hletters⟩, rfl, rfl, rfl, rfl⟩

end

/--
What the forms of all operations on an object agree on, if nobody else takes a step: one that does not
block ends, unless it waits for an opening or a call that does not, and whenever it has ended, it has
come to what it would have come to had it blocked.
-/
structure FormsAgree (system : System) (o : ObjectId) : Prop where
  ends : ∀ operation continuation id start,
    system.Issues (.operate o operation) continuation id start →
    ∃ actions, Alone id actions ∧
      ((start.after actions).task? id = none ∨ (start.after actions).Stalls id)
  concurs : ∀ operation continuation id start,
    system.Issues (.operate o operation) continuation id start →
    ∀ actions, Alone id actions → (start.after actions).task? id = none →
    ∃ result, system.Concurs (system.store.object o).context (system.operateBlocking o operation) id
      continuation.handler (start.after actions) result
  own_ends : ∀ continuation id start,
    { system with store := system.store.hold o }.Issues (.ownPipeline o) continuation id start →
    ∃ actions, Alone id actions ∧ (start.after actions).task? id = none
  own_concurs : ∀ continuation id start,
    { system with store := system.store.hold o }.Issues (.ownPipeline o) continuation id start →
    ∀ actions, Alone id actions → (start.after actions).task? id = none →
    ∃ result, system.Concurs (system.store.object o).context (system.ownBlocking o) id
      continuation.handler (start.after actions) result

section
variable {origin system start : System} {c : Nat} {o : ObjectId} {job : Job}
  {target : Except Error Value × System} {continuation : Continuation} {id : TaskId}
  {pending : System → Stage → Prop} {actions : List Action}

theorem Issues.concurs (h : system.Issues job continuation id start) (hsound : system.Sound)
    (hnumbered : system.Numbered) (hrunning : system.running)
    (hparallels : origin.Parallels c job target id pending)
    (hpending : ∀ later, system.Calm later → pending later .fresh) (halone : Alone id actions)
    (hnone : (start.after actions).task? id = none)
    : ∃ result, origin.Concurs c target id continuation.handler (start.after actions) result := by
  obtain ⟨task, hexpects, hfresh, hcalm⟩ := h.expects hsound hnumbered hrunning
  obtain ⟨hjob, _, name, hspawn⟩ := h
  have hstart : origin.Carried c target pending id continuation.handler start := by
    apply Carried.underway task hexpects
    rw [hfresh]
    exact hpending start hcalm
  cases hstart.of_alone hparallels (hsound.enlisted hspawn) hjob halone with
  | underway task hexpects => cases hexpects.task?_eq.symm.trans hnone
  | ended result h => exact ⟨result, h⟩

theorem Issues.own_ends (h : system.Issues (.ownPipeline o) continuation id start)
    (hsound : system.Sound) (hnumbered : system.Numbered) (hrunning : system.running)
    : (start.step false id).task? id = none := by
  obtain ⟨task, hexpects, _, _⟩ := h.expects hsound hnumbered hrunning
  obtain ⟨_, _, name, hspawn⟩ := h
  have htask := hexpects.task?_eq
  have henlisted := hsound.enlisted hspawn
  have hid := task?_id htask
  subst hid
  rw [henlisted.step_eq rfl htask false]
  unfold work
  rw [(henlisted.task task htask).1]
  apply task?_finish

end

theorem formsAgree_of_sound (system : System) (h : system.Sound) (hnumbered : system.Numbered)
    (hrunning : system.running) (o : ObjectId) (ho : o < system.store.objects.length)
    (hmirrors : (system.slots (system.store.object o).context .blocking).Mirrors
      (system.slots (system.store.object o).context .nonBlocking))
    : system.FormsAgree o := by
  have hpaired : system.Paired (system.store.object o).context o :=
    ⟨rfl, (h.knows ho .getParent).link_lt, hmirrors⟩
  have hheld : { system with store := system.store.hold o }.Sound :=
    h.grow (system.store.extends_hold o).grows
  have hheldNumbered : { system with store := system.store.hold o }.Numbered :=
    fun id hid => ⟨(hnumbered id hid).noted_eq, (hnumbered id hid).letters_eq,
      (hnumbered id hid).isPrivate⟩
  constructor
  . intro operation continuation id start hissues
    obtain ⟨_, _, name, hspawn⟩ := hissues
    exact (h.enlisted hspawn).ends
  . intro operation continuation id start hissues actions halone hnone
    exact hissues.concurs h hnumbered hrunning (parallels_operate hpaired operation id)
      (fun _ hcalm => .fresh hcalm) halone hnone
  . intro continuation id start hissues
    refine ⟨[.step false id], ?_, hissues.own_ends hheld hheldNumbered hrunning⟩
    exact alone_step false (alone_nil id)
  . intro continuation id start hissues actions halone hnone
    exact hissues.concurs hheld hheldNumbered hrunning (system.parallels_own _ o id)
      (fun _ hcalm => hcalm) halone hnone

theorem formsAgree_furnished
    : let start := (furnished.spawn (.operate 0 .getParent) { handler := .callback } "parent").2
      furnished.Sound ∧ furnished.Numbered ∧ furnished.running ∧
        0 < furnished.store.objects.length ∧
        (furnished.slots 0 .blocking).Mirrors (furnished.slots 0 .nonBlocking) ∧
        ∃ result, furnished.Concurs 0 (furnished.operateBlocking 0 .getParent) 0 .callback
          (start.after [.step false 0]) result := by
  intro start
  have hmirrors : (furnished.slots 0 .blocking).Mirrors (furnished.slots 0 .nonBlocking) :=
    ⟨rfl, rfl, rfl⟩
  have hagree := formsAgree_of_sound furnished sound_furnished numbered_furnished rfl 0
    Nat.one_pos hmirrors
  refine ⟨sound_furnished, numbered_furnished, rfl, Nat.one_pos, hmirrors, ?_⟩
  exact hagree.concurs .getParent { handler := .callback } 0 start ⟨rfl, rfl, "parent", rfl⟩
    [.step false 0] (alone_step false (alone_nil 0)) rfl

end System

end MediaProxy
