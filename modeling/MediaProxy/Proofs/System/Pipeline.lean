import MediaProxy.Proofs.System.Identity
import MediaProxy.Proofs.System.Level
import MediaProxy.Proofs.System.Release

/-!
This module contains what pipelines answer when they are asked for their own pipeline. The proxy of a
pipeline gives itself. Its object has its reference resolved, which gives the same proxy as long as the
reference was not forgotten. Neither of them asks a server or uses a connection.
-/

namespace MediaProxy

namespace Store

section
variable {store : Store} {p : ObjectId} {reference : Reference}

theorem ownPipeline_of_unreleased (h : (store.object p).released = false)
    : store.ownPipeline p = (.ok (.pipeline p), store.hold p) := by
  unfold ownPipeline
  dsimp only
  rw [if_neg (Bool.eq_false_iff.1 h)]

theorem resolveAs_of_lookup? {f : Nat} (hlookup : store.lookup? f reference = some p) (c : Nat)
    : store.resolveAs f c reference (store.object p).type = (.ok p, store.hold p) := by
  unfold resolveAs resolve
  rw [hlookup]
  exact if_pos rfl

theorem start_of_isPipeline (h : (store.object p).reference.isPipeline = true)
    : ∃ result after, store.start p .getMediaPipeline = (.answered result, after) := by
  unfold start
  dsimp only
  rw [if_pos h]
  split
  . exact ⟨_, _, rfl⟩
  . exact ⟨_, _, rfl⟩

theorem start_of_lookup? (hreleased : (store.object p).released = false)
    (hpipeline : (store.object p).reference.isPipeline = true)
    (htype : (store.object p).type = .pipeline)
    (hlookup : store.lookup? (store.homeOf p) (store.object p).reference = some p)
    : store.start p .getMediaPipeline = (.answered (.ok (.pipeline p)), store.hold p) := by
  have hresolve := resolveAs_of_lookup? hlookup (store.object p).context
  rw [htype] at hresolve
  unfold homeOf at hresolve
  unfold start
  dsimp only
  rw [if_neg (Bool.eq_false_iff.1 hreleased), if_pos hpipeline]
  unfold resolvePipelineFor
  dsimp only
  rw [hresolve]
  rfl

end

end Store

namespace System

/-!
## Answers
-/

structure Answers (before : System) (task : Task) (result : Except Error Value) (after : System) :
    Prop where
  ended : after.task? task.id = none
  told : after.Told task (result.map .value)
  passes : before.Passes after [] .nothing
  factories_eq : after.store.factories = before.store.factories

section
variable {system : System} {task : Task} {id : TaskId} {result : Except Error Value} {store : Store}
  {o : ObjectId} {operation : Operation}

theorem step_of_answered (htask : system.task? id = some task) (hjob : task.job = .operate o operation)
    (hstage : task.stage = .fresh) (h : system.store.start o operation = (.answered result, store))
    (tickFirst : Bool)
    : system.step tickFirst id = { system with store }.finish task (result.map .value) := by
  rw [step_fresh htask hstage]
  unfold start
  rw [hjob]
  dsimp only
  rw [h]

theorem step_of_ownPipeline (htask : system.task? id = some task) (hjob : task.job = .ownPipeline o)
    (hstage : task.stage = .fresh) (hreleased : (system.store.object o).released = false)
    (tickFirst : Bool)
    : system.step tickFirst id =
        { system with store := (system.store.hold o).letGo o }.finish task
          (.ok (.value (.pipeline o))) := by
  rw [step_fresh htask hstage]
  unfold start
  rw [hjob]
  dsimp only
  rw [Store.ownPipeline_of_unreleased hreleased]
  rfl

theorem passes_setStore (system : System) (store : Store)
    : system.Passes { system with store } [] .nothing :=
  .of_links_eq rfl rfl

theorem answers_finish (system : System) (task : Task) (result : Except Error Value)
    (hfactories : store.factories = system.store.factories)
    : system.Answers task result ({ system with store }.finish task (result.map .value)) where
  ended := { system with store }.task?_finish task _
  told := told_finish _ task _
  passes := (system.passes_setStore store).quiet_trans (passes_finish _ task _)
  factories_eq := by
    obtain ⟨held, hstore⟩ := ({ system with store }.removeTask task.id).store_resolve task.id task.name
      task.continuation (result.map .value)
    unfold finish
    rw [hstore]
    exact hfactories

end

/-!
## Runs
-/

/--
Whether a pipeline was resolved in its context, is held and not released, and its reference was not
forgotten since. It is forgotten, too, when another proxy of it is released.
-/
structure Standing (start : System) (actions : List Action) (p : ObjectId) : Prop where
  type_eq : ((start.after actions).store.object p).type = .pipeline
  isPipeline : ((start.after actions).store.object p).reference.isPipeline = true
  unreleased : ((start.after actions).store.object p).released = false
  held : p ∈ (start.after actions).store.held
  known : ∃ action earlier reference, action :: earlier <:+ actions ∧
    (start.after earlier).Resolves ((start.after actions).store.homeOf p) reference action p ∧
    ∀ next before, action :: earlier <:+ before → next :: before <:+ actions →
      ¬(start.after before).Forgets ((start.after actions).store.homeOf p) reference next

section
variable {start system before after : System} {actions earlier : List Action} {action : Action}
  {f : Nat} {reference : Reference} {p : ObjectId}

theorem Resolves.lt_length (h : system.Tended) (hadmits : system.Admits action)
    (hresolves : system.Resolves f reference action p)
    : p < (system.act action).store.objects.length := by
  obtain ⟨_, _, middle, hobtains, hp, _, _, hsheds⟩ := hresolves.obtains h hadmits
  rw [hsheds.objects_eq]
  rcases hobtains.mem_got_cases hp with hheld | ⟨_, hnew⟩
  . exact Nat.lt_of_lt_of_le (h.neat.held_lt p hheld) hobtains.length_objects
  . exact hnew

theorem Grows.homeOf_eq (h : before.Grows after) (hsound : before.Sound)
    (hp : p < before.store.objects.length) : after.store.homeOf p = before.store.homeOf p := by
  unfold Store.homeOf
  rw [(h.ages p hp).context_eq, h.context_eq _ (hsound.store.object_context_lt p)]

theorem Resolves.factory_lt (h : system.Tended) (hadmits : system.Admits action)
    (hresolves : system.Resolves f reference action p)
    (hhome : (system.act action).store.homeOf p = f) : f < system.store.factories.length := by
  obtain ⟨_, _, middle, hobtains, _, htyped, _, hsheds⟩ := hresolves.obtains h hadmits
  have hsame : (system.act action).store.homeOf p = middle.homeOf p := by
    unfold Store.homeOf Store.object Store.context
    rw [hsheds.objects_eq, hsheds.contexts_eq]
  rw [← hhome, hsame, ← hobtains.length_factories]
  exact htyped.factory_lt _

theorem Standing.lookup?_eq (h : start.Standing actions p) (hstart : start.Tended)
    (hobeys : start.Obeys Clones actions)
    : (start.after actions).store.lookup? ((start.after actions).store.homeOf p)
        ((start.after actions).store.object p).reference = some p := by
  obtain ⟨action, earlier, reference, hsuffix, hresolves, hforgets⟩ := h.known
  have hthen := hobeys.of_suffix hsuffix
  have htended := hstart.after hthen.tail
  have hgrows := hobeys.legal.grows_of_suffix hsuffix
  have hlt := hresolves.lt_length htended hthen.head.1
  have hhome := hgrows.homeOf_eq (hstart.after hthen).sound hlt
  have hreference : ((start.after actions).store.object p).reference = reference :=
    (hgrows.ages p hlt).reference_eq.trans (hresolves.reference_eq htended hthen.head.1)
  have hf := hresolves.factory_lt htended hthen.head.1 hhome.symm
  have hheld : ∀ later, action :: earlier <:+ later → later <:+ actions →
      p ∈ (start.after later).store.held := by
    intro later hlater hmiddle
    apply Classical.byContradiction
    intro hnot
    have hltLater := (hobeys.legal.of_suffix hmiddle).grows_of_suffix hlater
    exact hstart.gone hobeys hmiddle (Nat.lt_of_lt_of_le hlt hltLater.length_objects_le) hnot h.held
  rw [hreference]
  exact Store.lookup?_eq_some_iff.2
    ⟨hstart.kept_of_lt hf hobeys hsuffix hresolves hheld hforgets, h.held⟩

end

/--
What pipelines promise that are asked for their own pipeline, whether the operation blocks or not. The proxy
of a pipeline gives itself, whatever became of its reference. For its object nobody is ever asked and no
connection is used, and as long as the reference was not forgotten since the proxy was resolved, the object
gives the same proxy as the proxy itself. No factory keeps track of anything else then.
-/
structure OwnsItself (start : System) : Prop where
  proxy : ∀ actions p, ((start.after actions).store.object p).released = false →
    (start.after actions).store.ownPipeline p =
      (.ok (.pipeline p), (start.after actions).store.hold p)
  proxyTask : ∀ actions p, ((start.after actions).store.object p).released = false →
    ∀ tickFirst id task, (start.after actions).task? id = some task →
    task.job = .ownPipeline p → task.stage = .fresh →
    (start.after actions).Answers task (.ok (.pipeline p))
      (start.after (.step tickFirst id :: actions))
  unasked : ∀ actions p, ((start.after actions).store.object p).reference.isPipeline = true →
    (start.after actions).Passes ((start.after actions).operateBlocking p .getMediaPipeline).2 []
      .nothing
  unaskedTask : ∀ actions p, ((start.after actions).store.object p).reference.isPipeline = true →
    ∀ tickFirst id task, (start.after actions).task? id = some task →
    task.job = .operate p .getMediaPipeline → task.stage = .fresh →
    (start.after (.step tickFirst id :: actions)).task? id = none ∧
      (start.after actions).Passes (start.after (.step tickFirst id :: actions)) [] .nothing
  object : ∀ actions, start.Obeys Clones actions → ∀ p, start.Standing actions p →
    (start.after actions).operateBlocking p .getMediaPipeline =
      (.ok (.pipeline p),
        { start.after actions with store := (start.after actions).store.hold p })
  objectTask : ∀ actions, start.Obeys Clones actions → ∀ p, start.Standing actions p →
    ∀ tickFirst id task, (start.after actions).task? id = some task →
    task.job = .operate p .getMediaPipeline → task.stage = .fresh →
    (start.after actions).Answers task (.ok (.pipeline p))
      (start.after (.step tickFirst id :: actions))

theorem ownsItself_of_tended (start : System) (h : start.Tended) : start.OwnsItself := by
  constructor
  . intro actions p hreleased
    exact Store.ownPipeline_of_unreleased hreleased
  . intro actions p hreleased tickFirst id task htask hjob hstage
    have hstep := step_of_ownPipeline htask hjob hstage hreleased tickFirst
    change (start.after actions).Answers task _ ((start.after actions).step tickFirst id)
    rw [hstep]
    exact (start.after actions).answers_finish task (.ok (.pipeline p)) rfl
  . intro actions p hpipeline
    obtain ⟨result, after, hanswered⟩ := Store.start_of_isPipeline hpipeline
    rw [operateBlocking_of_answered hanswered]
    exact passes_setStore _ after
  . intro actions p hpipeline tickFirst id task htask hjob hstage
    obtain ⟨result, after, hanswered⟩ := Store.start_of_isPipeline hpipeline
    have hstep := step_of_answered htask hjob hstage hanswered tickFirst
    obtain rfl := task?_id htask
    change ((start.after actions).step tickFirst task.id).task? task.id = none ∧
      (start.after actions).Passes ((start.after actions).step tickFirst task.id) [] .nothing
    rw [hstep]
    exact ⟨{ start.after actions with store := after }.task?_finish task _,
      (passes_setStore _ after).quiet_trans (passes_finish _ task _)⟩
  . intro actions hobeys p hstanding
    apply operateBlocking_of_answered
    exact Store.start_of_lookup? hstanding.unreleased hstanding.isPipeline hstanding.type_eq
      (hstanding.lookup?_eq h hobeys)
  . intro actions hobeys p hstanding tickFirst id task htask hjob hstage
    have hanswered := Store.start_of_lookup? hstanding.unreleased hstanding.isPipeline
      hstanding.type_eq (hstanding.lookup?_eq h hobeys)
    have hstep := step_of_answered htask hjob hstage hanswered tickFirst
    change (start.after actions).Answers task _ ((start.after actions).step tickFirst id)
    rw [hstep]
    exact (start.after actions).answers_finish task (.ok (.pipeline p)) rfl

-- A pipeline is resolved in the context that has made its proxy already.
def recurring : Action :=
  .share (.resolve 0 0 (.pipeline "p"))

theorem standing_recurring : furnished.Standing [recurring] 0 := by
  refine ⟨rfl, rfl, rfl, List.mem_cons_self, recurring, [], .pipeline "p", List.suffix_rfl, .resolved rfl, ?_⟩
  intro next before hbefore hnext
  have hlength := Nat.le_trans (Nat.succ_le_succ hbefore.length_le) hnext.length_le
  exact absurd hlength (by decide)

theorem ownsItself_furnished
    : furnished.Tended ∧ furnished.OwnsItself ∧ furnished.Standing [recurring] 0 ∧
      ((furnished.after [recurring]).operateBlocking 0 .getMediaPipeline).1 = .ok (.pipeline 0) :=
  ⟨tended_furnished, ownsItself_of_tended furnished tended_furnished, standing_recurring, rfl⟩

/--
When its reference was forgotten, another proxy is made for a pipeline that is asked through its object.
-/
theorem estranged_furnished
    : ¬∀ actions, furnished.Obeys Clones actions → ∀ p ∈ (furnished.after actions).store.held,
        ((furnished.after actions).store.object p).type = .pipeline →
        ((furnished.after actions).store.object p).reference.isPipeline = true →
        ((furnished.after actions).store.object p).released = false →
        (∃ action earlier reference, action :: earlier <:+ actions ∧
          (furnished.after earlier).Resolves ((furnished.after actions).store.homeOf p) reference action p) →
        (furnished.after actions).store.ownPipeline p =
            (.ok (.pipeline p), (furnished.after actions).store.hold p) ∧
          ((furnished.after actions).operateBlocking p .getMediaPipeline).1 = .ok (.pipeline p) := by
  intro h
  have hobeys : furnished.Obeys Clones [.share (.forget 0 (.pipeline "p")), recurring] :=
    .cons (.cons (.nil furnished Clones) Nat.one_pos trivial) trivial trivial
  have hsame := (h _ hobeys 0 List.mem_cons_self rfl rfl rfl
    ⟨recurring, [], .pipeline "p", List.suffix_cons _ _, .resolved rfl⟩).2
  have hother : ((furnished.after [.share (.forget 0 (.pipeline "p")), recurring]).operateBlocking 0
      .getMediaPipeline).1 = .ok (.pipeline 1) := rfl
  cases hother.symm.trans hsame

end System

end MediaProxy
