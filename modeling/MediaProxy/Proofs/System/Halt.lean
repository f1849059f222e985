import MediaProxy.Proofs.System.Round

/-!
This module contains the end of schedulers: when they are dropped or told to stop, which rounds they may
still begin, and what they leave alone.
-/

namespace MediaProxy

namespace System

/-!
## After the end
-/

section
variable {start system : System} {id : TaskId} {c period : Nat} {actions earlier : List Action}
  {action : Action}

theorem roundsOf_act_of_none (hadmits : system.Admits action) (hnone : system.task? id = none)
    : (system.act action).roundsOf id = system.roundsOf id := by
  rcases action.step_or_ne id with ⟨tickFirst, rfl⟩ | hother
  . exact congrArg (roundsOf · id) (step_of_none hnone tickFirst)
  . exact roundsOf_act hadmits hother

theorem Legal.roundsOf_of_gone (h : Legal start actions) (hsuffix : earlier <:+ actions)
    (hid : id < (start.after earlier).nextTask) (hnone : (start.after earlier).task? id = none)
    : (start.after actions).task? id = none ∧
        (start.after actions).roundsOf id = (start.after earlier).roundsOf id := by
  apply suffix_induction (motive := fun actions => (start.after actions).task? id = none ∧
    (start.after actions).roundsOf id = (start.after earlier).roundsOf id) hsuffix
  . exact ⟨hnone, rfl⟩
  . intro action middle hearlier hmiddle ⟨hgone, hrounds⟩
    have hlegal := h.of_suffix hmiddle
    have hgrows := (changes_act hlegal.2).grows
    have hlt := Nat.lt_of_lt_of_le hid (hlegal.1.grows_of_suffix hearlier).nextTask_le
    exact ⟨hgrows.ended id hlt hgone, (roundsOf_act_of_none hlegal.2 hgone).trans hrounds⟩

/-!
## After the word to stop
-/

def Insists (system : System) (id : TaskId) : Action → Prop
  | .step tickFirst other => tickFirst = true ∧ other = id ∧
    ∃ task c period, system.task? id = some task ∧ task.job = .schedule c period ∧
      task.stage.tick period (system.now * 1000000) ≤ system.now * 1000000
  | _ => False

def Stopping (system : System) (id : TaskId) : Prop :=
  ∀ task, system.task? id = some task → task.stopping = true

theorem Stopping.act (h : system.Stopping id) (hscheduler : system.Scheduler id c period)
    (hadmits : system.Admits action) : (system.act action).Stopping id := by
  intro next hnext
  by_cases hstop : action = .stop id
  . subst hstop
    obtain ⟨task, _, rfl⟩ := Option.map_eq_some_iff.1 ((task?_stop system id).symm.trans hnext)
    rfl
  . obtain ⟨task, htask, hgoes, _⟩ := hscheduler.goesOn_act hadmits hstop hnext
    exact hgoes.stopping_eq.trans (h task htask)

theorem Stopping.roundsOf_act (h : system.Stopping id) (hscheduler : system.Scheduler id c period)
    (hadmits : system.Admits action) (hinsists : ¬system.Insists id action)
    : (system.act action).roundsOf id = system.roundsOf id := by
  rcases action.step_or_ne id with ⟨tickFirst, rfl⟩ | hother
  . cases htask : system.task? id with
    | none => exact roundsOf_act_of_none hadmits htask
    | some task =>
      apply hscheduler.roundsOf_step htask
      cases tickFirst with
      | false => exact .inr ⟨rfl, h task htask⟩
      | true =>
        left
        apply Nat.lt_of_not_le
        intro hdue
        exact hinsists ⟨rfl, rfl, task, c, period, htask, (hscheduler.task task htask).1, hdue⟩
  . exact System.roundsOf_act hadmits hother

theorem stopping_stop (system : System) (id : TaskId) : (system.stop id).Stopping id := by
  intro next hnext
  obtain ⟨task, _, rfl⟩ := Option.map_eq_some_iff.1 ((task?_stop system id).symm.trans hnext)
  rfl

theorem Scheduler.roundsOf_of_stop (h : start.Scheduler id c period) (hlegal : Legal start actions)
    (hsuffix : .stop id :: earlier <:+ actions)
    (hinsists : ∀ action later, .stop id :: earlier <:+ later → action :: later <:+ actions →
      ¬(start.after later).Insists id action)
    : (start.after actions).roundsOf id = (start.after earlier).roundsOf id := by
  have hstop := (hlegal.of_suffix hsuffix)
  have hall : (start.after actions).Stopping id ∧
      (start.after actions).roundsOf id = (start.after earlier).roundsOf id := by
    apply suffix_induction (motive := fun actions => (start.after actions).Stopping id ∧
      (start.after actions).roundsOf id = (start.after earlier).roundsOf id) hsuffix
    . exact ⟨stopping_stop _ id, roundsOf_act hstop.2 nofun⟩
    . intro action later hlater hmiddle ⟨hstopping, hrounds⟩
      have hnow := hlegal.of_suffix hmiddle
      have hscheduler := h.after hnow.1
      exact ⟨hstopping.act hscheduler hnow.2,
        (hstopping.roundsOf_act hscheduler hnow.2 (hinsists action later hlater hmiddle)).trans
          hrounds⟩
  exact hall.2

end

/-!
## Waiting for the end
-/

theorem after_append (start : System) (later earlier : List Action)
    : start.after (later ++ earlier) = (start.after earlier).after later := by
  induction later with
  | nil => rfl
  | cons action later ih => exact congrArg (act · action) ih

theorem Legal.append {start : System} {later earlier : List Action}
    (h : Legal (start.after earlier) later) (hearlier : Legal start earlier)
    : Legal start (later ++ earlier) := by
  induction later with
  | nil => exact hearlier
  | cons action later ih =>
    refine ⟨ih h.1, ?_⟩
    change (start.after (later ++ earlier)).Admits action
    rw [after_append]
    exact h.2

theorem legal_settle (tickFirst : Nat → Bool) (system : System)
    : ∃ actions, Legal system actions ∧ system.after actions = system.settle tickFirst := by
  obtain ⟨actions, horderly, hafter⟩ := orderly_steps _ _ system
  exact ⟨actions, horderly.legal, hafter⟩

theorem legal_await {α : Type} (tickFirst : Nat → Nat → Bool) (look : System → Option α)
    (limit count : Nat) (system : System)
    : ∃ actions, Legal system actions ∧
        await.go tickFirst (fun system => (look system, system)) limit count system =
          (look (system.after actions), system.after actions) := by
  induction count generalizing system with
  | zero =>
    refine ⟨[], trivial, ?_⟩
    unfold await.go after
    cases look system <;> rfl
  | succ count ih =>
    unfold await.go
    cases hlook : look system with
    | some found => exact ⟨[], trivial, congrArg (·, system) hlook.symm⟩
    | none =>
      dsimp only
      split
      . exact ⟨[], trivial, congrArg (·, system) hlook.symm⟩
      . obtain ⟨actions, hlegal, hsettle⟩ := legal_settle (tickFirst count) system
        rw [← hsettle]
        cases hsettled : look (system.after actions) with
        | some found => exact ⟨actions, hlegal, congrArg (·, system.after actions) hsettled.symm⟩
        | none =>
          obtain ⟨later, hlater, hafter⟩ := ih ((system.after actions).leap limit)
          refine ⟨later ++ .leap limit :: actions, ?_, ?_⟩
          . exact Legal.append hlater ⟨hlegal, trivial⟩
          . rw [after_append]
            exact hafter

theorem legal_awaitEnd (tickFirst : Nat → Nat → Bool) (system : System) (limit : Nat) (id : TaskId)
    : ∃ actions, Legal system actions ∧
        (system.awaitEnd tickFirst limit id).2 = system.after actions ∧
        ((system.awaitEnd tickFirst limit id).1 = true ↔ (system.after actions).task? id = none) := by
  obtain ⟨actions, hlegal, hawait⟩ :=
    legal_await tickFirst (fun system => if (system.task? id).isNone then some () else none) limit
      (limit - system.now) system
  refine ⟨actions, hlegal, ?_⟩
  unfold awaitEnd await
  dsimp only
  rw [hawait]
  refine ⟨rfl, ?_⟩
  dsimp only
  split <;> simp_all

/-!
## Promises
-/

/--
What the end of a scheduler promises, whatever happens in a run and in whichever order. A scheduler
that is dropped is gone at once. One that is told to stop ends after its round, and begins another
one only if its tick is due by then and comes first. Whoever waits for its end finds it gone, and a
scheduler that is gone begins no rounds. The keepalives that it started go on.
-/
structure Halts (start : System) (id : TaskId) : Prop where
  dropped : ∀ earlier, Legal start (.drop id :: earlier) →
    (start.after (.drop id :: earlier)).task? id = none
  gone : ∀ actions, Legal start actions → ∀ earlier, earlier <:+ actions →
    (start.after earlier).task? id = none →
    (start.after actions).task? id = none ∧
      (start.after actions).roundsOf id = (start.after earlier).roundsOf id
  stopped : ∀ actions, Legal start actions → ∀ earlier, .stop id :: earlier <:+ actions →
    (∀ action later, .stop id :: earlier <:+ later → action :: later <:+ actions →
      ¬(start.after later).Insists id action) →
    (start.after actions).roundsOf id = (start.after earlier).roundsOf id
  awaited : ∀ earlier, Legal start (.stop id :: earlier) → ∀ tickFirst limit,
    ∃ later, Legal start (later ++ .stop id :: earlier) ∧
      ((start.after (.stop id :: earlier)).awaitEnd tickFirst limit id).2 =
        start.after (later ++ .stop id :: earlier) ∧
      (((start.after (.stop id :: earlier)).awaitEnd tickFirst limit id).1 = true →
        (start.after (later ++ .stop id :: earlier)).task? id = none)
  unharmed : ∀ action earlier, Legal start (action :: earlier) →
    action = .stop id ∨ action = .drop id →
    ∀ other task, (start.after earlier).task? other = some task → task.job.isOperation →
    Keeps other (start.after earlier) (start.after (action :: earlier))

theorem halts_of_scheduler (start : System) (hsound : start.Sound) (id : TaskId) (c period : Nat)
    (h : start.Scheduler id c period) : start.Halts id := by
  refine ⟨fun _ _ => task?_dropTask _ id, ?_, fun _ hlegal _ => h.roundsOf_of_stop hlegal, ?_, ?_⟩
  . intro actions hlegal earlier hsuffix hnone
    exact hlegal.roundsOf_of_gone hsuffix (h.after (hlegal.of_suffix hsuffix)).id_lt hnone
  . intro earlier hlegal tickFirst limit
    obtain ⟨later, hlater, hafter, hended⟩ :=
      legal_awaitEnd tickFirst (start.after (.stop id :: earlier)) limit id
    refine ⟨later, hlater.append hlegal, ?_, ?_⟩
    . rw [after_append]
      exact hafter
    . rw [after_append]
      exact hended.1
  . intro action earlier hlegal haction other task htask hjob
    have hsoundNow := hsound.after hlegal.1
    have hother : other ≠ id := by
      rintro rfl
      rw [((h.after hlegal.1).task task htask).1] at hjob
      cases hjob
    have hlt := hsoundNow.lt_of_task? htask
    rcases haction with rfl | rfl
    . exact (changes_act hlegal.2).keeps (fun htasks => hother htasks.1) hother hlt
    . exact (changes_act hlegal.2).keeps (fun htasks => hother htasks.1) hother hlt

-- A scheduler is started, and the first keepalive will take five milliseconds.
def scheduled : System :=
  furnished.after
    [.spawn (.schedule 0 1000000) { handler := .channel false } "",
      .serve 0
        [{ request := none, target := none, reply := .ok .unit, pace := .after 5, times := some 1 }]
        []]

theorem sound_scheduled : scheduled.Sound :=
  sound_furnished.after ⟨⟨trivial, trivial⟩, trivial⟩

theorem scheduler_scheduled : scheduled.Scheduler 0 0 1000000 := by
  refine ⟨Nat.one_pos, ?_⟩
  intro task htask
  cases htask
  exact ⟨rfl, rfl⟩

-- The scheduler is told to stop during its first round. When the round is over, the next tick has
-- been due for some time. `tickFirst` says whether the tick comes before the end.
def overdue (tickFirst : Bool) : List Action :=
  [.step tickFirst 0, .step false 1, .stop 0, .leap 100, .step false 1, .step false 0, .leap 100,
    .step false 0]

theorem legal_overdue (tickFirst : Bool) : Legal scheduled (overdue tickFirst) := by
  have hbegun : Legal scheduled ((overdue tickFirst).drop 3) :=
    ⟨⟨⟨⟨⟨trivial, trivial⟩, trivial⟩, trivial⟩, trivial⟩, trivial⟩
  have hscheduler := scheduler_scheduled.after hbegun
  refine ⟨⟨⟨hbegun, ?_⟩, trivial⟩, trivial⟩
  exact fun task htask => ⟨0, 1000000, (hscheduler.task task htask).1⟩

theorem halts_scheduled
    : scheduled.Sound ∧ scheduled.Scheduler 0 0 1000000 ∧ scheduled.Halts 0 ∧
      Legal scheduled (overdue false) ∧ (scheduled.after (overdue false)).roundsOf 0 = [1] ∧
      (scheduled.after (overdue false)).task? 0 = none :=
  ⟨sound_scheduled, scheduler_scheduled,
    halts_of_scheduler scheduled sound_scheduled 0 0 1000000 scheduler_scheduled,
    legal_overdue false, by decide +kernel, by decide +kernel⟩

/--
A scheduler that was told to stop may begin another round.
-/
theorem resumed_overdue
    : ¬∀ actions earlier, Legal scheduled actions → .stop 0 :: earlier <:+ actions →
        (scheduled.after actions).roundsOf 0 = (scheduled.after earlier).roundsOf 0 := by
  intro h
  have hsame := h (overdue true) ((overdue true).drop 3) (legal_overdue true)
    ⟨[.step true 0, .step false 1], rfl⟩
  revert hsame
  decide +kernel

end System

end MediaProxy
