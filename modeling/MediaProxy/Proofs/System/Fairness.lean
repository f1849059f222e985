import MediaProxy.Proofs.System.Forms
import MediaProxy.Proofs.System.Gathering
import MediaProxy.Proofs.System.Punctual

/-!
This module contains runs without an end in which everybody gets his turn: in such a run, operations end
unless their openings or calls do not, and so do rounds of keepalives.
-/

namespace MediaProxy

def Stage.Follows (before after : Stage) : Prop :=
  after = before ∨ after.remaining < before.remaining

theorem Stage.Follows.trans {first second third : Stage} (h : first.Follows second)
    (h' : second.Follows third) : first.Follows third := by
  rcases h with rfl | hlt
  . exact h'
  . rcases h' with rfl | hlt'
    . exact .inr hlt
    . exact .inr (Nat.lt_trans hlt' hlt)

namespace System

def past (run : Nat → Action) : Nat → List Action
  | 0 => []
  | n + 1 => run n :: past run n

def Engaged (system : System) (id : TaskId) : Prop :=
  id ∈ system.ready ∨ ∃ task, system.task? id = some task ∧ task.foreground = true

/--
A run without an end in which tasks take turns. Who is to take a step takes one sooner or later, and time goes
on and on.
-/
structure Fair (start : System) (run : Nat → Action) : Prop where
  orderly : ∀ n, ∃ m, n ≤ m ∧ start.Orderly (past run m)
  turns : ∀ n id, (start.after (past run n)).Engaged id →
    ∃ m tickFirst, n ≤ m ∧ run m = .step tickFirst id
  time : ∀ time, ∃ n, time ≤ (start.after (past run n)).now

section
variable {start : System} {run : Nat → Action} {m n : Nat}

theorem past_suffix (h : m ≤ n) : past run m <:+ past run n := by
  induction h with
  | refl => exact List.suffix_rfl
  | step _ ih => exact ih.trans (List.suffix_cons _ _)

theorem Fair.legal (h : start.Fair run) (n : Nat) : Legal start (past run n) := by
  obtain ⟨m, hle, horderly⟩ := h.orderly n
  exact horderly.legal.of_suffix (past_suffix hle)

end

/-!
## Time
-/

section
variable {system start : System} {action : Action} {run : Nat → Action} {m n : Nat}

theorem Fair.now_le (h : start.Fair run) (hle : m ≤ n)
    : (start.after (past run m)).now ≤ (start.after (past run n)).now := by
  induction hle with
  | refl => apply Nat.le_refl
  | @step n _ ih => exact Nat.le_trans ih (now_le_act (h.legal (n + 1)).2)

theorem Fair.exists_leap (h : start.Fair run) (hle : m ≤ n)
    (hlt : (start.after (past run m)).now < (start.after (past run n)).now)
    : ∃ k limit, m ≤ k ∧ run k = .leap limit := by
  induction hle with
  | refl => exact absurd hlt (Nat.lt_irrefl _)
  | @step n hle ih =>
    by_cases hleap : ∃ limit, run n = .leap limit
    . obtain ⟨limit, hleap⟩ := hleap
      exact ⟨n, limit, hle, hleap⟩
    . apply ih
      have hstill := now_act (h.legal (n + 1)).2 fun limit heq => hleap ⟨limit, heq⟩
      exact Nat.lt_of_lt_of_eq hlt hstill

theorem Fair.leaps (h : start.Fair run) (n : Nat) : ∃ m limit, n ≤ m ∧ run m = .leap limit := by
  obtain ⟨m, hm⟩ := h.time ((start.after (past run n)).now + 1)
  have hle : n ≤ m := by
    apply Nat.le_of_not_lt
    intro hlt
    exact Nat.not_lt_of_le (h.now_le (Nat.le_of_lt hlt)) hm
  exact h.exists_leap hle hm

end

/-!
## Operations
-/

section
variable {system start : System} {action : Action} {run : Nat → Action} {m n : Nat} {id : TaskId}
  {o : ObjectId} {operation : Operation} {task next : Task}

theorem follows_granted (system : System) (task : Task) (o : ObjectId) (operation : Operation)
    (deadline : Nat) (grant : Grant)
    : Advances task 3 (system.workGranted task o operation deadline grant) ∨
        system.workGranted task o operation deadline grant =
          (none, system.park task (.waiting deadline)) := by
  cases grant with
  | lease => exact .inl ((advances_calling _ _ _ _).mono (by decide))
  | opening => exact .inl (advances_opening _ _ _ _)
  | full =>
    unfold workGranted
    dsimp only
    split
    . exact .inl (.ended _ _)
    . exact .inr rfl

theorem lingers_on (system : System) (task : Task) (o : ObjectId) (operation : Operation)
    (h : ¬(task.stage = .fresh ∨ task.stage.isPassing ∧ system.reached task.stage.due? = true))
    : Advances task task.stage.remaining (system.workOn task o operation) ∨
        system.workOn task o operation = (none, system) ∨
        ∃ middle : System, system.workOn task o operation = (none, middle.park task task.stage) := by
  unfold workOn
  dsimp only
  cases hstage : task.stage with
  | fresh => exact absurd (.inl hstage) h
  | waiting deadline =>
    rw [hstage] at h
    have hlater : ¬deadline ≤ system.now := by simpa [reached, Stage.due?, Stage.isPassing] using h
    dsimp only
    rw [if_neg hlater]
    split
    . unfold workAsking
      exact (follows_granted _ task o operation deadline _).imp_right fun hpark => .inr ⟨_, hpark⟩
    . exact .inr (.inl rfl)
  | opening error due =>
    rw [hstage] at h
    have hlater : ¬system.reached due = true := by simpa [Stage.due?, Stage.isPassing] using h
    exact .inr (.inl (if_neg hlater))
  | calling reply due =>
    rw [hstage] at h
    have hlater : ¬system.reached due = true := by simpa [Stage.due?, Stage.isPassing] using h
    exact .inr (.inl (if_neg hlater))
  | _ => exact .inr (.inl rfl)

theorem Enlisted.follows_step (h : system.Enlisted id (.operate o operation))
    (htask : system.task? id = some task) {tickFirst : Bool}
    (hnext : (system.step tickFirst id).task? id = some next) : task.stage.Follows next.stage := by
  by_cases hdue : task.stage = .fresh ∨
      task.stage.isPassing ∧ system.reached task.stage.due? = true
  . exact .inr (h.advances htask hdue hnext)
  . have hstep : system.step tickFirst id = (system.workOn task o operation).told task := by
      rw [h.step_eq rfl htask tickFirst]
      unfold work
      rw [(h.task task htask).1]
    rw [hstep] at hnext
    have hid := task?_id htask
    subst hid
    rcases system.lingers_on task o operation hdue with hadvances | hidle | ⟨middle, hpark⟩
    . exact .inr (remaining_lt_of_advances task hadvances hnext)
    . rw [hidle] at hnext
      obtain rfl := Option.some.inj (htask.symm.trans hnext)
      exact .inl rfl
    . rw [hpark] at hnext
      exact .inl (stage_of_park hnext)

theorem Enlisted.follows_act (h : system.Enlisted id (.operate o operation))
    (htask : system.task? id = some task) (hadmits : system.Admits action)
    (hnext : (system.act action).task? id = some next) : task.stage.Follows next.stage := by
  rcases action.step_or_ne id with ⟨tickFirst, rfl⟩ | hother
  . exact h.follows_step htask hnext
  . have hjob : task.job.isOperation := by
      rw [(h.task task htask).1]
      rfl
    rcases keeps_act hadmits h.id_lt htask hjob hother with hkeeps | rfl | rfl
    . have hcore := hkeeps.core_eq
      rw [hnext, htask] at hcore
      exact .inl (congrArg Prod.snd (Option.some.inj hcore))
    . cases (system.task?_dropTask id).symm.trans hnext
    . cases (system.task?_shutdown id h.id_lt).symm.trans hnext

theorem Fair.follows (h : start.Fair run) (henlisted : start.Enlisted id (.operate o operation))
    (hle : m ≤ n) (hnext : (start.after (past run n)).task? id = some next)
    : ∃ task, (start.after (past run m)).task? id = some task ∧ task.stage.Follows next.stage := by
  induction hle generalizing next with
  | refl => exact ⟨next, hnext, .inl rfl⟩
  | @step n _ ih =>
    have hlegal := h.legal (n + 1)
    have hnow := henlisted.after hlegal.1
    cases hmiddle : (start.after (past run n)).task? id with
    | none =>
      have hgone := (changes_act hlegal.2).grows.ended id hnow.id_lt hmiddle
      cases hgone.symm.trans hnext
    | some middle =>
      obtain ⟨task, htask, hfollows⟩ := ih hmiddle
      exact ⟨task, htask, hfollows.trans (hnow.follows_act hmiddle hlegal.2 hnext)⟩

def Ripe (system : System) (stage : Stage) : Prop :=
  stage = .fresh ∨ stage.isPassing ∧ system.reached stage.due? = true

theorem Fair.ripe (h : start.Fair run) {stage : Stage} (hle : m ≤ n)
    (hripe : (start.after (past run m)).Ripe stage) : (start.after (past run n)).Ripe stage := by
  refine hripe.imp_right fun ⟨hpassing, hreached⟩ => ⟨hpassing, ?_⟩
  unfold reached at hreached ⊢
  rw [Option.any_eq_true] at hreached ⊢
  obtain ⟨due, hdue, hcome⟩ := hreached
  exact ⟨due, hdue, decide_eq_true (Nat.le_trans (of_decide_eq_true hcome) (h.now_le hle))⟩

theorem Fair.engaged (h : start.Fair run) (hstart : start.Consistent) (hline : ∀ id, start.InLine id)
    (henlisted : start.Enlisted id (.operate o operation)) {stage : Stage}
    (hsame : ∀ m, n ≤ m →
      ∃ task, (start.after (past run m)).task? id = some task ∧ task.stage = stage)
    (hstalls : ¬(start.after (past run n)).Stalls id)
    : ∃ m, n ≤ m ∧ (start.after (past run m)).Engaged id ∧ (start.after (past run m)).Ripe stage := by
  obtain ⟨task, htask, rfl⟩ := hsame n (Nat.le_refl n)
  have hjob (m : Nat) (task : Task) (htask : (start.after (past run m)).task? id = some task) :=
    (henlisted.after (h.legal m)).task task htask
  have hop (m : Nat) (task : Task) (htask : (start.after (past run m)).task? id = some task)
      : task.job.isOperation := by
    rw [(hjob m task htask).1]
    rfl
  rcases (hjob n task htask).2.fresh_or_passing (hop n task htask) with hfresh | hpassing
  . -- A task that did not take its first step stands in line wherever tasks took turns so far.
    obtain ⟨m, hle, horderly⟩ := h.orderly n
    obtain ⟨next, hnext, hstage⟩ := hsame m hle
    refine ⟨m, hle, ?_, .inl hfresh⟩
    have hstands := (horderly.consistent hstart hline).2 id next hnext (hop m next hnext)
      (hstage.trans hfresh)
    exact hstands.symm.imp_right fun hforeground => ⟨next, hnext, hforeground⟩
  . cases hdue : task.stage.due? with
    | none =>
      exact absurd ⟨task, htask, Stage.endless_of_passing hpassing hdue⟩ hstalls
    | some due =>
      -- Some leap passes the deadline, and puts the task in line unless somebody waits for it.
      obtain ⟨since, hsince⟩ := h.time due
      obtain ⟨m, limit, hle, hleap⟩ := h.leaps (max n since)
      obtain ⟨hnm, hsm⟩ := Nat.max_le.1 hle
      have hlater (k : Nat) (hk : m ≤ k) : due ≤ (start.after (past run k)).now :=
        Nat.le_trans hsince (h.now_le (Nat.le_trans hsm hk))
      have hcome (k : Nat) (hk : m ≤ k) : (start.after (past run k)).Ripe task.stage := by
        refine .inr ⟨hpassing, ?_⟩
        unfold reached
        rw [hdue]
        exact decide_eq_true (hlater k hk)
      obtain ⟨next, hnext, hstage⟩ := hsame m hnm
      cases hforeground : next.foreground with
      | true => exact ⟨m, hnm, .inr ⟨next, hnext, hforeground⟩, hcome m (Nat.le_refl m)⟩
      | false =>
        refine ⟨m + 1, Nat.le_succ_of_le hnm, .inl ?_, hcome (m + 1) (Nat.le_succ m)⟩
        have hnow := hlater (m + 1) (Nat.le_succ m)
        rw [past, hleap] at hnow ⊢
        exact mem_ready_leap hnext hforeground (hstage ▸ hdue) limit hnow

theorem Fair.advances (h : start.Fair run) (hstart : start.Consistent) (hline : ∀ id, start.InLine id)
    (henlisted : start.Enlisted id (.operate o operation))
    (hstalls : ¬(start.after (past run n)).Stalls id)
    (htask : (start.after (past run n)).task? id = some task)
    : ∃ m, n ≤ m ∧ ∀ next, (start.after (past run m)).task? id = some next →
        next.stage.remaining < task.stage.remaining := by
  apply Classical.byContradiction
  intro hnever
  have hsame (m : Nat) (hle : n ≤ m)
      : ∃ next, (start.after (past run m)).task? id = some next ∧ next.stage = task.stage := by
    apply Classical.byContradiction
    intro hdiffers
    refine hnever ⟨m, hle, fun next hnext => ?_⟩
    obtain ⟨old, hold, hfollows⟩ := h.follows henlisted hle hnext
    obtain rfl := Option.some.inj (htask.symm.trans hold)
    exact hfollows.resolve_left fun hstage => hdiffers ⟨next, hnext, hstage⟩
  obtain ⟨m, hle, hengaged, hripe⟩ := h.engaged hstart hline henlisted hsame hstalls
  obtain ⟨k, tickFirst, hk, hstep⟩ := h.turns m id hengaged
  obtain ⟨now, hnow, hstage⟩ := hsame k (Nat.le_trans hle hk)
  obtain ⟨next, hnext, hstill⟩ := hsame (k + 1) (Nat.le_succ_of_le (Nat.le_trans hle hk))
  rw [past, hstep] at hnext
  have hlt := (henlisted.after (h.legal k)).advances hnow (hstage ▸ h.ripe hk hripe) hnext
  rw [hstill, hstage] at hlt
  exact Nat.lt_irrefl _ hlt

theorem Fair.ends (h : start.Fair run) (hstart : start.Consistent) (hline : ∀ id, start.InLine id)
    (henlisted : start.Enlisted id (.operate o operation))
    (hstalls : ∀ n, ¬(start.after (past run n)).Stalls id)
    : ∃ n, (start.after (past run n)).task? id = none := by
  suffices hbound : ∀ bound n, (∀ task, (start.after (past run n)).task? id = some task →
      task.stage.remaining < bound) → ∃ m, (start.after (past run m)).task? id = none by
    apply hbound 5 0
    intro task _
    cases task.stage <;> simp [Stage.remaining]
  intro bound
  induction bound with
  | zero =>
    intro n hnone
    refine ⟨n, Option.eq_none_iff_forall_ne_some.2 fun task htask => ?_⟩
    exact Nat.not_lt_zero _ (hnone task htask)
  | succ bound ih =>
    intro n hless
    cases htask : (start.after (past run n)).task? id with
    | none => exact ⟨n, htask⟩
    | some task =>
      obtain ⟨m, _, hcloser⟩ := h.advances hstart hline henlisted (hstalls n) htask
      apply ih m
      intro next hnext
      exact Nat.lt_of_lt_of_le (hcloser next hnext) (Nat.le_of_lt_succ (hless task htask))

end

/-!
## Rounds
-/

def Alert (system : System) (id : TaskId) : Prop :=
  ∀ task first rest report next, system.task? id = some task →
    task.stage = .gathering (first :: rest) report next → system.letters first ≠ [] →
    system.Engaged id

section
variable {system start : System} {action : Action} {actions : List Action} {round task waiter : Task}
  {c : Nat} {keepAlives : List TaskId} {swept : Nat} {id listener : TaskId} {job : Job}
  {done : List (TaskId × Except Error Value)} {pending rest : List TaskId} {report : Report} {next : Nat}

theorem engaged_resolve (hwaiter : system.task? listener = some waiter)
    (hstage : waiter.stage = .gathering (id :: rest) report next) (honly : system.OnlyFor listener id)
    (name : String) (result : Except Error Outcome)
    : (system.resolve id name { handler := .channel true } result).Engaged listener := by
  unfold resolve
  dsimp only [Continuation.resolve, Handler.react]
  rw [if_neg (by decide)]
  dsimp only
  rw [if_pos rfl]
  dsimp only
  split
  . next hnone =>
    have hawaits := List.find?_eq_none.1 hnone waiter (List.mem_of_find?_eq_some hwaiter)
    unfold resolve.awaits at hawaits
    rw [hstage] at hawaits
    simp at hawaits
  . next found hfound =>
    have hawaits := List.find?_some hfound
    have hid : found.id = listener := by
      apply honly found (List.mem_of_find?_eq_some hfound)
      unfold resolve.awaits at hawaits
      split at hawaits
      . next hgathers =>
        rw [hgathers, eq_of_beq hawaits]
        exact List.mem_cons_self
      . cases hawaits
    rw [hid]
    have htask : { system with inbox := system.inbox ++ [(id, result)] }.task? listener = some waiter :=
      hwaiter
    cases hforeground : waiter.foreground with
    | true => exact .inr ⟨waiter, (task?_wake _ listener listener).trans htask, hforeground⟩
    | false => exact .inl (mem_ready_wake htask hforeground)

theorem Expects.engaged (h : system.Expects id (.channel true) task)
    (henlisted : system.Enlisted id job) (hjob : job.isOperation)
    (hwaiter : system.task? listener = some waiter)
    (hstage : waiter.stage = .gathering (id :: rest) report next) (honly : system.OnlyFor listener id)
    (hne : id ≠ listener) {tickFirst : Bool} (hend : (system.step tickFirst id).task? id = none)
    : (system.step tickFirst id).Engaged listener := by
  have hid := task?_id h.task?_eq
  have hsteps := henlisted.steps hjob h.task?_eq tickFirst
  generalize system.step tickFirst id = after at hsteps hend
  cases hsteps with
  | idle => cases hend.symm.trans h.task?_eq
  | parked _ _ _ huntold =>
    rw [← hid, task?_park (by rw [huntold.task?_eq, hid]; exact h.task?_eq)] at hend
    cases hend
  | @ended result middle _ huntold =>
    unfold System.finish
    rw [h.continuation_eq, hid]
    have hwaits : (middle.removeTask id).task? listener = some waiter := by
      rw [task?_removeTask_of_ne _ hne, huntold.task?_eq]
      exact hwaiter
    apply engaged_resolve hwaits hstage
    intro found hfound
    apply honly found
    rw [← huntold.tasks_eq]
    exact (List.mem_filter.1 hfound).1

theorem Gathers.stage_eq (h : start.Gathers round keepAlives swept actions done pending)
    (htask : (start.after actions).task? round.id = some task)
    (hstage : task.stage = .gathering rest report next) : rest = pending := by
  obtain ⟨next, hround⟩ := h.task?_eq
  obtain rfl := Option.some.inj (htask.symm.trans hround)
  cases hstage
  rfl

theorem Alert.other (h : (start.after actions).Alert round.id)
    (hgathers : start.Gathers round keepAlives swept actions done pending)
    (hlegal : Legal start (action :: actions))
    (hconvened : (start.after actions).Convened round c keepAlives)
    (hleaves : LeavesAlone round.id keepAlives action)
    (hown : ∀ tickFirst, action ≠ .step tickFirst round.id) (hline : ∀ ready, action ≠ .line ready)
    : (start.after (action :: actions)).Alert round.id := by
  intro task first rest report next htask hstage hletters
  have hround (task : Task) (htask : (start.after actions).task? round.id = some task)
      : task.job = .round c :=
    (hgathers.job_eq htask).trans hconvened.job_eq
  have hbefore : (start.after actions).task? round.id = some task :=
    (hconvened.task?_eq hlegal.2 hround hleaves hown).symm.trans htask
  have hfirst : first ∈ pending := hgathers.stage_eq hbefore hstage ▸ List.mem_cons_self
  have hmem : first ∈ keepAlives := hgathers.keepAlives_eq ▸ List.mem_append_right _ hfirst
  have hunmoved := hconvened.unmoved hmem hlegal.2 ⟨task, hbefore, hround task hbefore⟩ hleaves hown
  -- Without a step of the keepalive, the result lay ready before.
  have hstands (hready : (start.after actions).letters first ≠ [])
      : (start.after (action :: actions)).Engaged round.id := by
    rcases h task first rest report next hbefore hstage hready with hstood | ⟨known, hknown, hforeground⟩
    . left
      apply (changes_act hlegal.2).mem_ready _ hconvened.id_lt _ hstood
      . exact hleaves.not_tasks hlegal.2 hround hown hline
      . rw [hbefore]
        exact nofun
    . rw [Option.some.inj (hknown.symm.trans hbefore)] at hforeground
      exact .inr ⟨task, htask, hforeground⟩
  cases hgathers.owed first hfirst with
  | arrived result _ hheard =>
    apply hstands
    rw [hheard.letters_eq]
    exact List.cons_ne_nil _ _
  | expecting waited hexpects =>
    rcases action.step_or_ne first with ⟨tickFirst, rfl⟩ | hother
    . obtain ⟨⟨job, hjob, henlisted⟩, honly⟩ := hconvened.keepAlives first hmem
      rcases hexpects.step henlisted hjob tickFirst with ⟨_, hnext⟩ | ⟨_, _, hheard⟩
      . exact absurd hnext.letters_eq hletters
      . apply hexpects.engaged henlisted hjob hbefore hstage honly _ hheard.task?_eq
        rintro rfl
        exact hown tickFirst rfl
    . have hstill := hunmoved fun tickFirst heq => absurd heq (hother tickFirst)
      exact absurd (hstill.letters_eq.trans hexpects.letters_eq) hletters

theorem alert_of_none (h : system.task? id = none) : system.Alert id := by
  intro task first rest report next htask
  cases h.symm.trans htask

theorem Gathers.alert (h : start.Gathers round keepAlives swept actions done pending)
    (hnone : ∀ id ∈ pending.head?, (start.after actions).letters id = [])
    : (start.after actions).Alert round.id := by
  intro task first rest report next htask hstage hletters
  exact absurd (hnone first (h.stage_eq htask hstage ▸ rfl)) hletters

theorem Rounds.alert_step (h : start.Rounds round keepAlives swept actions)
    (hconvened : (start.after actions).Convened round c keepAlives) (tickFirst : Bool)
    : (start.after (.step tickFirst round.id :: actions)).Alert round.id := by
  cases h with
  | reports report hreports =>
    apply alert_of_none
    have hstill := step_of_none hreports.task?_eq tickFirst
    exact (congrArg (·.task? round.id) hstill).trans hreports.task?_eq
  | gathers hgathers =>
    rcases hgathers.step hconvened tickFirst with ⟨report, hreports⟩ | ⟨_, _, hstill, _, hnone⟩
    . exact alert_of_none hreports.task?_eq
    . exact hstill.alert hnone

theorem Rounds.alert_cons (h : start.Rounds round keepAlives swept actions)
    (halert : (start.after actions).Alert round.id) (hlegal : Legal start (action :: actions))
    (hconvened : (start.after actions).Convened round c keepAlives)
    (hleaves : LeavesAlone round.id keepAlives action) (hline : ∀ ready, action ≠ .line ready)
    : (start.after (action :: actions)).Alert round.id := by
  rcases action.step_or_ne round.id with ⟨tickFirst, rfl⟩ | hother
  . exact h.alert_step hconvened tickFirst
  . cases h with
    | gathers hgathers => exact halert.other hgathers hlegal hconvened hleaves hother hline
    | reports report hreports =>
      exact alert_of_none (hreports.cons hlegal hconvened.id_lt).task?_eq

theorem Orderly.alert (h : start.Orderly actions) (hstart : start.Alert round.id)
    (hrounds : start.Rounds round keepAlives swept []) (hconvened : start.Convened round c keepAlives)
    (hobeys : start.Obeys (fun _ => LeavesAlone round.id keepAlives) actions)
    : (start.after actions).Alert round.id := by
  induction h with
  | nil => exact hstart
  | other _ _ hproper ih =>
    apply (hrounds.after hconvened hobeys.tail).alert_cons (ih hobeys.tail) hobeys.legal
      (hconvened.after hobeys.tail.legal) hobeys.head.2
    rintro ready rfl
    exact hproper
  | @turn actions first ready _ hready tickFirst ih =>
    have hearlier := hrounds.after hconvened hobeys.tail
    have hstill := hconvened.after hobeys.tail.legal
    by_cases hfirst : first = round.id
    . subst hfirst
      exact hearlier.alert_step hstill tickFirst
    . refine hearlier.alert_cons ?_ hobeys.legal hstill hobeys.head.2 nofun
      -- Somebody else is taken out of line.
      intro task awaited rest report next htask hstage hletters
      have hengaged := ih hobeys.tail.tail task awaited rest report next htask hstage hletters
      refine hengaged.imp_left fun hmem => ?_
      rw [hready] at hmem
      exact (List.mem_cons.1 hmem).resolve_left (Ne.symm hfirst)

theorem Gathers.later {earlier : List Action}
    (h : start.Gathers round keepAlives swept earlier done pending)
    (hconvened : start.Convened round c keepAlives)
    (hobeys : start.Obeys (fun _ => LeavesAlone round.id keepAlives) actions)
    (hsuffix : earlier <:+ actions)
    : (∃ report, start.Reports round keepAlives swept actions report) ∨
        ∃ done' pending', start.Gathers round keepAlives swept actions done' pending' ∧
          pending' <:+ pending := by
  apply suffix_induction (motive := fun actions =>
    (∃ report, start.Reports round keepAlives swept actions report) ∨
      ∃ done' pending', start.Gathers round keepAlives swept actions done' pending' ∧
        pending' <:+ pending) hsuffix
  . exact .inr ⟨done, pending, h, List.suffix_rfl⟩
  . intro action middle _ hmiddle hmotive
    have hnow := hobeys.of_suffix hmiddle
    have hstill := hconvened.after hnow.tail.legal
    rcases hmotive with ⟨report, hreports⟩ | ⟨_, _, hgathers, hfewer⟩
    . exact .inl ⟨report, hreports.cons hnow.legal hstill.id_lt⟩
    . rcases action.step_or_ne round.id with ⟨tickFirst, rfl⟩ | hother
      . refine (hgathers.step hstill tickFirst).imp_right ?_
        rintro ⟨more, rest, hrest, hpending, _⟩
        exact ⟨_, rest, hrest, List.IsSuffix.trans ⟨_, hpending.symm⟩ hfewer⟩
      . exact .inr ⟨_, _, hgathers.other hnow.legal hstill hnow.head.2 hother, hfewer⟩

theorem Gathers.letters_ne (h : start.Gathers round keepAlives swept actions done pending)
    (hid : id ∈ pending) (hnone : (start.after actions).task? id = none)
    : (start.after actions).letters id ≠ [] := by
  cases h.owed id hid with
  | expecting task hexpects => cases hnone.symm.trans hexpects.task?_eq
  | arrived result _ hheard =>
    rw [hheard.letters_eq]
    exact List.cons_ne_nil _ _

end

section
variable {start : System} {run : Nat → Action} {m n : Nat} {round : Task} {c : Nat}
  {keepAlives : List TaskId} {swept : Nat} {id first : TaskId}
  {done : List (TaskId × Except Error Value)} {pending rest : List TaskId}

theorem Fair.gone (h : start.Fair run) (hid : id < start.nextTask) (hle : m ≤ n)
    (hnone : (start.after (past run m)).task? id = none)
    : (start.after (past run n)).task? id = none := by
  have hgrows := (h.legal n).grows_of_suffix (past_suffix hle)
  apply hgrows.ended id _ hnone
  exact Nat.lt_of_lt_of_le hid (h.legal m).grows.nextTask_le

theorem Fair.gathers_less (h : start.Fair run)
    (hobeys : ∀ n, start.Obeys (fun _ => LeavesAlone round.id keepAlives) (past run n))
    (hrounds : start.Rounds round keepAlives swept []) (hconvened : start.Convened round c keepAlives)
    (halert : start.Alert round.id)
    (hgathers : start.Gathers round keepAlives swept (past run n) done (first :: rest))
    (hends : ∃ m, (start.after (past run m)).task? first = none)
    : ∃ m, (∃ report, start.Reports round keepAlives swept (past run m) report) ∨
        ∃ done' pending', start.Gathers round keepAlives swept (past run m) done' pending' ∧
          pending'.length < (first :: rest).length := by
  apply Classical.byContradiction
  intro hnever
  have hstays (m : Nat) (hle : n ≤ m)
      : ∃ done', start.Gathers round keepAlives swept (past run m) done' (first :: rest) := by
    rcases hgathers.later hconvened (hobeys m) (past_suffix hle) with
      hreports | ⟨done', pending', hstill, hsuffix⟩
    . exact absurd ⟨m, .inl hreports⟩ hnever
    . have hle : (first :: rest).length ≤ pending'.length := by
        apply Nat.le_of_not_lt
        exact fun hless => hnever ⟨m, .inr ⟨done', pending', hstill, hless⟩⟩
      obtain rfl := hsuffix.eq_of_length_le hle
      exact ⟨done', hstill⟩
  obtain ⟨since, hgone⟩ := hends
  have hfirst : first < start.nextTask := by
    have hmem : first ∈ keepAlives :=
      hgathers.keepAlives_eq ▸ List.mem_append_right _ List.mem_cons_self
    obtain ⟨⟨_, _, henlisted⟩, _⟩ := hconvened.keepAlives first hmem
    exact henlisted.id_lt
  obtain ⟨m, hm, horderly⟩ := h.orderly (max n since)
  obtain ⟨hnm, hsince⟩ := Nat.max_le.1 hm
  obtain ⟨_, hwaits⟩ := hstays m hnm
  obtain ⟨next, htask⟩ := hwaits.task?_eq
  have hready := hwaits.letters_ne List.mem_cons_self (h.gone hfirst hsince hgone)
  have hengaged := horderly.alert halert hrounds hconvened (hobeys m) _ first rest _ next htask rfl hready
  obtain ⟨k, tickFirst, hk, hstep⟩ := h.turns m round.id hengaged
  obtain ⟨_, hbefore⟩ := hstays k (Nat.le_trans hnm hk)
  obtain ⟨_, hafter⟩ := hstays (k + 1) (Nat.le_succ_of_le (Nat.le_trans hnm hk))
  have hnone := h.gone hfirst (Nat.le_succ_of_le (Nat.le_trans hsince hk)) hgone
  have hletters := hafter.letters_ne List.mem_cons_self hnone
  rw [past, hstep] at hafter hletters
  rcases hbefore.step (hconvened.after (h.legal k)) tickFirst with
    ⟨report, hreports⟩ | ⟨_, rest', hstill, _, hwaits⟩
  . obtain ⟨_, hthere⟩ := hafter.task?_eq
    cases hreports.task?_eq.symm.trans hthere
  . -- The round took the result in this step, so it does not lie there any more.
    obtain ⟨_, hthere⟩ := hafter.task?_eq
    obtain rfl := hstill.stage_eq hthere rfl
    exact hletters (hwaits first rfl)

theorem Fair.reports (h : start.Fair run)
    (hobeys : ∀ n, start.Obeys (fun _ => LeavesAlone round.id keepAlives) (past run n))
    (hrounds : start.Rounds round keepAlives swept []) (hconvened : start.Convened round c keepAlives)
    (halert : start.Alert round.id)
    (hends : ∀ id ∈ keepAlives, ∃ m, (start.after (past run m)).task? id = none)
    : ∃ n report, start.Reports round keepAlives swept (past run n) report := by
  suffices hbound : ∀ bound n done pending,
      start.Gathers round keepAlives swept (past run n) done pending → pending.length < bound →
      ∃ m report, start.Reports round keepAlives swept (past run m) report by
    cases hrounds with
    | reports report hreports => exact ⟨0, report, hreports⟩
    | gathers hgathers => exact hbound _ 0 _ _ hgathers (Nat.lt_succ_self _)
  intro bound
  induction bound with
  | zero => exact fun _ _ _ _ hless => absurd hless (Nat.not_lt_zero _)
  | succ bound ih =>
    intro n done pending hgathers hless
    obtain ⟨first, rest, rfl⟩ := List.exists_cons_of_ne_nil hgathers.pending_ne
    have hfirst : first ∈ keepAlives :=
      hgathers.keepAlives_eq ▸ List.mem_append_right _ List.mem_cons_self
    obtain ⟨m, ⟨report, hreports⟩ | ⟨_, _, hstill, hfewer⟩⟩ :=
      h.gathers_less hobeys hrounds hconvened halert hgathers (hends first hfirst)
    . exact ⟨m, report, hreports⟩
    . exact ih m _ _ hstill (Nat.lt_of_lt_of_le hfewer (Nat.le_of_lt_succ hless))

end

/-!
## Runs that come to rest
-/

/--
A run that goes through some actions, the last one first, and lets nothing but time pass from then on.
-/
def rests (actions : List Action) (n : Nat) : Action :=
  actions.reverse.getD n (.leap 0)

section
variable {start system : System} {action : Action} {actions earlier : List Action} {n : Nat}

theorem rests_length (h : action :: earlier <:+ actions) : rests actions earlier.length = action := by
  obtain ⟨later, rfl⟩ := h
  unfold rests
  simp [List.getD_eq_getElem?_getD]

theorem rests_of_le (h : actions.length ≤ n) : rests actions n = .leap 0 := by
  unfold rests
  rw [List.getD_eq_getElem?_getD, List.getElem?_eq_none (by simpa using h)]
  rfl

theorem past_rests_of_suffix (h : earlier <:+ actions)
    : past (rests actions) earlier.length = earlier := by
  induction earlier with
  | nil => rfl
  | cons action earlier ih =>
    have hearlier := ih ((List.suffix_cons _ _).trans h)
    rw [List.length_cons, past, rests_length h, hearlier]

theorem rests_eq_leap_or (actions : List Action) (n : Nat)
    : rests actions n = .leap 0 ∨ rests actions n ∈ actions := by
  by_cases hn : n < actions.length
  . refine .inr (List.mem_reverse.1 ?_)
    unfold rests
    rw [List.getD_eq_getElem?_getD, List.getElem?_eq_getElem (by simpa using hn)]
    apply List.getElem_mem
  . exact .inl (rests_of_le (Nat.le_of_not_lt hn))

theorem leap_of_tasks_eq_nil (h : system.tasks = []) (limit : Nat)
    : ∃ now, system.leap limit = { system with now } := by
  refine ⟨max (system.now + 1) limit, ?_⟩
  unfold leap dueTasks
  simp [h]

theorem after_rests (htasks : (start.after actions).tasks = []) (hle : actions.length ≤ n)
    : ∃ now, start.after (past (rests actions) n) = { start.after actions with now } := by
  induction hle with
  | refl => exact ⟨_, congrArg start.after (past_rests_of_suffix List.suffix_rfl)⟩
  | @step n hle ih =>
    obtain ⟨now, heq⟩ := ih
    have hnone : (start.after (past (rests actions) n)).tasks = [] := by
      rw [heq]
      exact htasks
    obtain ⟨later, hleap⟩ := leap_of_tasks_eq_nil hnone 0
    refine ⟨later, ?_⟩
    rw [past, rests_of_le hle]
    refine hleap.trans ?_
    rw [heq]

theorem orderly_rests (h : start.Orderly actions) (hle : actions.length ≤ n)
    : start.Orderly (past (rests actions) n) := by
  induction hle with
  | refl => exact (past_rests_of_suffix List.suffix_rfl).symm ▸ h
  | @step n hle ih =>
    rw [past, rests_of_le hle]
    exact ih.other trivial trivial

theorem le_now_rests (actions : List Action) (start : System) (time : Nat)
    : time ≤ (start.after (past (rests actions) (actions.length + time))).now := by
  induction time with
  | zero => apply Nat.zero_le
  | succ time ih =>
    rw [← Nat.add_assoc, past, rests_of_le (Nat.le_add_right _ _)]
    exact Nat.lt_of_le_of_lt ih (System.lt_now_leap _ _)

theorem fair_rests (horderly : start.Orderly actions) (htasks : (start.after actions).tasks = [])
    (hready : (start.after actions).ready = [])
    (hbackground : ∀ n < actions.length, ∀ task ∈ (start.after (past (rests actions) n)).tasks,
      task.foreground = false)
    (hturns : ∀ n < actions.length, ∀ id ∈ (start.after (past (rests actions) n)).ready,
      ∃ m, m < actions.length ∧ n ≤ m ∧ (rests actions m).isStepOf id = true)
    : start.Fair (rests actions) := by
  constructor
  . intro n
    exact ⟨actions.length + n, Nat.le_add_left _ _, orderly_rests horderly (Nat.le_add_right _ _)⟩
  . intro n id hengaged
    by_cases hn : n < actions.length
    . rcases hengaged with hmem | ⟨task, htask, hforeground⟩
      . obtain ⟨m, _, hle, hstep⟩ := hturns n hn id hmem
        rcases (rests actions m).step_or_ne id with ⟨tickFirst, heq⟩ | hother
        . exact ⟨m, tickFirst, hle, heq⟩
        . cases (Action.isStepOf_of_ne hother).symm.trans hstep
      . have hnone := hbackground n hn task (List.mem_of_find?_eq_some htask)
        cases hnone.symm.trans hforeground
    . obtain ⟨now, heq⟩ := after_rests htasks (Nat.le_of_not_lt hn)
      rw [heq] at hengaged
      rcases hengaged with hmem | ⟨task, htask, _⟩
      . exact absurd (hready ▸ hmem) List.not_mem_nil
      . exact absurd (htasks ▸ List.mem_of_find?_eq_some htask) List.not_mem_nil
  . exact fun time => ⟨_, le_now_rests actions start time⟩

theorem not_stalls_rests (htasks : (start.after actions).tasks = [])
    (hdue : ∀ n < actions.length, ∀ task ∈ (start.after (past (rests actions) n)).tasks,
      task.stage.isPassing = true → task.stage.due?.isSome = true)
    (n : Nat) (id : TaskId) : ¬(start.after (past (rests actions) n)).Stalls id := by
  rintro ⟨task, htask, hstalls⟩
  have hmem := List.mem_of_find?_eq_some htask
  by_cases hn : n < actions.length
  . have hsome := hdue n hn task hmem
    rcases hstalls with ⟨_, hstage⟩ | ⟨_, hstage⟩ <;>
    . rw [hstage] at hsome
      cases hsome rfl
  . obtain ⟨now, heq⟩ := after_rests htasks (Nat.le_of_not_lt hn)
    rw [heq] at hmem
    exact absurd (htasks ▸ hmem) List.not_mem_nil

theorem obeys_rests {rule : Action → Prop} (hlegal : ∀ n, Legal start (past (rests actions) n))
    (hrule : ∀ action ∈ actions, rule action) (hleap : rule (.leap 0)) (n : Nat)
    : start.Obeys (fun _ => rule) (past (rests actions) n) := by
  induction n with
  | zero => exact .nil _ _
  | succ n ih =>
    apply ih.cons (hlegal (n + 1)).2
    rcases rests_eq_leap_or actions n with heq | hmem
    . rw [heq]
      exact hleap
    . exact hrule _ hmem

end

end System

end MediaProxy
