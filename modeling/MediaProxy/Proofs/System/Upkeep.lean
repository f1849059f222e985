import MediaProxy.Proofs.System.Fairness
import MediaProxy.Proofs.System.Keepalive

/-!
This module contains what rounds of keepalives promise: which objects a round addresses, what it leaves alone,
what it reports, and that it ends.
-/

namespace MediaProxy

namespace System

def confirmed (start : System) (actions : List Action) (id : TaskId) : Bool :=
  match start.begunBy id actions with
  | [(_, .ok .unit)] => true
  | _ => false

def census (system start : System) (c : Nat) (actions : List Action) : Report where
  sent := (system.keepAlives c).countP (start.confirmed actions ·.2)
  failed := (system.keepAlives c).countP (!start.confirmed actions ·.2)
  swept := (system.dead c).length

def Unhindered (system : System) (round : Task) (c : Nat) (start : System) (actions : List Action) :
    Prop :=
  start.Obeys (fun _ => LeavesAlone round.id ((system.keepAlives c).map (·.2))) actions

section
variable {system start : System} {round : Task} {c : Nat} {keepAlive : ObjectId × TaskId} {id : TaskId}
  {keepAlives : List TaskId} {swept : Nat} {actions : List Action} {tickFirst : Bool}
  {result : Except Error Value}

theorem confirmed_iff
    : start.confirmed actions id = true ↔ ∃ record, start.begunBy id actions = [(record, .ok .unit)] := by
  unfold confirmed
  constructor
  . intro h
    split at h
    . next record hcalls => exact ⟨record, hcalls⟩
    . cases h
  . rintro ⟨record, hcalls⟩
    rw [hcalls]

theorem census_add (system start : System) (c : Nat) (actions : List Action)
    : (system.census start c actions).sent + (system.census start c actions).failed =
        (system.upheld c).length := by
  have hlength := List.length_eq_countP_add_countP
    (fun keepAlive : ObjectId × TaskId => start.confirmed actions keepAlive.2)
    (l := system.keepAlives c)
  rw [length_keepAlives] at hlength
  unfold census
  simpa using hlength.symm

theorem Rounds.comes_or (h : start.Rounds round keepAlives swept actions) (hid : id ∈ keepAlives)
    : (start.after actions).task? id ≠ none ∨ ∃ result, start.Comes id actions result := by
  have hdone {done : List (TaskId × Except Error Value)} (hmem : id ∈ done.map (·.1))
      (hcomes : ∀ entry ∈ done, start.Comes entry.1 actions entry.2)
      : ∃ result, start.Comes id actions result := by
    obtain ⟨entry, hentry, rfl⟩ := List.mem_map.1 hmem
    exact ⟨entry.2, hcomes entry hentry⟩
  cases h with
  | reports report hreports =>
    obtain ⟨_, _, done, rfl, hcomes, _⟩ := hreports
    exact .inr (hdone hid hcomes)
  | gathers hgathers =>
    rw [← hgathers.keepAlives_eq] at hid
    rcases List.mem_append.1 hid with hmem | hpending
    . exact .inr (hdone hmem hgathers.comes)
    . cases hgathers.owed id hpending with
      | arrived result hcomes => exact .inr ⟨result, hcomes⟩
      | expecting task hexpects =>
        rw [hexpects.task?_eq]
        exact .inl nofun

theorem Imminent.starts (h : system.Imminent round c) (hrunning : system.running = true)
    (hmem : keepAlive ∈ system.keepAlives c) (tickFirst : Bool)
    : (system.step tickFirst round.id).Starts (system.errand keepAlive.1 .keepAlive) keepAlive.2 := by
  have hadmits : system.Admits (.step tickFirst round.id) := trivial
  obtain ⟨hliving, _⟩ := List.mem_filter.1 (mem_upheld_of_mem_keepAlives hmem)
  obtain ⟨entry, hentry, heq⟩ := List.mem_map.1 (List.mem_filter.1 hliving).1
  have ho : keepAlive.1 < system.store.objects.length := by
    rw [← heq]
    exact (h.consistent.typed.tracked _ entry.1 entry.2 hentry).1
  refine ⟨(h.consistent.sound.knows ho .keepAlive).grows (changes_act hadmits).grows,
    (h.enlisted hmem tickFirst).id_lt, ?_⟩
  have htask := (h.begun tickFirst).task?_keepAlive h hmem
  rw [if_pos hrunning] at htask
  exact ⟨_, htask, rfl, rfl⟩

theorem Imminent.task?_of_stopped (h : system.Imminent round c) (hstopped : system.running = false)
    (hmem : keepAlive ∈ system.keepAlives c) (tickFirst : Bool)
    : (system.step tickFirst round.id).task? keepAlive.2 = none := by
  have htask := (h.begun tickFirst).task?_keepAlive h hmem
  rw [hstopped, if_neg Bool.false_ne_true] at htask
  exact htask

theorem Comes.eq_of_none (h : start.Comes id actions result) (hlegal : Legal start actions)
    (hid : id < start.nextTask) (hnone : start.task? id = none) : result = .error .abandoned := by
  cases h with
  | never => rfl
  | @ended past _ hsuffix hends =>
    cases past with
    | nil => cases hends
    | cons action earlier =>
      have hearlier := (hlegal.of_suffix hsuffix).1
      obtain ⟨task, htask⟩ := hends.alive
      cases (hearlier.grows.ended id hid hnone).symm.trans htask

theorem Imminent.fares (h : system.Imminent round c) (hmem : keepAlive ∈ system.keepAlives c)
    (hunhindered : system.Unhindered round c (system.step tickFirst round.id) actions)
    (hcomes : (system.step tickFirst round.id).Comes keepAlive.2 actions result)
    : (system.errand keepAlive.1 .keepAlive).Fares
        ((system.step tickFirst round.id).begunBy keepAlive.2 actions) result := by
  have hid : keepAlive.2 ∈ (system.keepAlives c).map (·.2) := List.mem_map_of_mem hmem
  cases hrunning : system.running with
  | true =>
    apply (h.starts hrunning hmem tickFirst).fares_of_comes rfl hunhindered.legal _ _ hcomes
    . exact fun earlier hsuffix => (hunhindered.rule _ earlier hsuffix).2 hid
    . exact fun earlier hsuffix => hunhindered.rule _ earlier hsuffix
  | false =>
    have hnone := h.task?_of_stopped hrunning hmem tickFirst
    have hlt := (h.enlisted hmem tickFirst).id_lt
    obtain rfl := hcomes.eq_of_none hunhindered.legal hlt hnone
    rw [begunBy_of_gone hunhindered.legal (List.nil_suffix) hlt hnone]
    exact .unasked .abandoned

theorem Imminent.limits (h : system.Imminent round c) (hmem : keepAlive ∈ system.keepAlives c)
    (hunhindered : system.Unhindered round c (system.step tickFirst round.id) actions)
    : (system.errand keepAlive.1 .keepAlive).Limits
        ((system.step tickFirst round.id).begunBy keepAlive.2 actions) := by
  have hid : keepAlive.2 ∈ (system.keepAlives c).map (·.2) := List.mem_map_of_mem hmem
  have hrounds := (h.rounds tickFirst).after (h.convened tickFirst) hunhindered
  rcases hrounds.comes_or hid with hthere | ⟨result, hcomes⟩
  . obtain ⟨task, htask⟩ := Option.ne_none_iff_exists'.1 hthere
    cases hrunning : system.running with
    | true => exact (h.starts hrunning hmem tickFirst).limits hunhindered.legal htask
    | false =>
      have hnone := h.task?_of_stopped hrunning hmem tickFirst
      have hlt := (h.enlisted hmem tickFirst).id_lt
      cases (hunhindered.legal.grows.ended _ hlt hnone).symm.trans htask
  . exact (h.fares hmem hunhindered hcomes).limits

theorem Imminent.of_eq_census (h : system.Imminent round c)
    (hunhindered : system.Unhindered round c (system.step tickFirst round.id) actions)
    {done : List (TaskId × Except Error Value)}
    (hall : done.map (·.1) = (system.keepAlives c).map (·.2))
    (hcomes : ∀ entry ∈ done, (system.step tickFirst round.id).Comes entry.1 actions entry.2)
    : Report.of (system.dead c).length (done.map (·.2)) =
        system.census (system.step tickFirst round.id) c actions := by
  have hcount (counted : Bool → Bool)
      : (done.map (·.2)).countP (fun result => counted result.isOk) =
          (system.keepAlives c).countP fun keepAlive =>
            counted ((system.step tickFirst round.id).confirmed actions keepAlive.2) := by
    have hconfirmed : ∀ entry ∈ done, (counted entry.2.isOk = true ↔
        counted ((system.step tickFirst round.id).confirmed actions entry.1) = true) := by
      intro entry hentry
      have hmem : entry.1 ∈ (system.keepAlives c).map (·.2) := hall ▸ List.mem_map_of_mem hentry
      obtain ⟨keepAlive, hkeepAlive, heq⟩ := List.mem_map.1 hmem
      have hentryComes := hcomes entry hentry
      rw [← heq] at hentryComes ⊢
      have hfares := h.fares hkeepAlive hunhindered hentryComes
      rw [Bool.eq_iff_iff.2 ((hfares.isOk_iff rfl).trans confirmed_iff.symm)]
    have hkeys := congrArg (List.countP fun id =>
      counted ((system.step tickFirst round.id).confirmed actions id)) hall
    rw [List.countP_map, List.countP_map] at hkeys
    rw [List.countP_map]
    exact (List.countP_congr hconfirmed).trans hkeys
  unfold Report.of census
  congr 1
  . exact hcount fun counted => counted
  . exact hcount fun counted => !counted

theorem Imminent.reports (h : system.Imminent round c)
    (hunhindered : system.Unhindered round c (system.step tickFirst round.id) actions)
    (hgone : ((system.step tickFirst round.id).after actions).task? round.id = none)
    : ∃ report, (system.step tickFirst round.id).Reports round ((system.keepAlives c).map (·.2))
        (system.dead c).length actions report := by
  cases (h.rounds tickFirst).after (h.convened tickFirst) hunhindered with
  | reports report hreports => exact ⟨report, hreports⟩
  | gathers hgathers =>
    obtain ⟨_, hthere⟩ := hgathers.task?_eq
    cases hgone.symm.trans hthere

theorem Imminent.told (h : system.Imminent round c)
    (hunhindered : system.Unhindered round c (system.step tickFirst round.id) actions)
    (hgone : ((system.step tickFirst round.id).after actions).task? round.id = none)
    : ∃ past, past <:+ actions ∧
        ((system.step tickFirst round.id).after past).task? round.id = none ∧
        ((system.step tickFirst round.id).after past).Told round
          (.ok (.report (system.census (system.step tickFirst round.id) c actions))) := by
  obtain ⟨report, hreports⟩ := h.reports hunhindered hgone
  obtain ⟨_, ⟨past, hsuffix, hnone, htold⟩, done, hall, hcomes, rfl⟩ := hreports
  rw [h.of_eq_census hunhindered hall hcomes] at htold
  exact ⟨past, hsuffix, hnone, htold⟩

theorem Imminent.fared (h : system.Imminent round c)
    (hunhindered : system.Unhindered round c (system.step tickFirst round.id) actions)
    (hgone : ((system.step tickFirst round.id).after actions).task? round.id = none)
    (hmem : keepAlive ∈ system.keepAlives c)
    : ∃ result, (system.step tickFirst round.id).Comes keepAlive.2 actions result ∧
        (system.errand keepAlive.1 .keepAlive).Fares
          ((system.step tickFirst round.id).begunBy keepAlive.2 actions) result := by
  obtain ⟨_, _, _, done, hall, hcomes, _⟩ := h.reports hunhindered hgone
  have hid : keepAlive.2 ∈ done.map (·.1) := hall ▸ List.mem_map_of_mem hmem
  obtain ⟨entry, hentry, heq⟩ := List.mem_map.1 hid
  have hkeepAlive := hcomes entry hentry
  rw [heq] at hkeepAlive
  exact ⟨entry.2, hkeepAlive, h.fares hmem hunhindered hkeepAlive⟩

theorem Imminent.alert (h : system.Imminent round c) (tickFirst : Bool)
    : (system.step tickFirst round.id).Alert round.id := by
  have hbegun := h.begun tickFirst
  generalize system.step tickFirst round.id = start at hbegun ⊢
  cases hbegun with
  | ended => exact alert_of_none (task?_finish _ round _)
  | @waits ids report middle hopens hrunning _ =>
    have hnone := hopens.letters_of_running hrunning fun _ => h.letters_eq
    intro task first rest report next htask hstage hready
    have hround : middle.task? round.id = some round := hopens.task?_eq h.task?_eq
    obtain rfl := Option.some.inj ((task?_setTask_stage hround _).symm.trans htask)
    injection hstage with hids
    exact absurd (hnone first (hids ▸ List.mem_cons_self)) hready

theorem Imminent.ends (h : system.Imminent round c) {run : Nat → Action}
    (hfair : (system.step tickFirst round.id).Fair run)
    (hunhindered : ∀ n,
      system.Unhindered round c (system.step tickFirst round.id) (past run n))
    (hstalls : ∀ n, ∀ keepAlive ∈ system.keepAlives c,
      ¬((system.step tickFirst round.id).after (past run n)).Stalls keepAlive.2)
    : ∃ n, ((system.step tickFirst round.id).after (past run n)).task? round.id = none := by
  have hadmits : system.Admits (.step tickFirst round.id) := trivial
  have hconsistent : (system.step tickFirst round.id).Consistent := h.consistent.act hadmits trivial
  have hline : ∀ id, (system.step tickFirst round.id).InLine id :=
    inLine_act h.consistent hadmits trivial h.line
  have hends : ∀ id ∈ (system.keepAlives c).map (·.2),
      ∃ n, ((system.step tickFirst round.id).after (past run n)).task? id = none := by
    intro id hid
    obtain ⟨keepAlive, hmem, rfl⟩ := List.mem_map.1 hid
    apply hfair.ends hconsistent hline (h.enlisted hmem tickFirst)
    exact fun n => hstalls n keepAlive hmem
  obtain ⟨n, report, hreports⟩ :=
    hfair.reports hunhindered (h.rounds tickFirst) (h.convened tickFirst) (h.alert tickFirst) hends
  exact ⟨n, hreports.task?_eq⟩

end

/-!
## Promises
-/

/--
What a round of keepalives promises that has taken its first step and is left to itself. Entries of dead
proxies are gone, and nothing else. A keepalive is started for every object that is not released and whose
proxy lives and is kept track of, and nothing else is. Whatever others do, it makes one call at most, for the
object that it was started for. Apart from calls, neither the round nor its keepalives do anything that users
could see. When the round is over, it has told how many dead entries it found, how many calls were confirmed
and how many keepalives came to something else. If everybody gets his turn and no keepalive waits for ever for
an opening or a reply, the round is over sooner or later.
-/
structure Upkeep (system : System) (round : Task) (c : Nat) (start : System) : Prop where
  swept : start.store = system.store.modifyFactory (system.store.context c).factory fun factory =>
    { factory with tracked := factory.tracked.filter (system.store.alive ·.2) }
  started : start.nextTask = system.nextTask + (system.keepAlives c).length ∧
    start.calls = system.calls ∧
    ∀ keepAlive ∈ system.keepAlives c, start.task? keepAlive.2 =
      if system.running then some (keepAliveTask keepAlive) else none
  addressed : ∀ actions, system.Unhindered round c start actions →
    ∀ keepAlive ∈ system.keepAlives c, start.begunBy keepAlive.2 actions = [] ∨
      ∃ record reply, start.begunBy keepAlive.2 actions = [(record, reply)] ∧
        record.target = (system.store.object keepAlive.1).reference ∧ record.request = .keepAlive
  modest : ∀ actions, system.Unhindered round c start actions → ∀ tickFirst id earlier,
    .step tickFirst id :: earlier <:+ actions →
    id = round.id ∨ id ∈ (system.keepAlives c).map (·.2) →
    (start.after earlier).Modest (start.after (.step tickFirst id :: earlier))
  silent : ∀ actions, system.Unhindered round c start actions → start.begunBy round.id actions = []
  told : ∀ actions, system.Unhindered round c start actions →
    (start.after actions).task? round.id = none →
    (∃ past, past <:+ actions ∧ (start.after past).task? round.id = none ∧
      (start.after past).Told round (.ok (.report (system.census start c actions)))) ∧
    (system.census start c actions).sent + (system.census start c actions).failed =
      (system.upheld c).length ∧
    ∀ keepAlive ∈ system.keepAlives c, ∃ result, start.Comes keepAlive.2 actions result ∧
      (system.errand keepAlive.1 .keepAlive).Fares (start.begunBy keepAlive.2 actions) result
  ended : ∀ run, start.Fair run → (∀ n, system.Unhindered round c start (past run n)) →
    (∀ n, ∀ keepAlive ∈ system.keepAlives c, ¬(start.after (past run n)).Stalls keepAlive.2) →
    ∃ n, (start.after (past run n)).task? round.id = none

theorem upkeep_of_imminent (system : System) (round : Task) (c : Nat)
    (h : system.Imminent round c) (tickFirst : Bool)
    : system.Upkeep round c (system.step tickFirst round.id) := by
  have hbegun := h.begun tickFirst
  have hrounds := h.rounds tickFirst
  have hconvened := h.convened tickFirst
  refine ⟨?_, ?_, ?_, ?_, ?_, ?_, ?_⟩
  . rw [hbegun.eqs.1, Store.snd_sweep]
  . refine ⟨?_, hbegun.eqs.2.2, fun keepAlive hmem => hbegun.task?_keepAlive h hmem⟩
    rw [hbegun.eqs.2.1, length_keepAlives]
  . intro actions hunhindered keepAlive hmem
    rcases h.limits hmem hunhindered with hnone | ⟨record, reply, hcalls, hrecord⟩
    . exact .inl hnone
    . exact .inr ⟨record, reply, hcalls, hrecord.target_eq, hrecord.request_eq⟩
  . intro actions hunhindered tickFirst' id earlier hsuffix hid
    have hearlier := (hunhindered.of_suffix hsuffix).tail
    rcases hid with rfl | hmem
    . exact ((hrounds.after hconvened hearlier).modest_step h.job_eq tickFirst').1
    . obtain ⟨keepAlive, hkeepAlive, rfl⟩ := List.mem_map.1 hmem
      exact ((h.enlisted hkeepAlive tickFirst).after hearlier.legal).modest_step tickFirst'
  . exact fun actions hunhindered => begunBy_round hrounds hconvened hunhindered
  . exact fun actions hunhindered hgone => ⟨h.told hunhindered hgone, census_add _ _ _ _,
      fun keepAlive => h.fared hunhindered hgone⟩
  . exact fun run => h.ends

-- Two more pipelines, one of which is let go of at once, a server that breaks off one call to keep an object
-- alive, and a round.
def assembling : List Action :=
  [.spawn (.round 0) { handler := .channel true } "round", .share (.letGo 2),
    .share (.resolve 0 0 (.pipeline "r")), .share (.resolve 0 0 (.pipeline "q")),
    .serve 0 [⟨some "keepAlive", none, .error (.broken "gone"), .immediate, some 1⟩] []]

def attended : System :=
  furnished.after assembling

def attendance (id : TaskId) (c : Nat) : Task where
  id := id
  job := .round c
  continuation := { handler := .channel true }
  name := "round"

-- The round steps once more in vain, then its keepalives do, and it collects their results one by one.
def attending : List Action :=
  [.step false 0, .line [], .step false 2, .line [0], .step false 1, .line [2], .step false 0, .line [1, 2]]

theorem imminent_attended : attended.Imminent (attendance 0 0) 0 := by
  have horderly : furnished.Orderly assembling := by
    refine Orderly.other ?_ trivial trivial
    refine Orderly.other ?_ trivial trivial
    refine Orderly.other ?_ Nat.one_pos trivial
    refine Orderly.other ?_ Nat.one_pos trivial
    exact Orderly.nil.other trivial trivial
  obtain ⟨hconsistent, hline⟩ := horderly.consistent consistent_furnished fun _ => inLine_of_none rfl
  refine ⟨hconsistent, hline, rfl, rfl, rfl, ?_⟩
  intro task htask
  cases List.mem_singleton.1 htask
  exact List.not_mem_nil

theorem fair_attending : (attended.step false 0).Fair (rests attending) := by
  apply fair_rests
  . refine Orderly.turn ?_ rfl false
    refine Orderly.turn ?_ rfl false
    refine Orderly.turn ?_ rfl false
    exact Orderly.nil.turn rfl false
  . rfl
  . rfl
  . decide
  . decide

theorem upkeep_attended
    : attended.Imminent (attendance 0 0) 0 ∧ attended.Upkeep (attendance 0 0) 0 (attended.step false 0) ∧
      (attended.step false 0).Fair (rests attending) ∧
      (∀ n, attended.Unhindered (attendance 0 0) 0 (attended.step false 0) (past (rests attending) n)) ∧
      (∀ n id, ¬((attended.step false 0).after (past (rests attending) n)).Stalls id) ∧
      attended.upheld 0 = [0, 1] ∧
      attended.census (attended.step false 0) 0 attending = { sent := 1, failed := 1, swept := 1 } ∧
      ((attended.step false 0).after attending).task? 0 = none := by
  have hfair := fair_attending
  refine ⟨imminent_attended, upkeep_of_imminent attended (attendance 0 0) 0 imminent_attended false, hfair,
    ?_, ?_, rfl, by decide, rfl⟩
  . apply obeys_rests hfair.legal
    . simp only [attending, List.forall_mem_cons, LeavesAlone, List.not_mem_nil, false_implies,
        implies_true, and_self]
    . trivial
  . apply not_stalls_rests rfl
    decide

-- A second context keeps track of a pipeline of the first one. The pipeline is released, and a round begins
-- in the second context.
def skirting : List Action :=
  [.spawn (.round 1) { handler := .channel true } "round", .operateBlocking 1 .release,
    .share (.resolve 1 0 (.pipeline "q")), .build {}]

def crossed : System :=
  furnished.after skirting

theorem imminent_crossed : crossed.Imminent (attendance 1 1) 1 := by
  have horderly : furnished.Orderly skirting := by
    refine Orderly.other ?_ trivial trivial
    refine Orderly.other ?_ trivial trivial
    refine Orderly.other ?_ Nat.two_pos trivial
    exact Orderly.nil.other trivial trivial
  obtain ⟨hconsistent, hline⟩ := horderly.consistent consistent_furnished fun _ => inLine_of_none rfl
  refine ⟨hconsistent, hline, rfl, rfl, rfl, ?_⟩
  intro task htask
  cases List.mem_singleton.1 htask
  exact List.not_mem_nil

/--
Released objects are skipped, wherever they are still kept track of.
-/
theorem skipped_crossed
    : ¬∀ (system : System) (round : Task) (c : Nat), system.Imminent round c →
        ∀ tickFirst actions report, system.Unhindered round c (system.step tickFirst round.id) actions →
        ((system.step tickFirst round.id).after actions).task? round.id = none →
        ((system.step tickFirst round.id).after actions).Told round (.ok (.report report)) →
        report.sent + report.failed =
          (system.store.living (system.store.context c).factory).length := by
  intro hall
  have hsame := hall crossed (attendance 1 1) 1 imminent_crossed false []
    { sent := 0, failed := 0, swept := 0 } (.nil _ _) rfl fun _ => List.mem_singleton.2 rfl
  revert hsame
  decide

end System

end MediaProxy
