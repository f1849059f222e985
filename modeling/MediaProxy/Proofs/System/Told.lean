import MediaProxy.Proofs.System.Frame

/-!
This module contains what continuations are told: the results that callbacks take, and those that lie
ready for whoever listens at the other end of a channel.
-/

namespace MediaProxy

namespace System

def noted (system : System) (id : TaskId) : List (Except Error Outcome) :=
  system.history.filterMap fun
    | .resolved _ other _ result => if other = id then some result else none
    | _ => none

def letters (system : System) (id : TaskId) : List (Except Error Outcome) :=
  (system.inbox.filter (·.1 = id)).map (·.2)

theorem noted_note (system : System) (time : Nat) (id : TaskId) (name : String)
    (result : Except Error Outcome) (other : TaskId)
    : (system.note (.resolved time id name result)).noted other =
        if id = other then result :: system.noted other else system.noted other := by
  unfold note noted
  by_cases h : id = other
  . simp [h]
  . simp [h]

theorem letters_append (system : System) (id : TaskId) (result : Except Error Outcome)
    (other : TaskId)
    : { system with inbox := system.inbox ++ [(id, result)] }.letters other =
        if id = other then system.letters other ++ [result] else system.letters other := by
  unfold letters
  dsimp only
  rw [List.filter_append, List.map_append]
  by_cases h : id = other
  . simp [h]
  . simp [h]

theorem letters_filter (system : System) (id other : TaskId)
    : { system with inbox := system.inbox.filter (·.1 ≠ id) }.letters other =
        if id = other then [] else system.letters other := by
  unfold letters
  dsimp only
  rw [List.filter_filter]
  by_cases h : id = other
  . rw [if_pos h, List.map_eq_nil_iff, List.filter_eq_nil_iff]
    simp [h]
  . rw [if_neg h]
    congr 1
    apply List.filter_congr
    intro letter _
    by_cases hletter : letter.1 = other
    . simp [hletter, Ne.symm h]
    . simp [hletter]

theorem head?_letters (system : System) (id : TaskId)
    : (system.letters id).head? = system.inbox.lookup id := by
  unfold letters
  induction system.inbox with
  | nil => rfl
  | cons letter inbox ih =>
    obtain ⟨other, result⟩ := letter
    by_cases h : other = id
    . simp [h]
    . have hne : id ≠ other := Ne.symm h
      simp [h, List.lookup_cons, beq_eq_false_iff_ne.2 hne, ih]

theorem collect?_of_letters {system : System} {id : TaskId} {result : Except Error Outcome}
    {letters : List (Except Error Outcome)} (h : system.letters id = result :: letters)
    : system.collect? id =
        some (result, { system with inbox := system.inbox.filter (·.1 ≠ id) }) := by
  unfold collect?
  rw [← head?_letters, h]
  rfl

theorem collect?_of_nil {system : System} {id : TaskId} (h : system.letters id = [])
    : system.collect? id = none := by
  unfold collect?
  rw [← head?_letters, h]
  rfl

theorem letters_of_collect? {system after : System} {id : TaskId} {result : Except Error Outcome}
    (h : system.collect? id = some (result, after))
    : system.letters id ≠ [] ∧ after = { system with inbox := system.inbox.filter (·.1 ≠ id) } := by
  cases hletters : system.letters id with
  | nil => cases (collect?_of_nil hletters).symm.trans h
  | cons letter letters =>
    rw [collect?_of_letters hletters] at h
    cases h
    exact ⟨List.cons_ne_nil _ _, rfl⟩

section
variable {scope : Scope} {id other : TaskId} {before after : System}

theorem Says.noted_eq (h : before.Says other after) (hne : other ≠ id)
    : after.noted id = before.noted id := by
  cases h with
  | nothing => rfl
  | noted name result => rw [noted_note, if_neg hne]
  | delivered result => rfl

theorem Says.letters_eq (h : before.Says other after) (hne : other ≠ id)
    : after.letters id = before.letters id := by
  cases h with
  | nothing => rfl
  | noted name result => rfl
  | delivered result => rw [letters_append, if_neg hne]

theorem noted_of_not_resolved {happening : Happening}
    (h : ∀ time id name result, happening ≠ .resolved time id name result) (system : System)
    : (system.note happening).noted = system.noted := by
  funext id
  cases happening with
  | resolved time other name result => exact absurd rfl (h time other name result)
  | _ => rfl

structure Unmoved (id : TaskId) (before after : System) : Prop where
  task?_eq : after.task? id = before.task? id
  noted_eq : after.noted id = before.noted id
  letters_eq : after.letters id = before.letters id

theorem Unmoved.refl (id : TaskId) (system : System) : Unmoved id system system :=
  ⟨rfl, rfl, rfl⟩

theorem Unmoved.trans {third : System} (h : Unmoved id before after)
    (h' : Unmoved id after third) : Unmoved id before third :=
  ⟨h'.task?_eq.trans h.task?_eq, h'.noted_eq.trans h.noted_eq, h'.letters_eq.trans h.letters_eq⟩

theorem Change.noted_eq (h : before.Change scope after) (htasks : ¬scope.tasks id)
    (hid : Apart id before after) : after.noted id = before.noted id := by
  cases h with
  | number hsaid => exact hsaid.noted_eq (hid.ne_of_succ hsaid.same.nextTask_eq)
  | tell other htell _ hsaid =>
    apply hsaid.noted_eq
    rintro rfl
    exact htasks htell
  | note happening hnot => rw [noted_of_not_resolved hnot]
  | _ => rfl

theorem Change.letters_eq (h : before.Change scope after) (htasks : ¬scope.tasks id)
    (hleaves : ¬before.Leaves scope id) (hid : Apart id before after)
    : after.letters id = before.letters id := by
  cases h with
  | number hsaid => exact hsaid.letters_eq (hid.ne_of_succ hsaid.same.nextTask_eq)
  | tell other htell _ hsaid =>
    apply hsaid.letters_eq
    rintro rfl
    exact htasks htell
  | take other hother =>
    rw [letters_filter, if_neg]
    rintro rfl
    exact hleaves hother
  | _ => rfl

theorem Change.unmoved (h : before.Change scope after) (htasks : ¬scope.tasks id)
    (hleaves : ¬before.Leaves scope id) (hid : Apart id before after) : Unmoved id before after :=
  ⟨(h.task?_cases htasks hid).resolve_right fun hleft => hleaves hleft.1, h.noted_eq htasks hid,
    h.letters_eq htasks hleaves hid⟩

theorem not_leaves {system : System} (hresults : ¬scope.results id)
    (hid : id < scope.first ∨ system.nextTask ≤ id) : ¬system.Leaves scope id := by
  rintro (hleft | ⟨hfirst, hlt⟩)
  . exact hresults hleft
  . rcases hid with hold | hnew
    . exact Nat.not_le_of_lt hold hfirst
    . exact Nat.not_le_of_lt hlt hnew

theorem Changes.unmoved (h : before.Changes scope after) (htasks : ¬scope.tasks id)
    (hresults : ¬scope.results id)
    (hid : (id < scope.first ∧ id < before.nextTask) ∨ after.nextTask ≤ id)
    : Unmoved id before after := by
  induction h with
  | refl => exact .refl id before
  | @step middle after hearlier hchange ih =>
    have hle := hearlier.grows.nextTask_le
    have hle' := hchange.grows.nextTask_le
    have hleaves : ¬middle.Leaves scope id :=
      not_leaves hresults (hid.imp And.left (Nat.le_trans hle'))
    refine (ih (hid.imp_right (Nat.le_trans hle'))).trans (hchange.unmoved htasks hleaves ?_)
    exact hid.imp_left fun hold => Nat.lt_of_lt_of_le hold.2 hle

end

/-!
## Steps that tell nothing
-/

structure Untold (before after : System) : Prop where
  tasks_eq : after.tasks = before.tasks
  inbox_eq : after.inbox = before.inbox
  noted_eq : after.noted = before.noted
  nextTask_eq : after.nextTask = before.nextTask

namespace Untold

theorem refl (system : System) : system.Untold system :=
  ⟨rfl, rfl, rfl, rfl⟩

theorem trans {first second third : System} (h : first.Untold second) (h' : second.Untold third)
    : first.Untold third :=
  ⟨h'.tasks_eq.trans h.tasks_eq, h'.inbox_eq.trans h.inbox_eq, h'.noted_eq.trans h.noted_eq,
    h'.nextTask_eq.trans h.nextTask_eq⟩

theorem task?_eq {before after : System} (h : before.Untold after) (id : TaskId)
    : after.task? id = before.task? id := by
  unfold task?
  rw [h.tasks_eq]

theorem letters_eq {before after : System} (h : before.Untold after) (id : TaskId)
    : after.letters id = before.letters id := by
  unfold letters
  rw [h.inbox_eq]

end Untold

section
variable (system : System)

theorem untold_setServer (c : Nat) (server : Server) : system.Untold (system.setServer c server) :=
  ⟨rfl, rfl, rfl, rfl⟩

theorem untold_setSlots (c : Nat) (flavor : Flavor) (slots : Slots)
    : system.Untold (system.setSlots c flavor slots) :=
  ⟨rfl, rfl, rfl, rfl⟩

theorem untold_stepSlots (c : Nat) (flavor : Flavor) (step : Slots → Option Ticket × Slots)
    : system.Untold (system.stepSlots c flavor step) := by
  unfold stepSlots
  dsimp only
  split
  . apply untold_setSlots
  . next id _ =>
    obtain ⟨ready, hwake, _⟩ := wake_eq
      (system.setSlots c flavor (step (system.slots c flavor)).2) id
    rw [hwake]
    exact ⟨rfl, rfl, rfl, rfl⟩

theorem untold_ask (c : Nat) (flavor : Flavor) (lease : Ticket) (target : Reference)
    (request : Request)
    : system.Untold (system.ask c flavor lease target request).2.2 :=
  ⟨rfl, rfl, noted_of_not_resolved (by simp) _, rfl⟩

theorem untold_judge (c : Nat) (flavor : Flavor) (lease : Ticket)
    (outcome : Except RpcError Reply)
    : system.Untold (system.judge c flavor lease outcome) := by
  unfold judge
  split
  . exact .refl system
  . split
    . apply untold_setSlots
    . exact .refl system

theorem untold_conclude (flavor : Flavor) (lease : Ticket) (o : ObjectId) (operation : Operation)
    (reply : Except RpcError Reply)
    : system.Untold (system.conclude flavor lease o operation reply).2 := by
  have hgive := (system.untold_judge (system.store.object o).context flavor lease
    (reply.bind (operation.expect
      (operation.request (system.store.context (system.store.object o).context).config)))).trans
    (untold_stepSlots _ (system.store.object o).context flavor (·.giveBack lease))
  exact ⟨hgive.tasks_eq, hgive.inbox_eq, hgive.noted_eq, hgive.nextTask_eq⟩

theorem untold_connect (c : Nat) (flavor : Flavor) (ticket : Ticket)
    : system.Untold (system.connect c flavor ticket) :=
  ⟨rfl, rfl, rfl, rfl⟩

end

end System

end MediaProxy
