import EdgeSync.Task.Scheduler
import EdgeSync.Task.Tick
import Mathlib.Algebra.Group.Nat.Defs
import Mathlib.Data.List.Nodup
import Mathlib.Logic.Function.Basic

/-!
# The Roster of a Scheduler

Four ways lead out of a scheduler: a task is unscheduled by its number, by an event that
asks for it, by an execution that was the last one, or together with all others when the
scheduler shuts down. A history of what was done says which numbers are scheduled: those that
were given out and have not left since. Every operation does one of four things, and nothing
else about the operations is used.

## Main definitions

- `Roster`, `Roster.Operation`, `Roster.after`: a scheduler with the numbers that tasks store
- `Roster.Deed`, `Roster.returned`, `Roster.Stays`: what a history says
- `Roster.Change`: what an operation can do
- `Roster.Lawful`: the laws of a roster with a history

## Main results

- `Roster.change_perform`: every operation is a change
- `Roster.Tells.change`: a change keeps the roster and the history together
- `Roster.lawful_after`: the laws hold after all operations
-/

namespace EdgeSync

open Schedule

/-! ## Unscheduling -/

namespace Scheduler

theorem isScheduled_iff {s : Scheduler} {id : TaskId} :
    s.isScheduled id = true ↔ ∃ name, (id, name) ∈ s.entries := by
  constructor
  · intro h
    obtain ⟨⟨i, name⟩, hmem, hid⟩ := List.any_eq_true.mp h
    obtain rfl : i = id := eq_of_beq hid
    exact ⟨name, hmem⟩
  · rintro ⟨name, hmem⟩
    exact List.any_eq_true.mpr ⟨(id, name), hmem, beq_self_eq_true id⟩

theorem unschedule_absent {s : Scheduler} {id : TaskId} (h : s.isScheduled id = false) :
    s.unschedule id = (false, s) := by
  rw [unschedule, h]
  rfl

theorem unschedule_fst (s : Scheduler) (id : TaskId) :
    (s.unschedule id).1 = s.isScheduled id := by
  rw [unschedule]
  split
  · next h => exact h.symm
  · next h => exact (Bool.not_eq_true _ |>.mp h).symm

theorem unschedule_frame (s : Scheduler) (id : TaskId) :
    (s.unschedule id).2.issued = s.issued ∧ (s.unschedule id).2.isCanceled = s.isCanceled := by
  rw [unschedule]
  split <;> exact ⟨rfl, rfl⟩

theorem unschedule_entries (s : Scheduler) (id : TaskId) :
    (s.unschedule id).2.entries = s.entries.filter fun entry => entry.1 != id := by
  rw [unschedule]
  split
  · rfl
  · next h =>
    symm
    rw [List.filter_eq_self]
    rintro ⟨i, name⟩ hmem
    rw [bne_iff_ne]
    rintro rfl
    exact h (isScheduled_iff.mpr ⟨name, hmem⟩)

theorem mem_unschedule_loops {s : Scheduler} {id : TaskId} {l : TickLoop} (hother : l.id ≠ id) :
    l ∈ (s.unschedule id).2.loops ↔ l ∈ s.loops := by
  rw [unschedule]
  split
  · simp [List.mem_filter, hother]
  · rfl

/-- Ordered entries are listed as they are. -/
theorem scheduled_eq {s : Scheduler}
    (hascending : s.entries.Pairwise fun a b => a.1.number < b.1.number) :
    s.scheduled = s.entries := by
  apply List.mergeSort_of_pairwise
  apply hascending.imp
  intro a b hlt
  rw [decide_eq_true_iff, UInt64.le_iff_toNat_le]
  exact Nat.le_of_lt (UInt64.lt_iff_toNat_lt.mp hlt)

end Scheduler

/-! ## Rosters -/

/-- A scheduler, and the number that each task has stored. -/
structure Roster where
  scheduler : Scheduler
  stored : Nat → Option TaskId

namespace Roster

/-- A roster with no task. -/
def new (stored : Nat → Option TaskId) : Roster := ⟨.empty, stored⟩

/-- What is done with a scheduler: by those who hold it, by the listener to stop events, by
an execution that ends, and by a loop that goes on waiting. -/
inductive Operation where
  | schedule (clock : Clock) (task : Nat) (name expression : String)
  | unschedule (id : TaskId)
  | heed (event : Event)
  | conclude (id : TaskId) (outcome : Outcome)
  | rearm (clock : Clock) (made : TickLoop)
  | cancel
  | shutdown

/-- What was done with a scheduler. -/
inductive Deed where
  | scheduled (name : String) (answer : Except ScheduleFault TaskId)
  | unscheduled (id : TaskId) (answer : Bool)
  | heeded (event : Event)
  | concluded (id : TaskId) (outcome : Outcome)
  | rearmed
  | canceled
  | shutDown

/-- Do what is asked. -/
def perform (r : Roster) : Operation → Deed × Roster
  | .schedule clock task name expression =>
    match r.scheduler.schedule clock task name expression with
    | .error fault => (.scheduled name (.error fault), r)
    | .ok (id, scheduler) =>
      (.scheduled name (.ok id), ⟨scheduler, Function.update r.stored task (some id)⟩)
  | .unschedule id =>
    let (removed, scheduler) := r.scheduler.unschedule id
    (.unscheduled id removed, { r with scheduler })
  | .heed e => (.heeded e, { r with scheduler := r.scheduler.heed [e] })
  | .conclude id outcome =>
    (.concluded id outcome,
      if outcome = .done .terminated then { r with scheduler := (r.scheduler.unschedule id).2 }
      else r)
  | .rearm clock made => (.rearmed, { r with scheduler := r.scheduler.rearm clock made })
  | .cancel => (.canceled, { r with scheduler := r.scheduler.cancel })
  | .shutdown => (.shutDown, { r with scheduler := r.scheduler.shutdown })

/-- The history of some operations, the latest first, and the roster after them. -/
def after (r : Roster) : List Operation → List Deed × Roster
  | [] => ([], r)
  | operation :: earlier =>
    let (deeds, r) := after r earlier
    let (deed, r) := r.perform operation
    (deed :: deeds, r)

/-! ## What a History Says -/

/-- The number that a deed has given out. -/
def Deed.returned? : Deed → Option TaskId
  | .scheduled _ (.ok id) => some id
  | _ => none

/-- The numbers given out, the first one first. -/
def returned (deeds : List Deed) : List TaskId :=
  (deeds.filterMap Deed.returned?).reverse

/-- A deed by which a number leaves. -/
def Deed.Ends (id : TaskId) : Deed → Prop
  | .unscheduled i _ => i = id
  | .heeded e => ∃ name, e.payload = .stop ⟨name, id⟩
  | .concluded i outcome => i = id ∧ outcome = .done .terminated
  | .shutDown => True
  | _ => False

/-- A number was given out for a name, and has not left since. -/
def Stays (deeds : List Deed) (id : TaskId) (name : String) : Prop :=
  ∃ later earlier, deeds = later ++ .scheduled name (.ok id) :: earlier ∧
    ∀ deed ∈ later, ¬ deed.Ends id

theorem stays_nil (id : TaskId) (name : String) : ¬ Stays [] id name := by
  rintro ⟨later, earlier, heq, -⟩
  cases later <;> cases heq

theorem stays_cons {deed : Deed} {deeds : List Deed} {id : TaskId} {name : String} :
    Stays (deed :: deeds) id name ↔
      deed = .scheduled name (.ok id) ∨ (¬ deed.Ends id ∧ Stays deeds id name) := by
  constructor
  · rintro ⟨later, earlier, heq, hlater⟩
    -- The latest deed is the one that gave the number out, or one of those after it.
    cases later with
    | nil =>
      injection heq with hdeed
      exact .inl hdeed
    | cons d later =>
      injection heq with hdeed hdeeds
      subst hdeed
      rw [List.forall_mem_cons] at hlater
      exact .inr ⟨hlater.1, later, earlier, hdeeds, hlater.2⟩
  · rintro (rfl | ⟨hdeed, later, earlier, rfl, hlater⟩)
    · exact ⟨[], deeds, rfl, nofun⟩
    · refine ⟨deed :: later, earlier, rfl, ?_⟩
      rw [List.forall_mem_cons]
      exact ⟨hdeed, hlater⟩

theorem Stays.mem_returned {deeds : List Deed} {id : TaskId} {name : String}
    (h : Stays deeds id name) : id ∈ returned deeds := by
  obtain ⟨later, earlier, rfl, -⟩ := h
  rw [returned, List.mem_reverse, List.mem_filterMap]
  exact ⟨.scheduled name (.ok id), List.mem_append_right _ List.mem_cons_self, rfl⟩

theorem returned_cons_some {deed : Deed} {id : TaskId} (h : deed.returned? = some id)
    (deeds : List Deed) : returned (deed :: deeds) = returned deeds ++ [id] := by
  rw [returned, List.filterMap_cons_some h, List.reverse_cons]
  rfl

theorem returned_cons_none {deed : Deed} (h : deed.returned? = none) (deeds : List Deed) :
    returned (deed :: deeds) = returned deeds := by
  rw [returned, List.filterMap_cons_none h]
  rfl

/-! ## Changes -/

/-- What an operation can do: give out the next number, take one number away, take away all of
them, or leave them as they are. -/
inductive Change (r : Roster) : Deed → Roster → Prop where
  | issue {scheduler : Scheduler} {id : TaskId} {name : String} (task : Nat)
      (hid : id = ⟨UInt64.ofNat (r.scheduler.issued + 1)⟩)
      (hentries : scheduler.entries = r.scheduler.entries ++ [(id, name)])
      (hissued : scheduler.issued = r.scheduler.issued + 1)
      (hopen : r.scheduler.isCanceled = false) :
      Change r (.scheduled name (.ok id)) ⟨scheduler, Function.update r.stored task (some id)⟩
  | remove {deed : Deed} (id : TaskId) (hdeed : ∀ i, deed.Ends i ↔ i = id)
      (hnone : deed.returned? = none) (hopen : deed ≠ .shutDown) :
      Change r deed { r with scheduler := (r.scheduler.unschedule id).2 }
  | close : Change r .shutDown { r with scheduler := r.scheduler.shutdown }
  | keep {deed : Deed} {scheduler : Scheduler} (hdeed : ∀ i, ¬ deed.Ends i)
      (hnone : deed.returned? = none) (hentries : scheduler.entries = r.scheduler.entries)
      (hissued : scheduler.issued = r.scheduler.issued)
      (hcanceled : r.scheduler.isCanceled = true → scheduler.isCanceled = true)
      (hopen : deed ≠ .shutDown) :
      Change r deed { r with scheduler }

theorem heed_stop (s : Scheduler) {e : Event} {request : StopRequest}
    (hstop : e.payload = .stop request) : s.heed [e] = (s.unschedule request.id).2 := by
  simp only [Scheduler.heed, List.foldl_cons, List.foldl_nil, hstop]

theorem heed_other (s : Scheduler) {e : Event} (hother : ∀ request, e.payload ≠ .stop request) :
    s.heed [e] = s := by
  simp only [Scheduler.heed, List.foldl_cons, List.foldl_nil]

theorem schedule_canceled {s : Scheduler} (h : s.isCanceled = true) (clock : Clock) (task : Nat)
    (name expression : String) : s.schedule clock task name expression = .error .closed := by
  rw [Scheduler.schedule, if_pos h]

theorem schedule_malformed {s : Scheduler} (h : s.isCanceled = false) {expression : String}
    {fault : ExpressionFault} (hparse : Schedule.parse expression = .error fault) (clock : Clock)
    (task : Nat) (name : String) :
    s.schedule clock task name expression = .error (.badExpression expression fault) := by
  rw [Scheduler.schedule, h, hparse]
  rfl

/-- A scheduler that is not canceled takes every task whose schedule can be read. -/
theorem schedule_ok {s : Scheduler} (h : s.isCanceled = false) {expression : String}
    {schedule : Schedule} (hparse : Schedule.parse expression = .ok schedule) (clock : Clock)
    (task : Nat) (name : String) :
    let id : TaskId := ⟨UInt64.ofNat (s.issued + 1)⟩
    s.schedule clock task name expression = .ok (id,
      { s with
        entries := s.entries ++ [(id, name)]
        loops := s.loops ++ Scheduler.loopFrom clock id task schedule
        issued := s.issued + 1 }) := by
  rw [Scheduler.schedule, h, hparse]
  rfl

theorem schedule_accepted {s : Scheduler} (h : s.isCanceled = false) {expression : String}
    {schedule : Schedule} (hparse : Schedule.parse expression = .ok schedule) (clock : Clock)
    (task : Nat) (name : String) :
    ∃ scheduler, s.schedule clock task name expression =
        .ok (⟨UInt64.ofNat (s.issued + 1)⟩, scheduler) ∧
      scheduler.entries = s.entries ++ [(⟨UInt64.ofNat (s.issued + 1)⟩, name)] ∧
      scheduler.issued = s.issued + 1 :=
  ⟨_, schedule_ok h hparse clock task name, rfl, rfl⟩

/-- Every operation is a change. -/
theorem change_perform (r : Roster) (operation : Operation) :
    Change r (r.perform operation).1 (r.perform operation).2 := by
  cases operation with
  | schedule clock task name expression =>
    simp only [perform]
    cases hopen : r.scheduler.isCanceled with
    | true =>
      rw [schedule_canceled hopen]
      exact .keep (fun _ => not_false) rfl rfl rfl (fun h => h) nofun
    | false =>
      cases hparse : Schedule.parse expression with
      | error fault =>
        rw [schedule_malformed hopen hparse]
        exact .keep (fun _ => not_false) rfl rfl rfl (fun h => h) nofun
      | ok schedule =>
        obtain ⟨scheduler, heq, hentries, hissued⟩ :=
          schedule_accepted hopen hparse clock task name
        rw [heq]
        exact .issue task rfl hentries hissued hopen
  | unschedule id => exact .remove id (fun i => eq_comm) rfl nofun
  | heed e =>
    by_cases hstop : ∃ request, e.payload = .stop request
    · obtain ⟨request, hstop⟩ := hstop
      simp only [perform, heed_stop _ hstop]
      refine .remove request.id (fun i => ?_) rfl nofun
      simp only [Deed.Ends, hstop, Payload.stop.injEq]
      constructor
      · rintro ⟨name, rfl⟩
        rfl
      · rintro rfl
        exact ⟨request.name, rfl⟩
    · have hother : ∀ request, e.payload ≠ .stop request := fun request heq => hstop ⟨request, heq⟩
      simp only [perform, heed_other _ hother]
      refine .keep ?_ rfl rfl rfl (fun h => h) nofun
      rintro i ⟨name, heq⟩
      exact hother _ heq
  | conclude id outcome =>
    by_cases hlast : outcome = .done .terminated
    · simp only [perform, if_pos hlast]
      refine .remove id (fun i => ?_) rfl nofun
      simp only [Deed.Ends, hlast, and_true]
      exact eq_comm
    · simp only [perform, if_neg hlast]
      exact .keep (fun i hends => hlast hends.2) rfl rfl rfl (fun h => h) nofun
  | rearm clock made => exact .keep (fun _ => not_false) rfl rfl rfl (fun h => h) nofun
  | cancel => exact .keep (fun _ => not_false) rfl rfl rfl (fun _ => rfl) nofun
  | shutdown => exact .close

/-! ## The Roster and Its History -/

/-- A history tells which numbers have been given out, and which of them are scheduled. -/
structure Tells (deeds : List Deed) (r : Roster) : Prop where
  issued : r.scheduler.issued = (returned deeds).length
  numbers : (returned deeds).map (·.number.toNat) = List.range' 1 (returned deeds).length
  entries : ∀ id name, (id, name) ∈ r.scheduler.entries ↔ Stays deeds id name
  ascending : r.scheduler.entries.Pairwise fun a b => a.1.number < b.1.number
  closed : .shutDown ∈ deeds → r.scheduler.isCanceled = true ∧ r.scheduler.entries = []

theorem tells_new (stored : Nat → Option TaskId) : Tells [] (new stored) where
  issued := rfl
  numbers := rfl
  entries := fun id name => iff_of_false List.not_mem_nil (stays_nil id name)
  ascending := List.Pairwise.nil
  closed := nofun

variable {deeds : List Deed} {r r' : Roster} {deed : Deed}

/-- The numbers that are scheduled are among those given out. -/
theorem Tells.number_le (h : Tells deeds r) {entry : TaskId × String}
    (hentry : entry ∈ r.scheduler.entries) : entry.1.number.toNat ≤ r.scheduler.issued := by
  have hreturned := ((h.entries entry.1 entry.2).mp hentry).mem_returned
  have hnumber : entry.1.number.toNat ∈ List.range' 1 (returned deeds).length := by
    rw [← h.numbers]
    exact List.mem_map_of_mem hreturned
  rw [List.mem_range'_1] at hnumber
  rw [h.issued]
  omega

/-- The numbers issued are those given out. -/
theorem Change.issued (hchange : Change r deed r')
    (hissued : r.scheduler.issued = (returned deeds).length) :
    r'.scheduler.issued = (returned (deed :: deeds)).length := by
  cases hchange with
  | issue task hid hentries hnext hopen =>
    rw [returned_cons_some rfl, List.length_append, List.length_singleton, ← hissued]
    exact hnext
  | remove id hdeed hnone hopen =>
    rw [returned_cons_none hnone, ← hissued]
    exact (r.scheduler.unschedule_frame id).1
  | close => exact hissued
  | keep hdeed hnone hentries hsame hcanceled hopen =>
    rw [returned_cons_none hnone, ← hissued]
    exact hsame

theorem issued_after (stored : Nat → Option TaskId) (operations : List Operation) :
    ((new stored).after operations).2.scheduler.issued =
      (returned ((new stored).after operations).1).length := by
  induction operations with
  | nil => rfl
  | cons operation earlier ih => exact (change_perform _ operation).issued ih

theorem Tells.issue (h : Tells deeds r) {scheduler : Scheduler} {id : TaskId} {name : String}
    (task : Nat) (hid : id = ⟨UInt64.ofNat (r.scheduler.issued + 1)⟩)
    (hentries : scheduler.entries = r.scheduler.entries ++ [(id, name)])
    (hissued : scheduler.issued = r.scheduler.issued + 1)
    (hopen : r.scheduler.isCanceled = false)
    (hfew : (returned (.scheduled name (.ok id) :: deeds)).length < 2 ^ 64) :
    Tells (.scheduled name (.ok id) :: deeds)
      ⟨scheduler, Function.update r.stored task (some id)⟩ := by
  have hreturned : returned (.scheduled name (.ok id) :: deeds) = returned deeds ++ [id] :=
    returned_cons_some rfl deeds
  have hlength : (returned deeds ++ [id]).length = (returned deeds).length + 1 := by
    rw [List.length_append, List.length_singleton]
  -- As long as there are numbers left, the new one is the next.
  have hnumber : id.number.toNat = r.scheduler.issued + 1 := by
    rw [hreturned, hlength, ← h.issued] at hfew
    rw [hid, UInt64.toNat_ofNat']
    exact Nat.mod_eq_of_lt hfew
  refine ⟨?_, ?_, ?_, ?_, ?_⟩
  · rw [hreturned, hlength, ← h.issued]
    exact hissued
  · rw [hreturned, hlength, List.map_append, h.numbers, List.range'_concat, List.map_singleton,
      hnumber, h.issued, Nat.one_mul, Nat.add_comm 1]
  · intro i n
    rw [stays_cons, ← h.entries i n]
    show (i, n) ∈ scheduler.entries ↔ _
    rw [hentries, List.mem_append, List.mem_singleton]
    simp only [Deed.Ends, not_false_iff, true_and, Deed.scheduled.injEq, Except.ok.injEq,
      Prod.mk.injEq]
    constructor
    · rintro (hold | ⟨rfl, rfl⟩)
      · exact .inr hold
      · exact .inl ⟨rfl, rfl⟩
    · rintro (⟨rfl, rfl⟩ | hold)
      · exact .inr ⟨rfl, rfl⟩
      · exact .inl hold
  · -- The new number is above all those given out before.
    show scheduler.entries.Pairwise _
    rw [hentries, List.pairwise_append]
    refine ⟨h.ascending, List.pairwise_singleton _ _, ?_⟩
    intro entry hentry last hlast
    obtain rfl := List.mem_singleton.mp hlast
    have hle := h.number_le hentry
    rw [UInt64.lt_iff_toNat_lt, hnumber]
    omega
  · -- After a shutdown no number would have been given out.
    intro hmem
    rcases List.mem_cons.mp hmem with heq | hearlier
    · cases heq
    · rw [(h.closed hearlier).1] at hopen
      cases hopen

theorem Tells.remove (h : Tells deeds r) (id : TaskId) (hdeed : ∀ i, deed.Ends i ↔ i = id)
    (hnone : deed.returned? = none) (hopen : deed ≠ .shutDown) :
    Tells (deed :: deeds) { r with scheduler := (r.scheduler.unschedule id).2 } := by
  have hreturned := returned_cons_none hnone deeds
  obtain ⟨hissued, hcanceled⟩ := r.scheduler.unschedule_frame id
  have hentries := r.scheduler.unschedule_entries id
  refine ⟨?_, ?_, ?_, ?_, ?_⟩
  · rw [hreturned, ← h.issued]
    exact hissued
  · rw [hreturned]
    exact h.numbers
  · intro i name
    have hne : deed ≠ .scheduled name (.ok i) := by
      rintro rfl
      cases hnone
    rw [stays_cons, ← h.entries, hdeed]
    show (i, name) ∈ (r.scheduler.unschedule id).2.entries ↔ _
    rw [hentries, List.mem_filter, bne_iff_ne]
    simp only [hne, false_or]
    exact and_comm
  · show (r.scheduler.unschedule id).2.entries.Pairwise _
    rw [hentries]
    exact h.ascending.filter _
  · intro hmem
    rcases List.mem_cons.mp hmem with heq | hearlier
    · exact absurd heq.symm hopen
    · obtain ⟨hold, hempty⟩ := h.closed hearlier
      refine ⟨hcanceled.trans hold, ?_⟩
      show (r.scheduler.unschedule id).2.entries = []
      rw [hentries, hempty, List.filter_nil]

/-- A change keeps the roster and the history together, as long as there are numbers left. -/
theorem Tells.change (h : Tells deeds r) (hchange : Change r deed r')
    (hfew : (returned (deed :: deeds)).length < 2 ^ 64) : Tells (deed :: deeds) r' := by
  cases hchange with
  | issue task hid hentries hissued hopen => exact h.issue task hid hentries hissued hopen hfew
  | remove id hdeed hnone hopen => exact h.remove id hdeed hnone hopen
  | close =>
    refine ⟨h.issued, h.numbers, ?_, List.Pairwise.nil, fun _ => ⟨rfl, rfl⟩⟩
    intro id name
    rw [stays_cons]
    simp [Scheduler.shutdown, Deed.Ends]
  | keep hdeed hnone hentries hissued hcanceled hopen =>
    have hreturned := returned_cons_none hnone deeds
    refine ⟨?_, ?_, ?_, ?_, ?_⟩
    · rw [hreturned, ← h.issued]
      exact hissued
    · rw [hreturned]
      exact h.numbers
    · intro id name
      -- The deed neither gives out a number nor ends one.
      have hne : deed ≠ .scheduled name (.ok id) := by
        rintro rfl
        cases hnone
      rw [stays_cons, ← h.entries, ← hentries]
      simp [hne, hdeed]
    · show List.Pairwise _ _
      rw [hentries]
      exact h.ascending
    · intro hmem
      rcases List.mem_cons.mp hmem with heq | hearlier
      · exact absurd heq.symm hopen
      · obtain ⟨hold, hempty⟩ := h.closed hearlier
        exact ⟨hcanceled hold, hentries.trans hempty⟩

/-- An earlier history has given out no more numbers. -/
theorem returned_length_le (stored : Nat → Option TaskId) (operation : Operation)
    (earlier : List Operation) : (returned ((new stored).after earlier).1).length ≤
      (returned ((new stored).after (operation :: earlier)).1).length := by
  simp only [returned, List.length_reverse]
  exact ((List.sublist_cons_self _ _).filterMap _).length_le

theorem tells_after (stored : Nat → Option TaskId) (operations : List Operation)
    (hfew : (returned ((new stored).after operations).1).length < 2 ^ 64) :
    Tells ((new stored).after operations).1 ((new stored).after operations).2 := by
  induction operations with
  | nil => exact tells_new stored
  | cons operation earlier ih =>
    have hearlier := ih (Nat.lt_of_le_of_lt (returned_length_le stored operation earlier) hfew)
    exact hearlier.change (change_perform _ operation) hfew

/-! ## Laws -/

/-- The number that an operation takes away, by whichever way. -/
def Operation.removes? : Operation → Option TaskId
  | .unschedule id => some id
  | .heed ⟨_, _, .stop request⟩ => some request.id
  | .conclude id (.done .terminated) => some id
  | _ => none

theorem perform_removes {operation : Operation} {id : TaskId}
    (h : operation.removes? = some id) :
    (r.perform operation).2 = { r with scheduler := (r.scheduler.unschedule id).2 } := by
  unfold Operation.removes? at h
  split at h
  · cases h
    rfl
  · cases h
    rfl
  · cases h
    rfl
  · cases h

/-- The laws of a roster with a history. -/
structure Lawful (deeds : List Deed) (r : Roster) : Prop where
  /-- The numbers given out are 1, 2, 3 and so on. -/
  numbers : (returned deeds).map (·.number.toNat) = List.range' 1 (returned deeds).length
  /-- None is given out twice. -/
  distinct : (returned deeds).Nodup
  /-- A number is scheduled if it was given out and has not left since. -/
  isScheduled : ∀ id, r.scheduler.isScheduled id = true ↔ ∃ name, Stays deeds id name
  /-- These are the numbers that are listed, with their names, -/
  scheduled : ∀ id name, (id, name) ∈ r.scheduler.scheduled ↔ Stays deeds id name
  /-- in ascending order. -/
  ascending : r.scheduler.scheduled.Pairwise fun a b => a.1.number < b.1.number
  /-- Unscheduling tells whether the number was scheduled. -/
  answers : ∀ id, (r.perform (.unschedule id)).1 = .unscheduled id (r.scheduler.isScheduled id)
  /-- Whichever way a number leaves, all others stay; if it is not there, nothing changes. -/
  removes : ∀ operation id, operation.removes? = some id →
    (r.perform operation).2.stored = r.stored ∧
    (r.perform operation).2.scheduler.scheduled =
      (r.scheduler.scheduled.filter fun entry => entry.1 != id) ∧
    (∀ l : TickLoop, l.id ≠ id →
      (l ∈ (r.perform operation).2.scheduler.loops ↔ l ∈ r.scheduler.loops)) ∧
    (r.scheduler.isScheduled id = false → (r.perform operation).2 = r)
  /-- A task that cannot be scheduled changes nothing. -/
  refuses : ∀ clock task name expression,
    r.scheduler.isCanceled = true ∨ (∃ fault, Schedule.parse expression = .error fault) →
    ∃ fault, r.perform (.schedule clock task name expression) = (.scheduled name (.error fault), r)
  /-- Any other task gets the next number and stores it. -/
  accepts : ∀ clock task name expression schedule,
    r.scheduler.isCanceled = false → Schedule.parse expression = .ok schedule →
    ∃ id scheduler, id.number.toNat = ((returned deeds).length + 1) % 2 ^ 64 ∧
      r.perform (.schedule clock task name expression) =
        (.scheduled name (.ok id), ⟨scheduler, Function.update r.stored task (some id)⟩)
  /-- After a shutdown nothing is scheduled, and nothing is from then on. -/
  closes : .shutDown ∈ deeds → r.scheduler.scheduled = [] ∧ ∀ clock task name expression,
    r.perform (.schedule clock task name expression) = (.scheduled name (.error .closed), r)

theorem perform_refuses (clock : Clock) (task : Nat) (name expression : String)
    (h : r.scheduler.isCanceled = true ∨ ∃ fault, Schedule.parse expression = .error fault) :
    ∃ fault, r.perform (.schedule clock task name expression) =
      (.scheduled name (.error fault), r) := by
  simp only [perform]
  cases hopen : r.scheduler.isCanceled with
  | true =>
    rw [schedule_canceled hopen]
    exact ⟨.closed, rfl⟩
  | false =>
    rw [hopen] at h
    obtain ⟨fault, hparse⟩ := h.resolve_left Bool.false_ne_true
    rw [schedule_malformed hopen hparse]
    exact ⟨_, rfl⟩

theorem Tells.lawful (h : Tells deeds r) : Lawful deeds r := by
  have hlisted : r.scheduler.scheduled = r.scheduler.entries :=
    Scheduler.scheduled_eq h.ascending
  refine ⟨h.numbers, ?_, ?_, ?_, ?_, ?_, ?_, perform_refuses, ?_, ?_⟩
  · apply List.Nodup.of_map (·.number.toNat)
    rw [h.numbers]
    exact List.nodup_range'
  · intro id
    rw [Scheduler.isScheduled_iff]
    exact exists_congr fun name => h.entries id name
  · intro id name
    rw [hlisted]
    exact h.entries id name
  · rw [hlisted]
    exact h.ascending
  · intro id
    show Deed.unscheduled id (r.scheduler.unschedule id).1 = _
    rw [Scheduler.unschedule_fst]
  · intro operation id hremoves
    rw [perform_removes hremoves]
    refine ⟨rfl, ?_, fun l => Scheduler.mem_unschedule_loops, ?_⟩
    · have hentries := r.scheduler.unschedule_entries id
      have hascending : (r.scheduler.unschedule id).2.entries.Pairwise
          fun a b => a.1.number < b.1.number := by
        rw [hentries]
        exact h.ascending.filter _
      show (r.scheduler.unschedule id).2.scheduled = _
      rw [Scheduler.scheduled_eq hascending, hentries, hlisted]
    · intro habsent
      rw [Scheduler.unschedule_absent habsent]
  · intro clock task name expression schedule hopen hparse
    obtain ⟨scheduler, heq, -, -⟩ := schedule_accepted hopen hparse clock task name
    refine ⟨⟨UInt64.ofNat (r.scheduler.issued + 1)⟩, scheduler, ?_, ?_⟩
    · rw [← h.issued]
      exact UInt64.toNat_ofNat'
    · simp only [perform, heq]
  · intro hshut
    obtain ⟨hcanceled, hempty⟩ := h.closed hshut
    refine ⟨hlisted.trans hempty, ?_⟩
    intro clock task name expression
    simp only [perform, schedule_canceled hcanceled]

/-- Whatever is done with a scheduler, in any order, the laws hold. -/
theorem lawful_after (stored : Nat → Option TaskId) (operations : List Operation)
    (hfew : (returned ((new stored).after operations).1).length < 2 ^ 64) :
    Lawful ((new stored).after operations).1 ((new stored).after operations).2 :=
  (tells_after stored operations hfew).lawful

/-- Two tasks are scheduled, the first is stopped and unscheduled once more, and a third one
has no schedule. -/
def stoppedTwice : List Operation :=
  [.schedule ⟨0, .ofUnix 0 0⟩ 2 "third" "now and then", .unschedule ⟨1⟩,
    .heed (.of "first" (.stop ⟨"first", ⟨1⟩⟩)), .schedule ⟨0, .ofUnix 0 0⟩ 1 "second" "@every 2s",
    .schedule ⟨0, .ofUnix 0 0⟩ 0 "first" "@every 1s"]

theorem lawful_after_stoppedTwice :
    (returned ((new fun _ => none).after stoppedTwice).1).length < 2 ^ 64 ∧
      Lawful ((new fun _ => none).after stoppedTwice).1
        ((new fun _ => none).after stoppedTwice).2 := by
  have hfew : (returned ((new fun _ => none).after stoppedTwice).1).length < 2 ^ 64 := by
    decide +kernel
  exact ⟨hfew, lawful_after _ stoppedTwice hfew⟩

-- The number of a task that has left is not given out again.
example :
    let clock : Clock := ⟨0, .ofUnix 0 0⟩
    let operations : List Operation := [.schedule clock 1 "second" "@every 2s", .unschedule ⟨1⟩,
      .schedule clock 0 "first" "@every 1s"]
    ((new fun _ => none).after operations).2.scheduler.entries = [(⟨2⟩, "second")] := by
  decide +kernel

end Roster

end EdgeSync
