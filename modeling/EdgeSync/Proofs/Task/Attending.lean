import EdgeSync.Proofs.Task.Numbers

/-!
# Attending to Scheduled Tasks

A loop looks for the next tick of its schedule when its task is scheduled, and again with every
tick that it makes. If there is none, the loop ends for good; but the task stays scheduled until
somebody removes it. So a scheduled task is ticked once more exactly if the latest look has found a
tick, as long as the scheduler is not canceled.

For a number, every operation does one of five things. What holds of the loops of a number is
derived from that.

## Main definitions

- `Look`, `Roster.looks`: when loops have looked for their next ticks
- `Scheduler.Turn`: what an operation can do for a number
- `Roster.Attends`: which scheduled numbers have loops

## Main results

- `Roster.turn_perform`: every operation is a turn
- `Roster.scheduled_without_tick`: a scheduled task that nothing ticks
- `Roster.attends_after`: it is scheduled without a tick only if a calendar has run out
-/

namespace EdgeSync

open Schedule

/-! ## Looking for a Tick -/

/-- A loop looks for the next tick of its schedule. -/
structure Look where
  id : TaskId
  schedule : Schedule
  clock : Clock

/-- The schedule is a calendar, and it has no trigger any more. -/
def Look.FindsNone (look : Look) : Prop :=
  ∃ c, look.schedule = .calendar c ∧ (Schedule.calendar c).nextDelay look.clock.wall = none

/-- An interval has no end, so only a calendar leaves a loop without a tick. -/
theorem Look.findsNone_of_nextTick? {look : Look}
    (h : look.clock.nextTick? look.schedule = none) : look.FindsNone := by
  have hdelay : look.schedule.nextDelay look.clock.wall = none := Option.map_eq_none_iff.mp h
  cases hschedule : look.schedule with
  | every interval =>
    rw [hschedule] at hdelay
    cases hdelay
  | calendar c => exact ⟨c, hschedule, hschedule ▸ hdelay⟩

/-- The latest look of a number. -/
def latest (looks : List Look) (id : TaskId) : Option Look :=
  looks.find? fun look => look.id == id

theorem latest_append_of_ne {looks earlier : List Look} {id : TaskId}
    (h : ∀ look ∈ looks, look.id ≠ id) : latest (looks ++ earlier) id = latest earlier id := by
  have hnone : looks.find? (fun look => look.id == id) = none :=
    List.find?_eq_none.mpr fun look hlook heq => h look hlook (beq_iff_eq.mp heq)
  rw [latest, List.find?_append, hnone, Option.none_or, latest]

theorem latest_cons_of_eq {look : Look} {earlier : List Look} {id : TaskId} (h : look.id = id) :
    latest (look :: earlier) id = some look :=
  List.find?_cons_of_pos (beq_iff_eq.mpr h)

namespace Scheduler

variable {id : TaskId} {s t : Scheduler} {looks earlier : List Look}

theorem hasLoop_eq_false_iff : s.hasLoop id = false ↔ s.loopsOf id = [] := by
  rw [hasLoop, loopsOf, List.filter_eq_nil_iff, List.any_eq_false]

/-- A loop that does not find a tick does not wait. -/
theorem loopFrom_eq_nil_iff {clock : Clock} {task : Nat} {schedule : Schedule} :
    loopFrom clock id task schedule = [] ↔ clock.nextTick? schedule = none := by
  rw [loopFrom, List.map_eq_nil_iff, Option.toList_eq_nil_iff]

/-- The looks of loops that go on waiting. -/
def looksAgain (s : Scheduler) (clock : Clock) (id : TaskId) : List Look :=
  (s.loopsOf id).map fun l => ⟨l.id, l.schedule, clock⟩

theorem id_of_mem_looksAgain {clock : Clock} {look : Look} (h : look ∈ s.looksAgain clock id) :
    look.id = id := by
  obtain ⟨l, hl, rfl⟩ := List.mem_map.mp h
  exact beq_iff_eq.mp (List.mem_filter.mp hl).2

/-! ## Turns -/

/-- What an operation can do for a number: leave it alone, remove it, give it out, let its loops
go on waiting, or end them. -/
inductive Turn (id : TaskId) (s t : Scheduler) : List Look → Prop where
  | keep {looks : List Look} (hkeep : s.Keeps id t) (hlooks : ∀ look ∈ looks, look.id ≠ id)
      (hopen : t.isCanceled = false → s.isCanceled = false) : Turn id s t looks
  | remove (hlacks : t.Lacks id) : Turn id s t []
  | issue (look : Look) (task : Nat) (hlook : look.id = id)
      (hid : id = ⟨UInt64.ofNat (s.issued + 1)⟩) (hscheduled : t.isScheduled id = true)
      (hissued : t.issued = s.issued + 1)
      (hloops : t.loopsOf id = s.loopsOf id ++ loopFrom look.clock id task look.schedule) :
      Turn id s t [look]
  | rearm (clock : Clock) (hscheduled : t.isScheduled id = s.isScheduled id)
      (hloops : t.loopsOf id =
        (s.loopsOf id).flatMap fun l => loopFrom clock l.id l.task l.schedule)
      (hopen : t.isCanceled = false → s.isCanceled = false) :
      Turn id s t (s.looksAgain clock id)
  | cancel (hcanceled : t.isCanceled = true) (hloops : t.loopsOf id = []) : Turn id s t []

theorem turn_schedule {clock : Clock} {task : Nat} {name expression : String}
    {schedule : Schedule} (hopen : s.isCanceled = false)
    (hparse : Schedule.parse expression = .ok schedule)
    (h : s.schedule clock task name expression = .ok (⟨UInt64.ofNat (s.issued + 1)⟩, t))
    (id : TaskId) : Turn id s t [⟨⟨UInt64.ofNat (s.issued + 1)⟩, schedule, clock⟩] := by
  by_cases hid : ⟨UInt64.ofNat (s.issued + 1)⟩ = id
  · -- All loops of the new task have its number, so all of them count.
    subst hid
    cases (Roster.schedule_ok hopen hparse clock task name).symm.trans h
    refine .issue _ task rfl rfl ?_ rfl ?_
    · exact List.any_eq_true.mpr ⟨_, List.mem_append_right _ List.mem_cons_self,
        beq_self_eq_true _⟩
    · simp only [loopsOf, List.filter_append]
      congr 1
      exact List.filter_eq_self.mpr fun l hl => beq_iff_eq.mpr (id_of_mem_loopFrom hl)
  · refine .keep (keeps_schedule h hid) (fun look hlook => ?_) (fun _ => hopen)
    rw [List.mem_singleton.mp hlook]
    exact hid

theorem turn_unschedule (s : Scheduler) (other id : TaskId) :
    Turn id s (s.unschedule other).2 [] := by
  rcases s.unschedule_cases other id with hkeep | ⟨-, hlacks⟩
  · exact .keep hkeep nofun fun hopen => (s.unschedule_frame other).2 ▸ hopen
  · exact .remove hlacks

theorem turn_heed (s : Scheduler) (e : Event) (id : TaskId) : Turn id s (s.heed [e]) [] := by
  rcases s.heed_one_cases e id with hkeep | ⟨hlacks, -⟩
  · exact .keep hkeep nofun fun hopen => (s.heed_frame [e]).2.1 ▸ hopen
  · exact .remove hlacks

theorem turn_rearm (s : Scheduler) (clock : Clock) (made : TickLoop) (id : TaskId) :
    Turn id s (s.rearm clock made) (s.looksAgain clock made.id) := by
  by_cases hid : made.id = id
  · subst hid
    exact .rearm clock rfl (s.loopsOf_rearm clock made) fun hopen => hopen
  · exact .keep (keeps_rearm hid s clock) (fun look hlook => id_of_mem_looksAgain hlook ▸ hid)
      fun hopen => hopen

/-! ## What a Turn Preserves -/

/-- A number without a loop is not scheduled, or its schedule has run out; a loop belongs to a
number that is scheduled. -/
structure Attended (looks : List Look) (s : Scheduler) (id : TaskId) : Prop where
  ticked : s.isCanceled = false → s.isScheduled id = true → s.loopsOf id = [] →
    ∃ look, latest looks id = some look ∧ look.FindsNone
  scheduled : s.isScheduled id = false → s.loopsOf id = []

theorem Attended.turn (h : Attended earlier s id) (hturn : Turn id s t looks) :
    Attended (looks ++ earlier) t id := by
  cases hturn with
  | keep hkeep hlooks hopen =>
    refine ⟨fun hcanceled hscheduled hloops => ?_, fun hscheduled => ?_⟩
    · rw [latest_append_of_ne hlooks]
      exact h.ticked (hopen hcanceled) (hkeep.isScheduled ▸ hscheduled) (hkeep.loops ▸ hloops)
    · rw [hkeep.loops]
      exact h.scheduled (hkeep.isScheduled ▸ hscheduled)
  | remove hlacks =>
    refine ⟨fun _ hscheduled => ?_, fun _ => hlacks.loops⟩
    rw [hlacks.isScheduled] at hscheduled
    cases hscheduled
  | issue look task hlook hid hscheduled hissued hloops =>
    -- There is no loop, so the look with which the task was scheduled has found nothing.
    refine ⟨fun _ _ hnone => ⟨look, latest_cons_of_eq hlook, ?_⟩, fun habsent => ?_⟩
    · rw [hloops, List.append_eq_nil_iff, loopFrom_eq_nil_iff] at hnone
      exact Look.findsNone_of_nextTick? hnone.2
    · rw [hscheduled] at habsent
      cases habsent
  | rearm clock hscheduled hloops hopen =>
    refine ⟨fun hcanceled hstill hnone => ?_, fun habsent => ?_⟩
    · -- Without loops nobody looks; else the first loop was the latest to look.
      cases hwait : s.loopsOf id with
      | nil =>
        rw [looksAgain, hwait]
        exact h.ticked (hopen hcanceled) (hscheduled ▸ hstill) hwait
      | cons l loops =>
        have hmem : l ∈ s.loopsOf id := hwait ▸ List.mem_cons_self
        have hl : l.id = id := beq_iff_eq.mp (List.mem_filter.mp hmem).2
        rw [hloops, hwait, List.flatMap_cons, List.append_eq_nil_iff, loopFrom_eq_nil_iff] at hnone
        refine ⟨⟨l.id, l.schedule, clock⟩, ?_, Look.findsNone_of_nextTick? hnone.1⟩
        rw [looksAgain, hwait]
        exact latest_cons_of_eq hl
    · rw [hloops, h.scheduled (hscheduled ▸ habsent)]
      rfl
  | cancel hcanceled hloops =>
    refine ⟨fun hopen => ?_, fun _ => hloops⟩
    rw [hcanceled] at hopen
    cases hopen

/-- As long as there are numbers left, the next one is above those given out. -/
theorem toNat_next (hid : id = ⟨UInt64.ofNat (s.issued + 1)⟩) (hissued : t.issued = s.issued + 1)
    (hfew : t.issued < 2 ^ 64) : s.issued < id.number.toNat := by
  rw [hissued] at hfew
  rw [hid, UInt64.toNat_ofNat', Nat.mod_eq_of_lt hfew]
  exact Nat.lt_succ_self _

/-- A number that is scheduled has the loop that its latest look has made. -/
def Awaited (looks : List Look) (s : Scheduler) (id : TaskId) : Prop :=
  s.isCanceled = false → s.isScheduled id = true → ∃ look task,
    latest looks id = some look ∧ s.loopsOf id = loopFrom look.clock id task look.schedule

theorem Awaited.turn (h : Awaited earlier s id) (hattended : Attended earlier s id)
    (hle : s.isScheduled id = true → id.number.toNat ≤ s.issued) (hfew : t.issued < 2 ^ 64)
    (hturn : Turn id s t looks) : Awaited (looks ++ earlier) t id := by
  intro hopen hscheduled
  cases hturn with
  | keep hkeep hlooks hopen' =>
    rw [latest_append_of_ne hlooks, hkeep.loops]
    exact h (hopen' hopen) (hkeep.isScheduled ▸ hscheduled)
  | remove hlacks =>
    rw [hlacks.isScheduled] at hscheduled
    cases hscheduled
  | issue look task hlook hid hscheduled' hissued hloops =>
    -- A number that is given out is not scheduled yet, so it has no loops.
    have hnew : s.isScheduled id = false := by
      by_contra hold
      have hnext := toNat_next hid hissued hfew
      exact Nat.not_lt.mpr (hle (Bool.not_eq_false _ ▸ hold)) hnext
    refine ⟨look, task, latest_cons_of_eq hlook, ?_⟩
    rw [hloops, hattended.scheduled hnew, List.nil_append]
  | rearm clock hscheduled' hloops hopen' =>
    obtain ⟨look, task, hlatest, hwait⟩ := h (hopen' hopen) (hscheduled' ▸ hscheduled)
    rw [hloops, looksAgain, hwait, loopFrom]
    -- If the earlier look has found no tick, nobody looks again.
    cases htick : look.clock.nextTick? look.schedule with
    | none => exact ⟨look, task, hlatest, (loopFrom_eq_nil_iff.mpr htick).symm⟩
    | some due =>
      refine ⟨⟨id, look.schedule, clock⟩, task, latest_cons_of_eq rfl, ?_⟩
      exact List.append_nil _
  | cancel hcanceled hloops =>
    rw [hcanceled] at hopen
    cases hopen

/-- A number that was given out before gets no loop any more once it has none. -/
theorem Turn.loopsOf_eq_nil (hturn : Turn id s t looks) (hle : id.number.toNat ≤ s.issued)
    (hfew : t.issued < 2 ^ 64) (h : s.loopsOf id = []) : t.loopsOf id = [] := by
  cases hturn with
  | keep hkeep hlooks hopen => exact hkeep.loops.trans h
  | remove hlacks => exact hlacks.loops
  | issue look task hlook hid hscheduled hissued hloops =>
    exact absurd (toNat_next hid hissued hfew) (Nat.not_lt.mpr hle)
  | rearm clock hscheduled hloops hopen =>
    rw [hloops, h]
    rfl
  | cancel hcanceled hloops => exact hloops

end Scheduler

namespace Roster

open Scheduler (Turn Attended Awaited turn_schedule turn_unschedule turn_heed turn_rearm)

/-! ## All Operations -/

/-- The looks that an operation brings about. -/
def Operation.looks (r : Roster) : Operation → List Look
  | .schedule clock _ _ expression =>
    if r.scheduler.isCanceled then []
    else
      match Schedule.parse expression with
      | .error _ => []
      | .ok found => [⟨⟨UInt64.ofNat (r.scheduler.issued + 1)⟩, found, clock⟩]
  | .rearm clock made => r.scheduler.looksAgain clock made.id
  | _ => []

/-- All looks so far, the latest first. -/
def looks (r : Roster) : List Operation → List Look
  | [] => []
  | operation :: earlier => operation.looks (r.after earlier).2 ++ looks r earlier

variable {stored : Nat → Option TaskId} {operations : List Operation}

/-- There are numbers left after some operations. -/
def Few (stored : Nat → Option TaskId) (operations : List Operation) : Prop :=
  (returned ((new stored).after operations).1).length < 2 ^ 64

theorem Few.earlier {operation : Operation} (h : Few stored (operation :: operations)) :
    Few stored operations :=
  Nat.lt_of_le_of_lt (returned_length_le stored operation operations) h

theorem Few.of_append {later : List Operation} (h : Few stored (later ++ operations)) :
    Few stored operations := by
  induction later with
  | nil => exact h
  | cons operation later ih => exact ih h.earlier

theorem Few.issued_lt (h : Few stored operations) :
    ((new stored).after operations).2.scheduler.issued < 2 ^ 64 :=
  (issued_after stored operations).symm ▸ h

/-- Every operation is a turn for every number. -/
theorem turn_perform (r : Roster) (operation : Operation) (id : TaskId) :
    Turn id r.scheduler (r.perform operation).2.scheduler (operation.looks r) := by
  have hsame : Turn id r.scheduler r.scheduler [] := .keep (.refl _ id) nofun fun hopen => hopen
  cases operation with
  | schedule clock task name expression =>
    simp only [perform, Operation.looks]
    cases hopen : r.scheduler.isCanceled with
    | true =>
      rw [schedule_canceled hopen]
      exact hsame
    | false =>
      cases hparse : Schedule.parse expression with
      | error fault =>
        rw [schedule_malformed hopen hparse]
        exact hsame
      | ok schedule =>
        have hok := schedule_ok hopen hparse clock task name
        rw [hok]
        exact turn_schedule hopen hparse hok id
  | unschedule other => exact turn_unschedule _ other id
  | heed e => exact turn_heed _ e id
  | conclude other outcome =>
    simp only [perform, Operation.looks]
    split
    · exact turn_unschedule _ other id
    · exact hsame
  | rearm clock made => exact turn_rearm _ clock made id
  | cancel => exact .cancel rfl rfl
  | shutdown => exact .cancel rfl rfl

theorem attended_after (stored : Nat → Option TaskId) (operations : List Operation) (id : TaskId) :
    Attended (looks (new stored) operations) ((new stored).after operations).2.scheduler id := by
  induction operations with
  | nil => exact ⟨fun _ => nofun, fun _ => rfl⟩
  | cons operation earlier ih => exact ih.turn (turn_perform _ operation id)

/-- The numbers given out are not above the count of them. -/
theorem number_le_issued {id : TaskId} (hfew : Few stored operations)
    (hscheduled : ((new stored).after operations).2.scheduler.isScheduled id = true) :
    id.number.toNat ≤ ((new stored).after operations).2.scheduler.issued := by
  obtain ⟨name, hentry⟩ := Scheduler.isScheduled_iff.mp hscheduled
  exact (tells_after stored operations hfew).number_le hentry

theorem awaited_after (id : TaskId) (hfew : Few stored operations) :
    Awaited (looks (new stored) operations) ((new stored).after operations).2.scheduler id := by
  induction operations with
  | nil => exact fun _ => nofun
  | cons operation earlier ih =>
    have hearlier := hfew.earlier
    exact (ih hearlier).turn (attended_after stored earlier id) (number_le_issued hearlier)
      hfew.issued_lt (turn_perform _ operation id)

/-- A number that was given out and has no loop never gets one again. -/
theorem loopsOf_after_eq_nil {id : TaskId}
    (hle : id.number.toNat ≤ ((new stored).after operations).2.scheduler.issued)
    (hnone : ((new stored).after operations).2.scheduler.loopsOf id = [])
    (later : List Operation) (hfew : Few stored (later ++ operations)) :
    id.number.toNat ≤ ((new stored).after (later ++ operations)).2.scheduler.issued ∧
      ((new stored).after (later ++ operations)).2.scheduler.loopsOf id = [] := by
  induction later with
  | nil => exact ⟨hle, hnone⟩
  | cons operation later ih =>
    obtain ⟨hle', hnone'⟩ := ih hfew.earlier
    refine ⟨Nat.le_trans hle' ?_,
      (turn_perform _ operation id).loopsOf_eq_nil hle' hfew.issued_lt hnone'⟩
    rw [issued_after, issued_after]
    exact returned_length_le stored operation _

/-- Which numbers that are scheduled have loops after some operations. -/
structure Attends (stored : Nat → Option TaskId) (operations : List Operation) : Prop where
  /-- What is scheduled has a loop, unless the latest look for its tick found none in a calendar. -/
  ticked : ∀ entry ∈ ((new stored).after operations).2.scheduler.entries,
    ((new stored).after operations).2.scheduler.hasLoop entry.1 = true ∨
      ∃ look, latest (looks (new stored) operations) entry.1 = some look ∧ look.FindsNone
  /-- The loop waits for the tick that the latest look has found, if it has found one. -/
  due : Few stored operations → ∀ entry ∈ ((new stored).after operations).2.scheduler.entries,
    ∃ look, latest (looks (new stored) operations) entry.1 = some look ∧
      (((new stored).after operations).2.scheduler.loopsOf entry.1).map TickLoop.due =
        (look.clock.nextTick? look.schedule).toList
  /-- A loop that has ended never comes back, whatever is done later. -/
  ended : ∀ later, Few stored (later ++ operations) →
    ∀ entry ∈ ((new stored).after operations).2.scheduler.entries,
      ((new stored).after operations).2.scheduler.hasLoop entry.1 = false →
      ((new stored).after (later ++ operations)).2.scheduler.hasLoop entry.1 = false

/-- As long as a scheduler is not canceled, a task is scheduled without a tick to come only if it
has a calendar that has run out. -/
theorem attends_after (stored : Nat → Option TaskId) (operations : List Operation)
    (hopen : ((new stored).after operations).2.scheduler.isCanceled = false) :
    Attends stored operations := by
  have hattended := attended_after stored operations
  have hscheduled : ∀ entry ∈ ((new stored).after operations).2.scheduler.entries,
      ((new stored).after operations).2.scheduler.isScheduled entry.1 = true :=
    fun entry hentry => Scheduler.isScheduled_iff.mpr ⟨entry.2, hentry⟩
  refine ⟨?_, ?_, ?_⟩
  · intro entry hentry
    cases hloop : ((new stored).after operations).2.scheduler.hasLoop entry.1 with
    | true => exact .inl rfl
    | false =>
      have hnone := Scheduler.hasLoop_eq_false_iff.mp hloop
      exact .inr ((hattended entry.1).ticked hopen (hscheduled entry hentry) hnone)
  · intro hfew entry hentry
    obtain ⟨look, task, hlatest, hloops⟩ :=
      awaited_after entry.1 hfew hopen (hscheduled entry hentry)
    refine ⟨look, hlatest, ?_⟩
    rw [hloops, Scheduler.loopFrom, List.map_map]
    exact List.map_id _
  · intro later hfew entry hentry hnone
    rw [Scheduler.hasLoop_eq_false_iff] at hnone ⊢
    have hle := number_le_issued hfew.of_append (hscheduled entry hentry)
    exact (loopsOf_after_eq_nil hle hnone later hfew).2

/-! ## A Calendar That Runs Out -/

/-- A task that is to be run once, in a year that is over. -/
def onceTooLate : List Operation :=
  [.schedule ⟨0, .ofUnix 1760000000 0⟩ 0 "once" "0 0 0 1 1 * 2020"]

/-- The task is scheduled and listed, and nothing will ever tick it. -/
theorem scheduled_without_tick :
    let s := ((new fun _ => none).after onceTooLate).2.scheduler
    s.isCanceled = false ∧ s.isScheduled ⟨1⟩ = true ∧ s.scheduled = [(⟨1⟩, "once")] ∧
      s.hasLoop ⟨1⟩ = false := by
  decide +kernel

/-- After the task of a calendar that has run out, another one is scheduled, and ticks once. -/
def besideOnceTooLate : List Operation :=
  [.rearm ⟨2000, .ofUnix 1760000002 0⟩ ⟨⟨2⟩, 1, .every ⟨2000000000⟩, 2000⟩,
    .schedule ⟨0, .ofUnix 1760000000 0⟩ 1 "second" "@every 2s"] ++ onceTooLate

theorem attends_after_besideOnceTooLate :
    ((new fun _ => none).after besideOnceTooLate).2.scheduler.isCanceled = false ∧
      Attends (fun _ => none) besideOnceTooLate := by
  have hopen : ((new fun _ => none).after besideOnceTooLate).2.scheduler.isCanceled = false := by
    decide +kernel
  exact ⟨hopen, attends_after _ besideOnceTooLate hopen⟩

end Roster

end EdgeSync
