import EdgeSync.Proofs.Task.Moments

/-!
# Punctual Ticks

A task that is scheduled at an interval is ticked whenever one more interval has passed since it
was scheduled: the loop of its number waits for that time, and when it has come it goes on waiting
for the next one, whatever comes of the tick. No tick is early or late, none is missing, and none
is made after the number has been removed or the scheduler has been canceled. Other tasks, and
executions that take long, make no difference.

A number is removed only on request, by an event that asks to stop it, or by the last execution of
its own task.

## Main definitions

- `Rehearsal.Serves`: a number is scheduled and its scheduler goes on
- `Rehearsal.Issues`: a request schedules a task at an interval of whole milliseconds
- `Rehearsal.tickTimes`: the times at which a number has been ticked
- `Rehearsal.Punctual`: when a number is ticked

## Main results

- `Rehearsal.Armed.pass`: what a millisecond makes of the loop of a number
- `Rehearsal.punctual_after`: every task is ticked punctually, and executes in order
-/

namespace EdgeSync

open Schedule

namespace Rehearsal

variable {r r' : Rehearsal} {id : TaskId} {task t0 millis k : Nat}

/-! ## Numbers That Are Served -/

/-- A number is scheduled, and its scheduler goes on. -/
def Serves (r : Rehearsal) (id : TaskId) : Prop :=
  r.scheduler.isScheduled id = true ∧ r.scheduler.isCanceled = false ∧ r.isDropped = false

/-- What may become of a number: nothing is different for it, or for some reason it is not served
any more. -/
inductive Fate (id : TaskId) (reason : Prop) (r r' : Rehearsal) : Prop
  | keeps (hkeeps : r.scheduler.Keeps id r'.scheduler) (hserves : r'.Serves id ↔ r.Serves id)
  | ends (hreason : reason) (hloops : r'.scheduler.loopsOf id = []) (hserves : ¬r'.Serves id)

/-- A scheduler that goes on as before removes a number or leaves it alone. -/
theorem fate_of_cases {reason : Prop}
    (hcases : r.scheduler.Keeps id r'.scheduler ∨ r'.scheduler.Lacks id ∧ reason)
    (hcanceled : r'.scheduler.isCanceled = r.scheduler.isCanceled)
    (hdropped : r'.isDropped = r.isDropped) : Fate id reason r r' := by
  rcases hcases with hkeeps | ⟨hlacks, hreason⟩
  · refine .keeps hkeeps ?_
    rw [Serves, hkeeps.isScheduled, hcanceled, hdropped]
    rfl
  · refine .ends hreason hlacks.loops fun hserves => ?_
    exact absurd (hlacks.isScheduled.symm.trans hserves.1) Bool.false_ne_true

theorem Fate.mono {reason reason' : Prop} (h : Fate id reason r r') (himp : reason → reason') :
    Fate id reason' r r' := by
  rcases h with ⟨hkeeps, hserves⟩ | ⟨hreason, hloops, hserves⟩
  · exact .keeps hkeeps hserves
  · exact .ends (himp hreason) hloops hserves

theorem Fate.serves {reason : Prop} (h : Fate id reason r r') (hserves : r'.Serves id) :
    r.Serves id := by
  rcases h with ⟨-, hsame⟩ | ⟨-, -, hnot⟩
  · exact hsame.mp hserves
  · exact absurd hserves hnot

theorem Fate.reason {reason : Prop} (h : Fate id reason r r') (hserves : r.Serves id)
    (hnot : ¬r'.Serves id) : reason := by
  rcases h with ⟨-, hsame⟩ | ⟨hreason, -, -⟩
  · exact absurd (hsame.mpr hserves) hnot
  · exact hreason

/-- A number that is given out is a new one. -/
theorem toNat_ofNat_issued {issued : Nat} (hfew : issued + 1 < 2 ^ 64) :
    (UInt64.ofNat (issued + 1)).toNat = issued + 1 := by
  rw [UInt64.toNat_ofNat']
  exact Nat.mod_eq_of_lt hfew

/-! ## While the Clock Stands -/

/-- What removes a number: a request to do so, an event that asks to stop it and reaches the
scheduler, and the end of the scheduler. While time passes it is removed when its task has
terminated. -/
def Removes (r : Rehearsal) (id : TaskId) (task : Nat) : Request → Prop
  | .unschedule other => other = id
  | .publish event => ∃ delivery ∈ (r.listener.drain (r.broker.publish event).2).1,
    ∃ request, delivery.event.payload = .stop request ∧ request.id = id
  | .pass => r.pass.phase? task = some .terminated
  | .cancel => True
  | .shutdown => True
  | .drop => True
  | _ => False

theorem note_frame (r : Rehearsal) (task : Nat) (h : Happening) :
    (r.note task h).scheduler = r.scheduler ∧ (r.note task h).isDropped = r.isDropped ∧
      (r.note task h).clock = r.clock ∧ (r.note task h).executions = r.executions := by
  unfold note
  split <;> exact ⟨rfl, rfl, rfl, rfl⟩

/-- A task that is there is scheduled, or nothing happens. -/
theorem scheduleAgain_cases (r : Rehearsal) (task : Nat) :
    (∃ fault, (r.scheduleAgain task) = (.error fault, r)) ∨
      ∃ t id scheduler, r.tasks[task]? = some t ∧
        r.scheduler.schedule r.clock task t.script.name t.script.schedule = .ok (id, scheduler) ∧
        (r.scheduleAgain task).1 = .ok id ∧ (r.scheduleAgain task).2.scheduler = scheduler ∧
        (r.scheduleAgain task).2.isDropped = r.isDropped ∧
        (r.scheduleAgain task).2.clock = r.clock ∧
        (r.scheduleAgain task).2.executions = r.executions := by
  rw [scheduleAgain]
  cases ht : r.tasks[task]? with
  | none => exact .inl ⟨_, rfl⟩
  | some t =>
    cases hschedule : r.scheduler.schedule r.clock task t.script.name t.script.schedule with
    | error fault => exact .inl ⟨fault, by simp only [hschedule]⟩
    | ok answer =>
      obtain ⟨id, scheduler⟩ := answer
      refine .inr ⟨t, id, scheduler, rfl, hschedule, ?_⟩
      simp only [hschedule, true_and]
      split
      · exact ⟨rfl, rfl, rfl, rfl⟩
      · have hframe := ({ r with scheduler }.putTask task
          { t with handle := t.handle.setId id }).note_frame task .noTrigger
        exact hframe

theorem fate_scheduleAgain (hknown : id.number.toNat ≤ r.scheduler.issued) (task : Nat)
    (hfew : (r.scheduleAgain task).2.scheduler.issued < 2 ^ 64) :
    Fate id False r (r.scheduleAgain task).2 := by
  rcases r.scheduleAgain_cases task with
    ⟨fault, heq⟩ | ⟨t, other, scheduler, -, hschedule, -, hscheduler, hdropped, -, -⟩
  · rw [heq]
    exact .keeps (.refl _ id) Iff.rfl
  · obtain ⟨hopen, schedule, -, hid, heq⟩ := Scheduler.schedule_inv hschedule
    have hissued : scheduler.issued = r.scheduler.issued + 1 := heq ▸ rfl
    have hcanceled : scheduler.isCanceled = r.scheduler.isCanceled := heq ▸ rfl
    rw [hscheduler, hissued] at hfew
    -- The next number has not been given out before.
    have hother : other ≠ id := by
      rintro rfl
      rw [hid, toNat_ofNat_issued hfew] at hknown
      omega
    refine fate_of_cases (.inl ?_) ?_ hdropped
    · rw [hscheduler]
      exact Scheduler.keeps_schedule hschedule hother
    · rw [hscheduler]
      exact hcanceled

theorem fate_publish (r : Rehearsal) (task : Nat) (event : Event) :
    Fate id (r.Removes id task (.publish event)) r (r.publish event).2 := by
  simp only [publish, listen]
  split
  · exact .keeps (.refl _ id) Iff.rfl
  · refine fate_of_cases ?_ (r.scheduler.heed_frame _).2.1 rfl
    rcases r.scheduler.heed_cases _ id with hkeeps | ⟨hlacks, e, he, hstop⟩
    · exact .inl hkeeps
    · obtain ⟨delivery, hdelivery, rfl⟩ := List.mem_map.mp he
      exact .inr ⟨hlacks, delivery, hdelivery, hstop⟩

/-- A scheduler that is canceled serves no number. -/
theorem fate_canceled (hcanceled : r'.scheduler.isCanceled = true)
    (hloops : r'.scheduler.loops = []) : Fate id True r r' := by
  refine .ends trivial ?_ fun hserves => ?_
  · rw [Scheduler.loopsOf, hloops]
    rfl
  · exact absurd (hserves.2.1.symm.trans hcanceled) Bool.false_ne_true

/-- What becomes of a number while the clock stands. -/
theorem Sound.fate (h : r.Sound) (hknown : id.number.toNat ≤ r.scheduler.issued) (task : Nat)
    {request : Request} (hother : request ≠ .pass)
    (hfew : (r.meet request).scheduler.issued < 2 ^ 64) :
    Fate id (r.Removes id task request) r (r.meet request) := by
  have hcalm := h.calm hother
  cases request with
  | pass => exact absurd rfl hother
  | schedule script obstacle =>
    rw [Rehearsal.meet] at hfew ⊢
    split
    · exact .keeps (.refl _ id) Iff.rfl
    · next hthere =>
      rw [if_neg hthere] at hfew
      rcases fate_scheduleAgain (r := { r with tasks := r.tasks ++ [.new script obstacle] })
        hknown _ hfew with ⟨hkeeps, hserves⟩ | ⟨hnever, -, -⟩
      · exact .keeps hkeeps hserves
      · exact hnever.elim
  | scheduleAgain task =>
    rw [Rehearsal.meet] at hfew ⊢
    split
    · exact .keeps (.refl _ id) Iff.rfl
    · next hthere =>
      rw [if_neg hthere] at hfew
      exact (fate_scheduleAgain hknown task hfew).mono False.elim
  | unschedule other =>
    refine fate_of_cases ?_ (r.scheduler.unschedule_frame other).2 rfl
    rcases r.scheduler.unschedule_cases other id with hkeeps | ⟨hid, hlacks⟩
    · exact .inl hkeeps
    · exact .inr ⟨hlacks, hid⟩
  | publish event => exact r.fate_publish task event
  | setObstacle task obstacle =>
    rw [Rehearsal.meet, setObstacle]
    split
    · exact .keeps (.refl _ id) Iff.rfl
    · exact .keeps (.refl _ id) Iff.rfl
  | cancel =>
    have hcanceled : r.cancel.scheduler.isCanceled = true := h.finished_cancel.isCanceled
    exact fate_canceled hcanceled (hcalm.silent h.silent (.inl hcanceled))
  | shutdown =>
    have hcanceled : r.shutdown.scheduler.isCanceled = true := rfl
    exact fate_canceled hcanceled rfl
  | drop =>
    refine .ends trivial rfl fun hserves => ?_
    have hthere : true = false := hserves.2.2
    cases hthere

/-! ## The Loop of a Number -/

/-- The loop that waits for the tick after some ticks of a number. -/
def loopAfter (id : TaskId) (task t0 millis k : Nat) : TickLoop :=
  ⟨id, task, .every ⟨millis * 1000000⟩, t0 + (k + 1) * millis⟩

/-- The loop of a number after some ticks: as long as the number is served, it is the only one, and
waits for the next tick. -/
structure Armed (id : TaskId) (task t0 millis k : Nat) (r : Rehearsal) : Prop where
  known : id.number.toNat ≤ r.scheduler.issued
  tasks : ∀ e ∈ r.executions, e.id = id → e.task = task
  armed : r.Serves id → r.scheduler.loopsOf id = [loopAfter id task t0 millis k]
  gone : ¬r.Serves id → r.scheduler.loopsOf id = []

/-- Whatever leaves the number alone or ends it leaves its loop as it should be. -/
theorem Armed.fate (h : Armed id task t0 millis k r) {reason : Prop} (hfate : Fate id reason r r')
    (hissued : r.scheduler.issued ≤ r'.scheduler.issued)
    (htasks : ∀ e ∈ r'.executions, e.id = id → e.task = task) :
    Armed id task t0 millis k r' := by
  refine ⟨Nat.le_trans h.known hissued, htasks, ?_, ?_⟩
  · intro hserves
    rcases hfate with ⟨hkeeps, hsame⟩ | ⟨-, -, hnot⟩
    · exact hkeeps.loops.trans (h.armed (hsame.mp hserves))
    · exact absurd hserves hnot
  · intro hnot
    rcases hfate with ⟨hkeeps, hsame⟩ | ⟨-, hloops, -⟩
    · exact hkeeps.loops.trans (h.gone fun hserves => hnot (hsame.mpr hserves))
    · exact hloops

/-- The delay of an interval of whole milliseconds. -/
theorem loopFrom_every (clock : Clock) (id : TaskId) (task millis : Nat) :
    Scheduler.loopFrom clock id task (.every ⟨millis * 1000000⟩) =
      [⟨id, task, .every ⟨millis * 1000000⟩, clock.millis + millis⟩] := by
  have hceil : Time.Span.ceilMillis ⟨millis * 1000000⟩ = millis := by
    show (millis * 1000000 + 999999) / 1000000 = millis
    omega
  simp [Scheduler.loopFrom, Clock.nextTick?, Schedule.nextDelay, hceil]

/-- A tick of another number makes no difference. -/
theorem Sound.fate_tick (h : r.Sound) (hopen : r.scheduler.isCanceled = false) {l : TickLoop}
    (hother : l.id ≠ id) : Fate id False r (r.tick l) := by
  have hattempted := (h.tick hopen l).1
  have hstands := h.stands_tick hopen l
  refine fate_of_cases ?_ hstands.isCanceled hstands.isDropped
  rcases hattempted.numbers id with hkeeps | ⟨-, hsame, -⟩
  · exact .inl ((Scheduler.keeps_rearm hother _ _).trans hkeeps)
  · exact absurd hsame hother

theorem Sound.tasks_tick (h : r.Sound) (hopen : r.scheduler.isCanceled = false) {l : TickLoop}
    (hl : l.id = id → l.task = task) (htasks : ∀ e ∈ r.executions, e.id = id → e.task = task) :
    ∀ e ∈ (r.tick l).executions, e.id = id → e.task = task := by
  intro e he hid
  rcases h.executions_tick hopen he with hold | ⟨-, run, rfl⟩
  · exact htasks e hold hid
  · exact hl hid

/-- The tick of a number that is due: its loop waits for the tick after it, and the number is
served still unless its task has terminated. -/
theorem Armed.tick (h : Armed id task t0 millis k r) (hsound : r.Sound) (hserves : r.Serves id)
    (hdue : r.clock.millis = t0 + (k + 1) * millis) {l : TickLoop}
    (hl : l = loopAfter id task t0 millis k) :
    Armed id task t0 millis (k + 1) (r.tick l) ∧
      (¬(r.tick l).Serves id → (r.tick l).phase? task = some .terminated) := by
  have hid : l.id = id := hl ▸ rfl
  have htask : l.task = task := hl ▸ rfl
  have hrearmed : Armed id task t0 millis (k + 1)
      { r with scheduler := r.scheduler.rearm r.clock l } := by
    refine ⟨h.known, h.tasks, fun _ => ?_, fun hnot => absurd hserves hnot⟩
    have hloops := r.scheduler.loopsOf_rearm r.clock l
    rw [hid, h.armed hserves, List.flatMap_singleton] at hloops
    refine hloops.trans ?_
    rw [loopAfter, loopAfter, loopFrom_every, hdue, Nat.add_one_mul (k + 1), Nat.add_assoc]
  have hattempted := (hsound.tick hserves.2.1 l).1
  have hfate : Fate id ((r.tick l).phase? task = some .terminated)
      { r with scheduler := r.scheduler.rearm r.clock l } (r.tick l) := by
    refine fate_of_cases ?_ hattempted.isCanceled hattempted.isDropped
    rcases hattempted.numbers id with hkeeps | ⟨hlacks, -, hlast⟩
    · exact .inl hkeeps
    · exact .inr ⟨hlacks, htask ▸ hlast⟩
  exact ⟨hrearmed.fate hfate (Nat.le_of_eq hattempted.issued.symm)
    (hsound.tasks_tick hserves.2.1 (fun _ => htask) h.tasks), hfate.reason hserves⟩

/-- A task that has terminated does not execute any more. -/
theorem Sound.terminated_tick (h : r.Sound) (hopen : r.scheduler.isCanceled = false)
    (l : TickLoop) (hlast : r.phase? task = some .terminated) :
    (r.tick l).phase? task = some .terminated := by
  have hattempted := (h.tick hopen l).1
  by_cases htask : task = l.task
  · subst htask
    have hexecutes : r.executes l = false := by
      rw [← Bool.not_eq_true, executes_iff]
      rintro ⟨t, ht, hready⟩
      rw [phase?, ht, Option.map_some, Option.some.injEq] at hlast
      simp [ScriptedTask.isReady, hlast] at hready
    rw [phase?, (hattempted.skipped hexecutes).1]
    exact hlast
  · rw [phase?, hattempted.others task htask]
    exact hlast

/-- Ticks of other numbers. -/
structure Apart (id : TaskId) (task t0 millis k : Nat) (ls : List TickLoop) (r r' : Rehearsal) :
    Prop where
  armed : Armed id task t0 millis k r'
  serves : r'.Serves id ↔ r.Serves id
  terminated : r.phase? task = some .terminated → r'.phase? task = some .terminated
  moments : (r.momentsOf ls).filter (·.loop.id == id) = []

theorem Armed.apart (h : Armed id task t0 millis k r) (hsound : r.Sound) {ls : List TickLoop}
    (hopen : ls ≠ [] → r.scheduler.isCanceled = false) (hothers : ∀ l ∈ ls, l.id ≠ id) :
    Apart id task t0 millis k ls r (ls.foldl Rehearsal.tick r) := by
  induction ls generalizing r with
  | nil => exact ⟨h, Iff.rfl, fun hlast => hlast, rfl⟩
  | cons l ls ih =>
    have hlive := hopen (List.cons_ne_nil l ls)
    have hother := hothers l List.mem_cons_self
    have hstands := hsound.stands_tick hlive l
    have hfate := hsound.fate_tick hlive hother
    have hserves : (r.tick l).Serves id ↔ r.Serves id :=
      ⟨hfate.serves, fun hserved => by_contra fun hnot => hfate.reason hserved hnot⟩
    -- The loop is the same after the tick, and so it is for the rest of the ticks.
    have hone := h.fate hfate (Nat.le_of_eq hstands.issued.symm)
      (hsound.tasks_tick hlive (fun hid => absurd hid hother) h.tasks)
    have hrest := ih hone (hsound.tick hlive l).2 (fun _ => hstands.isCanceled.trans hlive)
      fun m hm => hothers m (List.mem_cons_of_mem _ hm)
    refine ⟨hrest.armed, hrest.serves.trans hserves, ?_, ?_⟩
    · exact fun hlast => hrest.terminated (hsound.terminated_tick hlive l hlast)
    · rw [momentsOf, List.filter_cons_of_neg (by simpa using hother)]
      exact hrest.moments

/-! ## When Time Passes -/

/-- Executions that end may remove the number of their task, if this has terminated. -/
theorem Armed.fate_settled (h : Armed id task t0 millis k r) (hsound : r.Sound) :
    Fate id (r.settled.phase? task = some .terminated) r r.settled := by
  have hsettled := hsound.finished_settled
  refine fate_of_cases ?_ hsettled.isCanceled hsettled.isDropped
  rcases hsettled.numbers id with hkeeps | ⟨hlacks, e, he, hid, hlast⟩
  · exact .inl hkeeps
  · have htask := h.tasks e (mem_overdue.mp he).1 hid
    exact .inr ⟨hlacks, htask ▸ hlast ▸ hsettled.own e he⟩

theorem Armed.settled (h : Armed id task t0 millis k r) (hsound : r.Sound) :
    Armed id task t0 millis k r.settled := by
  have hsettled := hsound.finished_settled
  refine h.fate (h.fate_settled hsound) (Nat.le_of_eq hsettled.issued.symm) ?_
  rw [hsettled.executions]
  exact fun e he => h.tasks e (List.mem_of_mem_filter he)

/-- The loops of a number that tick are those of its loops whose time has come. -/
theorem filter_ticking (r : Rehearsal) (id : TaskId) :
    r.ticking.filter (·.id == id) =
      (r.settled.scheduler.loopsOf id).filter fun l => l.due ≤ r.settled.clock.millis := by
  simp only [ticking, Scheduler.due, Scheduler.loopsOf, List.filter_filter]
  exact List.filter_congr fun l _ => Bool.and_comm _ _

/-- What a millisecond makes of a number that has been ticked `k` times: it has been ticked `k'`
times then. -/
structure Passed (id : TaskId) (task t0 millis k k' : Nat) (r : Rehearsal) : Prop where
  armed : Armed id task t0 millis k' r.pass
  times : ((r.settled.momentsOf r.ticking).filter (·.loop.id == id)).map Moment.millis =
    (List.range' (k + 1) (k' - k)).map fun n => t0 + n * millis
  least : k ≤ k'
  reached : t0 + k' * millis ≤ r.pass.clock.millis
  due : r.pass.Serves id → r.pass.clock.millis < t0 + (k' + 1) * millis
  serves : r.pass.Serves id → r.Serves id
  still : ¬r.Serves id → k' = k
  removed : r.Serves id → ¬r.pass.Serves id → r.pass.phase? task = some .terminated

/-- If no loop of the number ticks, nothing happens to it but that its task may terminate. -/
theorem Armed.pass_quiet (h : Armed id task t0 millis k r) (hsound : r.Sound)
    (hreached : t0 + k * millis ≤ r.clock.millis)
    (hdue : r.settled.Serves id → r.clock.millis + 1 < t0 + (k + 1) * millis)
    (hquiet : ∀ l ∈ r.ticking, l.id ≠ id) : Passed id task t0 millis k k r := by
  have hclock : r.pass.clock.millis = r.clock.millis + 1 := by
    rw [hsound.round_pass.clock, hsound.finished_settled.clock]
    rfl
  have hapart : Apart id task t0 millis k r.ticking r.settled r.pass :=
    (h.settled hsound).apart hsound.settled hsound.open_of_ticking hquiet
  have hfate := h.fate_settled hsound
  refine ⟨hapart.armed, ?_, Nat.le_refl k, ?_, ?_, ?_, fun _ => rfl, ?_⟩
  · rw [hapart.moments, Nat.sub_self]
    rfl
  · omega
  · intro hserves
    rw [hclock]
    exact hdue (hapart.serves.mp hserves)
  · exact fun hserves => hfate.serves (hapart.serves.mp hserves)
  · intro hserves hnot
    exact hapart.terminated (hfate.reason hserves fun hserved => hnot (hapart.serves.mpr hserved))

/-- If the time of its loop has come, this one is the only loop of the number that ticks. -/
theorem Armed.split_ticking (h : Armed id task t0 millis k r.settled)
    (hserves : r.settled.Serves id) (hdue : r.settled.clock.millis = t0 + (k + 1) * millis) :
    ∃ before later, r.ticking = before ++ loopAfter id task t0 millis k :: later ∧
      (∀ l ∈ before, l.id ≠ id) ∧ ∀ l ∈ later, l.id ≠ id := by
  have hfilter : r.ticking.filter (·.id == id) = [loopAfter id task t0 millis k] := by
    rw [filter_ticking, h.armed hserves, hdue]
    simp [loopAfter]
  obtain ⟨before, later, hsplit, hbefore, -, hlater⟩ := List.filter_eq_cons_iff.mp hfilter
  refine ⟨before, later, hsplit, ?_, ?_⟩
  · exact fun l hl heq => hbefore l hl (beq_iff_eq.mpr heq)
  · exact fun l hl heq => List.filter_eq_nil_iff.mp hlater l hl (beq_iff_eq.mpr heq)

/-- The tick of a number among ticks of others. -/
theorem Armed.tick_amid (h : Armed id task t0 millis k r) (hsound : r.Sound)
    (hserves : r.Serves id) (hdue : r.clock.millis = t0 + (k + 1) * millis)
    {l : TickLoop} (hl : l = loopAfter id task t0 millis k) {before later : List TickLoop}
    (hbefore : ∀ m ∈ before, m.id ≠ id) (hlater : ∀ m ∈ later, m.id ≠ id) :
    let r' := (before ++ l :: later).foldl Rehearsal.tick r
    Armed id task t0 millis (k + 1) r' ∧
      (¬r'.Serves id → r'.phase? task = some .terminated) ∧
      ((r.momentsOf (before ++ l :: later)).filter (·.loop.id == id)).map Moment.millis =
        [t0 + (k + 1) * millis] := by
  have hid : (l.id == id) = true := beq_iff_eq.mpr (hl ▸ rfl)
  -- The ticks before it make no difference.
  have hfirst := hsound.round before fun _ => hserves.2.1
  have hapart := h.apart hsound (fun _ => hserves.2.1) hbefore
  rw [List.foldl_append, List.foldl_cons, momentsOf_append, momentsOf, List.filter_append,
    hapart.moments, List.nil_append]
  generalize before.foldl Rehearsal.tick r = s at hfirst hapart
  have hserved : s.Serves id := hapart.serves.mpr hserves
  have hnow : s.clock.millis = t0 + (k + 1) * millis := by
    rw [hfirst.clock, hdue]
  obtain ⟨hticked, hlast⟩ := hapart.armed.tick hfirst.sound hserved hnow hl
  -- Nor do those after it.
  have hlive : (s.tick l).scheduler.isCanceled = false :=
    (hfirst.sound.stands_tick hserved.2.1 l).isCanceled.trans hserved.2.1
  have hrest := hticked.apart (hfirst.sound.tick hserved.2.1 l).2 (fun _ => hlive) hlater
  refine ⟨hrest.armed, ?_, ?_⟩
  · intro hnot
    exact hrest.terminated (hlast fun hserved => hnot (hrest.serves.mpr hserved))
  · rw [List.filter_cons, if_pos hid, hrest.moments]
    exact congrArg ([·]) hnow

/-- If the time of its loop has come, the number is ticked once. -/
theorem Armed.pass_due (h : Armed id task t0 millis k r) (hsound : r.Sound) (hpos : 0 < millis)
    (hserves : r.settled.Serves id)
    (hdue : r.clock.millis + 1 = t0 + (k + 1) * millis) : Passed id task t0 millis k (k + 1) r := by
  have hnow : r.settled.clock.millis = t0 + (k + 1) * millis := by
    rw [hsound.finished_settled.clock, ← hdue]
    rfl
  have hend : r.pass.clock.millis = t0 + (k + 1) * millis := by
    rw [hsound.round_pass.clock, hnow]
  obtain ⟨before, later, hsplit, hbefore, hlater⟩ :=
    (h.settled hsound).split_ticking hserves hnow
  obtain ⟨harmed, hlast, htimes⟩ :=
    (h.settled hsound).tick_amid hsound.settled hserves hnow rfl hbefore hlater
  rw [← hsplit] at harmed hlast htimes
  have hwas : r.Serves id := (h.fate_settled hsound).serves hserves
  refine ⟨harmed, ?_, Nat.le_succ k, Nat.le_of_eq hend.symm, ?_, fun _ => hwas,
    fun hnot => absurd hwas hnot, fun _ => hlast⟩
  · rw [htimes, Nat.add_sub_cancel_left]
    rfl
  · intro _
    rw [hend, Nat.add_one_mul (k + 1)]
    omega

/-- What a millisecond makes of the loop of a number. -/
theorem Armed.pass (h : Armed id task t0 millis k r) (hsound : r.Sound) (hpos : 0 < millis)
    (hreached : t0 + k * millis ≤ r.clock.millis)
    (hdue : r.Serves id → r.clock.millis < t0 + (k + 1) * millis) :
    ∃ k', Passed id task t0 millis k k' r := by
  have hclock : r.settled.clock.millis = r.clock.millis + 1 := by
    rw [hsound.finished_settled.clock]
    rfl
  have hquiet : r.ticking.filter (·.id == id) = [] → ∀ l ∈ r.ticking, l.id ≠ id := by
    intro hnone l hl heq
    exact List.filter_eq_nil_iff.mp hnone l hl (beq_iff_eq.mpr heq)
  by_cases hserves : r.settled.Serves id
  · have hbefore : r.Serves id := (h.fate_settled hsound).serves hserves
    by_cases hnow : r.clock.millis + 1 = t0 + (k + 1) * millis
    · exact ⟨k + 1, h.pass_due hsound hpos hserves hnow⟩
    · -- The time of the loop has not come.
      have hlater : r.clock.millis + 1 < t0 + (k + 1) * millis :=
        Nat.lt_of_le_of_ne (hdue hbefore) hnow
      refine ⟨k, h.pass_quiet hsound hreached (fun _ => hlater) (hquiet ?_)⟩
      rw [filter_ticking, (h.settled hsound).armed hserves, hclock]
      simpa [loopAfter] using hlater
  · refine ⟨k, h.pass_quiet hsound hreached (fun hserved => absurd hserved hserves) (hquiet ?_)⟩
    rw [filter_ticking, (h.settled hsound).gone hserves]
    rfl

/-! ## A Task That Is Scheduled -/

/-- A request schedules a task under a number, at an interval of whole milliseconds. -/
inductive Issues (r : Rehearsal) : Request → TaskId → Nat → Nat → Prop
  /-- A new task is scheduled. -/
  | new {script : Script} {obstacle : Option String} {id : TaskId} {millis : Nat}
      (hthere : r.isDropped = false)
      (hparse : Schedule.parse script.schedule = .ok (.every ⟨millis * 1000000⟩))
      (hid : (r.schedule (.new script obstacle)).1 = .ok id) :
      Issues r (.schedule script obstacle) id r.tasks.length millis
  /-- A task that is there is scheduled once more. -/
  | again {task : Nat} {t : ScriptedTask} {id : TaskId} {millis : Nat}
      (hthere : r.isDropped = false) (ht : r.tasks[task]? = some t)
      (hparse : Schedule.parse t.script.schedule = .ok (.every ⟨millis * 1000000⟩))
      (hid : (r.scheduleAgain task).1 = .ok id) : Issues r (.scheduleAgain task) id task millis

/-- An interval is never empty. -/
theorem nanos_pos_of_parse {expression : String} {nanos : Nat}
    (h : Schedule.parse expression = .ok (.every ⟨nanos⟩)) : 0 < nanos := by
  unfold Schedule.parse at h
  dsimp only at h
  split at h
  · cases h
  · split at h
    · split at h
      · cases h
      · next interval hread =>
        cases h
        unfold readInterval at hread
        split at hread
        · cases hread
        · split at hread
          · cases hread
          · -- An interval that is read is not zero.
            split at hread
            · cases hread
            · next hpositive =>
              cases hread
              exact Nat.pos_of_ne_zero hpositive
    · split at h
      · cases h
      · split at h
        · cases h
        · cases h

theorem Issues.millis_pos {request : Request} (h : r.Issues request id task millis) :
    0 < millis := by
  cases h with
  | new _ hparse _ => exact Nat.pos_of_mul_pos_right (nanos_pos_of_parse hparse)
  | again _ _ hparse _ => exact Nat.pos_of_mul_pos_right (nanos_pos_of_parse hparse)

/-- What a number finds when it is given out. -/
structure Issued (id : TaskId) (task t0 millis : Nat) (r r' : Rehearsal) : Prop where
  id_eq : id = ⟨UInt64.ofNat (r.scheduler.issued + 1)⟩
  issued : r'.scheduler.issued = r.scheduler.issued + 1
  serves : r'.Serves id
  loops : r'.scheduler.loops = r.scheduler.loops ++ [loopAfter id task t0 millis 0]
  executions : r'.executions = r.executions
  clock : r'.clock = r.clock

theorem issued_scheduleAgain {t : ScriptedTask} (hthere : r.isDropped = false)
    (ht : r.tasks[task]? = some t)
    (hparse : Schedule.parse t.script.schedule = .ok (.every ⟨millis * 1000000⟩))
    (hid : (r.scheduleAgain task).1 = .ok id) :
    Issued id task r.clock.millis millis r (r.scheduleAgain task).2 := by
  rcases r.scheduleAgain_cases task with
    ⟨fault, heq⟩ | ⟨t', id', scheduler, ht', hschedule, hid', hscheduler, hdropped, hclock,
      hexecutions⟩
  · rw [heq] at hid
    cases hid
  · obtain rfl := Option.some.inj (ht.symm.trans ht')
    obtain rfl := Except.ok.inj (hid.symm.trans hid')
    obtain ⟨hopen, schedule, hparse', hnumber, rfl⟩ := Scheduler.schedule_inv hschedule
    obtain rfl := Except.ok.inj (hparse.symm.trans hparse')
    refine ⟨hnumber, ?_, ⟨?_, ?_, hdropped.trans hthere⟩, ?_, hexecutions, hclock⟩
    · rw [hscheduler]
    · rw [hscheduler]
      simp [Scheduler.isScheduled]
    · rw [hscheduler]
      exact hopen
    · rw [hscheduler, loopFrom_every, loopAfter]
      simp

theorem Issues.issued {request : Request} (h : r.Issues request id task millis) :
    Issued id task r.clock.millis millis r (r.meet request) := by
  cases h with
  | @new script obstacle _ _ hthere hparse hid =>
    rw [meet, if_neg (by simp [hthere])]
    have hnew : (r.tasks ++ [ScriptedTask.new script obstacle])[r.tasks.length]? =
        some (.new script obstacle) :=
      List.getElem?_concat_length
    have hissued := issued_scheduleAgain
      (r := { r with tasks := r.tasks ++ [.new script obstacle] }) hthere hnew hparse hid
    exact ⟨hissued.id_eq, hissued.issued, hissued.serves, hissued.loops, hissued.executions,
      hissued.clock⟩
  | again hthere ht hparse hid =>
    rw [meet, if_neg (by simp [hthere])]
    exact issued_scheduleAgain hthere ht hparse hid

/-! ## Punctuality -/

/-- The times at which a number has been ticked. -/
def tickTimes (start : Rehearsal) (id : TaskId) (history : List Request) : List Nat :=
  ((start.moments history).filter (·.loop.id == id)).map Moment.millis

theorem tickTimes_cons (start : Rehearsal) (id : TaskId) (request : Request)
    (earlier : List Request) :
    start.tickTimes id (request :: earlier) = start.tickTimes id earlier ++
      (((start.after earlier).momentsIn request).filter (·.loop.id == id)).map Moment.millis := by
  rw [tickTimes, moments_cons, List.filter_append, List.map_append, tickTimes]

/-- No number is ticked while the clock stands. -/
theorem tickTimes_calm {request : Request} (hother : request ≠ .pass) (start : Rehearsal)
    (id : TaskId) (earlier : List Request) :
    start.tickTimes id (request :: earlier) = start.tickTimes id earlier := by
  rw [tickTimes_cons, momentsIn_calm hother]
  exact List.append_nil _

/-- How a number stands that has been ticked `k` times. -/
structure Paced (start : Rehearsal) (id : TaskId) (task t0 millis k : Nat)
    (history : List Request) : Prop where
  armed : Armed id task t0 millis k (start.after history)
  times : start.tickTimes id history = (List.range' 1 k).map fun n => t0 + n * millis
  reached : t0 + k * millis ≤ (start.after history).clock.millis
  due : (start.after history).Serves id →
    (start.after history).clock.millis < t0 + (k + 1) * millis

section

variable {start : Rehearsal} {request : Request} {earlier later : List Request}

/-- A number that has just been given out has not been ticked. -/
theorem Issues.paced (h : (start.after earlier).Issues request id task millis)
    (hnumbered : Numbered start earlier)
    (hpos : 0 < millis) (hfew : (start.after earlier).scheduler.issued + 1 < 2 ^ 64) :
    Paced start id task (start.after earlier).clock.millis millis 0 (request :: earlier) ∧
      (start.after (request :: earlier)).Serves id := by
  have hissued := h.issued
  have hother : request ≠ .pass := by
    rintro rfl
    cases h
  have hnumber : id.number.toNat = (start.after earlier).scheduler.issued + 1 := by
    rw [hissued.id_eq, toNat_ofNat_issued hfew]
  -- All numbers that have occurred so far are smaller.
  have hfresh : ∀ other : TaskId,
      other.number.toNat ≤ (start.after earlier).scheduler.issued → other ≠ id := by
    rintro other hle rfl
    omega
  refine ⟨⟨⟨?_, ?_, fun _ => ?_, fun hnot => absurd hissued.serves hnot⟩, ?_, ?_, fun _ => ?_⟩,
    hissued.serves⟩
  · show id.number.toNat ≤ ((start.after earlier).meet request).scheduler.issued
    rw [hissued.issued]
    exact Nat.le_of_eq hnumber
  · intro e he hid
    have hold : e ∈ (start.after earlier).executions := hissued.executions ▸ he
    exact absurd hid (hfresh e.id (hnumbered.executions e hold))
  · have hnone : (start.after earlier).scheduler.loops.filter (·.id == id) = [] := by
      rw [List.filter_eq_nil_iff]
      intro l hl heq
      exact hfresh l.id (hnumbered.loops l hl) (beq_iff_eq.mp heq)
    show ((start.after earlier).meet request).scheduler.loopsOf id = _
    rw [Scheduler.loopsOf, hissued.loops, List.filter_append, hnone]
    simp [loopAfter]
  · have hnone : (start.moments earlier).filter (·.loop.id == id) = [] := by
      rw [List.filter_eq_nil_iff]
      intro m hm heq
      exact hfresh m.loop.id (hnumbered.moments m hm) (beq_iff_eq.mp heq)
    rw [tickTimes_calm hother, tickTimes, hnone]
    rfl
  · show _ ≤ ((start.after earlier).meet request).clock.millis
    rw [hissued.clock]
    omega
  · show ((start.after earlier).meet request).clock.millis < _
    rw [hissued.clock]
    omega

/-- What a request makes of a number. -/
structure Next (start : Rehearsal) (id : TaskId) (task t0 millis k k' : Nat) (request : Request)
    (earlier : List Request) : Prop where
  paced : Paced start id task t0 millis k' (request :: earlier)
  serves : (start.after (request :: earlier)).Serves id → (start.after earlier).Serves id
  still : ¬(start.after earlier).Serves id → k' = k
  removed : (start.after earlier).Serves id → ¬(start.after (request :: earlier)).Serves id →
    (start.after earlier).Removes id task request

theorem Paced.next (h : Paced start id task t0 millis k earlier) (hsound : start.Sound)
    (hpos : 0 < millis) (request : Request)
    (hfew : (start.after (request :: earlier)).scheduler.issued < 2 ^ 64) :
    ∃ k', Next start id task t0 millis k k' request earlier := by
  have hbefore := hsound.after earlier
  by_cases hpass : request = .pass
  · subst hpass
    obtain ⟨k', hpassed⟩ := h.armed.pass hbefore hpos h.reached h.due
    refine ⟨k', ⟨hpassed.armed, ?_, hpassed.reached, hpassed.due⟩, hpassed.serves, hpassed.still,
      hpassed.removed⟩
    have hlast : (((start.after earlier).momentsIn .pass).filter (·.loop.id == id)).map
        Moment.millis = (List.range' (k + 1) (k' - k)).map fun n => t0 + n * millis :=
      hpassed.times
    -- The times of the millisecond go on where those before it end.
    rw [tickTimes_cons, hlast, h.times, ← List.map_append, Nat.add_comm k 1,
      List.range'_append_1, Nat.add_sub_cancel' hpassed.least]
  · have hcalm := hbefore.calm hpass
    have hfate := hbefore.fate h.armed.known task hpass hfew
    have harmed : Armed id task t0 millis k (start.after (request :: earlier)) :=
      h.armed.fate hfate hcalm.issued fun e he => h.armed.tasks e (hcalm.executions.subset he)
    have hclock : (start.after (request :: earlier)).clock = (start.after earlier).clock :=
      hcalm.clock
    refine ⟨k, ⟨harmed, ?_, ?_, ?_⟩, hfate.serves, fun _ => rfl, hfate.reason⟩
    · rw [tickTimes_calm hpass]
      exact h.times
    · rw [hclock]
      exact h.reached
    · intro hserved
      rw [hclock]
      exact h.due (hfate.serves hserved)

/-- A number stays paced, whatever is asked. -/
theorem Paced.after (h : Paced start id task t0 millis k earlier) (hsound : start.Sound)
    (hpos : 0 < millis)
    (hfew : (start.after (later ++ earlier)).scheduler.issued < 2 ^ 64) :
    ∃ k', Paced start id task t0 millis k' (later ++ earlier) ∧
      (¬(start.after earlier).Serves id →
        k' = k ∧ ¬(start.after (later ++ earlier)).Serves id) := by
  induction later with
  | nil => exact ⟨k, h, fun hnot => ⟨rfl, hnot⟩⟩
  | cons request later ih =>
    have hissued := ((hsound.after (later ++ earlier)).met request).issued
    obtain ⟨k', hpaced, hstill⟩ := ih (Nat.lt_of_le_of_lt hissued hfew)
    obtain ⟨k'', hnext⟩ := hpaced.next hsound hpos request hfew
    -- A number that is not served is not served again, and so it has no more ticks.
    refine ⟨k'', hnext.paced, fun hnot => ?_⟩
    obtain ⟨rfl, hnot'⟩ := hstill hnot
    exact ⟨hnext.still hnot', fun hserves => hnot' (hnext.serves hserves)⟩

/-- When a number is ticked that was given out at the time `t0`. -/
structure Punctual (start : Rehearsal) (id : TaskId) (task t0 millis : Nat)
    (history : List Request) : Prop where
  /-- It is ticked when one more interval has passed since then, without a gap. -/
  times : start.tickTimes id history =
    (List.range' 1 (start.tickTimes id history).length).map fun n => t0 + n * millis
  /-- As long as it is served, no tick is missing. -/
  complete : (start.after history).Serves id →
    (start.tickTimes id history).length = ((start.after history).clock.millis - t0) / millis
  /-- It is not served any more only if something removes it, -/
  removed : (start.after history).Serves id → ∀ request,
    (start.after (request :: history)).scheduler.issued < 2 ^ 64 →
    ¬(start.after (request :: history)).Serves id → (start.after history).Removes id task request
  /-- and then it is neither ticked nor served ever again. -/
  silent : ¬(start.after history).Serves id → ∀ later,
    (start.after (later ++ history)).scheduler.issued < 2 ^ 64 →
    start.tickTimes id (later ++ history) = start.tickTimes id history ∧
      ¬(start.after (later ++ history)).Serves id

theorem Paced.punctual (h : Paced start id task t0 millis k earlier) (hsound : start.Sound)
    (hpos : 0 < millis) : Punctual start id task t0 millis earlier := by
  have hlength : (start.tickTimes id earlier).length = k := by
    rw [h.times, List.length_map, List.length_range']
  refine ⟨?_, ?_, ?_, ?_⟩
  · rw [hlength]
    exact h.times
  · intro hserves
    have hreached := h.reached
    have hdue := h.due hserves
    rw [hlength]
    symm
    apply Nat.div_eq_of_lt_le
    · omega
    · omega
  · intro hserves request hfew hnot
    obtain ⟨k', hnext⟩ := h.next hsound hpos request hfew
    exact hnext.removed hserves hnot
  · intro hnot later hfew
    obtain ⟨k', hpaced, hstill⟩ := h.after hsound hpos hfew
    obtain ⟨rfl, hnot'⟩ := hstill hnot
    exact ⟨hpaced.times.trans h.times.symm, hnot'⟩

end

/-- Every task that is scheduled at an interval of whole milliseconds is ticked punctually until
it is removed, and all ticks and executions are in order, whatever else is asked, whatever the
other tasks are, and however long executions take. -/
theorem punctual_after (wall : Time.Instant) (limit : Option Nat) (earlier later : List Request)
    (request : Request) (id : TaskId) (task millis : Nat)
    (hissues : ((start wall limit).after earlier).Issues request id task millis)
    (hfew : ((start wall limit).after (later ++ request :: earlier)).scheduler.issued < 2 ^ 64) :
    ((start wall limit).after (request :: earlier)).Serves id ∧
      Punctual (start wall limit) id task ((start wall limit).after earlier).clock.millis millis
        (later ++ request :: earlier) ∧
      Orderly (start wall limit) (later ++ request :: earlier) := by
  have hsound := sound_start wall limit
  have hpos := hissues.millis_pos
  have hnext : ((start wall limit).after earlier).scheduler.issued + 1 < 2 ^ 64 := by
    have hmonotone := (hsound.after (request :: earlier)).issued_after later
    rw [← after_append] at hmonotone
    have hissued : ((start wall limit).after (request :: earlier)).scheduler.issued =
        ((start wall limit).after earlier).scheduler.issued + 1 := hissues.issued.issued
    omega
  obtain ⟨hpaced, hserves⟩ := hissues.paced (numbered_after wall limit earlier) hpos hnext
  obtain ⟨k, hlater, -⟩ := hpaced.after hsound hpos hfew
  exact ⟨hserves, hlater.punctual hsound hpos, orderly_after wall limit _⟩

/-! ## Two Tasks -/

/-- A task whose runs never end. -/
def slowScript : Script := ⟨"slow", "@every 2ms", [⟨false, true, 0, false, .breakdown⟩]⟩

/-- A task whose runs take no time. -/
def quickScript : Script := ⟨"quick", "@every 3ms", []⟩

/-- The slow task is scheduled, and a millisecond passes. -/
def slowFirst : List Request := [.pass, .schedule slowScript none]

/-- Then the quick task is scheduled, and some more milliseconds pass. -/
def quickSecond : List Request :=
  List.replicate 7 .pass ++ .schedule quickScript none :: slowFirst

theorem parse_quickScript :
    Schedule.parse quickScript.schedule = .ok (.every ⟨3 * 1000000⟩) := by
  decide +kernel

/-- The quick task is ticked punctually though the slow one is under way, and is aborted. -/
theorem punctual_after_slowFirst :
    ((start (.ofUnix 0 0) (some 3)).after slowFirst).Issues (.schedule quickScript none) ⟨2⟩ 1 3 ∧
      ((start (.ofUnix 0 0) (some 3)).after quickSecond).scheduler.issued < 2 ^ 64 ∧
      ((start (.ofUnix 0 0) (some 3)).after (.schedule quickScript none :: slowFirst)).Serves ⟨2⟩ ∧
      Punctual (start (.ofUnix 0 0) (some 3)) ⟨2⟩ 1
        ((start (.ofUnix 0 0) (some 3)).after slowFirst).clock.millis 3 quickSecond ∧
      Orderly (start (.ofUnix 0 0) (some 3)) quickSecond := by
  have hissues : ((start (.ofUnix 0 0) (some 3)).after slowFirst).Issues
      (.schedule quickScript none) ⟨2⟩ 1 3 :=
    .new rfl parse_quickScript (by decide +kernel)
  have hfew : ((start (.ofUnix 0 0) (some 3)).after quickSecond).scheduler.issued < 2 ^ 64 := by
    decide +kernel
  exact ⟨hissues, hfew, punctual_after (.ofUnix 0 0) (some 3) slowFirst (List.replicate 7 .pass)
    (.schedule quickScript none) ⟨2⟩ 1 3 hissues hfew⟩

-- The quick task was scheduled at 1; two of the four ticks of the slow one came to nothing.
example :
    let first := start (.ofUnix 0 0) (some 3)
    first.tickTimes ⟨2⟩ quickSecond = [4, 7] ∧ first.tickTimes ⟨1⟩ quickSecond = [2, 4, 6, 8] ∧
      (first.after quickSecond).begun 0 = 2 := by
  decide +kernel

end Rehearsal

end EdgeSync
