import EdgeSync.Proofs.Task.Numbers
import EdgeSync.Task.Rehearsal

/-!
# Executions in Rehearsal

While the clock of a rehearsal stands, executions end that have taken their time or are aborted,
and ticks are made. This says once what either can do. An execution that ends, in whatever way,
concerns the phase of its own task, and the scheduler only if it was the last one of its task. A
tick executes the task that it finds idle and without an obstacle, and leaves all tasks and
executions alone otherwise.

For this the executions under way have to belong to different tasks, all of them running. They
always do.

## Main definitions

- `Rehearsal.Finished`: some executions have ended or were aborted
- `Rehearsal.executes`: a tick finds its task idle and without an obstacle
- `Rehearsal.Sound`, `Rehearsal.Consistent`: what always holds of the executions under way

## Main results

- `Rehearsal.Consistent.settle`: the executions whose time has come are finished
- `Rehearsal.Sound.tick`: what a tick does
-/

namespace EdgeSync

open Schedule

/-! ## Executions That End -/

/-- The phase in which a run leaves its task. -/
def Ending.phase : Ending → Phase
  | .outcome o => o.completion.phase
  | .breakdown => .idle

theorem Ending.phase_ne_running (ending : Ending) : ending.phase ≠ .running := by
  cases ending with
  | breakdown => exact nofun
  | outcome o =>
    rcases o with (_ | _) | _
    · exact nofun
    · exact nofun
    · exact nofun

theorem ScriptedTask.leave_phase (t : ScriptedTask) (ending : Ending) :
    (t.leave ending).2.handle.phase = ending.phase := by
  cases ending <;> rfl

theorem ScriptedTask.leave_frame (t : ScriptedTask) (ending : Ending) :
    (t.leave ending).2.script = t.script ∧ (t.leave ending).2.started = t.started := by
  cases ending <;> exact ⟨rfl, rfl⟩

namespace Rehearsal

/-- The phase of a task, if there is one. -/
def phase? (r : Rehearsal) (task : Nat) : Option Phase :=
  r.tasks[task]?.map (·.handle.phase)

/-- How many executions of a task have begun. -/
def begun (r : Rehearsal) (task : Nat) : Nat :=
  r.tasks[task]?.elim 0 ScriptedTask.started

/-- What happens while the clock stands. The trace only grows. -/
structure Stands (r r' : Rehearsal) : Prop where
  clock : r'.clock = r.clock
  limit : r'.limit = r.limit
  isDropped : r'.isDropped = r.isDropped
  isCanceled : r'.scheduler.isCanceled = r.scheduler.isCanceled
  issued : r'.scheduler.issued = r.scheduler.issued
  length : r'.tasks.length = r.tasks.length
  trace : r.trace <+: r'.trace

theorem Stands.refl (r : Rehearsal) : Stands r r :=
  ⟨rfl, rfl, rfl, rfl, rfl, rfl, List.prefix_rfl⟩

theorem Stands.trans {r s t : Rehearsal} (h : Stands r s) (h' : Stands s t) : Stands r t :=
  ⟨h'.clock.trans h.clock, h'.limit.trans h.limit, h'.isDropped.trans h.isDropped,
    h'.isCanceled.trans h.isCanceled, h'.issued.trans h.issued, h'.length.trans h.length,
    h.trace.trans h'.trace⟩

/-- Some executions have ended or were aborted, each of them leaving its task in some phase.
Only a task that has terminated may be unscheduled. -/
structure Finished (es : List Execution) (phase : Execution → Phase) (r r' : Rehearsal) : Prop
    extends Stands r r' where
  executions : r'.executions = r.executions
  others : ∀ i, i ∉ es.map Execution.task → r'.tasks[i]? = r.tasks[i]?
  own : ∀ e ∈ es, r'.phase? e.task = some (phase e)
  begun : ∀ i, r'.begun i = r.begun i
  loops : ∀ l ∈ r'.scheduler.loops, l ∈ r.scheduler.loops
  numbers : ∀ id, r.scheduler.Keeps id r'.scheduler ∨
    r'.scheduler.Lacks id ∧ ∃ e ∈ es, e.id = id ∧ phase e = .terminated

variable {r s t : Rehearsal} {phase : Execution → Phase}

theorem finished_nil (phase : Execution → Phase) (r : Rehearsal) : Finished [] phase r r where
  toStands := .refl r
  executions := rfl
  others := fun _ _ => rfl
  own := nofun
  begun := fun _ => rfl
  loops := fun _ h => h
  numbers := fun id => .inl (.refl r.scheduler id)

/-- Executions of different tasks may end one after the other. -/
theorem Finished.append {es es' : List Execution} (h : Finished es phase r s)
    (h' : Finished es' phase s t)
    (hdisjoint : ∀ e ∈ es, e.task ∉ es'.map Execution.task) :
    Finished (es ++ es') phase r t where
  toStands := h.toStands.trans h'.toStands
  executions := h'.executions.trans h.executions
  others := by
    intro i hi
    rw [List.map_append, List.mem_append, not_or] at hi
    exact (h'.others i hi.2).trans (h.others i hi.1)
  own := by
    intro e he
    rcases List.mem_append.mp he with hfirst | hsecond
    · -- What ends later does not concern the task.
      rw [phase?, h'.others e.task (hdisjoint e hfirst)]
      exact h.own e hfirst
    · exact h'.own e hsecond
  begun := fun i => (h'.begun i).trans (h.begun i)
  loops := fun l hl => h.loops l (h'.loops l hl)
  numbers := by
    intro id
    rcases h'.numbers id with hkeep' | ⟨hlacks', e, he, hid, hlast⟩
    · rcases h.numbers id with hkeep | ⟨hlacks, e, he, hid, hlast⟩
      · exact .inl (hkeep.trans hkeep')
      · exact .inr ⟨hlacks.keep hkeep', e, List.mem_append_left _ he, hid, hlast⟩
    · exact .inr ⟨hlacks', e, List.mem_append_right _ he, hid, hlast⟩

/-- If every execution that ends is finished, so are all of them in turn. -/
theorem finished_foldl {step : Rehearsal → Execution → Rehearsal}
    (hstep : ∀ (r : Rehearsal) (e : Execution), (∃ t, r.tasks[e.task]? = some t) →
      Finished [e] phase r (step r e))
    (es : List Execution) (hdistinct : (es.map Execution.task).Nodup)
    (hthere : ∀ e ∈ es, ∃ t, r.tasks[e.task]? = some t) :
    Finished es phase r (es.foldl step r) := by
  induction es generalizing r with
  | nil => exact finished_nil phase r
  | cons e es ih =>
    rw [List.map_cons, List.nodup_cons] at hdistinct
    have hone := hstep r e (hthere e List.mem_cons_self)
    -- The first execution has a task of its own, so those of the others are there still.
    refine hone.append (ih hdistinct.2 ?_) ?_
    · intro e' he'
      obtain ⟨t, ht⟩ := hthere e' (List.mem_cons_of_mem _ he')
      refine ⟨t, (hone.others e'.task ?_).trans ht⟩
      intro heq
      rw [List.map_singleton, List.mem_singleton] at heq
      exact hdistinct.1 (heq ▸ List.mem_map_of_mem he')
    · intro e' he'
      rw [List.mem_singleton.mp he']
      exact hdistinct.1

/-- Replacing a task by one that has begun as many executions. -/
theorem begun_set {tasks : List ScriptedTask} {task : Nat} {t t' : ScriptedTask}
    (ht : tasks[task]? = some t) (hstarted : t'.started = t.started) (i : Nat) :
    (tasks.set task t')[i]?.elim 0 ScriptedTask.started =
      tasks[i]?.elim 0 ScriptedTask.started := by
  rw [List.getElem?_set]
  split
  · next heq =>
    subst heq
    rw [ht, if_pos (List.getElem?_eq_some_iff.mp ht).1]
    exact hstarted
  · rfl

theorem note_eq {task : Nat} {t : ScriptedTask} (ht : r.tasks[task]? = some t) (h : Happening) :
    r.note task h = { r with trace := r.trace ++ [⟨r.clock.millis, t.script.name, h⟩] } := by
  rw [note, ht]

theorem getElem?_putTask {task : Nat} {t : ScriptedTask} (ht : r.tasks[task]? = some t)
    (t' : ScriptedTask) : (r.putTask task t').tasks[task]? = some t' :=
  List.getElem?_set_self (List.getElem?_eq_some_iff.mp ht).1

theorem conclude_eq {e : Execution} {t : ScriptedTask} (ht : r.tasks[e.task]? = some t)
    (ending : Ending) :
    r.conclude e ending =
      { r with
        tasks := r.tasks.set e.task (t.leave ending).2
        trace := r.trace ++ (t.leave ending).1.toList.map fun outcome =>
          ⟨r.clock.millis, t.script.name, .ofOutcome outcome⟩
        scheduler := if ending.phase = .terminated ∧ r.isDropped = false then
          (r.scheduler.unschedule e.id).2 else r.scheduler } := by
  rw [conclude, ht]
  cases ending with
  | breakdown =>
    simp [ScriptedTask.leave, Ending.phase, putTask]
  | outcome outcome =>
    have hput := getElem?_putTask ht { t with handle := (t.handle.leave outcome).2 }
    simp only [ScriptedTask.leave, note_eq hput]
    -- Only an execution that is done for good unschedules its task.
    rcases outcome with (_ | _) | fault
    · simp [putTask, Ending.phase, Outcome.completion, Completion.phase]
    · cases hdropped : r.isDropped with
      | true => simp [putTask, hdropped]
      | false => simp [putTask, hdropped, Ending.phase, Outcome.completion, Completion.phase]
    · simp [putTask, Ending.phase, Outcome.completion, Completion.phase]

theorem abort_eq {e : Execution} {t : ScriptedTask} (ht : r.tasks[e.task]? = some t) :
    r.abort e =
      { r with
        tasks := r.tasks.set e.task { t with handle := t.handle.abandon }
        trace := r.trace ++
          [⟨r.clock.millis, t.script.name, .aborted (r.limit.getD 0)⟩] } := by
  have hput := getElem?_putTask ht { t with handle := t.handle.abandon }
  rw [abort, ht]
  simp only [note_eq hput]
  rfl

/-- One task may be replaced by another one with as many executions, and if it has terminated then
its number may be unscheduled. -/
theorem finished_set {e : Execution} {t t' : ScriptedTask} (ht : r.tasks[e.task]? = some t)
    (hstarted : t'.started = t.started) (trace : List TraceEntry) {scheduler : Scheduler}
    (hscheduler : scheduler = r.scheduler ∨
      t'.handle.phase = .terminated ∧ scheduler = (r.scheduler.unschedule e.id).2)
    (hphase : t'.handle.phase = phase e) :
    Finished [e] phase r
      { r with tasks := r.tasks.set e.task t', trace := r.trace ++ trace, scheduler } := by
  have hframe : scheduler.isCanceled = r.scheduler.isCanceled ∧
      scheduler.issued = r.scheduler.issued ∧ ∀ l ∈ scheduler.loops, l ∈ r.scheduler.loops := by
    rcases hscheduler with rfl | ⟨-, rfl⟩
    · exact ⟨rfl, rfl, fun _ h => h⟩
    · have hsame := r.scheduler.unschedule_frame e.id
      exact ⟨hsame.2, hsame.1, fun l hl => Scheduler.mem_loops_of_unschedule hl⟩
  refine ⟨⟨rfl, rfl, rfl, hframe.1, hframe.2.1, List.length_set, List.prefix_append _ _⟩, rfl,
    ?_, ?_, begun_set ht hstarted, hframe.2.2, ?_⟩
  · intro i hi
    rw [List.map_singleton, List.mem_singleton] at hi
    exact List.getElem?_set_ne (Ne.symm hi)
  · intro e' he'
    rw [List.mem_singleton.mp he', phase?]
    have hget : (r.tasks.set e.task t')[e.task]? = some t' :=
      List.getElem?_set_self (List.getElem?_eq_some_iff.mp ht).1
    rw [hget]
    exact congrArg some hphase
  · intro id
    rcases hscheduler with rfl | ⟨hlast, rfl⟩
    · exact .inl (.refl _ id)
    · rcases r.scheduler.unschedule_cases e.id id with hkeep | ⟨hid, hlacks⟩
      · exact .inl hkeep
      · exact .inr ⟨hlacks, e, List.mem_cons_self, hid, hphase.symm.trans hlast⟩

/-- An execution that ends by itself is finished. -/
theorem finished_conclude {e : Execution} (hthere : ∃ t, r.tasks[e.task]? = some t)
    (ending : Ending) : Finished [e] (fun _ => ending.phase) r (r.conclude e ending) := by
  obtain ⟨t, ht⟩ := hthere
  rw [conclude_eq ht]
  have hphase := t.leave_phase ending
  refine finished_set ht (t.leave_frame ending).2 _ ?_ hphase
  split
  · next hlast => exact .inr ⟨hphase.trans hlast.1, rfl⟩
  · exact .inl rfl

/-- An execution that is aborted is finished; its task is idle then. -/
theorem finished_abort {e : Execution} (hthere : ∃ t, r.tasks[e.task]? = some t) :
    Finished [e] (fun _ => .idle) r (r.abort e) := by
  obtain ⟨t, ht⟩ := hthere
  rw [abort_eq ht]
  refine finished_set ht ?_ _ (.inl rfl) ?_
  · rfl
  · rfl

/-- Whether the time has come for an execution to end by itself or to be aborted. -/
def isOver (now : Nat) (time : Option Nat) : Bool :=
  time.any fun t => decide (t ≤ now)

/-- What is left of the executions under way. -/
def pending (r : Rehearsal) : List Execution :=
  r.executions.filter fun e => !isOver r.clock.millis e.ends && !isOver r.clock.millis e.deadline

/-- The executions whose time has come. Those that end by themselves come first. -/
def overdue (r : Rehearsal) : List Execution :=
  (r.executions.filter fun e => isOver r.clock.millis e.ends) ++
    r.executions.filter fun e => !isOver r.clock.millis e.ends && isOver r.clock.millis e.deadline

/-- The phase in which an execution leaves its task when its time has come. -/
def phaseAt (now : Nat) (e : Execution) : Phase :=
  if isOver now e.ends then e.run.ending.phase else .idle

/-- What always holds of the executions under way: they belong to different tasks, which are all
running. And a scheduler has no loops any more after it was canceled or dropped. -/
structure Consistent (r : Rehearsal) : Prop where
  distinct : (r.executions.map Execution.task).Nodup
  running : ∀ e ∈ r.executions, r.phase? e.task = some .running
  silent : r.scheduler.isCanceled = true ∨ r.isDropped = true → r.scheduler.loops = []

/-- A scheduler that was canceled or dropped gets no loops any more. -/
theorem silent_of_subset
    (h : r.scheduler.isCanceled = true ∨ r.isDropped = true → r.scheduler.loops = [])
    (hcanceled : s.scheduler.isCanceled = r.scheduler.isCanceled)
    (hdropped : s.isDropped = r.isDropped) (hloops : s.scheduler.loops ⊆ r.scheduler.loops) :
    s.scheduler.isCanceled = true ∨ s.isDropped = true → s.scheduler.loops = [] := by
  intro hstill
  rw [hcanceled, hdropped] at hstill
  rw [h hstill] at hloops
  exact List.eq_nil_of_subset_nil hloops

/-- Other executions under way do not belong to the same task. -/
theorem Consistent.task_notMem (h : r.Consistent) {e : Execution} (he : e ∈ r.executions)
    {es : List Execution} (hes : es ⊆ r.executions) (hnot : e ∉ es) :
    e.task ∉ es.map Execution.task := by
  intro hmem
  obtain ⟨e', he', htask⟩ := List.mem_map.mp hmem
  obtain rfl : e' = e := List.inj_on_of_nodup_map h.distinct (hes he') he htask
  exact hnot he'

theorem Finished.mono {es : List Execution} {phase' : Execution → Phase}
    (h : Finished es phase r s) (heq : ∀ e ∈ es, phase e = phase' e) :
    Finished es phase' r s where
  toStands := h.toStands
  executions := h.executions
  others := h.others
  own := fun e he => (heq e he) ▸ h.own e he
  begun := h.begun
  loops := h.loops
  numbers := by
    intro id
    rcases h.numbers id with hkeep | ⟨hlacks, e, he, hid, hlast⟩
    · exact .inl hkeep
    · exact .inr ⟨hlacks, e, he, hid, (heq e he).symm.trans hlast⟩

theorem Consistent.there (h : r.Consistent) {e : Execution} (he : e ∈ r.executions) :
    ∃ t, r.tasks[e.task]? = some t := by
  obtain ⟨t, ht, -⟩ := Option.map_eq_some_iff.mp (h.running e he)
  exact ⟨t, ht⟩

theorem Stands.there (h : Stands r s) {task : Nat} (hthere : ∃ t, r.tasks[task]? = some t) :
    ∃ t, s.tasks[task]? = some t := by
  obtain ⟨t, ht⟩ := hthere
  have hlt := (List.getElem?_eq_some_iff.mp ht).1
  rw [← h.length] at hlt
  exact ⟨_, List.getElem?_eq_getElem hlt⟩

/-- The executions whose time has come are finished, and the others stay under way. -/
theorem Consistent.finished_settle (h : r.Consistent) :
    Finished r.overdue (phaseAt r.clock.millis) { r with executions := r.pending }
      r.settleExecutions := by
  -- First those end that end by themselves, then the others are aborted.
  let start : Rehearsal := { r with executions := r.pending }
  let ended := r.executions.filter fun e => isOver r.clock.millis e.ends
  let aborted := r.executions.filter fun e =>
    !isOver r.clock.millis e.ends && isOver r.clock.millis e.deadline
  let middle := ended.foldl (fun r e => r.conclude e e.run.ending) start
  have hended : Finished ended (fun e => e.run.ending.phase) start middle := by
    refine finished_foldl ?_ ended (h.distinct.sublist (List.filter_sublist.map _)) ?_
    · intro r e hthere
      refine (finished_conclude hthere e.run.ending).mono fun e' he' => ?_
      rw [List.mem_singleton.mp he']
    · exact fun e he => h.there (List.mem_of_mem_filter he)
  have haborted : Finished aborted (fun _ => .idle) middle (aborted.foldl abort middle) := by
    refine finished_foldl (fun r e hthere => finished_abort hthere) aborted
      (h.distinct.sublist (List.filter_sublist.map _)) ?_
    exact fun e he => hended.toStands.there (h.there (List.mem_of_mem_filter he))
  have hdisjoint : ∀ e ∈ ended, e.task ∉ aborted.map Execution.task := by
    intro e he
    obtain ⟨hin, hover⟩ := List.mem_filter.mp he
    refine h.task_notMem hin List.filter_sublist.subset fun hmem => ?_
    have hnot := (List.mem_filter.mp hmem).2
    simp [hover] at hnot
  refine (hended.mono ?_).append (haborted.mono ?_) hdisjoint
  · intro e he
    have hover := (List.mem_filter.mp he).2
    rw [phaseAt, if_pos hover]
  · intro e he
    have hover := (List.mem_filter.mp he).2
    rw [Bool.and_eq_true, Bool.not_eq_true'] at hover
    rw [phaseAt, if_neg (by simp [hover.1])]

/-- What always holds between the movements of the clock: the time of no execution under way has
come. -/
structure Sound (r : Rehearsal) : Prop extends Consistent r where
  timely : ∀ e ∈ r.executions,
    isOver r.clock.millis e.ends = false ∧ isOver r.clock.millis e.deadline = false

theorem mem_overdue {e : Execution} :
    e ∈ r.overdue ↔ e ∈ r.executions ∧
      (isOver r.clock.millis e.ends = true ∨ isOver r.clock.millis e.deadline = true) := by
  cases hends : isOver r.clock.millis e.ends <;> simp [overdue, hends]

theorem mem_pending {e : Execution} :
    e ∈ r.pending ↔ e ∈ r.executions ∧ isOver r.clock.millis e.ends = false ∧
      isOver r.clock.millis e.deadline = false := by
  simp [pending]

/-- What is left when the executions are finished whose time has come. -/
theorem Consistent.settle (h : r.Consistent) : r.settleExecutions.Sound := by
  have hfinished := h.finished_settle
  have hpending : ∀ e ∈ r.settleExecutions.executions, e ∈ r.pending := by
    intro e he
    rw [hfinished.executions] at he
    exact he
  refine ⟨⟨?_, ?_, ?_⟩, ?_⟩
  · rw [hfinished.executions]
    exact h.distinct.sublist (List.filter_sublist.map _)
  · intro e he
    obtain ⟨hin, hends, hdeadline⟩ := mem_pending.mp (hpending e he)
    have hnot : e ∉ r.overdue := by
      rw [mem_overdue, hends, hdeadline]
      simp
    have hother : e.task ∉ r.overdue.map Execution.task :=
      h.task_notMem hin (fun _ hover => (mem_overdue.mp hover).1) hnot
    rw [phase?, hfinished.others e.task hother]
    exact h.running e hin
  · exact silent_of_subset h.silent hfinished.isCanceled hfinished.isDropped hfinished.loops
  · intro e he
    rw [hfinished.clock]
    exact (mem_pending.mp (hpending e he)).2

/-! ## Ticks -/

end Rehearsal

/-- The task while an execution is under way that a tick has begun. -/
def ScriptedTask.running (t : ScriptedTask) : ScriptedTask :=
  { t with handle := { t.handle with phase := .running }, started := t.started + 1 }

/-- The run that the next execution of a task goes through. -/
def ScriptedTask.nextRun (t : ScriptedTask) : Run :=
  t.script.run t.started

/-- A tick finds a task idle, and nothing stands in its way. -/
def ScriptedTask.isReady (t : ScriptedTask) : Bool :=
  decide (t.handle.phase = .idle) && t.obstacle.isNone

theorem ScriptedTask.enter_ready {t : ScriptedTask} (h : t.isReady = true) :
    t.enter false = .ok (t.nextRun, t.running) := by
  obtain ⟨script, obstacle, ⟨phase, id⟩, started⟩ := t
  obtain ⟨hidle, hnone⟩ := Bool.and_eq_true_iff.mp h
  obtain rfl : phase = .idle := of_decide_eq_true hidle
  obtain rfl : obstacle = none := Option.isNone_iff_eq_none.mp hnone
  rfl

theorem ScriptedTask.enter_refused {t : ScriptedTask} (h : t.isReady = false) :
    ∃ refusal, t.enter false = .error refusal := by
  rw [enter, TaskHandle.enter, TaskHandle.begin]
  cases hphase : t.handle.phase with
  | idle =>
    cases hobstacle : t.obstacle with
    | none => simp [isReady, hphase, hobstacle] at h
    | some reason => exact ⟨_, rfl⟩
  | running => exact ⟨_, rfl⟩
  | terminated => exact ⟨_, rfl⟩

namespace Rehearsal

variable {r r' : Rehearsal}

/-- Whether a tick comes to an execution. -/
def executes (r : Rehearsal) (l : TickLoop) : Bool :=
  r.tasks[l.task]?.any ScriptedTask.isReady

theorem executes_iff {l : TickLoop} :
    r.executes l = true ↔ ∃ t, r.tasks[l.task]? = some t ∧ t.isReady = true := by
  rw [executes]
  cases r.tasks[l.task]? <;> simp

/-- The rehearsal after an execution has begun, which is not yet under way. -/
def opened (r : Rehearsal) (l : TickLoop) (t : ScriptedTask) : Rehearsal :=
  let nested := (t.running.nested t.nextRun).bind Happening.ofRefusal
  { r with
    tasks := r.tasks.set l.task t.running
    trace := r.trace ++ ⟨r.clock.millis, t.script.name, .started⟩ ::
      nested.toList.map fun h => ⟨r.clock.millis, t.script.name, h⟩ }

theorem getElem?_opened {l : TickLoop} {t : ScriptedTask} (ht : r.tasks[l.task]? = some t) :
    (r.opened l t).tasks[l.task]? = some t.running :=
  getElem?_putTask ht t.running

theorem attempt_ready {l : TickLoop} {t : ScriptedTask} (ht : r.tasks[l.task]? = some t)
    (hready : t.isReady = true) (hopen : r.scheduler.isCanceled = false) :
    r.attempt l =
      if t.nextRun.isInstant then
        (r.opened l t).conclude (r.executionOf l t.nextRun) t.nextRun.ending
      else settleExecutions { r.opened l t with
        executions := r.executions ++ [r.executionOf l t.nextRun] } := by
  have hput := getElem?_putTask ht t.running
  have hopened : ((t.running.nested t.nextRun).bind Happening.ofRefusal).elim
      ((r.putTask l.task t.running).note l.task .started)
      (((r.putTask l.task t.running).note l.task .started).note l.task) = r.opened l t := by
    rw [note_eq hput, opened]
    cases (t.running.nested t.nextRun).bind Happening.ofRefusal with
    | none => rfl
    | some h =>
      have hput' : ({ r.putTask l.task t.running with
          trace := (r.putTask l.task t.running).trace ++
            [⟨(r.putTask l.task t.running).clock.millis, t.running.script.name, .started⟩] } :
          Rehearsal).tasks[l.task]? = some t.running := hput
      simp only [Option.elim_some, note_eq hput', Option.toList_some, List.append_assoc]
      rfl
  simp only [attempt, ht, hopen, ScriptedTask.enter_ready hready, hopened]
  rfl

/-- An execution has begun: it is under way, or it is over already. -/
structure Executed (l : TickLoop) (r r' : Rehearsal) : Prop where
  begun : r'.begun l.task = r.begun l.task + 1
  started : ∃ t, r.tasks[l.task]? = some t ∧
    ⟨r.clock.millis, t.script.name, .started⟩ ∈ r'.trace
  course : (∃ run, r'.executions = r.executions ++ [r.executionOf l run] ∧
      r'.phase? l.task = some .running ∧
      isOver r.clock.millis (r.executionOf l run).ends = false ∧
      isOver r.clock.millis (r.executionOf l run).deadline = false) ∨
    r'.executions = r.executions ∧ ∃ phase, phase ≠ .running ∧ r'.phase? l.task = some phase

/-- What an attempt to execute the task of a loop does. -/
structure Attempted (l : TickLoop) (r r' : Rehearsal) : Prop extends Stands r r' where
  others : ∀ i, i ≠ l.task → r'.tasks[i]? = r.tasks[i]?
  skipped : r.executes l = false → r'.tasks = r.tasks ∧ r'.executions = r.executions
  executed : r.executes l = true → Executed l r r'
  loops : ∀ m ∈ r'.scheduler.loops, m ∈ r.scheduler.loops
  numbers : ∀ id, r.scheduler.Keeps id r'.scheduler ∨
    r'.scheduler.Lacks id ∧ l.id = id ∧ r'.phase? l.task = some .terminated

/-- An attempt that comes to nothing leaves no more than a note. -/
theorem attempted_note {l : TickLoop} (h : r.executes l = false) (trace : List TraceEntry) :
    Attempted l r { r with trace := r.trace ++ trace } where
  toStands := ⟨rfl, rfl, rfl, rfl, rfl, rfl, List.prefix_append _ _⟩
  others := fun _ _ => rfl
  skipped := fun _ => ⟨rfl, rfl⟩
  executed := fun htrue => by
    rw [h] at htrue
    cases htrue
  loops := fun _ hm => hm
  numbers := fun id => .inl (.refl _ id)

/-- An execution that has begun may be finished at once. -/
theorem attempted_of_finished {l : TickLoop} {t : ScriptedTask}
    (ht : r.tasks[l.task]? = some t) (hready : t.isReady = true) {executions : List Execution}
    {es : List Execution} {phase : Execution → Phase}
    (h : Finished es phase { r.opened l t with executions } r')
    (hcourse : executions = r.executions ++ [r.executionOf l t.nextRun] ∧ es = [] ∧
        isOver r.clock.millis (r.executionOf l t.nextRun).ends = false ∧
        isOver r.clock.millis (r.executionOf l t.nextRun).deadline = false ∨
      executions = r.executions ∧ es = [r.executionOf l t.nextRun] ∧
        phase (r.executionOf l t.nextRun) ≠ .running) : Attempted l r r' := by
  have hexecutes : r.executes l = true := executes_iff.mpr ⟨t, ht, hready⟩
  have hopened := getElem?_opened ht
  have htrace : ⟨r.clock.millis, t.script.name, .started⟩ ∈ r'.trace :=
    h.trace.subset (List.mem_append_right _ List.mem_cons_self)
  have htasks : ∀ e ∈ es, e.task = l.task ∧ e.id = l.id := by
    intro e he
    rcases hcourse with ⟨-, rfl, -⟩ | ⟨-, rfl, -⟩
    · cases he
    · rw [List.mem_singleton.mp he]
      exact ⟨rfl, rfl⟩
  have hother : ∀ i, i ≠ l.task → i ∉ es.map Execution.task := by
    intro i hi hmem
    obtain ⟨e, he, rfl⟩ := List.mem_map.mp hmem
    exact hi (htasks e he).1
  refine ⟨⟨h.clock, h.limit, h.isDropped, h.isCanceled, h.issued, h.length.trans List.length_set,
    (List.prefix_append _ _).trans h.trace⟩, ?_, ?_, fun _ => ⟨?_, ⟨t, ht, htrace⟩, ?_⟩, h.loops,
    ?_⟩
  · intro i hi
    exact (h.others i (hother i hi)).trans (List.getElem?_set_ne (Ne.symm hi))
  · intro hnot
    rw [hexecutes] at hnot
    cases hnot
  · rw [h.begun, begun, begun, ht]
    exact congrArg (·.elim 0 ScriptedTask.started) hopened
  · rcases hcourse with ⟨rfl, rfl, hends, hdeadline⟩ | ⟨rfl, rfl, hphase⟩
    · -- Nothing was finished, so the task is running still.
      refine .inl ⟨t.nextRun, h.executions, ?_, hends, hdeadline⟩
      rw [phase?, h.others l.task List.not_mem_nil]
      exact congrArg (·.map (·.handle.phase)) hopened
    · exact .inr ⟨h.executions, _, hphase, h.own _ List.mem_cons_self⟩
  · intro id
    rcases h.numbers id with hkeep | ⟨hlacks, e, he, hid, hlast⟩
    · exact .inl hkeep
    · refine .inr ⟨hlacks, (htasks e he).2 ▸ hid, ?_⟩
      rw [← (htasks e he).1, ← hlast]
      exact h.own e he

theorem distinct_append {executions : List Execution}
    (h : (executions.map Execution.task).Nodup) {e : Execution}
    (hfree : e.task ∉ executions.map Execution.task) :
    ((executions ++ [e]).map Execution.task).Nodup := by
  rw [List.map_append, List.map_singleton, List.nodup_append]
  refine ⟨h, List.nodup_singleton _, ?_⟩
  intro i hi j hj heq
  rw [heq, List.mem_singleton.mp hj] at hi
  exact hfree hi

/-- No execution of a task is under way that is ready. -/
theorem Sound.free_of_ready (h : r.Sound) {l : TickLoop} {t : ScriptedTask}
    (ht : r.tasks[l.task]? = some t) (hready : t.isReady = true) :
    l.task ∉ r.executions.map Execution.task := by
  intro hmem
  obtain ⟨e, he, htask⟩ := List.mem_map.mp hmem
  have hrunning := h.running e he
  rw [htask, phase?, ht, Option.map_some, Option.some.injEq] at hrunning
  simp [ScriptedTask.isReady, hrunning] at hready

/-- A run that takes time does not end at once. -/
theorem isOver_ends (r : Rehearsal) (l : TickLoop) {run : Run} (hlong : run.isInstant = false) :
    isOver r.clock.millis (r.executionOf l run).ends = false := by
  unfold executionOf
  cases hhangs : run.hangs with
  | true => simp [isOver]
  | false =>
    have hmillis : run.millis ≠ 0 := by
      intro hzero
      simp [Run.isInstant, hhangs, hzero] at hlong
    simp [isOver]
    omega

/-- An execution that begins belongs to a task of its own. -/
theorem Sound.consistent_opened (h : r.Sound) {l : TickLoop} {t : ScriptedTask}
    (ht : r.tasks[l.task]? = some t) (hready : t.isReady = true) {e : Execution}
    (htask : e.task = l.task) :
    Consistent { r.opened l t with executions := r.executions ++ [e] } := by
  have hfree := h.free_of_ready ht hready
  refine ⟨?_, ?_, h.silent⟩
  · refine distinct_append h.distinct ?_
    rw [htask]
    exact hfree
  · rw [List.forall_mem_append, List.forall_mem_singleton]
    refine ⟨fun e' he' => ?_, ?_⟩
    · have hother : l.task ≠ e'.task := fun heq => hfree (heq ▸ List.mem_map_of_mem he')
      have hsame : (r.opened l t).tasks[e'.task]? = r.tasks[e'.task]? :=
        List.getElem?_set_ne hother
      exact (congrArg (·.map (·.handle.phase)) hsame).trans (h.running e' he')
    · rw [htask]
      exact congrArg (·.map (·.handle.phase)) (getElem?_opened ht)

/-- The time of no execution under way has come. -/
theorem Sound.filter_timely (h : r.Sound) :
    (r.executions.filter fun e => isOver r.clock.millis e.ends) = [] ∧
      (r.executions.filter fun e =>
        !isOver r.clock.millis e.ends && isOver r.clock.millis e.deadline) = [] ∧
      (r.executions.filter fun e =>
        !isOver r.clock.millis e.ends && !isOver r.clock.millis e.deadline) = r.executions := by
  refine ⟨?_, ?_, ?_⟩
  · rw [List.filter_eq_nil_iff]
    intro e he
    simp [(h.timely e he).1]
  · rw [List.filter_eq_nil_iff]
    intro e he
    simp [(h.timely e he).2]
  · rw [List.filter_eq_self]
    intro e he
    simp [h.timely e he]

/-- An execution that takes time is under way unless it is aborted at once. -/
theorem Sound.attempted_settle (h : r.Sound) {l : TickLoop} {t : ScriptedTask}
    (ht : r.tasks[l.task]? = some t) (hready : t.isReady = true)
    (hlong : t.nextRun.isInstant = false) :
    Attempted l r (settleExecutions
      { r.opened l t with executions := r.executions ++ [r.executionOf l t.nextRun] }) := by
  have hends := r.isOver_ends l hlong
  have hconsistent : Consistent { r.opened l t with
      executions := r.executions ++ [r.executionOf l t.nextRun] } :=
    h.consistent_opened ht hready rfl
  have hquiet := h.filter_timely
  have hclock : (r.opened l t).clock = r.clock := rfl
  refine attempted_of_finished ht hready hconsistent.finished_settle ?_
  generalize r.executionOf l t.nextRun = e at hends
  cases hdeadline : isOver r.clock.millis e.deadline with
  | false =>
    left
    simp [pending, overdue, hclock, hquiet, hends, hdeadline]
  | true =>
    right
    simp [pending, overdue, hclock, hquiet, hends, hdeadline, phaseAt]

/-- An attempt executes the task if it is ready. -/
theorem Sound.attempted (h : r.Sound) (hopen : r.scheduler.isCanceled = false) (l : TickLoop) :
    Attempted l r (r.attempt l) := by
  cases ht : r.tasks[l.task]? with
  | none =>
    have hexecutes : r.executes l = false := by
      rw [executes, ht]
      rfl
    have hnone := attempted_note hexecutes []
    rw [List.append_nil] at hnone
    rw [attempt, ht]
    exact hnone
  | some t =>
    cases hready : t.isReady with
    | true =>
      rw [attempt_ready ht hready hopen]
      cases hlong : t.nextRun.isInstant with
      | true =>
        have hthere : ∃ t', (r.opened l t).tasks[(r.executionOf l t.nextRun).task]? = some t' :=
          ⟨_, getElem?_opened ht⟩
        have hfinished := finished_conclude hthere t.nextRun.ending
        exact attempted_of_finished ht hready hfinished
          (.inr ⟨rfl, rfl, t.nextRun.ending.phase_ne_running⟩)
      | false => exact h.attempted_settle ht hready hlong
    | false =>
      -- The attempt is refused, and leaves a note at most.
      have hexecutes : r.executes l = false := by
        rw [executes, ht]
        exact hready
      obtain ⟨refusal, hrefusal⟩ := t.enter_refused hready
      simp only [attempt, ht, hopen, hrefusal]
      cases Happening.ofRefusal refusal with
      | none =>
        have hnone := attempted_note hexecutes []
        rw [List.append_nil] at hnone
        exact hnone
      | some happening =>
        rw [Option.elim_some, note_eq ht]
        exact attempted_note hexecutes _

/-- An attempt leaves the executions under way as they are, or adds one of a task that had none. -/
theorem Attempted.executions_cases {l : TickLoop} (hattempted : Attempted l r r') (h : r.Sound) :
    r'.executions = r.executions ∨ ∃ e, r'.executions = r.executions ++ [e] ∧
      e.task ∉ r.executions.map Execution.task ∧ r'.phase? e.task = some .running ∧
      isOver r.clock.millis e.ends = false ∧ isOver r.clock.millis e.deadline = false := by
  cases hexecutes : r.executes l with
  | false => exact .inl (hattempted.skipped hexecutes).2
  | true =>
    obtain ⟨t, ht, hready⟩ := executes_iff.mp hexecutes
    rcases (hattempted.executed hexecutes).course with ⟨run, hexecutions, hcourse⟩ | ⟨hsame, -⟩
    · exact .inr ⟨r.executionOf l run, hexecutions, h.free_of_ready ht hready, hcourse⟩
    · exact .inl hsame

/-- The tasks that were running still are. -/
theorem Attempted.running {l : TickLoop} (hattempted : Attempted l r r') (h : r.Sound)
    {e : Execution} (he : e ∈ r.executions) : r'.phase? e.task = some .running := by
  refine Eq.trans ?_ (h.running e he)
  cases hexecutes : r.executes l with
  | false => rw [phase?, (hattempted.skipped hexecutes).1, phase?]
  | true =>
    obtain ⟨t, ht, hready⟩ := executes_iff.mp hexecutes
    have hfree := h.free_of_ready ht hready
    have hother : e.task ≠ l.task := fun heq => hfree (heq ▸ List.mem_map_of_mem he)
    rw [phase?, hattempted.others e.task hother, phase?]

/-- What holds of the executions under way still holds after an attempt. -/
theorem Attempted.sound {l : TickLoop} (hattempted : Attempted l r r') (h : r.Sound) :
    r'.Sound := by
  have hsilent := silent_of_subset h.silent hattempted.isCanceled hattempted.isDropped
    hattempted.loops
  have hrunning : ∀ e ∈ r.executions, r'.phase? e.task = some .running :=
    fun _ he => hattempted.running h he
  have htimely := h.timely
  rw [← hattempted.clock] at htimely
  rcases hattempted.executions_cases h with hsame | ⟨e, hexecutions, hfree, hphase, hopen⟩
  · refine ⟨⟨?_, ?_, hsilent⟩, ?_⟩
    · rw [hsame]
      exact h.distinct
    · rw [hsame]
      exact hrunning
    · rw [hsame]
      exact htimely
  · rw [← hattempted.clock] at hopen
    refine ⟨⟨?_, ?_, hsilent⟩, ?_⟩
    · rw [hexecutions]
      exact distinct_append h.distinct hfree
    · rw [hexecutions, List.forall_mem_append, List.forall_mem_singleton]
      exact ⟨hrunning, hphase⟩
    · rw [hexecutions, List.forall_mem_append, List.forall_mem_singleton]
      exact ⟨htimely, hopen⟩

/-- Notes before an attempt may be passed over. -/
theorem Attempted.of_noted {l : TickLoop} {trace : List TraceEntry}
    (h : Attempted l { r with trace := r.trace ++ trace } r') : Attempted l r r' where
  toStands := ⟨h.clock, h.limit, h.isDropped, h.isCanceled, h.issued, h.length,
    (List.prefix_append _ _).trans h.trace⟩
  others := h.others
  skipped := h.skipped
  executed := fun hexecutes =>
    let hexecuted := h.executed hexecutes
    ⟨hexecuted.begun, hexecuted.started, hexecuted.course⟩
  loops := h.loops
  numbers := h.numbers

/-- The loop of a tick goes on waiting, and its task is attempted to execute. -/
theorem Sound.tick (h : r.Sound) (hopen : r.scheduler.isCanceled = false) (l : TickLoop) :
    Attempted l { r with scheduler := r.scheduler.rearm r.clock l } (r.tick l) ∧
      (r.tick l).Sound := by
  have hrearmed : Sound { r with scheduler := r.scheduler.rearm r.clock l } := by
    refine ⟨⟨h.distinct, h.running, fun hstill => ?_⟩, h.timely⟩
    show r.scheduler.loops.flatMap _ = []
    rw [h.silent hstill]
    rfl
  have hnoted : ∃ trace, r.tick l =
      attempt { r with
        scheduler := r.scheduler.rearm r.clock l, trace := r.trace ++ trace } l := by
    unfold Rehearsal.tick
    dsimp only
    split
    · refine ⟨[], ?_⟩
      rw [List.append_nil]
    · unfold note
      split
      · refine ⟨[], ?_⟩
        rw [List.append_nil]
      · exact ⟨_, rfl⟩
  obtain ⟨trace, htick⟩ := hnoted
  have hsound : Sound { r with
      scheduler := r.scheduler.rearm r.clock l, trace := r.trace ++ trace } :=
    ⟨⟨hrearmed.distinct, hrearmed.running, hrearmed.silent⟩, hrearmed.timely⟩
  have hattempted := hsound.attempted hopen l
  rw [htick]
  exact ⟨hattempted.of_noted, hattempted.sound hsound⟩

end Rehearsal

end EdgeSync
