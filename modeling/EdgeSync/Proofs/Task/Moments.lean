import EdgeSync.Proofs.Task.Executions

/-!
# Moments of Ticks

A rehearsal goes through a history of requests, one of which is to let a millisecond pass. Ticks
are made in such a millisecond only, and each of them at a moment of its own: after the executions
have ended whose time has come, and after the ticks before it.

So a history tells all ticks, and with them all executions that have ever begun: those of the
ticks that found their task idle and without an obstacle. The other ticks are skipped, and nothing
comes of them later.

## Main definitions

- `Rehearsal.Request`, `Rehearsal.after`: requests one after the other, the latest first
- `Rehearsal.moments`: the ticks of a history, each with the rehearsal that it finds
- `Rehearsal.Orderly`: what holds of ticks and executions after a history

## Main results

- `Rehearsal.Sound.calm`: what requests do while the clock stands
- `Rehearsal.Sound.met`: what any request does
- `Rehearsal.Sound.after`: the executions under way belong to running tasks, and to the future
- `Rehearsal.orderly_after`: ticks execute or are skipped, and executions end in time
-/

namespace EdgeSync

namespace Rehearsal

/-! ## Requests -/

/-- What may be asked next of a rehearsal. -/
inductive Request where
  | schedule (script : Script) (obstacle : Option String)
  | scheduleAgain (task : Nat)
  | unschedule (id : TaskId)
  | publish (event : Event)
  | setObstacle (task : Nat) (obstacle : Option String)
  | pass
  | cancel
  | shutdown
  | drop

/-- Do what is asked. -/
def meet (r : Rehearsal) : Request → Rehearsal
  -- Nobody can schedule a task any more when the scheduler has been dropped.
  | .schedule script obstacle =>
    if r.isDropped then r else (r.schedule (.new script obstacle)).2
  | .scheduleAgain task => if r.isDropped then r else (r.scheduleAgain task).2
  | .unschedule id => (r.unschedule id).2
  | .publish event => (r.publish event).2
  | .setObstacle task obstacle => r.setObstacle task obstacle
  | .pass => r.pass
  | .cancel => r.cancel
  | .shutdown => r.shutdown
  | .drop => r.drop

/-- The rehearsal after a history. -/
def after (r : Rehearsal) : List Request → Rehearsal
  | [] => r
  | request :: earlier => (r.after earlier).meet request

theorem after_append (r : Rehearsal) (later earlier : List Request) :
    r.after (later ++ earlier) = (r.after earlier).after later := by
  induction later with
  | nil => rfl
  | cons request later ih => exact congrArg (·.meet request) ih

/-! ## Moments -/

/-- The next millisecond has come, and the executions have ended whose time has come with it. -/
def settled (r : Rehearsal) : Rehearsal :=
  settleExecutions { r with clock := r.clock.after 1 }

/-- The loops that tick in the next millisecond. -/
def ticking (r : Rehearsal) : List TickLoop :=
  r.settled.scheduler.due r.settled.clock

/-- A tick with the rehearsal that it finds. -/
structure Moment where
  rehearsal : Rehearsal
  loop : TickLoop

/-- The time of a tick. -/
def Moment.millis (m : Moment) : Nat :=
  m.rehearsal.clock.millis

/-- What a tick leaves. -/
def Moment.next (m : Moment) : Rehearsal :=
  m.rehearsal.tick m.loop

/-- Whether a tick comes to an execution. -/
def Moment.executes (m : Moment) : Bool :=
  m.rehearsal.executes m.loop

/-- Ticks one after the other. -/
def momentsOf (r : Rehearsal) : List TickLoop → List Moment
  | [] => []
  | l :: rest => ⟨r, l⟩ :: (r.tick l).momentsOf rest

theorem momentsOf_append (r : Rehearsal) (first second : List TickLoop) :
    r.momentsOf (first ++ second) =
      r.momentsOf first ++ (first.foldl tick r).momentsOf second := by
  induction first generalizing r with
  | nil => rfl
  | cons l first ih => exact congrArg (⟨r, l⟩ :: ·) (ih (r.tick l))

/-- The ticks of a history, the first one first. -/
def moments (r : Rehearsal) : List Request → List Moment
  | [] => []
  | .pass :: earlier =>
    r.moments earlier ++ (r.after earlier).settled.momentsOf (r.after earlier).ticking
  | _ :: earlier => r.moments earlier

/-! ## While the Clock Stands -/

variable {r r' : Rehearsal}

/-- What requests do while the clock stands: executions may end, but none begins. -/
structure Calm (r r' : Rehearsal) : Prop where
  clock : r'.clock = r.clock
  limit : r'.limit = r.limit
  issued : r.scheduler.issued ≤ r'.scheduler.issued
  executions : r'.executions.Sublist r.executions
  running : ∀ e ∈ r'.executions, r.phase? e.task = some .running → r'.phase? e.task = some .running
  begun : ∀ i, r'.begun i = r.begun i
  loops : ∀ l ∈ r'.scheduler.loops,
    l ∈ r.scheduler.loops ∨ l.id.number.toNat ≤ r'.scheduler.issued
  silent : (r.scheduler.isCanceled = true ∨ r.isDropped = true → r.scheduler.loops = []) →
    r'.scheduler.isCanceled = true ∨ r'.isDropped = true → r'.scheduler.loops = []

theorem Calm.refl (r : Rehearsal) : Calm r r :=
  ⟨rfl, rfl, Nat.le_refl _, List.Sublist.refl _, fun _ _ h => h, fun _ => rfl,
    fun _ hl => .inl hl, fun h => h⟩

theorem Calm.trans {s t : Rehearsal} (h : Calm r s) (h' : Calm s t) : Calm r t where
  clock := h'.clock.trans h.clock
  limit := h'.limit.trans h.limit
  issued := Nat.le_trans h.issued h'.issued
  executions := h'.executions.trans h.executions
  running := fun e he hrunning => h'.running e he (h.running e (h'.executions.subset he) hrunning)
  begun := fun i => (h'.begun i).trans (h.begun i)
  loops := by
    intro l hl
    rcases h'.loops l hl with hold | hnew
    · exact (h.loops l hold).imp_right fun hle => Nat.le_trans hle h'.issued
    · exact .inr hnew
  silent := fun hsilent => h'.silent (h.silent hsilent)

theorem Calm.sound (h : Calm r r') (hsound : r.Sound) : r'.Sound where
  distinct := hsound.distinct.sublist (h.executions.map _)
  running := fun e he => h.running e he (hsound.running e (h.executions.subset he))
  silent := h.silent hsound.silent
  timely := by
    rw [h.clock]
    exact fun e he => hsound.timely e (h.executions.subset he)

/-- Another scheduler makes no difference to the tasks. -/
theorem calm_scheduler (r : Rehearsal) {scheduler : Scheduler}
    (hissued : r.scheduler.issued ≤ scheduler.issued)
    (hcanceled : scheduler.isCanceled = r.scheduler.isCanceled)
    (hloops : ∀ l ∈ scheduler.loops, l ∈ r.scheduler.loops) :
    Calm r { r with scheduler } where
  clock := rfl
  limit := rfl
  issued := hissued
  executions := List.Sublist.refl _
  running := fun _ _ h => h
  begun := fun _ => rfl
  loops := fun l hl => .inl (hloops l hl)
  silent := fun hsilent => silent_of_subset hsilent hcanceled rfl hloops

/-- A task may be replaced by another one in the same phase. -/
theorem calm_putTask {task : Nat} {t t' : ScriptedTask} (ht : r.tasks[task]? = some t)
    (hphase : t'.handle.phase = t.handle.phase) (hstarted : t'.started = t.started) :
    Calm r (r.putTask task t') where
  clock := rfl
  limit := rfl
  issued := Nat.le_refl _
  executions := List.Sublist.refl _
  running := by
    intro e _ hrunning
    by_cases heq : task = e.task
    · subst heq
      rw [phase?, getElem?_putTask ht, Option.map_some, hphase]
      rw [phase?, ht] at hrunning
      exact hrunning
    · have hsame : (r.tasks.set task t')[e.task]? = r.tasks[e.task]? := List.getElem?_set_ne heq
      exact (congrArg (·.map (·.handle.phase)) hsame).trans hrunning
  begun := begun_set ht hstarted
  loops := fun _ hl => .inl hl
  silent := fun h => h

theorem getElem?_append_new {tasks : List ScriptedTask} {t : ScriptedTask} {i : Nat}
    {t' : ScriptedTask} (h : tasks[i]? = some t') : (tasks ++ [t])[i]? = some t' := by
  rw [List.getElem?_append_left (List.getElem?_eq_some_iff.mp h).1]
  exact h

/-- A new task has not begun anything. -/
theorem calm_new (r : Rehearsal) (script : Script) (obstacle : Option String) :
    Calm r { r with tasks := r.tasks ++ [.new script obstacle] } where
  clock := rfl
  limit := rfl
  issued := Nat.le_refl _
  executions := List.Sublist.refl _
  running := by
    intro e _ hrunning
    obtain ⟨t, ht, hphase⟩ := Option.map_eq_some_iff.mp hrunning
    have hsame : (r.tasks ++ [ScriptedTask.new script obstacle])[e.task]? = some t :=
      getElem?_append_new ht
    exact (congrArg (·.map (·.handle.phase)) hsame).trans (congrArg some hphase)
  begun := by
    intro i
    simp only [Rehearsal.begun]
    rw [List.getElem?_append]
    split
    · rfl
    · next hge =>
      rw [List.getElem?_eq_none (Nat.not_lt.mp hge)]
      cases i - r.tasks.length <;> rfl
  loops := fun _ hl => .inl hl
  silent := fun h => h

theorem calm_note (r : Rehearsal) (task : Nat) (h : Happening) : Calm r (r.note task h) := by
  unfold note
  split
  · exact .refl r
  · exact ⟨rfl, rfl, Nat.le_refl _, List.Sublist.refl _, fun _ _ h => h, fun _ => rfl,
      fun _ hl => .inl hl, fun h => h⟩

theorem calm_scheduleAgain (hdropped : r.isDropped = false) (task : Nat) :
    Calm r (r.scheduleAgain task).2 := by
  rw [scheduleAgain]
  split
  · exact .refl r
  · next t ht =>
    split
    · exact .refl r
    · next id scheduler hschedule =>
      obtain ⟨hopen, schedule, -, hid, rfl⟩ := Scheduler.schedule_inv hschedule
      have hscheduled : Calm r { r with scheduler := { r.scheduler with
          entries := r.scheduler.entries ++ [(id, t.script.name)]
          loops := r.scheduler.loops ++ Scheduler.loopFrom r.clock id task schedule
          issued := r.scheduler.issued + 1 } } := by
        refine ⟨rfl, rfl, Nat.le_succ _, List.Sublist.refl _, fun _ _ h => h, fun _ => rfl, ?_,
          ?_⟩
        · intro l hl
          rcases List.mem_append.mp hl with hold | hnew
          · exact .inl hold
          · right
            rw [Scheduler.id_of_mem_loopFrom hnew, hid]
            exact (UInt64.toNat_ofNat' ▸ Nat.mod_le _ _)
        · -- The scheduler is there and is not canceled.
          rintro - (hcanceled | hgone)
          · exact absurd (hopen.symm.trans hcanceled) Bool.false_ne_true
          · exact absurd (hdropped.symm.trans hgone) Bool.false_ne_true
      have hphase : ({ t with handle := t.handle.setId id } : ScriptedTask).handle.phase =
          t.handle.phase := rfl
      have hput := hscheduled.trans (calm_putTask ht hphase rfl)
      dsimp only
      split
      · exact hput
      · exact hput.trans (calm_note _ task .noTrigger)

theorem calm_schedule (hdropped : r.isDropped = false) (script : Script)
    (obstacle : Option String) : Calm r (r.schedule (.new script obstacle)).2 :=
  (calm_new r script obstacle).trans
    (calm_scheduleAgain (r := { r with tasks := r.tasks ++ [.new script obstacle] }) hdropped _)

theorem calm_unschedule (r : Rehearsal) (id : TaskId) : Calm r (r.unschedule id).2 := by
  have hframe := r.scheduler.unschedule_frame id
  exact r.calm_scheduler (Nat.le_of_eq hframe.1.symm) hframe.2
    fun l hl => Scheduler.mem_loops_of_unschedule hl

theorem calm_broker (r : Rehearsal) (listener : Follower) (broker : Broker) :
    Calm r { r with listener, broker } :=
  ⟨rfl, rfl, Nat.le_refl _, List.Sublist.refl _, fun _ _ h => h, fun _ => rfl,
    fun _ hl => .inl hl, fun h => h⟩

theorem calm_publish (r : Rehearsal) (e : Event) : Calm r (r.publish e).2 := by
  simp only [publish, listen]
  split
  · exact r.calm_broker _ _
  · have hframe := r.scheduler.heed_frame
      ((r.listener.drain (r.broker.publish e).2).1.map Delivery.event)
    exact (r.calm_scheduler (Nat.le_of_eq hframe.1.symm) hframe.2.1 hframe.2.2).trans
      (calm_broker _ _ _)

theorem calm_setObstacle (r : Rehearsal) (task : Nat) (obstacle : Option String) :
    Calm r (r.setObstacle task obstacle) := by
  unfold setObstacle
  split
  · exact .refl r
  · next t ht => exact calm_putTask ht rfl rfl

/-- The rehearsal when its scheduler has been canceled, but no execution has ended yet that heeds
it. -/
def halted (r : Rehearsal) : Rehearsal :=
  { r with
    scheduler := r.scheduler.cancel
    listener := (r.listener.stop r.broker).1
    broker := (r.listener.stop r.broker).2
    executions := r.executions.filter fun e => !heedsCancel e }

/-- The executions that heed a cancellation are finished. -/
theorem Sound.finished_cancel (h : r.Sound) :
    Finished (r.executions.filter heedsCancel) (fun _ => .idle) r.halted r.cancel := by
  have hcancel : r.cancel = (r.executions.filter heedsCancel).foldl
      (fun r e => r.conclude e (.outcome (.failed .canceled))) r.halted := rfl
  rw [hcancel]
  refine finished_foldl ?_ _ (h.distinct.sublist (List.filter_sublist.map _)) ?_
  · intro r e hthere
    exact finished_conclude hthere (.outcome (.failed .canceled))
  · exact fun e he => h.there (List.mem_of_mem_filter he)

theorem Sound.calm_cancel (h : r.Sound) : Calm r r.cancel := by
  have hfinished := h.finished_cancel
  refine ⟨hfinished.clock, hfinished.limit, Nat.le_of_eq hfinished.issued.symm, ?_, ?_,
    hfinished.begun, ?_, ?_⟩
  · rw [hfinished.executions]
    exact List.filter_sublist
  · intro e he hrunning
    rw [hfinished.executions] at he
    obtain ⟨hin, hheedless⟩ := List.mem_filter.mp he
    have hother : e.task ∉ (r.executions.filter heedsCancel).map Execution.task := by
      refine h.task_notMem hin List.filter_sublist.subset fun hmem => ?_
      have hheeds := (List.mem_filter.mp hmem).2
      simp [hheeds] at hheedless
    rw [phase?, hfinished.others e.task hother]
    exact hrunning
  · intro l hl
    cases hfinished.loops l hl
  · exact fun _ _ => List.eq_nil_of_subset_nil hfinished.loops

theorem Sound.calm_shutdown (h : r.Sound) : Calm r r.shutdown :=
  h.calm_cancel.trans ⟨rfl, rfl, Nat.le_refl _, List.Sublist.refl _, fun _ _ h => h, fun _ => rfl,
    nofun, fun _ _ => rfl⟩

theorem calm_drop (r : Rehearsal) : Calm r r.drop :=
  ⟨rfl, rfl, Nat.le_refl _, List.Sublist.refl _, fun _ _ h => h, fun _ => rfl, nofun,
    fun _ _ => rfl⟩

/-- No request but that for a millisecond moves the clock or begins an execution. -/
theorem Sound.calm (h : r.Sound) {request : Request} (hother : request ≠ .pass) :
    Calm r (r.meet request) := by
  cases request with
  | pass => exact absurd rfl hother
  | schedule script obstacle =>
    rw [meet]
    split
    · exact .refl r
    · next hthere => exact calm_schedule (Bool.not_eq_true _ ▸ hthere) script obstacle
  | scheduleAgain task =>
    rw [meet]
    split
    · exact .refl r
    · next hthere => exact calm_scheduleAgain (Bool.not_eq_true _ ▸ hthere) task
  | unschedule id => exact r.calm_unschedule id
  | publish event => exact r.calm_publish event
  | setObstacle task obstacle => exact r.calm_setObstacle task obstacle
  | cancel => exact h.calm_cancel
  | shutdown => exact h.calm_shutdown
  | drop => exact r.calm_drop

/-! ## When Time Passes -/

theorem Sound.advance (h : r.Sound) : Consistent { r with clock := r.clock.after 1 } :=
  ⟨h.distinct, h.running, h.silent⟩

theorem Sound.settled (h : r.Sound) : r.settled.Sound :=
  h.advance.settle

/-- Loops that tick belong to a scheduler that is not canceled. -/
theorem Sound.open_of_ticking (h : r.Sound) (hticking : r.ticking ≠ []) :
    r.settled.scheduler.isCanceled = false := by
  by_contra hcanceled
  have hnone := h.settled.silent (.inl (Bool.not_eq_false _ ▸ hcanceled))
  apply hticking
  rw [ticking, Scheduler.due, hnone]
  rfl

theorem Sound.stands_tick (h : r.Sound) (hopen : r.scheduler.isCanceled = false) (l : TickLoop) :
    Stands r (r.tick l) := by
  have hattempted := (h.tick hopen l).1
  exact ⟨hattempted.clock, hattempted.limit, hattempted.isDropped, hattempted.isCanceled,
    hattempted.issued, hattempted.length, hattempted.trace⟩

/-- Whether a tick comes to an execution of a task. -/
def Moment.executesTask (m : Moment) (task : Nat) : Bool :=
  m.loop.task == task && m.executes

/-- An execution that a tick has begun. -/
def Moment.Begins (m : Moment) (e : Execution) : Prop :=
  m.executes = true ∧ ∃ run, e = m.rehearsal.executionOf m.loop run

/-- What ticks one after the other leave. -/
structure Round (ls : List TickLoop) (r r' : Rehearsal) : Prop extends Stands r r' where
  sound : r'.Sound
  others : ∀ i, (∀ l ∈ ls, l.task ≠ i) → r'.tasks[i]? = r.tasks[i]?
  begun : ∀ i, r'.begun i = r.begun i + (r.momentsOf ls).countP (·.executesTask i)
  executions : ∀ e ∈ r'.executions, e ∈ r.executions ∨ ∃ m ∈ r.momentsOf ls, m.Begins e
  loops : ∀ l ∈ r'.scheduler.loops, ∃ l' ∈ r.scheduler.loops, l'.id = l.id
  moments : ∀ m ∈ r.momentsOf ls, m.rehearsal.Sound ∧ m.rehearsal.scheduler.isCanceled = false ∧
    m.loop ∈ ls ∧ Stands r m.rehearsal

/-- A tick begins at most the execution of its task. -/
theorem Sound.begun_tick (h : r.Sound) (hopen : r.scheduler.isCanceled = false) (l : TickLoop)
    (i : Nat) :
    (r.tick l).begun i = r.begun i + if Moment.executesTask ⟨r, l⟩ i then 1 else 0 := by
  have hattempted := (h.tick hopen l).1
  cases hexecutes : r.executes l with
  | false =>
    have htasks := (hattempted.skipped hexecutes).1
    simp [begun, htasks, Moment.executesTask, Moment.executes, hexecutes]
  | true =>
    by_cases htask : l.task = i
    · subst htask
      have hbegun := (hattempted.executed hexecutes).begun
      simp [Moment.executesTask, Moment.executes, hexecutes, hbegun]
      rfl
    · have hother := hattempted.others i (Ne.symm htask)
      simp [begun, hother, Moment.executesTask, htask]

theorem Sound.executions_tick (h : r.Sound) (hopen : r.scheduler.isCanceled = false)
    {l : TickLoop} {e : Execution} (he : e ∈ (r.tick l).executions) :
    e ∈ r.executions ∨ Moment.Begins ⟨r, l⟩ e := by
  have hattempted := (h.tick hopen l).1
  cases hexecutes : r.executes l with
  | false =>
    rw [(hattempted.skipped hexecutes).2] at he
    exact .inl he
  | true =>
    rcases (hattempted.executed hexecutes).course with ⟨run, hexecutions, -⟩ | ⟨hexecutions, -⟩
    · rw [hexecutions, List.mem_append, List.mem_singleton] at he
      exact he.imp_right fun hnew => ⟨hexecutes, run, hnew⟩
    · rw [hexecutions] at he
      exact .inl he

theorem Sound.round (h : r.Sound) (ls : List TickLoop)
    (hopen : ls ≠ [] → r.scheduler.isCanceled = false) :
    Round ls r (ls.foldl Rehearsal.tick r) := by
  induction ls generalizing r with
  | nil =>
    exact ⟨.refl r, h, fun _ _ => rfl, fun _ => rfl, fun _ he => .inl he,
      fun l hl => ⟨l, hl, rfl⟩, nofun⟩
  | cons l ls ih =>
    have hlive := hopen (List.cons_ne_nil l ls)
    have hstands := h.stands_tick hlive l
    -- No tick cancels the scheduler, and each leaves the rehearsal sound for the next one.
    have hrest := ih (h.tick hlive l).2 fun _ => hstands.isCanceled.trans hlive
    refine ⟨hstands.trans hrest.toStands, hrest.sound, ?_, ?_, ?_, ?_, ?_⟩
    · intro i hi
      rw [List.forall_mem_cons] at hi
      exact (hrest.others i hi.2).trans ((h.tick hlive l).1.others i (Ne.symm hi.1))
    · intro i
      rw [List.foldl_cons, hrest.begun, h.begun_tick hlive, momentsOf, List.countP_cons]
      omega
    · intro e he
      rcases hrest.executions e he with hearlier | ⟨m, hm, hbegins⟩
      · rcases h.executions_tick hlive hearlier with hold | hnew
        · exact .inl hold
        · exact .inr ⟨_, List.mem_cons_self, hnew⟩
      · exact .inr ⟨m, List.mem_cons_of_mem _ hm, hbegins⟩
    · intro l' hl'
      obtain ⟨middle, hmiddle, hsame⟩ := hrest.loops l' hl'
      obtain ⟨first, hfirst, hfirstSame⟩ :=
        Scheduler.exists_of_mem_rearm ((h.tick hlive l).1.loops middle hmiddle)
      exact ⟨first, hfirst, hfirstSame.trans hsame⟩
    · intro m hm
      rcases List.mem_cons.mp hm with rfl | hlater
      · exact ⟨h, hlive, List.mem_cons_self, .refl r⟩
      · obtain ⟨hsound, hlive', hmem, hstands'⟩ := hrest.moments m hlater
        exact ⟨hsound, hlive', List.mem_cons_of_mem _ hmem, hstands.trans hstands'⟩

/-- The ticks of a millisecond, after the executions have ended whose time has come. -/
theorem Sound.round_pass (h : r.Sound) : Round r.ticking r.settled r.pass :=
  h.settled.round r.ticking h.open_of_ticking

/-- The executions whose time has come with the next millisecond are finished. -/
theorem Sound.finished_settled (h : r.Sound) :
    Finished (overdue { r with clock := r.clock.after 1 }) (phaseAt (r.clock.millis + 1))
      { r with
        clock := r.clock.after 1
        executions := pending { r with clock := r.clock.after 1 } } r.settled :=
  h.advance.finished_settle

/-! ## What a Request Does -/

/-- The ticks that are made while a request is met. -/
def momentsIn (r : Rehearsal) : Request → List Moment
  | .pass => r.settled.momentsOf r.ticking
  | _ => []

theorem momentsIn_calm {request : Request} (hother : request ≠ .pass) (r : Rehearsal) :
    r.momentsIn request = [] := by
  cases request with
  | pass => exact absurd rfl hother
  | _ => rfl

theorem moments_cons (r : Rehearsal) (request : Request) (earlier : List Request) :
    r.moments (request :: earlier) =
      r.moments earlier ++ (r.after earlier).momentsIn request := by
  cases request with
  | pass => rfl
  | _ => exact (List.append_nil _).symm

/-- What a request does, be it that time passes or that the clock stands. -/
structure Met (request : Request) (r r' : Rehearsal) : Prop where
  sound : r'.Sound
  limit : r'.limit = r.limit
  issued : r.scheduler.issued ≤ r'.scheduler.issued
  begun : ∀ i, r'.begun i = r.begun i + (r.momentsIn request).countP (·.executesTask i)
  executions : ∀ e ∈ r'.executions, e ∈ r.executions ∨ ∃ m ∈ r.momentsIn request, m.Begins e
  loops : ∀ l ∈ r'.scheduler.loops,
    (∃ l' ∈ r.scheduler.loops, l'.id = l.id) ∨ l.id.number.toNat ≤ r'.scheduler.issued
  moments : ∀ m ∈ r.momentsIn request, m.rehearsal.Sound ∧
    m.rehearsal.scheduler.isCanceled = false ∧ m.rehearsal.limit = r.limit ∧
      m.loop ∈ r.scheduler.loops

theorem Sound.met_pass (h : r.Sound) : Met .pass r r.pass := by
  have hsettled := h.finished_settled
  have hround := h.round_pass
  refine ⟨hround.sound, hround.limit.trans hsettled.limit,
    Nat.le_of_eq (hround.issued.trans hsettled.issued).symm, ?_, ?_, ?_, ?_⟩
  · intro i
    have hsame : r.settled.begun i = r.begun i := hsettled.begun i
    rw [hround.begun i, hsame]
    rfl
  · intro e he
    refine (hround.executions e he).imp_left fun hold => ?_
    rw [hsettled.executions] at hold
    exact List.mem_of_mem_filter hold
  · intro l hl
    obtain ⟨l', hl', hid⟩ := hround.loops l hl
    exact .inl ⟨l', hsettled.loops l' hl', hid⟩
  · intro m hm
    obtain ⟨hsound, hopen, hticking, hstands⟩ := hround.moments m hm
    exact ⟨hsound, hopen, hstands.limit.trans hsettled.limit,
      hsettled.loops m.loop (List.mem_of_mem_filter hticking)⟩

theorem Sound.met (h : r.Sound) (request : Request) : Met request r (r.meet request) := by
  by_cases hpass : request = .pass
  · subst hpass
    exact h.met_pass
  · -- The clock stands, so that no tick is made.
    have hcalm := h.calm hpass
    have hnone := momentsIn_calm hpass r
    refine ⟨hcalm.sound h, hcalm.limit, hcalm.issued, ?_, ?_, ?_, ?_⟩
    · rw [hnone]
      exact hcalm.begun
    · exact fun e he => .inl (hcalm.executions.subset he)
    · exact fun l hl => (hcalm.loops l hl).imp_left fun hold => ⟨l, hold, rfl⟩
    · rw [hnone]
      exact nofun

/-! ## After a History -/

theorem sound_start (wall : Time.Instant) (limit : Option Nat) : (start wall limit).Sound where
  distinct := List.nodup_nil
  running := nofun
  silent := fun _ => rfl
  timely := nofun

theorem Sound.after (h : r.Sound) (history : List Request) : (r.after history).Sound := by
  induction history with
  | nil => exact h
  | cons request earlier ih => exact (ih.met request).sound

/-- The limit of executions is never another one. -/
theorem Sound.limit_after (h : r.Sound) (history : List Request) :
    (r.after history).limit = r.limit := by
  induction history with
  | nil => rfl
  | cons request earlier ih => exact ((h.after earlier).met request).limit.trans ih

/-- Numbers that have been given out are never taken back. -/
theorem Sound.issued_after (h : r.Sound) (history : List Request) :
    r.scheduler.issued ≤ (r.after history).scheduler.issued := by
  induction history with
  | nil => exact Nat.le_refl _
  | cons request earlier ih => exact Nat.le_trans ih ((h.after earlier).met request).issued

/-- All ticks are made in rehearsals that are sound, by a scheduler that is not canceled. -/
theorem Sound.moments (h : r.Sound) (history : List Request) :
    ∀ m ∈ r.moments history, m.rehearsal.Sound ∧ m.rehearsal.scheduler.isCanceled = false ∧
      m.rehearsal.limit = r.limit := by
  induction history with
  | nil => exact nofun
  | cons request earlier ih =>
    rw [moments_cons, List.forall_mem_append]
    refine ⟨ih, fun m hm => ?_⟩
    obtain ⟨hsound, hopen, hlimit, -⟩ := ((h.after earlier).met request).moments m hm
    exact ⟨hsound, hopen, hlimit.trans (h.limit_after earlier)⟩

/-- As many executions have begun as ticks came to one. -/
theorem Sound.begun_after (h : r.Sound) (history : List Request) (task : Nat) :
    (r.after history).begun task =
      r.begun task + (r.moments history).countP (·.executesTask task) := by
  induction history with
  | nil => rfl
  | cons request earlier ih =>
    have hmet := ((h.after earlier).met request).begun task
    rw [moments_cons, List.countP_append, ← Nat.add_assoc, ← ih]
    exact hmet

/-- Every execution under way was begun by a tick. -/
theorem Sound.begins_after (h : r.Sound) (hnone : r.executions = []) (history : List Request) :
    ∀ e ∈ (r.after history).executions, ∃ m ∈ r.moments history, m.Begins e := by
  induction history with
  | nil =>
    intro e he
    rw [Rehearsal.after, hnone] at he
    cases he
  | cons request earlier ih =>
    intro e he
    rw [moments_cons]
    rcases ((h.after earlier).met request).executions e he with hold | ⟨m, hm, hbegins⟩
    · obtain ⟨m, hm, hbegins⟩ := ih e hold
      exact ⟨m, List.mem_append_left _ hm, hbegins⟩
    · exact ⟨m, List.mem_append_right _ hm, hbegins⟩

/-- All numbers that occur after a history have been given out. -/
structure Numbered (start : Rehearsal) (history : List Request) : Prop where
  loops : ∀ l ∈ (start.after history).scheduler.loops,
    l.id.number.toNat ≤ (start.after history).scheduler.issued
  executions : ∀ e ∈ (start.after history).executions,
    e.id.number.toNat ≤ (start.after history).scheduler.issued
  moments : ∀ m ∈ start.moments history,
    m.loop.id.number.toNat ≤ (start.after history).scheduler.issued

theorem Sound.numbered_cons {request : Request} {earlier : List Request} (h : r.Sound)
    (hearlier : Numbered r earlier) : Numbered r (request :: earlier) := by
  have hmet := (h.after earlier).met request
  have hissued : (r.after earlier).scheduler.issued ≤
      (r.after (request :: earlier)).scheduler.issued := hmet.issued
  have hmoments : ∀ m ∈ (r.after earlier).momentsIn request,
      m.loop.id.number.toNat ≤ (r.after (request :: earlier)).scheduler.issued := by
    intro m hm
    obtain ⟨-, -, -, hloop⟩ := hmet.moments m hm
    exact Nat.le_trans (hearlier.loops m.loop hloop) hissued
  refine ⟨?_, ?_, ?_⟩
  · intro l hl
    rcases hmet.loops l hl with ⟨l', hl', hid⟩ | hnew
    · exact hid ▸ Nat.le_trans (hearlier.loops l' hl') hissued
    · exact hnew
  · intro e he
    rcases hmet.executions e he with hold | ⟨m, hm, -, run, rfl⟩
    · exact Nat.le_trans (hearlier.executions e hold) hissued
    · exact hmoments m hm
  · rw [moments_cons, List.forall_mem_append]
    exact ⟨fun m hm => Nat.le_trans (hearlier.moments m hm) hissued, hmoments⟩

theorem numbered_after (wall : Time.Instant) (limit : Option Nat) (history : List Request) :
    Numbered (start wall limit) history := by
  induction history with
  | nil => exact ⟨nofun, nofun, nofun⟩
  | cons request earlier ih => exact (sound_start wall limit).numbered_cons ih

theorem isOver_eq_false_iff {now : Nat} {time : Option Nat} :
    isOver now time = false ↔ ∀ t ∈ time, now < t := by
  cases time <;> simp [isOver]

/-- An execution that is still under way when its limit has been reached is dropped, and leaves
its task idle. -/
theorem Sound.idle_of_deadline (h : r.Sound) {e : Execution} (he : e ∈ r.executions)
    (hdeadline : e.deadline = some (r.clock.millis + 1))
    (hends : e.ends ≠ some (r.clock.millis + 1)) :
    r.settled.phase? e.task = some .idle := by
  have hover : isOver (r.clock.millis + 1) e.deadline = true := by
    simp [isOver, hdeadline]
  have hnot : isOver (r.clock.millis + 1) e.ends = false := by
    rw [isOver_eq_false_iff]
    intro t ht
    have hlt := isOver_eq_false_iff.mp (h.timely e he).1 t ht
    have hne : t ≠ r.clock.millis + 1 := fun heq => hends (heq ▸ ht)
    omega
  have hoverdue : e ∈ overdue { r with clock := r.clock.after 1 } :=
    mem_overdue.mpr ⟨he, .inr hover⟩
  rw [h.finished_settled.own e hoverdue, phaseAt, hnot]
  rfl

/-- What holds of ticks and executions after a history. -/
structure Orderly (start : Rehearsal) (history : List Request) : Prop where
  /-- A tick that finds its task idle and without an obstacle comes to an execution. -/
  executes : ∀ m ∈ start.moments history, m.executes = true →
    Executed m.loop m.rehearsal m.next
  /-- Every other tick is skipped: it leaves all tasks and executions as they are. -/
  skips : ∀ m ∈ start.moments history, m.executes = false →
    m.next.tasks = m.rehearsal.tasks ∧ m.next.executions = m.rehearsal.executions
  /-- No execution has ever begun but by such a tick. -/
  begun : ∀ task, (start.after history).begun task =
    (start.moments history).countP (·.executesTask task)
  /-- An execution under way has reached neither its own end nor the limit, which is counted from
  the tick that began it. -/
  timely : ∀ e ∈ (start.after history).executions, ∃ m ∈ start.moments history, m.Begins e ∧
    e.deadline = start.limit.map (m.millis + ·) ∧
      (∀ t ∈ e.ends, (start.after history).clock.millis < t) ∧
      ∀ t ∈ e.deadline, (start.after history).clock.millis < t
  /-- If it does not end until then, it is dropped and its task is idle, unless this one ticks
  at the same time. -/
  dropped : ∀ e ∈ (start.after history).executions,
    e.deadline = some ((start.after history).clock.millis + 1) →
    e.ends ≠ some ((start.after history).clock.millis + 1) →
    (∀ l ∈ (start.after history).ticking, l.task ≠ e.task) →
      e ∉ (start.after history).pass.executions ∧
        (start.after history).pass.phase? e.task = some .idle

/-- Ticks execute or are skipped, and executions end in time, whatever is asked of a rehearsal. -/
theorem orderly_after (wall : Time.Instant) (limit : Option Nat) (history : List Request) :
    Orderly (start wall limit) history := by
  have hstart := sound_start wall limit
  have hsound := hstart.after history
  refine ⟨?_, ?_, ?_, ?_, ?_⟩
  · intro m hm hexecutes
    obtain ⟨hsound', hopen, -⟩ := hstart.moments history m hm
    have hexecuted := (hsound'.tick hopen m.loop).1.executed hexecutes
    exact ⟨hexecuted.begun, hexecuted.started, hexecuted.course⟩
  · intro m hm hexecutes
    obtain ⟨hsound', hopen, -⟩ := hstart.moments history m hm
    exact (hsound'.tick hopen m.loop).1.skipped hexecutes
  · intro task
    rw [hstart.begun_after history task]
    exact Nat.zero_add _
  · intro e he
    obtain ⟨m, hm, hbegins⟩ := hstart.begins_after rfl history e he
    refine ⟨m, hm, hbegins, ?_, isOver_eq_false_iff.mp (hsound.timely e he).1,
      isOver_eq_false_iff.mp (hsound.timely e he).2⟩
    obtain ⟨-, run, rfl⟩ := hbegins
    have hlimit := (hstart.moments history m hm).2.2
    exact congrArg (·.map (m.millis + ·)) hlimit
  · intro e he hdeadline hends hquiet
    have hidle := hsound.idle_of_deadline he hdeadline hends
    refine ⟨fun hunder => ?_, ?_⟩
    · -- What is under way then has a later deadline.
      have hpass := hsound.round_pass
      have hlater := (hpass.sound.timely e hunder).2
      rw [hpass.clock, hsound.finished_settled.clock, hdeadline] at hlater
      simp [isOver, Clock.after] at hlater
    · rw [phase?, hsound.round_pass.others e.task hquiet]
      exact hidle

end Rehearsal

end EdgeSync
