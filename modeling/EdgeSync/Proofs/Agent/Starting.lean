import EdgeSync.Agent.Agent
import EdgeSync.Proofs.Store.WriteBack
import EdgeSync.Proofs.Task.Roster

/-!
# Starting an Agent

An agent over a loaded configuration starts, whatever schedules the file has and however
often it names a job. The check has repaired the well-known jobs, the first job of a name is
the one that is looked up, and where there is none the default schedule takes its place. So
the scheduler finds a schedule for each task that it can read.

Neither a new enrollment nor another registry changes the jobs. So it does not matter what
has become of the store before the agent starts.

## Main definitions

- `ConfigStore.Timed`: all tasks have schedules that can be read
- `Agent.Enlisted`: what comes of scheduling some tasks

## Main results

- `Agent.scheduleAll_ok`: tasks with schedules that can be read are scheduled
- `ConfigStore.timed_loaded`: so are those of the tasks over a loaded configuration
- `Agent.starts_loaded`: an agent over a loaded configuration starts
-/

namespace EdgeSync

open EdgeSync.Schedule

/-! ## Schedules of the Tasks -/

/-- The schedules of all tasks can be read. -/
def ConfigStore.Timed (s : ConfigStore) : Prop :=
  ∀ t : AgentTask, ∃ schedule, Schedule.parse (t.schedule s) = .ok schedule

/-- Every task follows a well-known job. -/
theorem AgentTask.defaultSchedule (t : AgentTask) :
    ∃ default, Job.defaultSchedule? t.job = some default := by
  cases t with
  | registration => exact ⟨_, rfl⟩
  | reconciliation => exact ⟨_, rfl⟩
  | refresh => exact ⟨_, rfl⟩

/-- After the check of the jobs the tasks have schedules that can be read. -/
theorem ConfigStore.timed_of_repaired {s : ConfigStore} (h : s.config.Repaired) : s.Timed := by
  intro t
  obtain ⟨default, hdefault⟩ := t.defaultSchedule
  rw [AgentTask.schedule, hdefault]
  exact h.parse_schedule hdefault

/-- A loaded store has schedules that can be read, whatever is done with it. -/
theorem ConfigStore.timed_loaded {files : FileTree} {path : String} {s : ConfigStore}
    {warnings : List JobWarning} (h : ConfigStore.load files path = .ok (s, warnings))
    (deeds : List Keeping.Deed) : ((Keeping.mk s files).after deeds).store.Timed := by
  have hkeeps := Keeping.keeps_loaded h deeds
  obtain ⟨c, -, rfl, -⟩ := ConfigStore.load_eq_ok h
  apply timed_of_repaired
  -- Only the jobs matter, and they are the checked ones.
  rw [Config.Repaired, hkeeps.settings]
  exact c.repaired_checkJobs

/-! ## Scheduling -/

/-- The number that a scheduler gives out after some others. -/
def Scheduler.idAfter (issued : Nat) : TaskId := ⟨UInt64.ofNat (issued + 1)⟩

/-- The loop of a task from a given time on, if its schedule has a tick to come. -/
def AgentTask.loops (t : AgentTask) (store : ConfigStore) (clock : Clock) (id : TaskId) :
    List TickLoop :=
  match Schedule.parse (t.schedule store) with
  | .error _ => []
  | .ok schedule => Scheduler.loopFrom clock id t.number schedule

/-- The loop has the number that it is made for. -/
theorem AgentTask.filter_loops (t : AgentTask) (store : ConfigStore) (clock : Clock)
    (id id' : TaskId) :
    (t.loops store clock id).filter (fun l => l.id == id') =
      if id = id' then t.loops store clock id else [] := by
  have hid : ∀ l ∈ t.loops store clock id, l.id = id := by
    intro l hl
    unfold loops at hl
    split at hl
    · cases hl
    · rw [Scheduler.loopFrom, List.mem_map] at hl
      obtain ⟨due, -, rfl⟩ := hl
      rfl
  split_ifs with hsame
  · apply List.filter_eq_self.mpr
    intro l hl
    simp [hid l hl, hsame]
  · apply List.filter_eq_nil_iff.mpr
    intro l hl
    simp [hid l hl, hsame]

namespace Agent

variable {a b c : Agent} {t : AgentTask} {tasks : List AgentTask}

/-- What comes of scheduling some tasks one after the other: each has an entry, a loop, and
its number in its handle. The scene and the clock stay as they are. -/
structure Enlisted (a : Agent) (tasks : List AgentTask) (b : Agent) : Prop where
  scene : b.scene = a.scene
  clock : b.clock = a.clock
  isCanceled : b.scheduler.isCanceled = a.scheduler.isCanceled
  issued : b.scheduler.issued = a.scheduler.issued + tasks.length
  entries : b.scheduler.entries = a.scheduler.entries ++
    (tasks.zipIdx a.scheduler.issued).map fun p => (Scheduler.idAfter p.2, p.1.name)
  loops : b.scheduler.loops = a.scheduler.loops ++
    (tasks.zipIdx a.scheduler.issued).flatMap fun p =>
      p.1.loops a.scene.site.store a.clock (Scheduler.idAfter p.2)
  handles : b.handles = (tasks.zipIdx a.scheduler.issued).foldl
    (fun h p => h.put p.1 ((h.get p.1).setId (Scheduler.idAfter p.2))) a.handles

theorem Enlisted.nil (a : Agent) : a.Enlisted [] a := by
  constructor <;> simp

theorem Enlisted.issued_one (h : a.Enlisted [t] b) :
    b.scheduler.issued = a.scheduler.issued + 1 :=
  h.issued

/-- One task, and then the others. -/
theorem Enlisted.cons (hfirst : a.Enlisted [t] b) (hrest : b.Enlisted tasks c) :
    a.Enlisted (t :: tasks) c where
  scene := hrest.scene.trans hfirst.scene
  clock := hrest.clock.trans hfirst.clock
  isCanceled := hrest.isCanceled.trans hfirst.isCanceled
  issued := by
    rw [hrest.issued, hfirst.issued_one, List.length_cons]
    omega
  -- The others are counted from the number after that of the first one.
  entries := by simp [hrest.entries, hfirst.entries, hfirst.issued_one]
  loops := by
    simp [hrest.loops, hfirst.loops, hfirst.scene, hfirst.clock, hfirst.issued_one]
  handles := by simp [hrest.handles, hfirst.handles, hfirst.issued_one]

/-- A task whose schedule can be read is scheduled, unless the scheduler is canceled. -/
theorem scheduleTask_ok (hopen : a.scheduler.isCanceled = false) {schedule : Schedule}
    (h : Schedule.parse (t.schedule a.scene.site.store) = .ok schedule) :
    ∃ b, a.scheduleTask t = .ok b ∧ a.Enlisted [t] b := by
  rw [scheduleTask, Roster.schedule_ok hopen h]
  refine ⟨_, rfl, ?_⟩
  -- Whether there is a tick to come shows in the trace only.
  split_ifs
  · constructor <;> simp [AgentTask.loops, h, Scheduler.idAfter]
  · constructor <;> simp [AgentTask.loops, h, Scheduler.idAfter, note]

/-- Tasks whose schedules can be read are scheduled one after the other. -/
theorem scheduleAll_ok (tasks : List AgentTask) (hopen : a.scheduler.isCanceled = false)
    (htimed : a.scene.site.store.Timed) :
    ∃ b, tasks.foldlM scheduleTask a = .ok b ∧ a.Enlisted tasks b := by
  induction tasks generalizing a with
  | nil => exact ⟨a, rfl, .nil a⟩
  | cons t tasks ih =>
    obtain ⟨schedule, hschedule⟩ := htimed t
    obtain ⟨b, hb, hfirst⟩ := scheduleTask_ok hopen hschedule
    have hstill : b.scene.site.store.Timed := by
      rw [hfirst.scene]
      exact htimed
    obtain ⟨c, hc, hrest⟩ := ih (hfirst.isCanceled.trans hopen) hstill
    refine ⟨c, ?_, hfirst.cons hrest⟩
    rw [List.foldlM_cons, hb]
    exact hc

/-! ## Starting -/

/-- An agent over a store with schedules that can be read starts. -/
theorem start_ok {site : Site} (h : site.store.Timed) (source : UpdateSource)
    (wall : Time.Instant) :
    ∃ a, start site source wall = .ok a ∧
      (prepare site source wall).Enlisted AgentTask.all a := by
  have hopen : (prepare site source wall).scheduler.isCanceled = false := rfl
  have htimed : (prepare site source wall).scene.site.store.Timed := h
  unfold start
  -- Nothing else about the prepared agent matters.
  generalize prepare site source wall = prepared at hopen htimed ⊢
  obtain ⟨a, ha, hall⟩ := scheduleAll_ok AgentTask.all hopen htimed
  refine ⟨a, ?_, hall⟩
  simp only [ha]

/-- The number that a task has in an agent that has just started. -/
def firstId (t : AgentTask) : TaskId := Scheduler.idAfter t.number

/-- Of the loops of all tasks each task has its own one. -/
theorem filter_loops_all (store : ConfigStore) (clock : Clock) (t : AgentTask) :
    (AgentTask.all.flatMap fun u => u.loops store clock (firstId u)).filter
      (fun l => l.id == firstId t) = t.loops store clock (firstId t) := by
  have hdistinct : ∀ u, firstId u = firstId t ↔ u = t := by
    intro u
    cases u <;> cases t <;> decide
  simp only [AgentTask.all, List.flatMap_cons, List.flatMap_nil, List.filter_append,
    AgentTask.filter_loops, hdistinct]
  cases t <;> simp

/-- An agent starts over a store that was loaded from a file, whatever enrollments and
registries the store has been given since. Then three tasks are scheduled; each has its
number in its handle, and its loop waits for the ticks of the schedule of its job. -/
theorem starts_loaded {files : FileTree} {path : String} {s : ConfigStore}
    {warnings : List JobWarning} (h : ConfigStore.load files path = .ok (s, warnings))
    (deeds : List Keeping.Deed) {site : Site}
    (hstore : site.store = ((Keeping.mk s files).after deeds).store) (source : UpdateSource)
    (wall : Time.Instant) :
    ∃ a, start site source wall = .ok a ∧
      a.scheduler.scheduled =
        [(⟨1⟩, Registration.name), (⟨2⟩, Reconciler.name), (⟨3⟩, Refresh.name)] ∧
      ∀ t : AgentTask, a.handles.get t = ⟨.idle, some (firstId t)⟩ ∧
        a.scheduler.isScheduled (firstId t) ∧
        ∃ schedule, Schedule.parse (t.schedule site.store) = .ok schedule ∧
          a.scheduler.loops.filter (fun l => l.id == firstId t) =
            Scheduler.loopFrom ⟨0, wall⟩ (firstId t) t.number schedule := by
  have htimed : site.store.Timed := by
    rw [hstore]
    exact ConfigStore.timed_loaded h deeds
  obtain ⟨a, ha, hall⟩ := start_ok htimed source wall
  have hentries : a.scheduler.entries =
      [(⟨1⟩, Registration.name), (⟨2⟩, Reconciler.name), (⟨3⟩, Refresh.name)] := hall.entries
  have hloops : a.scheduler.loops = AgentTask.all.flatMap fun t =>
      t.loops site.store ⟨0, wall⟩ (firstId t) := hall.loops
  refine ⟨a, ha, ?_, fun t => ⟨?_, ?_, ?_⟩⟩
  · -- The numbers were given out in their order.
    rw [Scheduler.scheduled, hentries]
    exact List.mergeSort_of_pairwise (by decide)
  · -- No task stores its number in the handle of another one.
    rw [hall.handles]
    cases t <;> rfl
  · rw [Scheduler.isScheduled, hentries]
    cases t <;> decide
  · obtain ⟨schedule, hschedule⟩ := htimed t
    refine ⟨schedule, hschedule, ?_⟩
    rw [hloops, filter_loops_all, AgentTask.loops, hschedule]

/-- One job of the file is well known and has a faulty schedule, and one task has no job at all.
After an enrollment and another registry the agent starts. -/
theorem starts_loaded_threeJobs :
    let s : ConfigStore := ⟨Keeping.threeJobs.checkJobs.1, 0, 0, some "a"⟩
    let deeds : List Keeping.Deed :=
      [.enroll Keeping.earlierEnrollment, .setRegistry "mirror.example.com"]
    let k := (Keeping.mk s (.ofConfig Keeping.threeJobs)).after deeds
    let site : Site := ⟨k.files, .bare true, k.store, .new Broker.defaultCapacity⟩
    ConfigStore.load (.ofConfig Keeping.threeJobs) "a" =
        .ok (s, Keeping.threeJobs.checkJobs.2) ∧
      ∃ a, start site (.file "a") (.ofUnix 0 0) = .ok a ∧
        a.scheduler.scheduled =
          [(⟨1⟩, Registration.name), (⟨2⟩, Reconciler.name), (⟨3⟩, Refresh.name)] ∧
        ∀ t : AgentTask, a.handles.get t = ⟨.idle, some (firstId t)⟩ ∧
          a.scheduler.isScheduled (firstId t) ∧
          ∃ schedule, Schedule.parse (t.schedule site.store) = .ok schedule ∧
            a.scheduler.loops.filter (fun l => l.id == firstId t) =
              Scheduler.loopFrom ⟨0, .ofUnix 0 0⟩ (firstId t) t.number schedule := by
  intro s deeds k site
  have hload := ConfigStore.load_ofConfig Keeping.threeJobs
  exact ⟨hload, starts_loaded hload deeds rfl (.file "a") (.ofUnix 0 0)⟩

end Agent

end EdgeSync
