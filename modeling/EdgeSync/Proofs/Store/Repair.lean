import EdgeSync.Store.JobCheck

/-!
# Repaired Schedules

The check of the jobs gives every well-known job a schedule that can be read: its own one or
the default one. So a second check finds nothing to repair; it warns again only of the jobs
that have no default schedule.

## Main definitions

- `Config.Repaired`: the schedules of all well-known jobs can be read

## Main results

- `Job.check_check`, `Config.checkJobs_checkJobs`: what a second check finds
- `Config.repaired_checkJobs`: the check repairs the well-known jobs
- `Config.Repaired.parse_schedule`: the schedule that is looked up for a well-known job can be
  read
-/

namespace EdgeSync

/-! ## Jobs -/

/-- The default schedules can be read. -/
theorem Job.parse_defaultSchedule {name schedule : String}
    (h : Job.defaultSchedule? name = some schedule) : ∃ s, Schedule.parse schedule = .ok s := by
  have hread : (Schedule.parse schedule).toBool = true := by
    simp only [Job.defaultSchedule?] at h
    split at h
    · cases h
      decide +kernel
    · split at h
      · cases h
        decide +kernel
      · split at h
        · cases h
          decide +kernel
        · cases h
  cases hparse : Schedule.parse schedule with
  | ok s => exact ⟨s, rfl⟩
  | error fault =>
    rw [hparse] at hread
    cases hread

namespace Job

variable {j : Job}

theorem check_ok {s : Schedule} (h : Schedule.parse j.schedule = .ok s) : j.check = (j, none) := by
  simp only [check, h]

theorem check_error {fault : Schedule.ExpressionFault} (h : Schedule.parse j.schedule = .error fault) :
    j.check = ({ j with schedule := (defaultSchedule? j.name).getD j.schedule },
      some ⟨j, fault, defaultSchedule? j.name⟩) := by
  simp only [check, h]

@[simp] theorem check_name (j : Job) : j.check.1.name = j.name := by
  unfold check
  split <;> rfl

/-- After the check a well-known job has a schedule that can be read. -/
theorem parse_check {schedule : String} (h : defaultSchedule? j.name = some schedule) :
    ∃ s, Schedule.parse j.check.1.schedule = .ok s := by
  cases hparse : Schedule.parse j.schedule with
  | ok s =>
    rw [check_ok hparse]
    exact ⟨s, hparse⟩
  | error fault =>
    rw [check_error hparse, h]
    exact parse_defaultSchedule h

/-- A second check changes nothing, and it warns only of a job that has no default schedule. -/
theorem check_check (j : Job) :
    j.check.1.check =
      (j.check.1, j.check.2.filter fun w => (defaultSchedule? w.job.name).isNone) := by
  cases hparse : Schedule.parse j.schedule with
  | ok s =>
    rw [check_ok hparse, check_ok hparse]
    rfl
  | error fault =>
    cases hdefault : defaultSchedule? j.name with
    | none =>
      -- The job has been left alone, and so it is now.
      have hsame : j.check = (j, some ⟨j, fault, none⟩) := by
        rw [check_error hparse, hdefault]
        rfl
      rw [hsame, hsame]
      simp [Option.filter, hdefault]
    | some schedule =>
      obtain ⟨s, hs⟩ := parse_check hdefault
      rw [check_ok hs, check_error hparse, hdefault]
      simp [Option.filter, hdefault]

end Job

/-! ## Configurations -/

namespace Config

/-- The schedules of all well-known jobs can be read. -/
def Repaired (c : Config) : Prop :=
  ∀ j ∈ c.settings.jobs, (Job.defaultSchedule? j.name).isSome →
    ∃ s, Schedule.parse j.schedule = .ok s

/-- The check goes through the jobs one after the other. -/
theorem checkJobs_eq (c : Config) :
    c.checkJobs =
      ({ c with settings := { c.settings with jobs := c.settings.jobs.map fun j => j.check.1 } },
        c.settings.jobs.filterMap fun j => j.check.2) := by
  simp [checkJobs, List.filterMap_map, Function.comp_def]

/-- The check repairs the well-known jobs. -/
theorem repaired_checkJobs (c : Config) : c.checkJobs.1.Repaired := by
  intro j hj hknown
  rw [checkJobs_eq, List.mem_map] at hj
  obtain ⟨job, -, rfl⟩ := hj
  rw [Job.check_name] at hknown
  obtain ⟨schedule, hdefault⟩ := Option.isSome_iff_exists.mp hknown
  exact Job.parse_check hdefault

/-- A second check changes nothing, and of the warnings it gives those again that are of jobs
without a default schedule. -/
theorem checkJobs_checkJobs (c : Config) :
    c.checkJobs.1.checkJobs =
      (c.checkJobs.1, c.checkJobs.2.filter fun w => (Job.defaultSchedule? w.job.name).isNone) := by
  rw [checkJobs_eq c, checkJobs_eq]
  simp [Job.check_check, List.filter_filterMap, List.filterMap_map, Function.comp_def]

/-- The check does not look at the enrollment. -/
theorem checkJobs_enrolled (c : Config) (e : Enrollment) :
    { c with enrollment := e }.checkJobs = ({ c.checkJobs.1 with enrollment := e }, c.checkJobs.2) :=
  rfl

/-- The first job of a well-known name has a schedule that can be read; if there is none, the
default schedule can be read. -/
theorem Repaired.parse_schedule {c : Config} (h : c.Repaired) {name default : String}
    (hdefault : Job.defaultSchedule? name = some default) :
    ∃ s, Schedule.parse ((((c.job? name).map Job.schedule).or (some default)).getD "") = .ok s := by
  cases hjob : c.job? name with
  | none => exact Job.parse_defaultSchedule hdefault
  | some j =>
    have hname : j.name = name := by simpa using List.find?_some hjob
    refine h j (List.mem_of_find?_eq_some hjob) ?_
    rw [hname, hdefault]
    rfl

end Config

end EdgeSync
