import EdgeSync.Model.Config
import EdgeSync.Schedule.Expression

/-!
# Checking the Schedules of Jobs

Before a configuration is used, the schedule of every job is read. A well-known
job with a faulty schedule gets its default one; another job is left alone. Each
faulty schedule gives one warning.

## Main definitions

- `JobWarning`: what was found at one job
- `Job.check`: one job after the check
- `Config.checkJobs`: a configuration after the check, with the warnings
-/

namespace EdgeSync

open EdgeSync.Schedule

/-- A faulty schedule of a job, and the schedule that replaces it. -/
structure JobWarning where
  job : Job
  fault : ExpressionFault
  fallback : Option String
  deriving DecidableEq, Repr

/-- The wording of a warning. -/
def JobWarning.message (w : JobWarning) : String :=
  let reason := invalidExpression w.job.schedule w.fault
  match w.fallback with
  | some schedule =>
    reason ++ " for job " ++ w.job.name ++ "; using default schedule " ++ schedule
  | none => "invalid cron job " ++ w.job.name ++ ": " ++ reason

/-- A job after the check. -/
def Job.check (j : Job) : Job × Option JobWarning :=
  match Schedule.parse j.schedule with
  | .ok _ => (j, none)
  | .error fault =>
    let fallback := Job.defaultSchedule? j.name
    ({ j with schedule := fallback.getD j.schedule }, some ⟨j, fault, fallback⟩)

/-- A configuration after the check of its jobs, with the warnings in their order. -/
def Config.checkJobs (c : Config) : Config × List JobWarning :=
  let checked := c.settings.jobs.map Job.check
  ({ c with settings := { c.settings with jobs := checked.map (·.1) } },
    checked.filterMap (·.2))

end EdgeSync
