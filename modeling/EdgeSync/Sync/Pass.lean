import EdgeSync.Sync.Fetch
import EdgeSync.Sync.Reconciler

/-!
# Passes

A pass brings the replica up to every tracked locator once. It is a sequence of
small steps, so that other things may happen between any two of them. For each
locator it finds the source, fetches the snapshot, deletes, replicates, remembers
the snapshot, and gives notice. A failed step ends the work on its locator only;
the pass goes on with the next one. When the pass is canceled, no further fetch,
deletion or replication begins.

The credentials and the work are those of the moment when the pass begins.

## Main definitions

- `Stage`, `Pass`: where a pass stands
- `Surroundings`: what the steps work on
- `Pass.step`: one step
- `Pass.run`, `Pass.complete`: all steps
-/

namespace EdgeSync

open EdgeSync.Web

/-! ## Stages -/

/-- What a pass does next: for most stages, with a locator and what is known of its
new snapshot. -/
inductive Stage where
  | next
  | resolve (item : Tracked)
  | fetch (item : Tracked) (source : Locator)
  | delete (item : Tracked) (snapshot : Snapshot) (changes : Changes)
  | replicate (item : Tracked) (snapshot : Snapshot) (changes : Changes)
  | commit (item : Tracked) (snapshot : Snapshot)
  | notify (item : Tracked)
  | ended (outcome : Outcome)
  deriving DecidableEq, Repr

/-- A locator that could not be reconciled, and why. -/
structure LocatorFailure where
  locator : String
  fault : SyncFault
  deriving DecidableEq, Repr

/-- A pass: its credentials, the number of its locators, those that are waiting, those
that have failed, and the stage. -/
structure Pass where
  credentials : Credentials
  total : Nat
  waiting : List Tracked
  failures : List LocatorFailure
  stage : Stage
  deriving DecidableEq, Repr

/-- What the steps of a pass work on. A step gives its answer and changes the
surroundings; an answer `canceled` means that the step was cut off. -/
structure Surroundings (σ : Type) where
  isCanceled : σ → Bool
  resolve : String → σ → Except SyncFault Locator × σ
  fetch : Option Account → Locator → σ → Except SyncFault Snapshot × σ
  delete : List Artifact → σ → Except SyncFault Unit × σ
  replicate : List Artifact → σ → Except SyncFault Unit × σ
  commit : String → Snapshot → σ → σ
  notify : σ → σ

/-- The text of a failure. -/
def LocatorFailure.message (f : LocatorFailure) : String :=
  f.locator ++ ": " ++ f.fault.message

namespace Pass

/-! ## Begin and end -/

/-- A pass over what a reconciler tracks. -/
def start (r : Reconciler) : Pass :=
  ⟨r.credentials, r.tracked.length, r.tracked, [], .next⟩

/-- The reason that names the failed locators. -/
def failureMessage (failures : List LocatorFailure) (total : Nat) : String :=
  toString failures.length ++ " of " ++ toString total ++ " locators failed: " ++
    "; ".intercalate (failures.map LocatorFailure.message)

/-- How a pass ends after its last locator. -/
def conclusion (p : Pass) : Outcome :=
  if p.failures.isEmpty then .done .continue
  else .failed (.failed (failureMessage p.failures p.total))

/-- The pass at another stage. -/
def moveTo (p : Pass) (stage : Stage) : Pass :=
  { p with stage }

/-- The pass ends because it is canceled. -/
def cut (p : Pass) : Pass :=
  p.moveTo (.ended (.failed .canceled))

/-- A step on a locator has failed. -/
def fail (p : Pass) (item : Tracked) (fault : SyncFault) : Pass :=
  if fault = .canceled then p.cut
  else { p with failures := p.failures ++ [⟨item.locator, fault⟩], stage := .next }

/-- Go on to a stage if a step has succeeded. -/
def follow {α : Type} (p : Pass) (item : Tracked) (answer : Except SyncFault α)
    (stage : α → Stage) : Pass :=
  match answer with
  | .ok a => p.moveTo (stage a)
  | .error fault => p.fail item fault

/-! ## Steps -/

/-- The stage after a snapshot has been fetched. -/
def compare (item : Tracked) (fetched : Snapshot) : Stage :=
  .delete item fetched.prepare (changes item.last fetched.prepare)

variable {σ : Type}

/-- One step. -/
def step (env : Surroundings σ) (p : Pass) (w : σ) : Pass × σ :=
  match p.stage with
  | .ended _ => (p, w)
  | .next =>
    match p.waiting with
    | [] => (p.moveTo (.ended p.conclusion), w)
    | item :: rest =>
      -- No locator is begun once the pass is canceled.
      if env.isCanceled w then (p.cut, w)
      else ({ p with waiting := rest, stage := .resolve item }, w)
  | .resolve item =>
    let (answer, w) := env.resolve item.locator w
    (p.follow item answer (.fetch item), w)
  | .fetch item source =>
    if env.isCanceled w then (p.cut, w)
    else
      let (answer, w) :=
        env.fetch (accountFor p.credentials.username p.credentials.password) source w
      (p.follow item answer (compare item), w)
  | .delete item snapshot changes =>
    -- The replica is called only if there is something to do.
    if changes.delete.isEmpty then (p.moveTo (.replicate item snapshot changes), w)
    else if env.isCanceled w then (p.cut, w)
    else
      let (answer, w) := env.delete changes.delete w
      (p.follow item answer fun _ => .replicate item snapshot changes, w)
  | .replicate item snapshot changes =>
    if changes.replicate.isEmpty then (p.moveTo (.commit item snapshot), w)
    else if env.isCanceled w then (p.cut, w)
    else
      let (answer, w) := env.replicate changes.replicate w
      (p.follow item answer fun _ => .commit item snapshot, w)
  | .commit item snapshot => (p.moveTo (.notify item), env.commit item.locator snapshot w)
  | .notify _ => (p.moveTo .next, env.notify w)

/-! ## All steps -/

/-- Some steps one after the other. -/
def run (env : Surroundings σ) : Nat → Pass → σ → Pass × σ
  | 0, p, w => (p, w)
  | steps + 1, p, w =>
    let (p, w) := p.step env w
    run env steps p w

/-- The most steps that a pass over some locators takes: seven for each of them and
one for the end. -/
def maxSteps (locators : Nat) : Nat :=
  7 * locators + 1

/-- The outcome of a pass that has ended. -/
def outcome (p : Pass) : Outcome :=
  match p.stage with
  | .ended o => o
  | _ => .failed .canceled

/-- A whole pass over what a reconciler tracks. -/
def complete (env : Surroundings σ) (r : Reconciler) (w : σ) : Outcome × σ :=
  let (p, w) := run env (maxSteps r.tracked.length) (start r) w
  (p.outcome, w)

end Pass

end EdgeSync
