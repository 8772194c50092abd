import EdgeSync.Sync.Changes
import EdgeSync.Sync.Credentials
import EdgeSync.Sync.Fault

/-!
# The Reconciler

The reconciler tracks locators, each with the snapshot that the replica was last
brought up to. Registrations and updates replace the locators: those that stay
keep their place and their snapshot, new ones follow in their order, and those
that are dropped are forgotten.

## Main definitions

- `Tracked`, `Reconciler`: the locators and the credentials
- `Reconciler.setLocators`, `Reconciler.applyRegistration`, `Reconciler.heed`:
  what changes them
- `Reconciler.commit`: remember the snapshot of a locator
-/

namespace EdgeSync

/-- A locator and the snapshot that the replica was last brought up to. -/
structure Tracked where
  locator : String
  last : Option Snapshot
  deriving DecidableEq, Repr

/-- The credentials, and the locators in the order in which they are taken. -/
structure Reconciler where
  credentials : Credentials
  tracked : List Tracked
  deriving DecidableEq, Repr

/-! ## Locators -/

/-- Add a locator at the end, unless it is tracked. -/
def track (tracked : List Tracked) (locator : String) : List Tracked :=
  if tracked.any fun t => t.locator == locator then tracked else tracked ++ [⟨locator, none⟩]

/-- Track the given locators instead. -/
def retrack (tracked : List Tracked) (locators : List String) : List Tracked :=
  locators.foldl track (tracked.filter fun t => locators.contains t.locator)

namespace Reconciler

/-- The name of the task. -/
def name : String := "fetch-replicate-state-process"

/-- A reconciler that has fetched nothing. -/
def new (credentials : Credentials) (locators : List String) : Reconciler :=
  ⟨credentials, retrack [] locators⟩

/-- The locators in the order in which they are taken. -/
def locators (r : Reconciler) : List String :=
  r.tracked.map Tracked.locator

/-- The snapshot that the replica was last brought up to from a locator. -/
def lastKnown? (r : Reconciler) (locator : String) : Option Snapshot :=
  (r.tracked.find? fun t => t.locator == locator).bind Tracked.last

/-- Why the task is not ready. -/
def obstacle? (r : Reconciler) : Option String :=
  missingMessage?
    ((if r.tracked.isEmpty then ["state locators"] else []) ++ r.credentials.missing)

/-! ## Changes -/

/-- Replace the locators. -/
def setLocators (r : Reconciler) (locators : List String) : Reconciler :=
  { r with tracked := retrack r.tracked locators }

/-- Take over the account and the locators of an enrollment. -/
def applyRegistration (r : Reconciler) (e : Enrollment) : Reconciler where
  credentials := { r.credentials with
    username := e.auth.name
    password := e.auth.secret
    sourceRegistry := registryAddress e.auth.registry }
  tracked := retrack r.tracked e.states

/-- Follow an event. An update without locators changes nothing. -/
def heed (r : Reconciler) (e : Event) : Reconciler :=
  match e.payload with
  | .registered enrollment => r.applyRegistration enrollment
  | .updated update => if update.states.isEmpty then r else r.setLocators update.states
  | .stop _ => r

/-- Remember the snapshot of a locator, if it is still tracked. -/
def commit (r : Reconciler) (locator : String) (snapshot : Snapshot) : Reconciler :=
  { r with
    tracked := r.tracked.map fun t =>
      if t.locator == locator then { t with last := some snapshot } else t }

/-- The topics that the reconciler follows, the preferred ones first. -/
def topics : List String := [Topic.registration, Topic.update]

end Reconciler

end EdgeSync
