import EdgeSync.Sync.Credentials
import EdgeSync.Sync.Site

/-!
# Registration

The registration exchanges a token for an enrollment at ground control. It is done
once: with a complete enrollment the task stores it, announces it, asks to be
stopped, and terminates. Whatever else comes back, nothing is stored or announced,
and the next tick tries again.

## Main definitions

- `registrationAddress`: where a token is exchanged
- `readEnrollment`: the enrollment in a response
- `Registration.accept`, `Registration.execute`: the execution of the task
-/

namespace EdgeSync

open EdgeSync.Text EdgeSync.Web

/-! ## The exchange -/

/-- The address where a token is exchanged. -/
def registrationAddress (groundControl token : String) : String :=
  String.ofList (dropEndWhile (· == '/') groundControl.toList) ++ "/satellites/ztr/" ++ token

/-- The enrollment in a document, if its account is complete. -/
def readCompleteEnrollment (d : Document) : Except SyncFault Enrollment :=
  match Enrollment.reader.readAll d with
  | .error fault =>
    .error (.invalidResponse ("failed to decode registration response: " ++ fault.message))
  | .ok e =>
    if e.auth.isComplete then .ok e else .error (.incompleteAuth e.auth.missing)

/-- The enrollment in a response. -/
def readEnrollment : Except WebFault Response → Except SyncFault Enrollment
  | .error fault => .error (.request fault)
  | .ok response =>
    if response.status = 200 then readCompleteEnrollment response.body
    else .error (.rejected ("registration returned " ++ statusText response.status))

/-- Exchange a token for an enrollment. -/
def register (n : Network) (groundControl token : String) :
    Except SyncFault Enrollment × Network :=
  let (response, n) := n.getText (registrationAddress groundControl token)
  (readEnrollment response, n)

/-! ## The task -/

namespace Registration

/-- The name of the task. -/
def name : String := "zero-touch-registration-process"

/-- Why the task is not ready. -/
def obstacle? (store : ConfigStore) : Option String :=
  let settings := store.config.settings
  missingMessage?
    ((if settings.token.isEmpty then ["token"] else []) ++
      (if settings.groundControlUrl.isEmpty then ["ground control URL"] else []))

/-- What a completed registration announces: the enrollment, and then the wish to be
stopped if the task is scheduled. -/
def announcements (id : Option TaskId) (e : Enrollment) : List Event :=
  Event.of name (.registered e) ::
    id.toList.map fun id => Event.of name (.stop ⟨name, id⟩)

/-- Go on with what the exchange gave. -/
def accept (s : Site) (id : Option TaskId) : Except SyncFault Enrollment → Outcome × Site
  | .error fault => (.failed fault.taskFault, s)
  | .ok e =>
    match (s.enroll e).publishAll (announcements id e) with
    | (.error fault, s) => (.failed fault.taskFault, s)
    | (.ok _, s) => (.done .terminated, s)

/-- Execute the task; if it is canceled before, no request is sent. -/
def execute (s : Site) (id : Option TaskId) (isCanceled : Bool) : Outcome × Site :=
  if isCanceled then (.failed .canceled, s)
  else
    let settings := s.store.config.settings
    let (answer, network) := register s.network settings.groundControlUrl settings.token
    accept { s with network } id answer

end Registration

end EdgeSync
