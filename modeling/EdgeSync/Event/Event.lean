import EdgeSync.Model.Enrollment

/-!
# Events

An event tells the parts of the agent what has happened. What it tells belongs to
one of three topics, and it is delivered only under that one.

## Main definitions

- `Topic.registration`, `Topic.update`, `Topic.stop`: the topics
- `Payload`, `Event`: events and what they tell
- `Event.check`: whether an event is under its topic
-/

namespace EdgeSync

/-! ## Topics -/

namespace Topic

/-- The topic of completed registrations. -/
def registration : String := "zero-touch-registration-event"

/-- The topic of changed locators. -/
def update : String := "fetch-config-from-ground-control-event"

/-- The topic of requests to stop a task. -/
def stop : String := "stop-process-event"

end Topic

/-! ## Events -/

/-- What an event tells. -/
inductive Payload where
  | registered (enrollment : Enrollment)
  | updated (update : LocatorUpdate)
  | stop (request : StopRequest)
  deriving DecidableEq, Repr

/-- The topic that a payload belongs to. -/
def Payload.topic : Payload → String
  | registered _ => Topic.registration
  | updated _ => Topic.update
  | stop _ => Topic.stop

/-- An event under a topic, with the name of the task that published it. -/
structure Event where
  topic : String
  source : String
  payload : Payload
  deriving DecidableEq, Repr

/-- An event was published under a topic that is not the one of its payload. -/
structure TopicMismatch where
  topic : String
  expected : String
  deriving DecidableEq, Repr

/-- The wording of a fault. -/
def TopicMismatch.message (m : TopicMismatch) : String :=
  "event '" ++ m.topic ++ "' carries a payload for topic '" ++ m.expected ++ "'"

namespace Event

/-- An event under the topic of its payload. -/
def of (source : String) (payload : Payload) : Event :=
  ⟨payload.topic, source, payload⟩

/-- Check that an event is under the topic of its payload. -/
def check (e : Event) : Except TopicMismatch Unit :=
  if e.topic = e.payload.topic then .ok () else .error ⟨e.topic, e.payload.topic⟩

end Event

end EdgeSync
