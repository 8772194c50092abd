import EdgeSync.Event.Follower
import EdgeSync.Observe.Record

/-!
# The Journal

The journal follows all three topics and logs each event. Registrations come
before updates, and updates before requests to stop, if several are there.

## Main definitions

- `Payload.message`, `Event.record`: what is logged for an event
- `Delivery.records`: what is logged when an event is taken
- `Journal.start`, `Journal.run`: the journal of a broker
-/

namespace EdgeSync

/-! ## Records -/

/-- The message that is logged for a payload. -/
def Payload.message : Payload → String
  | registered _ => "satellite registered with ground control"
  | updated _ => "configuration update received"
  | stop _ => "request to stop a task"

/-- The record of an event. -/
def Event.record (e : Event) : LogRecord :=
  let place := [("topic", LogValue.text e.topic), ("source", .text e.source)]
  match e.payload with
  | .registered enrollment =>
    ⟨.info, e.payload.message, place ++
      [("registry", .text enrollment.auth.registry), ("states", .count enrollment.states.length)]⟩
  | .updated update =>
    ⟨.info, e.payload.message, place ++ [("states", .count update.states.length)]⟩
  | .stop request =>
    ⟨.debug, e.payload.message, place ++
      [("task", .text request.name), ("id", .text request.id.text)]⟩

/-- The record of a loss. -/
def Loss.record (l : Loss) : LogRecord :=
  ⟨.warning, "subscriber lagged; oldest events dropped",
    [("topic", .text l.topic), ("skipped", .count l.count)]⟩

/-- What is logged when an event is taken. -/
def Delivery.records (d : Delivery) : List LogRecord :=
  d.loss.toList.map Loss.record ++ [d.event.record]

/-! ## The journal -/

namespace Journal

/-- The topics of the journal, the preferred ones first. -/
def topics : List String := [Topic.registration, Topic.update, Topic.stop]

/-- The journal of a broker. -/
def start (b : Broker) : Follower × Broker :=
  Follower.start b topics

/-- Log all events that are there. -/
def run (journal : Follower) (b : Broker) : List LogRecord × Follower × Broker :=
  let (deliveries, journal, b) := journal.drain b
  (deliveries.flatMap Delivery.records, journal, b)

end Journal

end EdgeSync
