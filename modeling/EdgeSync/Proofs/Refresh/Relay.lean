import EdgeSync.Proofs.Event.Overtaking
import EdgeSync.Proofs.Refresh.Announcing
import EdgeSync.Proofs.Session.Tracking
import EdgeSync.Proofs.Store.WriteBack

/-!
# The Relay of Locators

The locators that ground control issues come to the reconciler in two ways. The registration
announces them; and it has them written to the configuration file, from where the refresh reads
them and announces them again. A relay is all who take part in this. The tasks wait in the middle
of their ticks: the registration between the writing and the announcement, the refresh between the
reading and the comparison with what it has announced last. So a tick of the registration is an
enrollment and one announcement after the other, and a tick of the refresh is a reading and a
conclusion. These steps, the looks of the listener, the snapshots that a pass remembers, and what
others do with the broker and the rest of the surroundings come in any order.

## Main definitions

- `Relay`, `Relay.Step`, `Relay.next`, `Relay.after`: who takes part, and what comes of steps
- `Relay.published`: what the refresh publishes in some steps
- `Relay.Step.Spares`: steps in which others leave the subscriptions of the listener alone

## Main results

- `Relay.enroll_announce`, `Relay.read_conclude`: ticks without anything in between
- `Relay.follows_after`: the listener follows, whatever else becomes of its reconciler
-/

namespace EdgeSync

open EdgeSync.Web Broker

/-! ## Several Events -/

namespace Listening

/-- Somebody else publishes events, one after the other. -/
def hear (l : Listening) (events : List Event) : Listening :=
  events.foldl (fun l e => l.meet (.publish e)) l

/-- Whatever somebody else does, the broker is what comes of it. -/
theorem broker_meet (l : Listening) (operation : Operation) :
    (l.meet operation).broker = (l.broker.perform operation).2 := by
  simp only [meet]
  split <;> rfl

theorem broker_hear (l : Listening) (events : List Event) :
    (l.hear events).broker = events.foldl (fun b e => (b.publish e).2) l.broker := by
  induction events generalizing l with
  | nil => rfl
  | cons e events ih =>
    rw [hear, List.foldl_cons, ← hear, ih, broker_meet]
    rfl

end Listening

/-- A canceled tick does not come to an execution. -/
theorem TaskHandle.isCanceled_of_enter {h running : TaskHandle} {obstacle : Option String}
    {isCanceled : Bool} (henter : h.enter obstacle isCanceled = .ok running) :
    isCanceled = false := by
  unfold enter at henter
  split at henter
  · cases henter
  · split at henter
    · cases henter
    · split at henter
      · cases henter
      · next hgoes => exact Bool.eq_false_iff.mpr hgoes

namespace Registration.Trial

/-- The events that a tick of the registration publishes. -/
def announced (t : Trial) (h : TaskHandle) : List Event :=
  match { h with id := t.id }.enter (obstacle? t.site.store) t.isCanceled, t.exchange.answer with
  | .ok _, .ok e => announcements t.id e
  | _, _ => []

theorem broker_tick (t : Trial) (h : TaskHandle) :
    (t.tick h).2.2.broker = (t.announced h).foldl (fun b e => (b.publish e).2) t.site.broker := by
  simp only [tick, TaskHandle.trigger, announced]
  cases henter : { h with id := t.id }.enter (obstacle? t.site.store) t.isCanceled with
  | error refusal => rfl
  | ok running =>
    have hgoes : t.isCanceled = false := TaskHandle.isCanceled_of_enter henter
    cases hanswer : t.exchange.answer with
    | error fault => simp [proceed, hgoes, hanswer, accept]
    | ok e =>
      simp [proceed, hgoes, hanswer, accept, Site.publishAll_right (announcements_right t.id e),
        Site.enroll]

end Registration.Trial

/-! ## Relays -/

/-- What the source gives, or the fault by which the wait for it ends. -/
def Refresh.Fetching.interrupted (x : Fetching) : Option TaskFault → Fetching
  | none => x
  | some fault => { x with reply := .error fault }

/-- All who hand on locators, and what they share. `announcing` are the events that a registration
under way is still to publish, and `reading` is what the source has given to a tick of the refresh
under way. -/
structure Relay where
  files : FileTree
  network : Network
  store : ConfigStore
  registration : TaskHandle
  announcing : List Event
  refresh : Refresh.Standing
  reading : Option Refresh.Fetching
  listening : Listening

namespace Relay

/-- What happens next: the registration ticks up to the end of the writing, with any exchange, or
publishes its next announcement; the refresh ticks up to the reading, or goes on from there, unless
it is interrupted; the listener looks; or a snapshot is remembered. Or others do something with the
broker or change the surroundings. -/
inductive Step where
  | enroll (id : Option TaskId) (isCanceled : Bool) (exchange : Registration.Exchange)
  | announce
  | read (isCanceled : Bool)
  | conclude (interruption : Option TaskFault)
  | look
  | commit (locator : String) (snapshot : Snapshot)
  | other (operation : Operation)
  | surroundings (files : FileTree) (network : Network) (store : ConfigStore)

/-- The site of the tasks. -/
def site (w : Relay) : Site := ⟨w.files, w.network, w.store, w.listening.broker⟩

/-- A tick of the registration at the site. -/
def registering (w : Relay) (id : Option TaskId) (isCanceled : Bool)
    (exchange : Registration.Exchange) : Registration.Trial :=
  ⟨w.site, id, isCanceled, exchange⟩

/-- The updates that the refresh publishes in a step. -/
def news (w : Relay) : Step → List LocatorUpdate
  | .conclude interruption =>
    match w.reading with
    | none => []
    | some x =>
      ((x.interrupted interruption).found?.filter fun update =>
        w.refresh.refresh.last ≠ some update).toList
  | _ => []

/-- The registration ticks up to the end of the writing. -/
def enroll (w : Relay) (id : Option TaskId) (isCanceled : Bool)
    (exchange : Registration.Exchange) : Relay :=
  let handle := { w.registration with id }
  match handle.enter (Registration.obstacle? w.store) isCanceled with
  | .error _ => { w with registration := handle }
  | .ok running =>
    match exchange.answer with
    | .error _ =>
      { w with network := exchange.network, registration := running.release .continue }
    | .ok e =>
      let site := w.site.enroll e
      { w with
        files := site.files
        network := exchange.network
        store := site.store
        registration := running
        announcing := Registration.announcements id e }

/-- The registration publishes its next announcement. With the last one it is done. -/
def announce (w : Relay) : Relay :=
  match w.announcing with
  | [] => w
  | e :: rest =>
    { w with
      announcing := rest
      registration := if rest.isEmpty then w.registration.release .terminated else w.registration
      listening := w.listening.hear [e] }

/-- The refresh ticks up to the reading. -/
def read (w : Relay) (isCanceled : Bool) : Relay :=
  match w.refresh.handle.enter none isCanceled with
  | .error _ => w
  | .ok running =>
    { w with
      refresh := { w.refresh with handle := running }
      reading := some (.ofSite w.refresh.refresh w.site) }

/-- A tick of the refresh under way goes on from the reading, or is interrupted. -/
def conclude (w : Relay) (interruption : Option TaskFault) : Relay :=
  match w.reading with
  | none => w
  | some x =>
    let (outcome, refresh, _) :=
      Refresh.proceed (x.interrupted interruption) false w.refresh.refresh w.site
    { w with
      reading := none
      refresh := ⟨w.refresh.handle.release outcome.completion, refresh⟩
      listening := w.listening.hear
        ((w.news (.conclude interruption)).map Refresh.Trial.announcement) }

/-- What comes of a step. -/
def next (w : Relay) : Step → Relay
  | .enroll id isCanceled exchange => w.enroll id isCanceled exchange
  | .announce => w.announce
  | .read isCanceled => w.read isCanceled
  | .conclude interruption => w.conclude interruption
  | .look => { w with listening := w.listening.look }
  | .commit locator snapshot =>
    { w with
      listening := { w.listening with
        reconciler := w.listening.reconciler.commit locator snapshot } }
  | .other operation => { w with listening := w.listening.meet operation }
  | .surroundings files network store => { w with files, network, store }

/-- What comes of some steps, the latest first. -/
def after (w : Relay) : List Step → Relay
  | [] => w
  | step :: earlier => (w.after earlier).next step

/-- The updates that the refresh publishes in some steps, in their order. -/
def published (w : Relay) : List Step → List LocatorUpdate
  | [] => []
  | step :: earlier => w.published earlier ++ (w.after earlier).news step

theorem after_append (w : Relay) (later earlier : List Step) :
    w.after (later ++ earlier) = (w.after earlier).after later := by
  induction later with
  | nil => rfl
  | cons step later ih => exact congrArg (Relay.next · step) ih

/-! ## Ticks Without Anything in Between -/

section Ticks

variable {w : Relay} {id : Option TaskId} {isCanceled : Bool}
  {exchange : Registration.Exchange} {interruption : Option TaskFault} {x : Refresh.Fetching}

theorem announce_cons {e : Event} {rest : List Event} (h : w.announcing = e :: rest) :
    w.announce =
      { w with
        announcing := rest
        registration :=
          if rest.isEmpty then w.registration.release .terminated else w.registration
        listening := w.listening.hear [e] } := by
  rw [announce, h]

/-- All announcements, one after the other. -/
theorem announce_all {e : Event} {rest : List Event} (h : w.announcing = e :: rest) :
    w.after (List.replicate (e :: rest).length .announce) =
      { w with
        announcing := []
        registration := w.registration.release .terminated
        listening := w.listening.hear (e :: rest) } := by
  have hfirst : w.next .announce = _ := announce_cons h
  induction rest generalizing w e with
  | nil => exact hfirst
  | cons e' rest ih =>
    have hannouncing : (w.next .announce).announcing = e' :: rest := by rw [hfirst]
    have hrest := ih (w := w.next .announce) hannouncing (announce_cons hannouncing)
    rw [List.length_cons, List.replicate_succ', after_append]
    show (w.next .announce).after _ = _
    rw [hrest, hfirst]
    rfl

/-- A refused tick of the registration stores and announces nothing. -/
theorem enroll_refused {refusal : Refusal}
    (h : { w.registration with id }.enter (Registration.obstacle? w.store) isCanceled =
      .error refusal) :
    w.enroll id isCanceled exchange = { w with registration := { w.registration with id } } := by
  simp only [enroll, h]

/-- An exchange that gives no enrollment leaves the task as it was. -/
theorem enroll_vain {running : TaskHandle}
    (h : { w.registration with id }.enter (Registration.obstacle? w.store) isCanceled =
      .ok running) {fault : SyncFault} (hanswer : exchange.answer = .error fault) :
    w.enroll id isCanceled exchange =
      { w with network := exchange.network, registration := running.release .continue } := by
  simp only [enroll, h, hanswer]

theorem enroll_accepted {running : TaskHandle}
    (h : { w.registration with id }.enter (Registration.obstacle? w.store) isCanceled =
      .ok running) {e : Enrollment} (hanswer : exchange.answer = .ok e) :
    w.enroll id isCanceled exchange =
      { w with
        files := (w.site.enroll e).files
        network := exchange.network
        store := (w.site.enroll e).store
        registration := running
        announcing := Registration.announcements id e } := by
  simp only [enroll, h, hanswer]

/-- An enrollment with all its announcements is a tick of the registration. -/
theorem enroll_announce (w : Relay) (hnone : w.announcing = []) (id : Option TaskId)
    (isCanceled : Bool) (exchange : Registration.Exchange) :
    let t := w.registering id isCanceled exchange
    let w' := (w.next (.enroll id isCanceled exchange)).after
      (List.replicate (t.announced w.registration).length .announce)
    w'.registration = (t.tick w.registration).2.1 ∧ w'.site = (t.tick w.registration).2.2 ∧
      w'.announcing = [] := by
  intro t w'
  have hbroker := t.broker_tick w.registration
  cases henter : { w.registration with id }.enter (Registration.obstacle? w.store) isCanceled with
  | error refusal =>
    have hannounced : t.announced w.registration = [] := by
      simp [Registration.Trial.announced, t, registering, site, henter]
    have hw : w' = { w with registration := { w.registration with id } } := by
      simp only [w', hannounced]
      exact enroll_refused henter
    have htick : t.tick w.registration = (refusal.tick, { w.registration with id }, w.site) := by
      simp [Registration.Trial.tick, TaskHandle.trigger, t, registering, site, henter]
    rw [hw, htick]
    exact ⟨rfl, rfl, hnone⟩
  | ok running =>
    obtain rfl := TaskHandle.isCanceled_of_enter henter
    cases hanswer : exchange.answer with
    | error fault =>
      have hannounced : t.announced w.registration = [] := by
        simp [Registration.Trial.announced, t, registering, site, henter, hanswer]
      have hw : w' = { w with
          network := exchange.network, registration := running.release .continue } := by
        simp only [w', hannounced]
        exact enroll_vain henter hanswer
      have htick : t.tick w.registration =
          (.failed fault.taskFault, running.release .continue,
            { w.site with network := exchange.network }) := by
        simp [Registration.Trial.tick, TaskHandle.trigger, t, registering, site, henter,
          Registration.proceed, Registration.accept, hanswer, TaskHandle.leave, Tick.ofOutcome,
          Outcome.completion]
      rw [hw, htick]
      exact ⟨rfl, rfl, hnone⟩
    | ok e =>
      have hannounced : t.announced w.registration = Registration.announcements id e := by
        simp [Registration.Trial.announced, t, registering, site, henter, hanswer]
      have hnext : w.next (.enroll id false exchange) = _ := enroll_accepted henter hanswer
      have hw : w' = { w.next (.enroll id false exchange) with
          announcing := []
          registration := running.release .terminated
          listening := w.listening.hear (Registration.announcements id e) } := by
        simp only [w', hannounced]
        have hall := announce_all (congrArg Relay.announcing hnext)
        rw [hnext] at hall ⊢
        exact hall
      have htick : t.tick w.registration =
          (.terminated, running.release .terminated,
            { { w.site with network := exchange.network }.enroll e with
              broker := (Registration.announcements id e).foldl (fun b e => (b.publish e).2)
                w.listening.broker }) := by
        simp [Registration.Trial.tick, TaskHandle.trigger, t, registering, site, henter,
          Registration.proceed, Registration.accept, hanswer, TaskHandle.leave, Tick.ofOutcome,
          Outcome.completion, Site.enroll,
          Site.publishAll_right (Registration.announcements_right id e)]
      rw [hw, htick, hnext]
      refine ⟨rfl, ?_, rfl⟩
      simp only [site, Listening.broker_hear]
      rfl

/-- A tick of the refresh whose scope has not been canceled reads. -/
theorem read_idle (hidle : w.refresh.handle.phase = .idle) :
    w.read false =
      { w with
        refresh := { w.refresh with handle := { w.refresh.handle with phase := .running } }
        reading := some (.ofSite w.refresh.refresh w.site) } := by
  simp [read, TaskHandle.enter, TaskHandle.begin, hidle]

/-- A reading with its conclusion is a tick of the refresh. -/
theorem read_conclude (hidle : w.refresh.handle.phase = .idle) (hnone : w.reading = none)
    (isCanceled : Bool) (interruption : Option TaskFault) :
    let t : Refresh.Trial := ⟨w.site, isCanceled,
      (Refresh.Fetching.ofSite w.refresh.refresh w.site).interrupted interruption⟩
    let w' := (w.next (.read isCanceled)).next (.conclude interruption)
    w'.refresh = (t.tick w.refresh).2.1 ∧ w'.site = (t.tick w.refresh).2.2 ∧
      w'.reading = none := by
  intro t w'
  have htick := Refresh.Trial.tick_idle hidle t
  cases hcanceled : isCanceled with
  | true =>
    subst hcanceled
    have hread : w.read true = w := by
      simp [read, TaskHandle.enter, TaskHandle.begin, hidle]
    have hw : w' = w := by
      simp only [w', next, hread, conclude, hnone]
    rw [hw, htick]
    exact ⟨rfl, rfl, hnone⟩
  | false =>
    subst hcanceled
    simp only [w', next, read_idle hidle, conclude, news]
    rw [htick]
    simp only [t, Bool.false_eq_true, if_false]
    generalize (Refresh.Fetching.ofSite w.refresh.refresh w.site).interrupted interruption = x
    cases hfound : x.found? with
    | none =>
      obtain ⟨fault, hproceed⟩ := Refresh.Fetching.proceed_vain hfound w.refresh.refresh w.site
      simp only [site] at hproceed ⊢
      rw [hproceed]
      exact ⟨rfl, rfl, trivial⟩
    | some update =>
      have hproceed := Refresh.Fetching.proceed_found hfound w.refresh.refresh w.site
      simp only [site] at hproceed ⊢
      rw [hproceed]
      refine ⟨rfl, ?_, trivial⟩
      by_cases hlast : w.refresh.refresh.last = some update
      · simp [Option.filter, hlast, Listening.hear]
      · simp [Option.filter, hlast, Listening.broker_hear]

end Ticks

/-! ## The Listener -/

/-- A step in which nobody else receives from the subscriptions of the listener or drops them. -/
def Step.Spares (l : Listening) : Step → Prop
  | .other operation => ∀ which, operation.Spares (l.number which)
  | _ => True

instance (l : Listening) : (step : Step) → Decidable (step.Spares l)
  | .other operation => inferInstanceAs (Decidable (∀ which, operation.Spares (l.number which)))
  | .enroll _ _ _ | .announce | .read _ | .conclude _ | .look | .commit _ _ |
    .surroundings _ _ _ => inferInstanceAs (Decidable True)

/-- What the listener meets with in a step: it looks, a snapshot is remembered, others do something,
or the tasks publish some events, if any. -/
inductive Meets (w : Relay) (step : Step) : Prop
  | look (hstep : step = .look) (hnext : (w.next step).listening = w.listening.look)
  | commit (locator : String) (snapshot : Snapshot) (hstep : step = .commit locator snapshot)
      (hnext : (w.next step).listening = { w.listening with
        reconciler := w.listening.reconciler.commit locator snapshot })
  | other (operation : Operation) (hstep : step = .other operation)
      (hnext : (w.next step).listening = w.listening.meet operation)
  | hears (events : List Event) (hnext : (w.next step).listening = w.listening.hear events)

theorem meets_next (w : Relay) (step : Step) : w.Meets step := by
  cases step with
  | enroll id isCanceled exchange =>
    refine .hears [] ?_
    simp only [next, enroll]
    split
    · rfl
    · split <;> rfl
  | announce =>
    cases hannouncing : w.announcing with
    | nil => exact .hears [] (by simp only [next, announce, hannouncing]; rfl)
    | cons e rest => exact .hears [e] (by simp only [next, announce, hannouncing])
  | read isCanceled =>
    refine .hears [] ?_
    simp only [next, read]
    split <;> rfl
  | conclude interruption =>
    cases hreading : w.reading with
    | none => exact .hears [] (by simp only [next, conclude, hreading]; rfl)
    | some x => exact .hears _ (by simp only [next, conclude, hreading]; rfl)
  | look => exact .look rfl rfl
  | commit locator snapshot => exact .commit locator snapshot rfl rfl
  | other operation => exact .other operation rfl rfl
  | surroundings files network store => exact .hears [] rfl

end Relay

namespace Listening

variable {initial : Reconciler} {deeds : List Deed} {l : Listening}

/-- The listener as if nothing but the events had changed its reconciler. -/
def alone (initial : Reconciler) (l : Listening) : Listening :=
  { l with reconciler := l.taken.foldl Reconciler.heed initial }

theorem alone_meet (initial : Reconciler) (l : Listening) (operation : Operation) :
    (l.meet operation).alone initial = (l.alone initial).meet operation := by
  have hbroker : (l.alone initial).broker = l.broker := rfl
  simp only [meet, hbroker]
  cases news? (l.broker.perform operation).1 <;> rfl

/-- What the listener receives does not depend on its reconciler. -/
theorem alone_look (initial : Reconciler) (l : Listening) :
    l.look.alone initial = (l.alone initial).look := by
  have hruns : (l.alone initial).isRunning = l.isRunning := rfl
  have hreceive : (l.alone initial).broker.receive (l.alone initial).next =
      l.broker.receive l.next := rfl
  simp only [look, hruns, hreceive]
  split
  · split
    · simp [alone]
    · rfl
    · rfl
  · rfl

theorem Follows.hear (h : Follows initial deeds (l.alone initial)) (events : List Event) :
    ∃ deeds, Follows initial deeds ((l.hear events).alone initial) := by
  induction events generalizing l deeds with
  | nil => exact ⟨deeds, h⟩
  | cons e events ih =>
    have hspares : ∀ which, (Operation.publish e).Spares ((l.alone initial).number which) :=
      fun which => ⟨nofun, nofun⟩
    have hfirst := h.meet hspares
    rw [← alone_meet] at hfirst
    exact ih hfirst

theorem isRunning_meet (l : Listening) (operation : Operation) :
    (l.meet operation).isRunning = l.isRunning := by
  simp only [meet]
  cases news? (l.broker.perform operation).1 <;> rfl

theorem isRunning_hear (l : Listening) (events : List Event) :
    (l.hear events).isRunning = l.isRunning := by
  induction events generalizing l with
  | nil => rfl
  | cons e events ih => exact (ih (l.meet (.publish e))).trans (l.isRunning_meet _)

/-- What others do leaves the reconciler, and what has been taken. -/
theorem meet_keeps (l : Listening) (operation : Operation) :
    (l.meet operation).reconciler = l.reconciler ∧ (l.meet operation).taken = l.taken := by
  simp only [meet]
  cases news? (l.broker.perform operation).1 <;> exact ⟨rfl, rfl⟩

theorem hear_keeps (l : Listening) (events : List Event) :
    (l.hear events).reconciler = l.reconciler ∧ (l.hear events).taken = l.taken := by
  induction events generalizing l with
  | nil => exact ⟨rfl, rfl⟩
  | cons e events ih =>
    obtain ⟨hreconciler, htaken⟩ := l.meet_keeps (.publish e)
    obtain ⟨hreconciler', htaken'⟩ := ih (l.meet (.publish e))
    exact ⟨hreconciler'.trans hreconciler, htaken'.trans htaken⟩

theorem buffer_meet (l : Listening) (operation : Operation) :
    (l.meet operation).broker.buffer = l.broker.buffer := by
  rw [broker_meet, buffer_perform]

theorem buffer_hear (l : Listening) (events : List Event) :
    (l.hear events).broker.buffer = l.broker.buffer := by
  induction events generalizing l with
  | nil => rfl
  | cons e events ih => exact (ih (l.meet (.publish e))).trans (l.buffer_meet _)

theorem buffer_look (l : Listening) : l.look.broker.buffer = l.broker.buffer := by
  have hreceive := l.broker.buffer_perform (.receive l.next)
  simp only [perform] at hreceive
  simp only [look]
  split
  · split
    · next heq => rwa [heq] at hreceive
    · next heq => rwa [heq] at hreceive
    · next heq => rwa [heq] at hreceive
  · rfl

theorem number_hear (l : Listening) (events : List Event) (which : Bool) :
    (l.hear events).number which = l.number which := by
  induction events generalizing l with
  | nil => rfl
  | cons e events ih => exact (ih (l.meet (.publish e))).trans (l.number_turn (.other _) which)

end Listening

namespace Relay

variable {initial : Reconciler} {w : Relay} {step : Step}

/-- A listener that has ended stays so. -/
theorem isRunning_of_next (hruns : (w.next step).listening.isRunning = true) :
    w.listening.isRunning = true := by
  rcases w.meets_next step with
    ⟨-, hnext⟩ | ⟨locator, snapshot, -, hnext⟩ | ⟨operation, -, hnext⟩ | ⟨events, hnext⟩
  · rw [hnext] at hruns
    exact Listening.isRunning_of_turn (t := .look) hruns
  · rwa [hnext] at hruns
  · rwa [hnext, Listening.isRunning_meet] at hruns
  · rwa [hnext, Listening.isRunning_hear] at hruns

theorem isRunning_of_after {steps : List Step}
    (hruns : (w.after steps).listening.isRunning = true) : w.listening.isRunning = true := by
  induction steps with
  | nil => exact hruns
  | cons step earlier ih => exact ih (isRunning_of_next hruns)

theorem number_next (w : Relay) (step : Step) (which : Bool) :
    (w.next step).listening.number which = w.listening.number which := by
  rcases w.meets_next step with
    ⟨-, hnext⟩ | ⟨locator, snapshot, -, hnext⟩ | ⟨operation, -, hnext⟩ | ⟨events, hnext⟩
  · rw [hnext]
    exact w.listening.number_turn .look which
  · rw [hnext]
    rfl
  · rw [hnext]
    exact w.listening.number_turn (.other operation) which
  · rw [hnext, Listening.number_hear]

theorem number_after (w : Relay) (steps : List Step) (which : Bool) :
    (w.after steps).listening.number which = w.listening.number which := by
  induction steps with
  | nil => rfl
  | cons step earlier ih => exact (number_next _ step which).trans ih

theorem buffer_next (w : Relay) (step : Step) :
    (w.next step).listening.broker.buffer = w.listening.broker.buffer := by
  rcases w.meets_next step with
    ⟨-, hnext⟩ | ⟨locator, snapshot, -, hnext⟩ | ⟨operation, -, hnext⟩ | ⟨events, hnext⟩
  · rw [hnext, Listening.buffer_look]
  · rw [hnext]
  · rw [hnext, Listening.buffer_meet]
  · rw [hnext, Listening.buffer_hear]

theorem buffer_after (w : Relay) (steps : List Step) :
    (w.after steps).listening.broker.buffer = w.listening.broker.buffer := by
  induction steps with
  | nil => rfl
  | cons step earlier ih => exact (buffer_next _ step).trans ih

/-- The numbers of the subscriptions are the same throughout. -/
theorem spares_after (w : Relay) (steps : List Step) :
    step.Spares (w.after steps).listening ↔ step.Spares w.listening := by
  cases step with
  | other operation => simp only [Step.Spares, number_after]
  | _ => exact Iff.rfl

/-- The listener follows what happens, whatever is remembered meanwhile. -/
theorem follows_next {deeds : List Deed}
    (h : Listening.Follows initial deeds (w.listening.alone initial))
    (hspares : step.Spares w.listening) (hfits : w.listening.Fits)
    (hruns : (w.next step).listening.isRunning = true) :
    ∃ deeds, Listening.Follows initial deeds ((w.next step).listening.alone initial) := by
  rcases w.meets_next step with
    ⟨-, hnext⟩ | ⟨locator, snapshot, -, hnext⟩ | ⟨operation, rfl, hnext⟩ | ⟨events, hnext⟩
  · rw [hnext] at hruns ⊢
    rw [Listening.alone_look]
    refine h.look hfits ?_
    rw [← Listening.alone_look]
    exact hruns
  · rw [hnext]
    exact ⟨deeds, h⟩
  · rw [hnext, Listening.alone_meet]
    exact ⟨_, h.meet hspares⟩
  · rw [hnext]
    exact h.hear events

theorem follows_after {deeds : List Deed}
    (h : Listening.Follows initial deeds (w.listening.alone initial)) {steps : List Step}
    (hspares : ∀ step ∈ steps, step.Spares w.listening)
    (hfits : ∀ earlier ∈ steps.tails, (w.after earlier).listening.Fits)
    (hruns : (w.after steps).listening.isRunning = true) :
    ∃ deeds, Listening.Follows initial deeds ((w.after steps).listening.alone initial) := by
  induction steps with
  | nil => exact ⟨deeds, h⟩
  | cons step earlier ih =>
    rw [List.tails_cons, List.forall_mem_cons] at hfits
    rw [List.forall_mem_cons] at hspares
    obtain ⟨deeds, hearlier⟩ := ih hspares.2 hfits.2 (isRunning_of_next hruns)
    have hbefore : (w.after earlier).listening.Fits :=
      hfits.2 earlier ((List.mem_tails earlier earlier).mpr (List.suffix_refl earlier))
    exact follows_next hearlier ((spares_after w earlier).mpr hspares.1) hbefore hruns

end Relay

end EdgeSync
