import EdgeSync.Proofs.Refresh.Relay

/-!
# Reading Back

An enrollment that the registration has had written to the configuration file is read back by the
refresh: the same locators, whatever else the file holds. A reconciler that is given the locators
that it tracks already stays as it is, with their order and their snapshots.

So after a registration, as long as nobody else announces locators or writes to the file, every
tick of the refresh that begins then reads what the registration has announced, and publishes it
unless this has been done before. Only a tick that was under way already may have read something
else; it ends before any other tick begins, so what it has read is published first, if at all.

## Main definitions

- `ConfigStore.Writes`: an enrollment is written
- `Reconciler.Tracks`, `Event.Repeats`: events that change nothing
- `Relay.Step.KeepsFile`, `Relay.Step.Quiet`: steps in which others keep out of it
- `Relay.late`: what a tick under way is about to publish, if it is something else
- `Relay.Enrolled`: what every step after an enrollment keeps
- `Relay.Since`: what every step after a registration keeps

## Main results

- `fetch_of_writes`: the refresh reads back what was written
- `Reconciler.heed_repeats`: the same locators change nothing
- `Relay.Enrolled.next`, `Relay.Since.next`: the steps
-/

namespace EdgeSync

open EdgeSync.Web Broker

/-! ## The File -/

/-- An enrollment is written to the file at a path. -/
def ConfigStore.Writes (s : ConfigStore) (files : FileTree) (e : Enrollment) (path : String) :
    Prop :=
  s.path = some path ∧
    (writeVersion path { s.config with enrollment := e } (s.version + 1) ⟨files, s.written⟩).1 =
      .ok true

theorem ConfigStore.Writes.readText {s : ConfigStore} {files : FileTree} {e : Enrollment}
    {path : String} (h : s.Writes files e path) :
    (s.enroll files e).2.1.readText path =
      .ok (Config.prettyText { s.config with enrollment := e }) := by
  obtain ⟨hpath, hwritten⟩ := h
  simp only [enroll, update, hpath]
  unfold writeVersion writeVersionBy at hwritten ⊢
  split at hwritten
  · cases hwritten
  · next hnew =>
    rw [if_neg hnew]
    split at hwritten
    · cases hwritten
    · next files' hwrite =>
      simp only [hwrite]
      exact FileTree.readText_of_write hwrite

theorem FileTree.readText_congr {files : FileTree} {path path' : String}
    (h : files.lookUp path = files.lookUp path') : files.readText path = files.readText path' := by
  unfold readText read
  rw [h]

theorem fetch_congr {files files' : FileTree} {path : String}
    (h : files.readText path = files'.readText path) :
    fetchConfigFile files path = fetchConfigFile files' path := by
  rw [fetchConfigFile, h, fetchConfigFile]

/-- The locators of an enrollment that was written are read back, by any path to the file. -/
theorem fetch_of_writes {s : ConfigStore} {files : FileTree} {e : Enrollment}
    {path source : String} (h : s.Writes files e path)
    (hsame : (s.enroll files e).2.1.lookUp source = (s.enroll files e).2.1.lookUp path) :
    fetchConfigFile (s.enroll files e).2.1 source = .ok ⟨e.states⟩ := by
  have htext := (FileTree.readText_congr hsame).trans h.readText
  have hparse : Config.parse (Text.Document.ofString
      (Config.prettyText { s.config with enrollment := e })) =
      .ok { s.config with enrollment := e } :=
    read_pretty (restores_config _)
  simp only [fetchConfigFile, htext, hparse]

/-! ## Events That Change Nothing -/

/-- The locators that are tracked are the given ones, in some order. -/
def Reconciler.Tracks (r : Reconciler) (states : List String) : Prop :=
  ∀ l, l ∈ r.locators ↔ l ∈ states

/-- An event that gives the same locators again, or none at all. -/
def Event.Repeats (e : Event) (states : List String) : Prop :=
  ∃ update, e.payload = .updated update ∧
    (update.states = [] ∨ ∀ l, l ∈ update.states ↔ l ∈ states)

/-- If the same locators are given again, all entries survive in their places. -/
theorem retrack_same {tracked : List Tracked} {locators : List String}
    (h : ∀ l, l ∈ tracked.map Tracked.locator ↔ l ∈ locators) :
    retrack tracked locators = tracked := by
  have hsurvivors : survivors tracked locators = tracked := by
    refine List.filter_eq_self.mpr fun t ht => ?_
    exact List.contains_iff_mem.mpr ((h t.locator).mp (List.mem_map_of_mem ht))
  have hnewcomers : newcomers tracked locators = [] := by
    have hnone : locators.filter (fun l => !isTracked tracked l) = [] := by
      refine List.filter_eq_nil_iff.mpr fun l hl => ?_
      simpa using isTracked_iff.mpr ((h l).mpr hl)
    rw [newcomers, hnone]
    rfl
  rw [retrack_eq, hsurvivors, hnewcomers, List.append_nil]

/-- The announcement of an enrollment. -/
def Registration.announcement (e : Enrollment) : Event :=
  .of name (.registered e)

namespace Reconciler

variable {r : Reconciler} {states : List String}

theorem heed_repeats (h : r.Tracks states) {e : Event} (hrepeats : e.Repeats states) :
    r.heed e = r := by
  obtain ⟨update, hpayload, hstates⟩ := hrepeats
  simp only [heed, hpayload]
  rcases hstates with hnone | hsame
  · rw [hnone]
    rfl
  · have htracked : retrack r.tracked update.states = r.tracked :=
      retrack_same fun l => (h l).trans (hsame l).symm
    split
    · rfl
    · rw [setLocators, htracked]

/-- An update leaves the credentials. -/
theorem credentials_announcement (r : Reconciler) (update : LocatorUpdate) :
    (r.heed (Refresh.Trial.announcement update)).credentials = r.credentials := by
  simp only [heed, Refresh.Trial.announcement, Event.of]
  split <;> rfl

theorem tracks_registered (r : Reconciler) (e : Enrollment) :
    (r.heed (Registration.announcement e)).Tracks e.states :=
  fun _ => mem_locators_retrack

theorem Tracks.commit (h : r.Tracks states) (locator : String) (snapshot : Snapshot) :
    (r.commit locator snapshot).Tracks states := by
  rw [Tracks, locators_commit]
  exact h

end Reconciler

theorem repeats_announcement (states : List String) :
    (Refresh.Trial.announcement ⟨states⟩).Repeats states :=
  ⟨⟨states⟩, rfl, .inr fun _ => Iff.rfl⟩

/-! ## What Is Heard -/

namespace Listening

variable {l : Listening}

/-- What brings the listener nothing changes the broker only. -/
theorem meet_quiet {operation : Operation}
    (hquiet : ∀ which, operation.bring (topic which) = []) :
    l.meet operation = { l with broker := (l.broker.perform operation).2 } := by
  rcases news_cases l.broker operation with ⟨hnews, -⟩ | ⟨e, which, rfl, -, hright, htopic⟩
  · simp only [meet, hnews]
  · have hbring := hquiet which
    rw [Operation.bring, if_pos ⟨hright, htopic⟩] at hbring
    cases hbring

/-- An event for the listener finds its place in the order. -/
theorem meet_heard {e : Event} (hright : e.topic = e.payload.topic) (which : Bool)
    (htopic : e.topic = topic which) :
    l.meet (.publish e) =
      { l with
        broker := (l.broker.publish e).2
        heard := l.heard ++ [e]
        order := l.order.insertIdx (l.order.length - l.overtaken e) e } := by
  rcases news_cases l.broker (.publish e) with ⟨-, hbring⟩ | ⟨_, _, heq, hnews, -, -⟩
  · have hnone := hbring which
    rw [Operation.bring, if_pos ⟨hright, htopic⟩] at hnone
    cases hnone
  · cases heq
    simp only [meet, hnews]
    rfl

theorem meet_announcement (update : LocatorUpdate) :
    l.meet (.publish (Refresh.Trial.announcement update)) =
      { l with
        broker := (l.broker.publish (Refresh.Trial.announcement update)).2
        heard := l.heard ++ [Refresh.Trial.announcement update]
        order := l.order.insertIdx
          (l.order.length - l.overtaken (Refresh.Trial.announcement update))
          (Refresh.Trial.announcement update) } :=
  meet_heard rfl true rfl

theorem heard_hear_announcements (l : Listening) (updates : List LocatorUpdate) :
    (l.hear (updates.map Refresh.Trial.announcement)).heard =
      l.heard ++ updates.map Refresh.Trial.announcement := by
  induction updates generalizing l with
  | nil => exact (List.append_nil _).symm
  | cons update updates ih =>
    have hrest := ih (l.meet (.publish (Refresh.Trial.announcement update)))
    rw [meet_announcement] at hrest
    rw [List.map_cons, hear, List.foldl_cons, meet_announcement, ← hear, hrest]
    simp

end Listening

namespace Relay

/-! ## Keeping Out -/

/-- A step in which nobody writes to the file at a path. -/
def Step.KeepsFile (files : FileTree) (path : String) : Step → Prop
  | .surroundings files' _ _ => files'.readText path = files.readText path
  | _ => True

/-- A step in which nobody else announces locators, and nobody writes to the file at a path. -/
def Step.Quiet (files : FileTree) (path : String) : Step → Prop
  | .other operation => ∀ which, operation.bring (Listening.topic which) = []
  | step => step.KeepsFile files path

theorem Step.Quiet.keepsFile {files : FileTree} {path : String} {step : Step}
    (h : step.Quiet files path) : step.KeepsFile files path := by
  cases step with
  | other operation => trivial
  | _ => exact h

/-- The refresh reads the file at a path, and at most one of its ticks is under way. -/
structure Reads (w : Relay) (path : String) : Prop where
  source : w.refresh.refresh.source = .file path
  gives : ∀ x ∈ w.reading, x.source = .file path
  phase : w.refresh.handle.phase = if w.reading.isSome then .running else .idle

/-- What a tick of the refresh under way is about to publish, unless it has the given locators. -/
def late (w : Relay) (states : List String) : List LocatorUpdate :=
  (w.news (.conclude none)).filter fun update => update ≠ ⟨states⟩

variable {start w : Relay} {states : List String} {path : String} {updates : List LocatorUpdate}
  {step : Step} {late : List LocatorUpdate} {interruption : Option TaskFault}
  {x : Refresh.Fetching}

/-! ## Ticks of the Refresh -/

/-- While a tick of the refresh is under way, no other one begins, and a tick of an idle refresh
reads the file unless its scope has been canceled. -/
theorem Reads.next_read (h : w.Reads path) (isCanceled : Bool) :
    w.next (.read isCanceled) = w ∨
      w.reading = none ∧ w.next (.read isCanceled) =
        { w with
          refresh := { w.refresh with handle := { w.refresh.handle with phase := .running } }
          reading := some ⟨.ok (fetchConfigFile w.files path), .file path⟩ } := by
  cases hreading : w.reading with
  | some x =>
    have hphase := h.phase
    rw [hreading] at hphase
    exact .inl (by simp [next, read, TaskHandle.enter, TaskHandle.begin, hphase])
  | none =>
    have hphase := h.phase
    rw [hreading] at hphase
    cases isCanceled with
    | true => exact .inl (by simp [next, read, TaskHandle.enter, TaskHandle.begin, hphase])
    | false =>
      refine .inr ⟨rfl, ?_⟩
      rw [next, read_idle hphase]
      simp only [Refresh.Fetching.ofSite, h.source, UpdateSource.fetch, site]

theorem conclude_none (h : w.reading = none) (interruption : Option TaskFault) :
    w.news (.conclude interruption) = [] ∧ w.next (.conclude interruption) = w := by
  simp only [news, next, conclude, h, and_self]

theorem found?_interrupted {update : LocatorUpdate}
    (h : (x.interrupted interruption).found? = some update) : x.found? = some update := by
  cases interruption with
  | none => exact h
  | some fault => cases h

theorem source_interrupted (x : Refresh.Fetching) (interruption : Option TaskFault) :
    (x.interrupted interruption).source = x.source := by
  cases interruption <;> rfl

/-- A tick under way that has found nothing, or is interrupted, publishes nothing. -/
theorem conclude_vain (h : w.reading = some x)
    (hvain : (x.interrupted interruption).found? = none) :
    w.news (.conclude interruption) = [] ∧
      w.next (.conclude interruption) =
        { w with
          reading := none
          refresh := ⟨w.refresh.handle.release .continue,
            { w.refresh.refresh with source := x.source }⟩ } := by
  have hnews : w.news (.conclude interruption) = [] := by
    simp [news, h, hvain]
  obtain ⟨fault, hproceed⟩ := Refresh.Fetching.proceed_vain hvain w.refresh.refresh w.site
  refine ⟨hnews, ?_⟩
  simp only [next, conclude, h, hproceed, hnews, source_interrupted]
  rfl

/-- One that has found an update publishes it, unless it was published last. -/
theorem conclude_found (h : w.reading = some x) (interruption : Option TaskFault)
    {update : LocatorUpdate} (hfound : (x.interrupted interruption).found? = some update) :
    w.news (.conclude interruption) =
        (if w.refresh.refresh.last = some update then [] else [update]) ∧
      w.next (.conclude interruption) =
        { w with
          reading := none
          refresh := ⟨w.refresh.handle.release .continue, ⟨x.source, some update⟩⟩
          listening := w.listening.hear
            ((w.news (.conclude interruption)).map Refresh.Trial.announcement) } := by
  have hproceed := Refresh.Fetching.proceed_found hfound w.refresh.refresh w.site
  refine ⟨?_, ?_⟩
  · by_cases hlast : w.refresh.refresh.last = some update
    · simp [news, h, hfound, Option.filter, hlast]
    · simp [news, h, hfound, Option.filter, hlast]
  · simp only [next, conclude, h, hproceed, source_interrupted]
    rfl

/-- Nothing but the ticks of the refresh changes what it reads. -/
theorem Reads.next (h : w.Reads path) (step : Step) : (w.next step).Reads path := by
  cases step with
  | enroll id isCanceled exchange =>
    simp only [Relay.next, enroll]
    split
    · exact ⟨h.source, h.gives, h.phase⟩
    · split <;> exact ⟨h.source, h.gives, h.phase⟩
  | announce =>
    simp only [Relay.next, announce]
    split <;> exact ⟨h.source, h.gives, h.phase⟩
  | read isCanceled =>
    rcases h.next_read isCanceled with hsame | ⟨-, hnext⟩
    · rw [hsame]
      exact h
    · rw [hnext]
      exact ⟨h.source, by simp, rfl⟩
  | conclude interruption =>
    cases hreading : w.reading with
    | none =>
      rw [(conclude_none hreading _).2]
      exact h
    | some x =>
      have hsource := h.gives x hreading
      cases hfound : (x.interrupted interruption).found? with
      | none =>
        rw [(conclude_vain hreading hfound).2]
        exact ⟨hsource, by rintro _ ⟨⟩, rfl⟩
      | some update =>
        rw [(conclude_found hreading _ hfound).2]
        exact ⟨hsource, by rintro _ ⟨⟩, rfl⟩
  | look | commit locator snapshot | other operation | surroundings files network store =>
    exact ⟨h.source, h.gives, h.phase⟩

/-! ## After an Enrollment -/

/-- What every step keeps after an enrollment, as long as nobody writes to the file: the text of
the file, what the refresh reads, and that the registration does not begin once more. -/
structure Enrolled (start : Relay) (path : String) (w : Relay) : Prop where
  file : w.files.readText path = start.files.readText path
  reads : w.Reads path
  begun : w.registration.phase ≠ .idle

/-- While the registration is under way, or when it is done, it does not begin once more. -/
theorem next_enroll (hphase : w.registration.phase ≠ .idle) (id : Option TaskId)
    (isCanceled : Bool) (exchange : Registration.Exchange) :
    w.next (.enroll id isCanceled exchange) =
      { w with registration := { w.registration with id } } := by
  have hbusy : { w.registration with id }.enter (Registration.obstacle? w.store) isCanceled =
      .error (.busy w.registration.phase) := by
    cases hbegun : w.registration.phase with
    | idle => exact absurd hbegun hphase
    | running | terminated => simp [TaskHandle.enter, TaskHandle.begin, hbegun]
  exact enroll_refused hbusy

theorem Enrolled.next (h : Enrolled start path w) (hkeeps : step.KeepsFile start.files path) :
    Enrolled start path (w.next step) := by
  have hreads := h.reads.next step
  cases step with
  | enroll id isCanceled exchange =>
    rw [next_enroll h.begun] at hreads ⊢
    exact ⟨h.file, hreads, h.begun⟩
  | announce =>
    refine ⟨?_, hreads, ?_⟩
    · simp only [Relay.next, announce]
      split <;> exact h.file
    · simp only [Relay.next, announce]
      split
      · exact h.begun
      · simp only [TaskHandle.release]
        split
        · rintro ⟨⟩
        · exact h.begun
  | read isCanceled =>
    rcases h.reads.next_read isCanceled with hsame | ⟨-, hnext⟩
    · rw [hsame]
      exact h
    · rw [hnext] at hreads ⊢
      exact ⟨h.file, hreads, h.begun⟩
  | conclude interruption =>
    refine ⟨?_, hreads, ?_⟩ <;> simp only [Relay.next, conclude] <;> split
    · exact h.file
    · exact h.file
    · exact h.begun
    · exact h.begun
  | surroundings files network store => exact ⟨hkeeps, hreads, h.begun⟩
  | look | commit locator snapshot | other operation => exact ⟨h.file, hreads, h.begun⟩

/-- Only the registration itself begins or goes on with its announcements. -/
theorem announcing_next (hphase : w.registration.phase ≠ .idle) (hother : step ≠ .announce) :
    (w.next step).announcing = w.announcing := by
  cases step with
  | enroll id isCanceled exchange => rw [next_enroll hphase]
  | announce => exact absurd rfl hother
  | read isCanceled =>
    simp only [Relay.next, read]
    split <;> rfl
  | conclude interruption =>
    simp only [Relay.next, conclude]
    split <;> rfl
  | look | commit locator snapshot | other operation | surroundings files network store => rfl

theorem Enrolled.after (h : Enrolled start path w) {steps : List Step}
    (hwaits : ∀ step ∈ steps, step ≠ .announce ∧ step.KeepsFile start.files path) :
    Enrolled start path (w.after steps) ∧ (w.after steps).announcing = w.announcing := by
  induction steps with
  | nil => exact ⟨h, rfl⟩
  | cons step earlier ih =>
    rw [List.forall_mem_cons] at hwaits
    obtain ⟨henrolled, hannouncing⟩ := ih hwaits.2
    exact ⟨henrolled.next hwaits.1.2,
      (announcing_next henrolled.begun hwaits.1.1).trans hannouncing⟩

/-! ## After a Registration -/

/-- How far the refresh has come after a registration: a tick that was under way is still to
publish what it has read; or this is over, and from now on only the issued locators are published,
and only once. -/
inductive Progress (late : List LocatorUpdate) (states : List String)
    (updates : List LocatorUpdate) (last : Option LocatorUpdate)
    (reading : Option Refresh.Fetching) : Prop
  | pending (x : Refresh.Fetching) (update : LocatorUpdate) (hnone : updates = [])
      (hreading : reading = some x) (hfound : x.found? = some update) (hlate : late = [update])
  | over (before : List LocatorUpdate) (hbefore : before.Sublist late)
      (hupdates : updates = before ∨ updates = before ++ [⟨states⟩] ∧ last = some ⟨states⟩)
      (hreading : ∀ x ∈ reading, ∀ update, x.found? = some update →
        update = ⟨states⟩ ∨ last = some update)

/-- What every step keeps after a registration: the file has the locators, the rest of the
announcements is not for the listener, and the listener has heard of nothing but the updates that
the refresh has published. -/
structure Since (start : Relay) (late : List LocatorUpdate) (states : List String)
    (path : String) (updates : List LocatorUpdate) (w : Relay) : Prop where
  enrolled : Enrolled start path w
  silent : ∀ e ∈ w.announcing, ∀ which,
    Operation.bring (Listening.topic which) (.publish e) = []
  heard : w.listening.heard =
    start.listening.heard ++ updates.map Refresh.Trial.announcement
  progress : Progress late states updates w.refresh.refresh.last w.reading

/-- It begins so, with the tick that is under way at this time, if any. -/
theorem Enrolled.since (h : Enrolled start path start)
    (hsilent : ∀ e ∈ start.announcing, ∀ which,
      Operation.bring (Listening.topic which) (.publish e) = []) (states : List String) :
    Since start (start.late states) states path [] start := by
  refine ⟨h, hsilent, (List.append_nil _).symm, ?_⟩
  -- Without such a tick, or if it repeats what has been published, this is over already.
  cases hreading : start.reading with
  | none => exact .over [] (List.nil_sublist _) (.inl rfl) nofun
  | some x =>
    cases hfound : x.found? with
    | none =>
      refine .over [] (List.nil_sublist _) (.inl rfl) ?_
      rintro _ ⟨⟩ update hupdate
      rw [hfound] at hupdate
      cases hupdate
    | some update =>
      by_cases hknown : update = ⟨states⟩ ∨ start.refresh.refresh.last = some update
      · refine .over [] (List.nil_sublist _) (.inl rfl) ?_
        rintro _ ⟨⟩ update' hupdate
        rw [hfound] at hupdate
        cases hupdate
        exact hknown
      · obtain ⟨hother, hlast⟩ := not_or.mp hknown
        refine .pending x update rfl rfl hfound ?_
        have hnews := (conclude_found hreading none hfound).1
        rw [late, hnews, if_neg hlast, List.filter_singleton]
        simp [hother]

theorem Progress.sublist {last : Option LocatorUpdate} {reading : Option Refresh.Fetching}
    (h : Progress late states updates last reading) :
    updates.Sublist (late ++ [⟨states⟩]) := by
  rcases h with ⟨x, update, rfl, -, -, -⟩ | ⟨before, hbefore, rfl | ⟨rfl, -⟩, -⟩
  · exact List.nil_sublist _
  · exact hbefore.trans (List.sublist_append_left _ _)
  · exact hbefore.append_right _

theorem Since.length_le (h : Since start late states path updates w) :
    updates.length ≤ late.length + 1 := by
  simpa using h.progress.sublist.length_le

theorem Since.mem (h : Since start late states path updates w) {update : LocatorUpdate}
    (hupdate : update ∈ updates) : update ∈ late ∨ update = ⟨states⟩ := by
  simpa using h.progress.sublist.subset hupdate

/-- What the refresh reads from now on is the issued locators. -/
theorem Since.next_read (h : Since start late states path updates w)
    (hfetch : fetchConfigFile start.files path = .ok ⟨states⟩) (isCanceled : Bool) :
    Since start late states path updates (w.next (.read isCanceled)) := by
  have henrolled : Enrolled start path (w.next (.read isCanceled)) := h.enrolled.next trivial
  rcases h.enrolled.reads.next_read isCanceled with hsame | ⟨hnone, hnext⟩
  · rwa [hsame]
  · rw [hnext] at henrolled ⊢
    refine ⟨henrolled, h.silent, h.heard, ?_⟩
    rcases h.progress with ⟨x, -, -, hreading, -, -⟩ | ⟨before, hbefore, hupdates, -⟩
    · rw [hnone] at hreading
      cases hreading
    · refine .over before hbefore hupdates fun x hx update hfound => .inl ?_
      cases hx
      have hreply := Refresh.Fetching.found?_eq_some.mp hfound
      simp only [fetch_congr h.enrolled.file, hfetch] at hreply
      cases hreply
      rfl

/-- A tick that was under way publishes what it has read, if anything, and so does any other one,
which has read the issued locators. -/
theorem Since.next_conclude (h : Since start late states path updates w)
    (interruption : Option TaskFault) :
    Since start late states path (updates ++ w.news (.conclude interruption))
      (w.next (.conclude interruption)) := by
  have henrolled : Enrolled start path (w.next (.conclude interruption)) :=
    h.enrolled.next trivial
  cases hreading : w.reading with
  | none =>
    obtain ⟨hnews, hnext⟩ := conclude_none hreading interruption
    rwa [hnews, hnext, List.append_nil]
  | some x =>
    cases hfound : (x.interrupted interruption).found? with
    | none =>
      obtain ⟨hnews, hnext⟩ := conclude_vain hreading hfound
      rw [hnext] at henrolled ⊢
      rw [hnews, List.append_nil]
      refine ⟨henrolled, h.silent, h.heard, ?_⟩
      rcases h.progress with ⟨-, -, rfl, -, -, -⟩ | ⟨before, hbefore, hupdates, -⟩
      · exact .over [] (List.nil_sublist _) (.inl rfl) nofun
      · exact .over before hbefore hupdates nofun
    | some update =>
      obtain ⟨hnews, hnext⟩ := conclude_found hreading interruption hfound
      rw [hnext] at henrolled ⊢
      refine ⟨henrolled, h.silent, ?_, ?_⟩
      · rw [Listening.heard_hear_announcements, h.heard, List.map_append, List.append_assoc]
      · have hread := found?_interrupted hfound
        rw [hnews]
        rcases h.progress with
          ⟨x', update', rfl, hreading', hfound', rfl⟩ | ⟨before, hbefore, hupdates, hgives⟩
        · rw [hreading] at hreading'
          cases hreading'
          rw [hread] at hfound'
          cases hfound'
          refine .over _ ?_ (.inl rfl) nofun
          split <;> simp
        · rcases hgives x hreading update hread with rfl | hlast
          · refine .over before hbefore ?_ nofun
            rcases hupdates with rfl | ⟨rfl, hlast⟩
            · split
              · exact .inl (List.append_nil _)
              · exact .inr ⟨rfl, rfl⟩
            · rw [if_pos hlast]
              exact .inr ⟨List.append_nil _, rfl⟩
          · rw [if_pos hlast, List.append_nil]
            rw [hlast] at hupdates
            exact .over before hbefore hupdates nofun

theorem Since.next (h : Since start late states path updates w)
    (hfetch : fetchConfigFile start.files path = .ok ⟨states⟩)
    (hquiet : step.Quiet start.files path) :
    Since start late states path (updates ++ w.news step) (w.next step) := by
  have henrolled := h.enrolled.next hquiet.keepsFile
  cases step with
  | enroll id isCanceled exchange =>
    rw [next_enroll h.enrolled.begun] at henrolled ⊢
    simp only [news, List.append_nil]
    exact ⟨henrolled, h.silent, h.heard, h.progress⟩
  | announce =>
    simp only [news, List.append_nil]
    cases hannouncing : w.announcing with
    | nil =>
      have hnext : w.next .announce = w := by
        simp only [Relay.next, announce, hannouncing]
      rwa [hnext]
    | cons e rest =>
      have hnext : w.next .announce = _ := announce_cons hannouncing
      have hsilent := h.silent
      rw [hannouncing, List.forall_mem_cons] at hsilent
      rw [hnext] at henrolled ⊢
      refine ⟨henrolled, hsilent.2, ?_, h.progress⟩
      show (w.listening.meet (.publish e)).heard = _
      rw [Listening.meet_quiet hsilent.1]
      exact h.heard
  | read isCanceled =>
    simp only [news, List.append_nil]
    exact h.next_read hfetch isCanceled
  | conclude interruption => exact h.next_conclude interruption
  | look =>
    simp only [news, List.append_nil]
    exact ⟨henrolled, h.silent, w.listening.look_order.2.trans h.heard, h.progress⟩
  | commit locator snapshot =>
    simp only [news, List.append_nil]
    exact ⟨henrolled, h.silent, h.heard, h.progress⟩
  | other operation =>
    simp only [news, List.append_nil]
    refine ⟨henrolled, h.silent, ?_, h.progress⟩
    simp only [Relay.next, Listening.meet_quiet hquiet]
    exact h.heard
  | surroundings files network store =>
    simp only [news, List.append_nil]
    exact ⟨henrolled, h.silent, h.heard, h.progress⟩

end Relay

end EdgeSync
