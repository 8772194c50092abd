import EdgeSync.Proofs.Registration.Once
import EdgeSync.Sync.Refresh
import Mathlib.Data.List.Destutter

/-!
# Announcing Updates

A refresh ticks again and again, whatever its source gives. It publishes an update if it has
not published the same one last. So what it has published at any time is what it has fetched,
with updates that follow themselves collapsed. A tick that fails, or is canceled while it waits
for its source, might as well not have been.

Between two ticks others may do anything with the site, so every trial has a site of its own.

## Main definitions

- `Refresh.Fetching`, `Refresh.proceed`: the execution with anything that a source may give
- `Refresh.Trial`, `Refresh.Trial.tick`: one tick
- `Refresh.Standing`, `Refresh.Standing.after`: the task, and what comes of some ticks
- `Refresh.fetched`, `Refresh.published`: what some ticks fetch and publish
- `Refresh.Announces`: what a tick does, by the trials before it

## Main results

- `Refresh.Trial.tick_fetched`, `Refresh.Trial.tick_vain`: one tick of an idle task
- `Refresh.published_eq`: what has been published
- `Refresh.announces_after`: any tick after any trials
-/

namespace EdgeSync

/-- An item at the end is collapsed with the one before it, if that is the same. -/
theorem destutter_concat {α : Type} [DecidableEq α] (items : List α) (item : α) :
    (items ++ [item]).destutter (· ≠ ·) =
      if items.getLast? = some item then items.destutter (· ≠ ·)
      else items.destutter (· ≠ ·) ++ [item] := by
  cases items with
  | nil => rfl
  | cons first items =>
    simp only [List.cons_append, List.destutter_cons']
    -- Collapsing goes on from the first item of each run.
    induction items generalizing first with
    | nil => by_cases h : first = item <;> simp [h]
    | cons second items ih =>
      rw [List.cons_append, List.getLast?_cons_cons]
      by_cases h : first = second
      · subst h
        rw [List.destutter'_cons_neg _ (by simp), List.destutter'_cons_neg _ (by simp)]
        exact ih first
      · rw [List.destutter'_cons_pos _ h, List.destutter'_cons_pos _ h, ih second]
        split <;> rfl

namespace Refresh

/-! ## Trials -/

/-- What a source gives: an answer, or the fault by which the wait for it ends; and the source
after it. -/
structure Fetching where
  reply : Except TaskFault (Except SyncFault LocatorUpdate)
  source : UpdateSource

/-- What the source of a refresh gives at a site. -/
def Fetching.ofSite (r : Refresh) (s : Site) : Fetching :=
  let (answer, source) := r.source.fetch s.files
  ⟨.ok answer, source⟩

/-- The execution of the task with anything that the source may give. -/
def proceed (x : Fetching) (isCanceled : Bool) (r : Refresh) (s : Site) :
    Outcome × Refresh × Site :=
  if isCanceled then (.failed .canceled, r, s)
  else
    let r := { r with source := x.source }
    match x.reply with
    | .error fault => (.failed fault, r, s)
    | .ok answer => r.accept s answer

/-- Without interruption the task executes with what its source gives. -/
theorem execute_eq_proceed (r : Refresh) (s : Site) (isCanceled : Bool) :
    r.execute s isCanceled = proceed (.ofSite r s) isCanceled r s := by
  cases isCanceled <;> rfl

/-- A refresh and its handle. -/
structure Standing where
  handle : TaskHandle
  refresh : Refresh

/-- A task that has not ticked. -/
def Standing.new (source : UpdateSource) : Standing := ⟨.new, .new source⟩

/-- One tick of the task: the site at that time, whether the scope has been canceled, and what
the source gives if it comes to that. -/
structure Trial where
  site : Site
  isCanceled : Bool
  fetching : Fetching

namespace Trial

/-- The tick of a trial. -/
def tick (t : Trial) (s : Standing) : Tick × Standing × Site :=
  let (tick, handle, refresh, site) :=
    s.handle.trigger none t.isCanceled (fun (r, site) => proceed t.fetching t.isCanceled r site)
      (s.refresh, t.site)
  (tick, ⟨handle, refresh⟩, site)

/-- If the wait for the source is not interrupted, the tick is that of the task at its site. -/
theorem tick_ofSite {t : Trial} {s : Standing} (hfetching : t.fetching = .ofSite s.refresh t.site) :
    t.tick s =
      let (tick, handle, refresh, site) :=
        s.handle.trigger none t.isCanceled (fun (r, site) => r.execute site t.isCanceled)
          (s.refresh, t.site)
      (tick, ⟨handle, refresh⟩, site) := by
  simp only [tick, TaskHandle.trigger, hfetching, ← execute_eq_proceed]

/-- The update that a tick fetches. -/
def fetched? (t : Trial) : Option LocatorUpdate :=
  match t.isCanceled, t.fetching.reply with
  | false, .ok (.ok update) => some update
  | _, _ => none

/-- The announcement of an update. -/
def announcement (update : LocatorUpdate) : Event :=
  .of name (.updated update)

/-- The update that a tick publishes: the one that it fetches, unless that was published last. -/
def news? (t : Trial) (r : Refresh) : Option LocatorUpdate :=
  t.fetched?.filter fun update => r.last ≠ some update

theorem fetched?_eq_some {t : Trial} {update : LocatorUpdate} :
    t.fetched? = some update ↔
      t.isCanceled = false ∧ t.fetching.reply = .ok (.ok update) := by
  unfold fetched?
  split
  · next hcanceled hreply => simp [hcanceled, hreply]
  · next hother =>
    simp only [reduceCtorEq, false_iff, not_and]
    intro hcanceled hreply
    exact hother update hcanceled hreply

/-- A tick of an idle task fails if its scope has been canceled, and else does what the
execution does. -/
theorem tick_idle {s : Standing} (hidle : s.handle.phase = .idle) (t : Trial) :
    t.tick s =
      if t.isCanceled then (.failed .canceled, s, t.site)
      else
        let (outcome, refresh, site) := proceed t.fetching false s.refresh t.site
        (.ofOutcome outcome, ⟨s.handle.release outcome.completion, refresh⟩, site) := by
  obtain ⟨⟨phase, id⟩, refresh⟩ := s
  obtain rfl : phase = .idle := hidle
  cases hcanceled : t.isCanceled with
  | true => simp [tick, TaskHandle.trigger, TaskHandle.enter, TaskHandle.begin, hcanceled,
      Refusal.tick]
  | false =>
    simp only [tick, TaskHandle.trigger, TaskHandle.enter, TaskHandle.begin, hcanceled]
    rfl

/-- An idle task that is to go on stays idle. -/
theorem release_continue {h : TaskHandle} (hidle : h.phase = .idle) : h.release .continue = h := by
  rw [TaskHandle.release, Completion.phase, ← hidle]

end Trial

namespace Fetching

/-- The update that a source gives, if the wait for it is not interrupted and it gives one. -/
def found? (x : Fetching) : Option LocatorUpdate :=
  match x.reply with
  | .ok (.ok update) => some update
  | _ => none

variable {x : Fetching} {update : LocatorUpdate}

theorem found?_eq_some : x.found? = some update ↔ x.reply = .ok (.ok update) := by
  unfold found?
  split
  · next hreply => simp [hreply]
  · next hother => exact iff_of_false nofun fun hreply => hother update hreply

/-- An execution that finds nothing fails, but it has asked the source. -/
theorem proceed_vain (h : x.found? = none) (r : Refresh) (s : Site) :
    ∃ fault, proceed x false r s = (.failed fault, { r with source := x.source }, s) := by
  -- The wait is interrupted, or the source gives a fault.
  cases hreply : x.reply with
  | error fault => exact ⟨fault, by simp [proceed, hreply]⟩
  | ok answer =>
    cases answer with
    | error fault => exact ⟨fault.taskFault, by simp [proceed, hreply, accept]⟩
    | ok update => exact absurd (found?_eq_some.mpr hreply) (by simp [h])

/-- An execution that finds an update publishes it, unless it was published last. -/
theorem proceed_found (h : x.found? = some update) (r : Refresh) (s : Site) :
    proceed x false r s =
      (.done .continue, ⟨x.source, some update⟩,
        if r.last = some update then s
        else { s with broker := (s.broker.publish (Trial.announcement update)).2 }) := by
  have hright : ∀ e ∈ [Trial.announcement update], e.topic = e.payload.topic := by
    intro e he
    obtain rfl := List.mem_singleton.mp he
    rfl
  have hpublish := Site.publishAll_right hright s
  simp only [Trial.announcement] at hpublish
  simp only [proceed, found?_eq_some.mp h, accept]
  by_cases hlast : r.last = some update
  · simp [hlast]
  · simp [hlast, hpublish, Trial.announcement]

end Fetching

namespace Trial

variable {t : Trial} {s : Standing}

theorem fetched?_eq (t : Trial) :
    t.fetched? = if t.isCanceled then none else t.fetching.found? := by
  unfold fetched? Fetching.found?
  cases t.isCanceled with
  | true => rfl
  | false => rcases t.fetching.reply with fault | fault | update <;> rfl

/-- A tick that fetches nothing fails, and the task will try again. Unless its scope has been
canceled, it has asked the source. -/
theorem tick_vain (hidle : s.handle.phase = .idle) (hvain : t.fetched? = none) :
    ∃ fault, t.tick s =
      (.failed fault,
        ⟨s.handle, { s.refresh with
          source := if t.isCanceled then s.refresh.source else t.fetching.source }⟩,
        t.site) := by
  rw [tick_idle hidle]
  rw [fetched?_eq] at hvain
  cases hcanceled : t.isCanceled with
  | true => exact ⟨.canceled, rfl⟩
  | false =>
    rw [hcanceled] at hvain
    obtain ⟨fault, hproceed⟩ := Fetching.proceed_vain hvain s.refresh t.site
    exact ⟨fault, by simp [hproceed, Tick.ofOutcome, Outcome.completion, release_continue hidle]⟩

/-- A tick that fetches an update completes. It publishes the update, unless that was published
last. -/
theorem tick_fetched (hidle : s.handle.phase = .idle) {update : LocatorUpdate}
    (hfetched : t.fetched? = some update) :
    t.tick s =
      (.completed, ⟨s.handle, ⟨t.fetching.source, some update⟩⟩,
        if s.refresh.last = some update then t.site
        else { t.site with broker := (t.site.broker.publish (announcement update)).2 }) := by
  obtain ⟨hcanceled, hreply⟩ := fetched?_eq_some.mp hfetched
  have hproceed := Fetching.proceed_found (Fetching.found?_eq_some.mpr hreply) s.refresh t.site
  rw [tick_idle hidle]
  simp [hcanceled, hproceed, Tick.ofOutcome, Outcome.completion, release_continue hidle]

end Trial

/-! ## Runs of Trials -/

/-- The task after some trials, the latest first. -/
def Standing.after (s : Standing) : List Trial → Standing
  | [] => s
  | t :: earlier => (t.tick (s.after earlier)).2.1

/-- The updates that some trials fetch, in their order. -/
def fetched : List Trial → List LocatorUpdate
  | [] => []
  | t :: earlier => fetched earlier ++ t.fetched?.toList

/-- The updates that some trials of a new task publish, in their order. -/
def published (source : UpdateSource) : List Trial → List LocatorUpdate
  | [] => []
  | t :: earlier =>
    published source earlier ++ (t.news? ((Standing.new source).after earlier).refresh).toList

theorem fetched_append (later earlier : List Trial) :
    fetched (later ++ earlier) = fetched earlier ++ fetched later := by
  induction later with
  | nil => exact (List.append_nil _).symm
  | cons t later ih => rw [List.cons_append, fetched, ih, fetched, List.append_assoc]

variable {source : UpdateSource}

/-- Between its ticks the task is idle, and it remembers what it has fetched last. -/
theorem standing_after (source : UpdateSource) (trials : List Trial) :
    ((Standing.new source).after trials).handle = .new ∧
      ((Standing.new source).after trials).refresh.last = (fetched trials).getLast? := by
  induction trials with
  | nil => exact ⟨rfl, rfl⟩
  | cons t earlier ih =>
    obtain ⟨hhandle, hlast⟩ := ih
    have hidle : ((Standing.new source).after earlier).handle.phase = .idle := by
      rw [hhandle]
      rfl
    rw [Standing.after, fetched]
    cases hfetched : t.fetched? with
    | none =>
      obtain ⟨fault, htick⟩ := Trial.tick_vain hidle hfetched
      rw [htick]
      exact ⟨hhandle, by simpa using hlast⟩
    | some update =>
      rw [Trial.tick_fetched hidle hfetched]
      exact ⟨hhandle, by simp⟩

/-- What is published is what is fetched, where updates that follow themselves are collapsed. -/
theorem published_eq (source : UpdateSource) (trials : List Trial) :
    published source trials = (fetched trials).destutter (· ≠ ·) := by
  induction trials with
  | nil => rfl
  | cons t earlier ih =>
    -- What the task remembers is what would be repeated.
    obtain ⟨-, hlast⟩ := standing_after source earlier
    rw [published, fetched, ih, Trial.news?, hlast]
    cases t.fetched? with
    | none => simp
    | some update =>
      rw [Option.toList_some, destutter_concat]
      by_cases h : (fetched earlier).getLast? = some update <;> simp [Option.filter, h]

/-- Collapsing leaves the last item. -/
theorem getLast?_destutter {α : Type} [DecidableEq α] (items : List α) :
    (items.destutter (· ≠ ·)).getLast? = items.getLast? := by
  induction items using List.reverseRecOn with
  | nil => rfl
  | append_singleton items item ih =>
    rw [destutter_concat]
    split
    · next hsame => rw [ih, hsame, List.getLast?_concat]
    · rw [List.getLast?_concat, List.getLast?_concat]

/-! ## Announcements -/

/-- What a tick does, by the trials of a new task before it. -/
structure Announces (source : UpdateSource) (earlier : List Trial) (t : Trial) : Prop where
  /-- If the wait for the source is not interrupted, the tick is that of the task at its site. -/
  executes : t.fetching = .ofSite ((Standing.new source).after earlier).refresh t.site →
    t.tick ((Standing.new source).after earlier) =
      let (tick, handle, refresh, site) := TaskHandle.new.trigger none t.isCanceled
        (fun (r, site) => r.execute site t.isCanceled)
        (((Standing.new source).after earlier).refresh, t.site)
      (tick, ⟨handle, refresh⟩, site)
  /-- An update other than the one published last is published, and nothing else is done to the
  site. No publication fails. -/
  publishes : ∀ update, t.fetched? = some update →
    (published source earlier).getLast? ≠ some update →
    t.tick ((Standing.new source).after earlier) =
        (.completed, ⟨.new, ⟨t.fetching.source, some update⟩⟩,
          { t.site with broker := (t.site.broker.publish (Trial.announcement update)).2 }) ∧
      (t.site.broker.publish (Trial.announcement update)).1 =
        .ok (t.site.broker.count Topic.update) ∧
      published source (t :: earlier) = published source earlier ++ [update]
  /-- The update published last is not published again. -/
  repeats : ∀ update, t.fetched? = some update →
    (published source earlier).getLast? = some update →
    t.tick ((Standing.new source).after earlier) =
        (.completed, ⟨.new, ⟨t.fetching.source, some update⟩⟩, t.site) ∧
      published source (t :: earlier) = published source earlier
  /-- A tick that fetches nothing fails and publishes nothing, -/
  fails : t.fetched? = none →
    (∃ fault, t.tick ((Standing.new source).after earlier) =
        (.failed fault,
          ⟨.new, { ((Standing.new source).after earlier).refresh with
            source :=
              if t.isCanceled then ((Standing.new source).after earlier).refresh.source
              else t.fetching.source }⟩,
          t.site)) ∧
      published source (t :: earlier) = published source earlier
  /-- and whatever comes later, what is published is as if it had not been. -/
  omitted : t.fetched? = none → ∀ later,
    published source (later ++ t :: earlier) = published source (later ++ earlier)
  /-- What is fetched is published, with updates that follow themselves collapsed. -/
  collapses : published source (t :: earlier) = (fetched (t :: earlier)).destutter (· ≠ ·)
  /-- What has just been fetched is what was published last. -/
  latest : ∀ update, t.fetched? = some update →
    (published source (t :: earlier)).getLast? = some update

/-- Whatever the source gives, updates are published as they change. -/
theorem announces_after (source : UpdateSource) (earlier : List Trial) (t : Trial) :
    Announces source earlier t := by
  obtain ⟨hhandle, hlast⟩ := standing_after source earlier
  have hidle : ((Standing.new source).after earlier).handle.phase = .idle := by
    rw [hhandle]
    rfl
  have hremembers : ((Standing.new source).after earlier).refresh.last =
      (published source earlier).getLast? := by
    rw [hlast, published_eq, getLast?_destutter]
  refine ⟨?_, ?_, ?_, ?_, ?_, published_eq source (t :: earlier), ?_⟩
  · intro hfetching
    rw [← hhandle]
    exact Trial.tick_ofSite hfetching
  · intro update hfetched hnew
    rw [← hremembers] at hnew
    refine ⟨?_, Broker.publish_right rfl, ?_⟩
    · rw [Trial.tick_fetched hidle hfetched, if_neg hnew, hhandle]
    · rw [published, Trial.news?, hfetched]
      simp [hnew]
  · intro update hfetched hsame
    rw [← hremembers] at hsame
    refine ⟨?_, ?_⟩
    · rw [Trial.tick_fetched hidle hfetched, if_pos hsame, hhandle]
    · rw [published, Trial.news?, hfetched]
      simp [hsame]
  · intro hvain
    refine ⟨?_, ?_⟩
    · rw [← hhandle]
      exact Trial.tick_vain hidle hvain
    · rw [published, Trial.news?, hvain]
      simp
  · intro hvain later
    rw [published_eq, published_eq, fetched_append, fetched_append, fetched, hvain,
      Option.toList_none, List.append_nil]
  · intro update hfetched
    rw [published_eq, getLast?_destutter, fetched, hfetched, Option.toList_some,
      List.getLast?_concat]

end Refresh

end EdgeSync
