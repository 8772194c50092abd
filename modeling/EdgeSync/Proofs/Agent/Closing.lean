import EdgeSync.Proofs.Agent.AtWork

/-!
# After the Shutdown

A shutdown cancels the scope and waits for the journal, for the listener of the reconciler, and
for the loops of the tasks that are scheduled then. It does not wait for the ticks that have been
made, for calls that schedule tasks, or for loops whose tasks have been unscheduled. Whatever has
looked at the scope before this was canceled may still go on when the shutdown is over: a call
enters its task, a loop makes its tick, and a tick executes its task. But nothing gets so far any
more, and nobody is left who would follow an event.

## Main definitions

- `Workshop.Advances`: the shutdown goes on
- `Workshop.Passes`: when it has canceled the scope, and when it has removed all entries
- `Workshop.Rests`: what holds at any time after the shutdown

## Main results

- `Workshop.closing_cases`: every turn
- `Workshop.rests_after`: after the shutdown
- `Workshop.over_of_unasked`: the shutdown can be completed
-/

namespace EdgeSync

/-- The stages of a shutdown in their order. -/
def Closing.rank : Closing → Nat
  | .unasked => 0
  | .canceling => 1
  | .journal => 2
  | .listener => 3
  | .loops _ => 4
  | .done _ => 5

namespace Workshop

variable {w : Workshop}

/-! ## How Far the Shutdown Has Come -/

/-- The shutdown is asked for, or goes on from one stage to the next. -/
inductive Advances (w : Workshop) : Turn → Workshop → Prop
  | asked (hclosing : w.closing = .unasked) (hstarting : w.starting = .done) :
      Advances w .close { w with closing := .canceling }
  | canceled (hclosing : w.closing = .canceling) :
      Advances w .await { w.cancel with closing := .journal }
  | journal (hclosing : w.closing = .journal) (hended : w.journal.follower.isRunning = false) :
      Advances w .await { w with closing := .listener }
  | listener (hclosing : w.closing = .listener) (hended : w.listener.follower.isRunning = false) :
      Advances w .await { w.dismiss w.scheduler.shutdown with
        closing := .loops (w.scheduler.entries.map Prod.fst) }
  | loops (ids : List TaskId) (hclosing : w.closing = .loops ids)
      (hended : ∀ l ∈ w.stopping ++ w.awake, l.id ∉ ids) :
      Advances w .await { w with closing := .done ids }

theorem close_cases (w : Workshop) : w.close = w ∨ w.Advances .close w.close := by
  unfold close
  split
  · next h => exact .inr (.asked h.2 h.1)
  · exact .inl rfl

theorem await_cases (w : Workshop) : w.await = w ∨ w.Advances .await w.await := by
  unfold await
  split
  · next hclosing => exact .inr (.canceled hclosing)
  · next hclosing =>
    split
    · exact .inl rfl
    · next hended => exact .inr (.journal hclosing (Bool.not_eq_true _ |>.mp hended))
  · next hclosing =>
    split
    · exact .inl rfl
    · next hended => exact .inr (.listener hclosing (Bool.not_eq_true _ |>.mp hended))
  · next ids hclosing =>
    split
    · exact .inl rfl
    · next hnone =>
      refine .inr (.loops ids hclosing fun l hl hmem => hnone ?_)
      exact List.any_eq_true.mpr ⟨l, hl, List.contains_iff_mem.mpr hmem⟩
  · exact .inl rfl
  · exact .inl rfl

theorem closing_cases (w : Workshop) (t : Turn) :
    (w.turn t).closing = w.closing ∨ w.Advances t (w.turn t) := by
  by_cases hclose : t = .close
  · subst hclose
    rcases w.close_cases with hsame | hadvances
    · exact .inl (congrArg closing hsame)
    · exact .inr hadvances
  · by_cases hawait : t = .await
    · subst hawait
      rcases w.await_cases with hsame | hadvances
      · exact .inl (congrArg closing hsame)
      · exact .inr hadvances
    · exact .inl (closing_turn hclose hawait w)

/-- What holds of the shutdown at its stages. -/
structure Shuts (w : Workshop) : Prop where
  begun : 1 ≤ w.closing.rank → w.starting.isBegun = true
  journal : 3 ≤ w.closing.rank → w.journal.follower.isRunning = false
  listener : 4 ≤ w.closing.rank → w.listener.follower.isRunning = false

theorem shuts_unasked (hopen : w.closing = .unasked) : w.Shuts := by
  refine ⟨?_, ?_, ?_⟩
  · simp [hopen, Closing.rank]
  · simp [hopen, Closing.rank]
  · simp [hopen, Closing.rank]

/-- What has been done stays so, as long as the shutdown does not go on. -/
theorem Shuts.stay {w' : Workshop} (h : w.Shuts) (hstays : w.Stays w')
    (hclosing : w'.closing = w.closing) : w'.Shuts := by
  refine ⟨fun hrank => ?_, fun hrank => ?_, fun hrank => ?_⟩
  · rw [hclosing] at hrank
    exact hstays.begun (h.begun hrank)
  · rw [hclosing] at hrank
    exact (hstays.journal (h.begun (by omega)) (h.journal hrank)).1
  · rw [hclosing] at hrank
    exact (hstays.listener (h.begun (by omega)) (h.listener hrank)).1

theorem Shuts.advance {w' : Workshop} {t : Turn} (h : w.Shuts) (hadvances : w.Advances t w') :
    w'.Shuts := by
  cases hadvances with
  | asked hclosing hstarting =>
    refine ⟨fun _ => ?_, fun hrank => ?_, fun hrank => ?_⟩
    · rw [hstarting]
      rfl
    · exact absurd hrank (by simp [Closing.rank])
    · exact absurd hrank (by simp [Closing.rank])
  | canceled hclosing =>
    have hbegun := h.begun (by simp [hclosing, Closing.rank])
    exact ⟨fun _ => hbegun, fun hrank => absurd hrank (by simp [Closing.rank]),
      fun hrank => absurd hrank (by simp [Closing.rank])⟩
  | journal hclosing hended =>
    have hbegun := h.begun (by simp [hclosing, Closing.rank])
    exact ⟨fun _ => hbegun, fun _ => hended, fun hrank => absurd hrank (by simp [Closing.rank])⟩
  | listener hclosing hended =>
    have hrank : 3 ≤ w.closing.rank := by simp [hclosing, Closing.rank]
    exact ⟨fun _ => h.begun (by omega), fun _ => h.journal hrank, fun _ => hended⟩
  | loops ids hclosing hended =>
    have hrank : 4 ≤ w.closing.rank := by simp [hclosing, Closing.rank]
    exact ⟨fun _ => h.begun (by omega), fun _ => h.journal (by omega), fun _ => h.listener hrank⟩

theorem Shuts.turn (h : w.Shuts) (t : Turn) : (w.turn t).Shuts := by
  rcases closing_cases w t with hsame | hadvances
  · exact h.stay (stays_turn w t) hsame
  · exact h.advance hadvances

theorem Shuts.after (h : w.Shuts) (turns : List Turn) : (w.after turns).Shuts := by
  induction turns with
  | nil => exact h
  | cons t earlier ih => exact ih.turn t

/-! ## Milestones -/

/-- There is a turn that brings the shutdown beyond a stage. -/
theorem exists_advance {turns : List Turn} {rank : Nat} (hlow : w.closing.rank ≤ rank)
    (hhigh : rank < (w.after turns).closing.rank) :
    ∃ later t earlier w', turns = later ++ t :: earlier ∧ w' = w.after earlier ∧
      w'.Advances t (w'.turn t) ∧ w'.closing.rank ≤ rank ∧ rank < (w'.turn t).closing.rank := by
  induction turns with
  | nil => exact absurd hhigh (by simpa [after] using hlow)
  | cons t earlier ih =>
    by_cases hbefore : rank < (w.after earlier).closing.rank
    · obtain ⟨later, t', earlier', w', rfl, hrest⟩ := ih hbefore
      exact ⟨t :: later, t', earlier', w', rfl, hrest⟩
    · have hlast := not_lt.mp hbefore
      refine ⟨[], t, earlier, _, rfl, rfl, ?_, hlast, hhigh⟩
      rcases closing_cases (w.after earlier) t with hsame | hadvances
      · rw [after, hsame] at hhigh
        exact absurd hhigh hbefore
      · exact hadvances

/-- The moment when the shutdown has canceled the scope. -/
theorem exists_canceling {turns : List Turn} (hopen : w.closing = .unasked)
    (hrank : 2 ≤ (w.after turns).closing.rank) :
    ∃ later earlier, turns = later ++ .await :: earlier ∧
      (w.after earlier).closing = .canceling := by
  have hlow : w.closing.rank ≤ 1 := by simp [hopen, Closing.rank]
  obtain ⟨later, t, earlier, w', rfl, rfl, hadvances, hbefore, hafter⟩ :=
    exists_advance hlow hrank
  refine ⟨later, earlier, ?_⟩
  generalize w.after earlier = w' at hadvances hbefore hafter
  generalize w'.turn t = w'' at hadvances hafter
  cases hadvances with
  | canceled hclosing => exact ⟨rfl, hclosing⟩
  | asked => exact absurd hafter (by simp [Closing.rank])
  | journal hclosing | listener hclosing =>
    exact absurd hbefore (by simp [hclosing, Closing.rank])
  | loops ids hclosing => exact absurd hbefore (by simp [hclosing, Closing.rank])

/-- The moment when it has removed all entries. -/
theorem exists_draining {turns : List Turn} (hopen : w.closing = .unasked)
    (hrank : 4 ≤ (w.after turns).closing.rank) :
    ∃ later earlier, turns = later ++ .await :: earlier ∧
      (w.after earlier).closing = .listener ∧
      (w.after earlier).listener.follower.isRunning = false := by
  have hlow : w.closing.rank ≤ 3 := by simp [hopen, Closing.rank]
  obtain ⟨later, t, earlier, w', rfl, rfl, hadvances, hbefore, hafter⟩ :=
    exists_advance hlow hrank
  refine ⟨later, earlier, ?_⟩
  generalize w.after earlier = w' at hadvances hbefore hafter
  generalize w'.turn t = w'' at hadvances hafter
  cases hadvances with
  | listener hclosing hended => exact ⟨rfl, hclosing, hended⟩
  | loops ids hclosing => exact absurd hbefore (by simp [hclosing, Closing.rank])
  | _ => exact absurd hafter (by simp [Closing.rank])

/-- A run in which the shutdown cancels the scope, and later removes all entries: the workshop
right before the one, and right before the other. -/
def Passes (w : Workshop) (turns : List Turn) (canceling draining : Workshop) : Prop :=
  ∃ rest between before, turns = rest ++ .await :: (between ++ .await :: before) ∧
    canceling = w.after before ∧ canceling.closing = .canceling ∧
    draining = w.after (between ++ .await :: before) ∧ draining.closing = .listener ∧
    draining.listener.follower.isRunning = false

theorem exists_passes {turns : List Turn} (hopen : w.closing = .unasked)
    (hrank : 4 ≤ (w.after turns).closing.rank) :
    ∃ canceling draining, w.Passes turns canceling draining := by
  obtain ⟨rest, earlier, rfl, hdraining, hended⟩ := exists_draining hopen hrank
  have hrank' : 2 ≤ (w.after earlier).closing.rank := by simp [hdraining, Closing.rank]
  obtain ⟨between, before, rfl, hcanceling⟩ := exists_canceling hopen hrank'
  exact ⟨_, _, rest, between, before, rfl, rfl, hcanceling, rfl, hdraining, hended⟩

/-- What has become of an agent since its scope was canceled. -/
structure Quiets (canceling w : Workshop) : Prop where
  scheduler : w.scheduler.isCanceled = true
  loops : w.scheduler.loops = []
  calls : w.pending.Subperm canceling.pending
  ticks : canceling.Dwindles w

theorem quiets_await (hclosing : w.closing = .canceling) : w.Quiets w.await := by
  rw [await_canceling hclosing]
  exact ⟨rfl, rfl, List.Subperm.refl _, .of_eq rfl rfl⟩

theorem Quiets.after {canceling : Workshop} (h : canceling.Quiets w) (turns : List Turn) :
    canceling.Quiets (w.after turns) := by
  have hstays := stays_after w turns
  exact ⟨hstays.scheduler h.scheduler, hstays.loops h.scheduler h.loops,
    (hstays.pending h.scheduler).trans h.calls, h.ticks.trans (hstays.dwindles h.scheduler h.loops)⟩

/-- The shutdown waits for the loops of some entries, or has done so. -/
structure Drained (ids : List TaskId) (w : Workshop) : Prop where
  scheduler : w.scheduler.isCanceled = true
  loops : w.scheduler.loops = []
  closing : w.closing = .loops ids ∨ w.closing = .done ids ∧ ∀ l ∈ w.awake, l.id ∉ ids

theorem Drained.turn {ids : List TaskId} (h : Drained ids w) (t : Turn) :
    Drained ids (w.turn t) := by
  have hstays := stays_turn w t
  refine ⟨hstays.scheduler h.scheduler, hstays.loops h.scheduler h.loops, ?_⟩
  rcases closing_cases w t with hsame | hadvances
  · rw [hsame]
    rcases h.closing with hloops | ⟨hover, hstrays⟩
    · exact .inl hloops
    · obtain ⟨made, hawake, -⟩ := hstays.dwindles h.scheduler h.loops
      refine .inr ⟨hover, fun l hl => hstrays l ?_⟩
      exact hawake.subset (List.mem_append_right made hl)
  · generalize w.turn t = w' at hadvances
    have hrank : 4 ≤ w.closing.rank := by
      rcases h.closing with hloops | ⟨hover, -⟩
      · simp [hloops, Closing.rank]
      · simp [hover, Closing.rank]
    cases hadvances with
    | loops ids' hclosing hended =>
      rcases h.closing with hloops | ⟨hover, -⟩
      · obtain rfl : ids' = ids := Closing.loops.inj (hclosing.symm.trans hloops)
        exact .inr ⟨rfl, fun l hl => hended l (List.mem_append_right _ hl)⟩
      · rw [hclosing] at hover
        cases hover
    | asked hclosing | canceled hclosing | journal hclosing | listener hclosing =>
      exact absurd hrank (by simp [hclosing, Closing.rank])

theorem Drained.after {ids : List TaskId} (h : Drained ids w) (turns : List Turn) :
    Drained ids (w.after turns) := by
  induction turns with
  | nil => exact h
  | cons t earlier ih => exact ih.turn t

/-! ## Results -/

/-- What holds at any time after the shutdown was over. -/
structure Rests (canceling draining closed w : Workshop) : Prop where
  /-- The entries are at most those of calls that were under way when the entries were removed,
  and these had looked at the scope before it was canceled. -/
  entries : (w.scheduler.entries ++ w.pending.map Call.entry).Subperm
    (draining.pending.map Call.entry)
  calls : draining.pending.Subperm canceling.pending
  /-- Every other call is refused. -/
  refuses : ∀ task name expression, w.ask task name expression = (.error .closed, w)
  /-- No loop waits for a tick. -/
  loops : w.scheduler.loops = []
  /-- The ticks that are made are those of loops that had woken before the scope was canceled, and
  make them only now because nobody waited for them: they had no entries any more. -/
  made : closed.Dwindles w
  strays : ∀ l ∈ closed.awake, ∀ entry ∈ draining.scheduler.entries, entry.1 ≠ l.id
  since : canceling.Dwindles w
  /-- Executions are those of ticks that had been cleared or executed their tasks before the scope
  was canceled. -/
  executes : ∀ (i : Nat) (e' : Errand), w.errands[i]? = some e' → e'.attempt.isExecuting = true →
    ∃ e, canceling.errands[i]? = some e ∧ e.id = e'.id ∧ e.task = e'.task ∧
      (e.attempt.isCleared = true ∨ e.attempt.isExecuting = true)
  /-- A tick that has not looked at the scope can come to its end, and is refused then. -/
  refused : ∀ (i : Nat) (e : Errand), w.errands[i]? = some e → e.attempt.isUnlooked = true →
    ∃ w' tick, w.Reaches w' ∧ w'.errands[i]? = some { e with attempt := .left (some tick) } ∧
      tick.IsRefused
  /-- Nothing has been logged. -/
  records : w.records = closed.records
  /-- The reconciler has the same credentials and follows the same locators. -/
  credentials : w.reconciler.credentials = closed.reconciler.credentials
  locators : w.reconciler.locators = closed.reconciler.locators

/-- Whatever is under way when the shutdown is asked for, and whatever comes after it is over:
nothing gets beyond a look at the scope any more, and no event has an effect. -/
theorem rests_after (w : Workshop) (hopen : w.closing = .unasked) (earlier : List Turn)
    (hover : (w.after earlier).closing.isOver = true) (later : List Turn) :
    ∃ canceling draining, w.Passes earlier canceling draining ∧
      Rests canceling draining (w.after earlier) (w.after (later ++ earlier)) := by
  have hrank : (w.after earlier).closing.rank = 5 := by
    cases hclosing : (w.after earlier).closing with
    | done ids => rfl
    | _ =>
      rw [hclosing] at hover
      cases hover
  have hshuts := (shuts_unasked hopen).after earlier
  have hpassed : 4 ≤ (w.after earlier).closing.rank := by omega
  obtain ⟨canceling, draining, hpasses⟩ := exists_passes hopen hpassed
  refine ⟨canceling, draining, hpasses, ?_⟩
  obtain ⟨rest, between, before, hturns, hbefore, hcanceling, hbetween, hdraining, hended⟩ :=
    hpasses
  -- The cancellation, the removal of the entries, and the end, one after the other.
  have hdrain : draining = canceling.await.after between := by
    rw [hbetween, after_append, hbefore]
    rfl
  have hclosed : w.after earlier = draining.await.after rest := by
    rw [hturns, after_append, hbetween]
    rfl
  rw [after_append]
  generalize w.after earlier = closed at hrank hshuts hclosed
  have hquiet : canceling.Quiets draining := hdrain ▸ (quiets_await hcanceling).after between
  have hdrained : canceling.Quiets draining.await := hquiet.after [.await]
  have hquiets : canceling.Quiets closed := hclosed ▸ hdrained.after rest
  have hlater := hquiets.after later
  have hdrained' : Drained (draining.scheduler.entries.map Prod.fst) draining.await ∧
      draining.await.scheduler.entries = [] ∧ draining.await.pending = draining.pending := by
    rw [await_listener hdraining hended]
    exact ⟨⟨rfl, rfl, .inl rfl⟩, rfl, rfl⟩
  obtain ⟨hwaits, hempty, hpending⟩ := hdrained'
  have hstrays : Drained (draining.scheduler.entries.map Prod.fst) closed :=
    hclosed ▸ hwaits.after rest
  have hentries := ((stays_after draining.await rest).trans (stays_after _ later)).entries
    hwaits.scheduler
  rw [hempty, hpending, ← hclosed, List.nil_append] at hentries
  have hstays := stays_after closed later
  have hbegun := hshuts.begun (by omega)
  have hjournal := hstays.journal hbegun (hshuts.journal (by omega))
  have hlistener := hstays.listener hbegun (hshuts.listener (by omega))
  exact {
    entries := hentries
    calls := hquiet.calls
    refuses := ask_canceled hlater.scheduler
    loops := hlater.loops
    made := hstays.dwindles hquiets.scheduler hquiets.loops
    strays := fun l hl entry hentry heq => by
      rcases hstrays.closing with hloops | ⟨-, hnone⟩
      · rw [hloops] at hrank
        cases hrank
      · exact hnone l hl (heq ▸ List.mem_map_of_mem hentry)
    since := hlater.ticks
    executes := fun _ _ => hlater.ticks.executes
    refused := fun _ _ => reaches_refused hlater.scheduler
    records := hjournal.2
    credentials := hlistener.2.1
    locators := hlistener.2.2 }

/-- The loop of the registration as it waits for a tick. -/
def registering (due : Nat) : TickLoop :=
  ⟨⟨1⟩, 0, .every ⟨5000000000⟩, due⟩

/-- A site where the registration is ready. -/
def newcomer : Site where
  files := .empty
  network := .bare true
  store := .ofConfig { Config.empty with
    settings := { Settings.empty with groundControlUrl := "http://gc.local", token := "t0" } }
  broker := .new Broker.defaultCapacity

/-- An agent that has started. A tick of the registration has found the scope open, the loop has
woken for the next one, and then the task has been unscheduled; a call that schedules it once more
has looked at the scope. -/
def underWay : Workshop :=
  (vacant newcomer (.ofUnix 0 0)).after
    ([.ask 0 "late" "@every 00h00m05s", .unschedule ⟨1⟩, .wake (registering 10000), .pass 5000,
      .step 0 (.look false), .step 0 (.check none), .step 0 .begin, .tick (registering 5000),
      .wake (registering 5000), .pass 5000] ++ List.replicate 10 .start)

/-- The shutdown of it, the latest turn first. -/
def windDown : List Turn :=
  [.await, .leave ⟨⟨3⟩, 2, .every ⟨10000000000⟩, 10000⟩,
    .leave ⟨⟨2⟩, 1, .every ⟨30000000000⟩, 30000⟩, .await, .listener, .await, .journal, .await,
    .close]

/-- What comes after it: the first tick executes its task, which finds the scope canceled, the call
enters its task, and the loop makes its tick. -/
def leftovers : List Turn :=
  [.tick (registering 10000), .enter 0, .step 0 .drop, .step 0 .release,
    .step 0 (.finish (Registration.execute newcomer (some ⟨4⟩) true).1), .step 0 .start]

/-- This shutdown, and what comes after it. -/
theorem rests_after_windDown :
    underWay.closing = .unasked ∧ (underWay.after windDown).closing.isOver = true ∧
      ∃ canceling draining, underWay.Passes windDown canceling draining ∧
        Rests canceling draining (underWay.after windDown)
          (underWay.after (leftovers ++ windDown)) := by
  have hopen : underWay.closing = .unasked := by decide +kernel
  have hover : (underWay.after windDown).closing.isOver = true := by decide +kernel
  exact ⟨hopen, hover, rests_after underWay hopen windDown hover leftovers⟩

/-- When the shutdown is over, an execution may still begin, and there may be an entry and a tick
to come. -/
theorem goes_on_after_windDown :
    underWay.starting = .done ∧ underWay.closing = .unasked ∧
      Registration.obstacle? underWay.site.store = none ∧
      (underWay.after windDown).closing.isOver = true ∧
      (underWay.after windDown).scheduler.entries = [] ∧
      (underWay.after windDown).executes 0 = false ∧
      (underWay.after (.step 0 .start :: windDown)).executes 0 = true ∧
      (underWay.after (leftovers ++ windDown)).scheduler.entries = [(⟨4⟩, "late")] ∧
      (underWay.after (leftovers ++ windDown)).errands =
        [⟨⟨1⟩, 0, .left (some (.failed .canceled))⟩, ⟨⟨1⟩, 0, .called⟩] := by
  decide +kernel

/-! ## The Shutdown Can Be Completed -/

/-- Whatever is under way when the shutdown of an agent is asked for, some turns complete it: it
waits for nobody who waits for it. -/
theorem over_of_unasked (hstarting : w.starting = .done) (hopen : w.closing = .unasked) :
    ∃ w', w.Reaches w' ∧ w'.closing.isOver = true := by
  obtain ⟨scheduler, errands, hasleep⟩ := reaches_asleep w
  generalize hw : ({ w with scheduler, errands, awake := [] } : Workshop) = asleep at hasleep
  have hnone : asleep.awake = [] := by rw [← hw]
  have hclose : asleep.close = { asleep with closing := .canceling } := by
    subst hw
    exact if_pos ⟨hstarting, hopen⟩
  have hasked := Reaches.turn asleep .close
  rw [turn, hclose] at hasked
  have hcancel := Reaches.turn { asleep with closing := .canceling } .await
  rw [turn, await_canceling rfl] at hcancel
  obtain ⟨logged, journal, b, hwatches, hjournal⟩ :=
    Patrol.watches_end asleep.journal asleep.site.broker
  obtain ⟨followed, listener, c, hwatches', hlistener⟩ := Patrol.watches_end asleep.listener b
  have hlog := reaches_log hwatches (w := { asleep.cancel with closing := .journal }) rfl rfl rfl
  have hfollow := reaches_follow hwatches'
    (w := ({ asleep.cancel with closing := .journal } : Workshop).log logged journal b) rfl rfl rfl
  have hover := reaches_over
    (w := (({ asleep.cancel with closing := .journal } : Workshop).log logged journal b).follow
      followed listener c) rfl hjournal hlistener hnone
  exact ⟨_, hasleep.trans (hasked.trans (hcancel.trans (hlog.trans (hfollow.trans hover)))), rfl⟩

end Workshop

end EdgeSync
