import EdgeSync.Proofs.Agent.Workshop
import EdgeSync.Proofs.Task.Numbers
import EdgeSync.Proofs.Pass.Progress
import Mathlib.Data.List.Perm.Subperm

/-!
# What Goes on in a Canceled Scope

When the scope of an agent has been canceled, what is under way only becomes less. A loop that has
found that it is time for its tick still makes it, but no loop finds this any more. A tick that has
not looked at the scope yet is refused; one that has may still execute its task. A call that has
looked at the scope still enters its task, but no other call gets so far. Followers end, and those
that have ended do nothing.

## Main definitions

- `Attempt.Ends`: what can become of a tick in a canceled scope
- `Workshop.Dwindles`: what can become of the ticks and of the loops that make them
- `Workshop.Stays`: what every turn keeps

## Main results

- `Workshop.stays_turn`, `Workshop.stays_after`: every turn, and any turns
-/

namespace EdgeSync

/-! ## Ticks in a Canceled Scope -/

/-- A tick that did not come to an execution. -/
def Tick.IsRefused (tick : Tick) : Prop :=
  tick = .failed .canceled ∨ ∃ reason, tick = .skipped reason

theorem Refusal.isRefused (r : Refusal) : r.tick.IsRefused := by
  cases r with
  | busy phase => exact .inr ⟨_, rfl⟩
  | notReady reason => exact .inr ⟨_, rfl⟩
  | canceled => exact .inl rfl

namespace Attempt

/-- An attempt that has not looked at the scope yet. -/
def isUnlooked : Attempt → Bool
  | called | begun _ | ready _ => true
  | _ => false

/-- An attempt that has found the scope open, and does not execute the task yet. -/
def isCleared : Attempt → Bool
  | cleared _ => true
  | _ => false

/-- An attempt that ends, or has ended, as a refused tick does. -/
def IsRefused : Attempt → Prop
  | leaving _ (some tick) | left (some tick) => tick.IsRefused
  | _ => False

/-- What can become of an attempt in a canceled scope. -/
structure Ends (a a' : Attempt) : Prop where
  /-- If it has not looked at the scope, it is refused. -/
  unlooked : a.isUnlooked = true → a'.isUnlooked = true ∨ a'.IsRefused
  /-- Only if it has been cleared, it executes the task. -/
  cleared : a'.isCleared = true → a.isCleared = true
  executes : a'.isExecuting = true → a.isCleared = true ∨ a.isExecuting = true
  /-- If it has been refused or has ended, this stays so. -/
  refused : a.IsRefused → a'.IsRefused
  left : ∀ tick, a = .left tick → a' = .left tick

variable {a b c : Attempt}

theorem Ends.refl (a : Attempt) : a.Ends a :=
  ⟨.inl, id, .inr, id, fun _ h => h⟩

theorem Ends.trans (h : a.Ends b) (h' : b.Ends c) : a.Ends c where
  unlooked hunlooked := by
    rcases h.unlooked hunlooked with hstill | hrefused
    · exact h'.unlooked hstill
    · exact .inr (h'.refused hrefused)
  cleared hcleared := h.cleared (h'.cleared hcleared)
  executes hexecutes := by
    rcases h'.executes hexecutes with hcleared | hexecutes'
    · exact .inl (h.cleared hcleared)
    · exact h.executes hexecutes'
  refused hrefused := h'.refused (h.refused hrefused)
  left tick heq := h'.left tick (h.left tick heq)

/-- One step in a canceled scope. -/
theorem ends_step {h h' : TaskHandle} {move : Move} (hfits : move.Fits true a)
    (hstep : a.step h move = some (h', b)) : a.Ends b := by
  cases a with
  | called =>
    cases move with
    | begin =>
      unfold step at hstep
      cases hbegin : h.begin with
      | ok running =>
        rw [hbegin] at hstep
        cases hstep
        exact ⟨fun _ => .inl rfl, nofun, nofun, nofun, nofun⟩
      | error phase =>
        rw [hbegin] at hstep
        cases hstep
        exact ⟨fun _ => .inr (Refusal.isRefused _), nofun, nofun, nofun, nofun⟩
    | abandon => cases hfits
    | _ => cases hstep
  | begun g =>
    cases move with
    | check obstacle =>
      cases obstacle with
      | none =>
        cases hstep
        exact ⟨fun _ => .inl rfl, nofun, nofun, nofun, nofun⟩
      | some reason =>
        cases hstep
        exact ⟨fun _ => .inr (Refusal.isRefused _), nofun, nofun, nofun, nofun⟩
    | _ => cases hstep
  | ready g =>
    cases move with
    | look answer =>
      -- The scope is canceled, so this is what the look shows.
      obtain rfl : answer = true := hfits
      cases hstep
      exact ⟨fun _ => .inr (Refusal.isRefused _), nofun, nofun, nofun, nofun⟩
    | _ => cases hstep
  | cleared g =>
    cases move with
    | start =>
      cases hstep
      exact ⟨nofun, nofun, fun _ => .inl rfl, nofun, nofun⟩
    | _ => cases hstep
  | executing g =>
    cases move with
    | finish outcome =>
      cases hstep
      exact ⟨nofun, nofun, nofun, nofun, nofun⟩
    | abandon =>
      cases hstep
      exact ⟨nofun, nofun, nofun, nofun, nofun⟩
    | _ => cases hstep
  | executed g outcome =>
    cases move with
    | release =>
      cases hstep
      exact ⟨nofun, nofun, nofun, nofun, nofun⟩
    | _ => cases hstep
  | leaving g tick =>
    cases move with
    | drop =>
      cases hstep
      cases tick with
      | none => exact ⟨nofun, nofun, nofun, nofun, nofun⟩
      | some tick => exact ⟨nofun, nofun, nofun, id, nofun⟩
    | _ => cases hstep
  | left tick => cases move <;> cases hstep

end Attempt

/-- What can become of an errand in a canceled scope. -/
structure Errand.Ends (e e' : Errand) : Prop where
  id : e'.id = e.id
  task : e'.task = e.task
  attempt : e.attempt.Ends e'.attempt

theorem Errand.Ends.refl (e : Errand) : e.Ends e := ⟨rfl, rfl, .refl _⟩

theorem Errand.Ends.trans {e e' e'' : Errand} (h : e.Ends e') (h' : e'.Ends e'') : e.Ends e'' :=
  ⟨h'.id.trans h.id, h'.task.trans h.task, h.attempt.trans h'.attempt⟩

namespace Workshop

/-- Errands only end, and the loops that were awake make their ticks, each of them once at most. -/
def Dwindles (w w' : Workshop) : Prop :=
  ∃ made : List TickLoop, (made ++ w'.awake).Subperm w.awake ∧
    List.Forall₂ Errand.Ends (w.errands ++ made.map TickLoop.errand) w'.errands

theorem forall₂_ends_refl (errands : List Errand) : List.Forall₂ Errand.Ends errands errands :=
  List.forall₂_same.mpr fun e _ => .refl e

theorem forall₂_ends_trans {errands errands' errands'' : List Errand}
    (h : List.Forall₂ Errand.Ends errands errands')
    (h' : List.Forall₂ Errand.Ends errands' errands'') :
    List.Forall₂ Errand.Ends errands errands'' := by
  induction h generalizing errands'' with
  | nil => exact h'
  | cons hfirst _ ih =>
    cases h' with
    | cons hfirst' hrest' => exact .cons (hfirst.trans hfirst') (ih hrest')

/-- One errand goes on. -/
theorem forall₂_ends_set {errands : List Errand} {i : Nat} {e e' : Errand}
    (hat : errands[i]? = some e) (hends : e.Ends e') :
    List.Forall₂ Errand.Ends errands (errands.set i e') := by
  induction errands generalizing i with
  | nil => cases hat
  | cons first errands ih =>
    cases i with
    | zero =>
      cases hat
      exact .cons hends (forall₂_ends_refl _)
    | succ i => exact .cons (.refl first) (ih hat)

theorem Dwindles.of_eq {w w' : Workshop} (hawake : w'.awake = w.awake)
    (herrands : w'.errands = w.errands) : w.Dwindles w' := by
  refine ⟨[], ?_, ?_⟩
  · rw [hawake, List.nil_append]
  · rw [herrands, List.map_nil, List.append_nil]
    exact forall₂_ends_refl _

theorem Dwindles.refl (w : Workshop) : w.Dwindles w := .of_eq rfl rfl

theorem Dwindles.trans {w w' w'' : Workshop} (h : w.Dwindles w') (h' : w'.Dwindles w'') :
    w.Dwindles w'' := by
  obtain ⟨made, hawake, hends⟩ := h
  obtain ⟨made', hawake', hends'⟩ := h'
  refine ⟨made ++ made', ?_, ?_⟩
  · rw [List.append_assoc]
    exact ((List.subperm_append_left made).mpr hawake').trans hawake
  · rw [List.map_append, ← List.append_assoc]
    have hboth := List.rel_append hends (forall₂_ends_refl (made'.map TickLoop.errand))
    exact forall₂_ends_trans hboth hends'

/-- An execution in a canceled scope is one of a tick that was cleared before, or had begun. -/
theorem Dwindles.executes {w w' : Workshop} (h : w.Dwindles w') {i : Nat} {e' : Errand}
    (hat : w'.errands[i]? = some e') (hexecuting : e'.attempt.isExecuting = true) :
    ∃ e, w.errands[i]? = some e ∧ e.id = e'.id ∧ e.task = e'.task ∧
      (e.attempt.isCleared = true ∨ e.attempt.isExecuting = true) := by
  obtain ⟨made, -, hends⟩ := h
  obtain ⟨hlength, hall⟩ := List.forall₂_iff_get.mp hends
  obtain ⟨hlt', rfl⟩ := List.getElem?_eq_some_iff.mp hat
  have hlt : i < (w.errands ++ made.map TickLoop.errand).length := by rwa [hlength]
  have hboth : ((w.errands ++ made.map TickLoop.errand)[i]).Ends w'.errands[i] := hall i hlt hlt'
  have hbefore := hboth.attempt.executes hexecuting
  by_cases hold : i < w.errands.length
  · rw [List.getElem_append_left hold] at hboth hbefore
    exact ⟨_, List.getElem?_eq_getElem hold, hboth.id.symm, hboth.task.symm, hbefore⟩
  · -- A tick that was made since has only been called.
    rw [List.getElem_append_right (not_lt.mp hold), List.getElem_map] at hbefore
    rcases hbefore with hcleared | hexecuting
    · cases hcleared
    · cases hexecuting

end Workshop

/-! ## What Every Turn Keeps -/

/-- The followers of the agent have begun. -/
def Starting.isBegun : Starting → Bool
  | journal _ | listener _ | stops _ => false
  | _ => true

namespace Workshop

/-- What every turn keeps: what is canceled stays so; a canceled scheduler gets no loops, and
entries only by the calls that are under way; and followers that have ended do nothing. -/
structure Stays (w w' : Workshop) : Prop where
  begun : w.starting.isBegun = true → w'.starting.isBegun = true
  scope : w.isCanceled = true → w'.isCanceled = true
  scheduler : w.scheduler.isCanceled = true → w'.scheduler.isCanceled = true
  loops : w.scheduler.isCanceled = true → w.scheduler.loops = [] → w'.scheduler.loops = []
  pending : w.scheduler.isCanceled = true → w'.pending.Subperm w.pending
  entries : w.scheduler.isCanceled = true →
    (w'.scheduler.entries ++ w'.pending.map Call.entry).Subperm
      (w.scheduler.entries ++ w.pending.map Call.entry)
  journal : w.starting.isBegun = true → w.journal.follower.isRunning = false →
    w'.journal.follower.isRunning = false ∧ w'.records = w.records
  listener : w.starting.isBegun = true → w.listener.follower.isRunning = false →
    w'.listener.follower.isRunning = false ∧
      w'.reconciler.credentials = w.reconciler.credentials ∧
      w'.reconciler.locators = w.reconciler.locators
  dwindles : w.scheduler.isCanceled = true → w.scheduler.loops = [] → w.Dwindles w'

theorem Stays.refl (w : Workshop) : w.Stays w where
  begun := id
  scope := id
  scheduler := id
  loops _ h := h
  pending _ := List.Subperm.refl _
  entries _ := List.Subperm.refl _
  journal _ h := ⟨h, rfl⟩
  listener _ h := ⟨h, rfl, rfl⟩
  dwindles _ _ := .refl w

theorem Stays.trans {w w' w'' : Workshop} (h : w.Stays w') (h' : w'.Stays w'') :
    w.Stays w'' where
  begun hb := h'.begun (h.begun hb)
  scope hc := h'.scope (h.scope hc)
  scheduler hc := h'.scheduler (h.scheduler hc)
  loops hc hl := h'.loops (h.scheduler hc) (h.loops hc hl)
  pending hc := (h'.pending (h.scheduler hc)).trans (h.pending hc)
  entries hc := (h'.entries (h.scheduler hc)).trans (h.entries hc)
  journal hb he := by
    obtain ⟨hended, hrecords⟩ := h.journal hb he
    obtain ⟨hended', hrecords'⟩ := h'.journal (h.begun hb) hended
    exact ⟨hended', hrecords'.trans hrecords⟩
  listener hb he := by
    obtain ⟨hended, hcredentials, hlocators⟩ := h.listener hb he
    obtain ⟨hended', hcredentials', hlocators'⟩ := h'.listener (h.begun hb) hended
    exact ⟨hended', hcredentials'.trans hcredentials, hlocators'.trans hlocators⟩
  dwindles hc hl := (h.dwindles hc hl).trans (h'.dwindles (h.scheduler hc) (h.loops hc hl))

variable {w : Workshop}

/-- What a turn has to leave as it is to keep all of this. -/
def concerns (w : Workshop) : Starting × List Call × Bool × Scheduler × Patrol ×
    List LogRecord × Patrol × Reconciler × List TickLoop × List Errand :=
  (w.starting, w.calls, w.isCanceled, w.scheduler, w.journal, w.records, w.listener,
    w.reconciler, w.awake, w.errands)

/-- A workshop of which only other things have changed. -/
theorem Stays.of_concerns {w' : Workshop} (h : w'.concerns = w.concerns) : w.Stays w' := by
  simp only [concerns, Prod.mk.injEq] at h
  obtain ⟨hstarting, hcalls, hscope, hscheduler, hjournal, hrecords, hlistener, hreconciler,
    hawake, herrands⟩ := h
  have hpending : w'.pending = w.pending := by
    rw [Workshop.pending, Workshop.pending, hcalls, hstarting]
  constructor
  · rw [hstarting]
    exact id
  · rw [hscope]
    exact id
  · rw [hscheduler]
    exact id
  · rw [hscheduler]
    exact fun _ h => h
  · rw [hpending]
    exact fun _ => List.Subperm.refl _
  · rw [hscheduler, hpending]
    exact fun _ => List.Subperm.refl _
  · rw [hjournal, hrecords]
    exact fun _ h => ⟨h, rfl⟩
  · rw [hlistener, hreconciler]
    exact fun _ h => ⟨h, rfl, rfl⟩
  · exact fun _ _ => .of_eq hawake herrands

/-! ## Schedulers -/

/-- A scheduler that has at most some of its loops and entries. -/
theorem stays_dismiss {s : Scheduler}
    (hscope : w.scheduler.isCanceled = true → s.isCanceled = true)
    (hloops : w.scheduler.loops = [] → s.loops = [])
    (hentries : s.entries.Sublist w.scheduler.entries) : w.Stays (w.dismiss s) where
  begun := id
  scope := id
  scheduler := hscope
  loops _ h := hloops h
  pending _ := List.Subperm.refl _
  entries _ := (hentries.append_right _).subperm
  journal _ h := ⟨h, rfl⟩
  listener _ h := ⟨h, rfl, rfl⟩
  dwindles _ _ := .of_eq rfl rfl

/-- Removing a task leaves no loops where there were none. -/
theorem stays_unschedule (w : Workshop) (id : TaskId) : w.Stays (w.unschedule id) := by
  apply stays_dismiss
  · intro hc
    exact (w.scheduler.unschedule_frame id).2.trans hc
  · intro hl
    refine List.eq_nil_iff_forall_not_mem.mpr fun l hmem => ?_
    have hold := Scheduler.mem_loops_of_unschedule hmem
    rw [hl] at hold
    cases hold
  · rw [Scheduler.unschedule_entries]
    exact List.filter_sublist

/-- An event asks for one task to be removed, or for nothing. -/
theorem stays_heed (w : Workshop) (e : Event) : w.Stays (w.dismiss (w.scheduler.heed [e])) := by
  by_cases hstop : ∃ request, e.payload = .stop request
  · obtain ⟨request, hstop⟩ := hstop
    rw [Roster.heed_stop _ hstop]
    exact stays_unschedule w request.id
  · rw [Roster.heed_other _ fun request heq => hstop ⟨request, heq⟩]
    exact stays_dismiss id id (List.Sublist.refl _)

/-! ## Followers -/

theorem stays_runJournal (w : Workshop) : w.Stays w.runJournal := by
  refine ⟨id, id, id, fun _ h => h, fun _ => List.Subperm.refl _, fun _ => List.Subperm.refl _,
    fun _ hended => ?_, fun _ h => ⟨h, rfl, rfl⟩, fun _ _ => .of_eq rfl rfl⟩
  rw [runJournal, Patrol.poll_ended hended]
  exact ⟨hended, List.append_nil _⟩

theorem stays_runListener (w : Workshop) : w.Stays w.runListener := by
  refine ⟨id, id, id, fun _ h => h, fun _ => List.Subperm.refl _, fun _ => List.Subperm.refl _,
    fun _ h => ⟨h, rfl⟩, fun _ hended => ?_, fun _ _ => .of_eq rfl rfl⟩
  rw [runListener, Patrol.poll_ended hended]
  exact ⟨hended, rfl, rfl⟩

theorem stays_endStops (w : Workshop) : w.Stays w.endStops :=
  .of_concerns rfl

theorem stays_runStops (w : Workshop) (eventFirst : Bool) : w.Stays (w.runStops eventFirst) := by
  unfold runStops
  split
  · split
    · exact stays_endStops w
    · rcases w.stopListener.look w.site.broker with ⟨found, stopListener, broker⟩
      dsimp only
      have hlook : w.Stays { w.putBroker broker with stopListener } := .of_concerns rfl
      cases found with
      | none =>
        dsimp only
        split
        · exact hlook.trans (stays_endStops _)
        · exact hlook
      | some d =>
        dsimp only
        split
        · exact hlook.trans (stays_endStops _)
        · exact hlook.trans (stays_heed _ d.event)
  · exact .refl w

/-! ## Loops and Errands -/

theorem stays_wake (w : Workshop) (l : TickLoop) : w.Stays (w.wake l) := by
  rw [wake]
  split
  · next hdue =>
    -- A loop that wakes is not one of none.
    have hsome : w.scheduler.loops ≠ [] := by
      intro hnone
      have hmem := hdue.1
      rw [Scheduler.due, hnone] at hmem
      cases hmem
    exact ⟨id, id, id, fun _ h => h, fun _ => List.Subperm.refl _, fun _ => List.Subperm.refl _,
      fun _ h => ⟨h, rfl⟩, fun _ h => ⟨h, rfl, rfl⟩, fun _ h => absurd h hsome⟩
  · exact .refl w

theorem stays_tick (w : Workshop) (l : TickLoop) : w.Stays (w.tick l) := by
  rw [tick]
  split
  · next hawake =>
    refine ⟨id, id, id, fun _ h => ?_, fun _ => List.Subperm.refl _, fun _ => List.Subperm.refl _,
      fun _ h => ⟨h, rfl⟩, fun _ h => ⟨h, rfl, rfl⟩, fun _ _ => ⟨[l], ?_, ?_⟩⟩
    · rw [Scheduler.rearm, h]
      rfl
    · exact (List.perm_cons_erase hawake).symm.subperm
    · exact forall₂_ends_refl _
  · exact .refl w

theorem stays_leave (w : Workshop) (l : TickLoop) : w.Stays (w.leave l) := by
  rw [leave]
  split
  · exact .refl w
  · exact .of_concerns rfl

theorem stays_step (w : Workshop) (i : Nat) (move : Move) : w.Stays (w.step i move) := by
  unfold step
  split
  · exact .refl w
  · next e hat =>
    split
    · next hfits =>
      split
      · exact .refl w
      · next handle attempt hstep =>
        refine ⟨id, id, id, fun _ h => h, fun _ => List.Subperm.refl _,
          fun _ => List.Subperm.refl _, fun _ h => ⟨h, rfl⟩, fun _ h => ⟨h, rfl, rfl⟩,
          fun hcanceled _ => ⟨[], List.Subperm.refl _, ?_⟩⟩
        rw [hcanceled] at hfits
        rw [List.map_nil, List.append_nil]
        exact forall₂_ends_set hat ⟨rfl, rfl, Attempt.ends_step hfits hstep⟩
    · exact .refl w

theorem stays_doWork (w : Workshop) (deed : Work) : w.Stays (w.doWork deed) := by
  cases deed with
  | commit locator snapshot =>
    exact ⟨id, id, id, fun _ h => h, fun _ => List.Subperm.refl _, fun _ => List.Subperm.refl _,
      fun _ h => ⟨h, rfl⟩, fun _ h => ⟨h, rfl, Reconciler.locators_commit _ _ _⟩,
      fun _ _ => .of_eq rfl rfl⟩
  | publish _ | keep _ | write _ | request _ => exact .of_concerns rfl

theorem stays_work (w : Workshop) (i : Nat) (deed : Work) : w.Stays (w.work i deed) := by
  unfold work
  split
  · exact stays_doWork w deed
  · exact .refl w

theorem stays_retire (w : Workshop) (i : Nat) : w.Stays (w.retire i) := by
  unfold retire
  split
  · exact .refl w
  · split
    · exact stays_unschedule w _
    · exact .refl w

/-! ## Calls -/

/-- A canceled scheduler refuses every call. -/
theorem ask_canceled (hcanceled : w.scheduler.isCanceled = true) (task : Nat)
    (name expression : String) : w.ask task name expression = (.error .closed, w) := by
  rw [ask, if_pos hcanceled]

/-- A call that gets a number, or none. -/
theorem ask_cases (w : Workshop) (task : Nat) (name expression : String) :
    (∃ fault, w.ask task name expression = (.error fault, w)) ∨
      w.scheduler.isCanceled = false ∧ ∃ schedule, Schedule.parse expression = .ok schedule ∧
        w.ask task name expression =
          (.ok ⟨⟨UInt64.ofNat (w.scheduler.issued + 1)⟩, task, name, schedule⟩,
            { w.putHandle task
                ((w.handles task).setId ⟨UInt64.ofNat (w.scheduler.issued + 1)⟩) with
              scheduler := { w.scheduler with issued := w.scheduler.issued + 1 } }) := by
  unfold ask
  cases w.scheduler.isCanceled with
  | true => exact .inl ⟨_, rfl⟩
  | false =>
    cases Schedule.parse expression with
    | error fault => exact .inl ⟨_, rfl⟩
    | ok schedule => exact .inr ⟨rfl, schedule, rfl, rfl⟩

/-- A call under way enters its task, and is under way no longer. -/
theorem stays_enter {w' : Workshop} {c : Call} (hbegun : w.starting.isBegun = true →
      w'.starting.isBegun = true)
    (hrest : w' = { w.enter c with calls := w'.calls, starting := w'.starting })
    (hpending : (c :: w'.pending).Perm w.pending) : w.Stays w' := by
  have hcanceled (h : w.scheduler.isCanceled = true) : w.enter c =
      { w with
        scheduler := { w.scheduler with entries := w.scheduler.entries ++ [c.entry] }
        stopping := w.stopping ++ Scheduler.loopFrom w.clock c.id c.task c.schedule } := by
    rw [enter, if_pos h]
  have hframe : w.enter c =
      { w with scheduler := (w.enter c).scheduler, stopping := (w.enter c).stopping } := by
    unfold enter
    split <;> rfl
  rw [hframe] at hrest
  refine ⟨hbegun, ?_, ?_, ?_, ?_, ?_, ?_, ?_, ?_⟩
  · rw [hrest]
    exact id
  · intro h
    rw [hrest, hcanceled h]
    exact h
  · intro h hloops
    rw [hrest, hcanceled h]
    exact hloops
  · intro _
    exact (List.sublist_cons_self c _).subperm.trans hpending.subperm
  · intro h
    have hentries : w'.scheduler.entries = w.scheduler.entries ++ [c.entry] := by
      rw [hrest, hcanceled h]
    rw [hentries, List.append_assoc]
    exact ((hpending.map Call.entry).append_left _).subperm
  · intro _ hended
    rw [hrest]
    exact ⟨hended, rfl⟩
  · intro _ hended
    rw [hrest]
    exact ⟨hended, rfl, rfl⟩
  · intro _ _
    exact .of_eq (by rw [hrest]) (by rw [hrest])

theorem stays_ask (w : Workshop) (task : Nat) (name expression : String) :
    w.Stays (w.turn (.ask task name expression)) := by
  rw [turn]
  split
  · rcases w.ask_cases task name expression with ⟨fault, hask⟩ | ⟨hopen, schedule, -, hask⟩
    · rw [hask]
      exact .refl w
    · rw [hask]
      have hopen : w.scheduler.isCanceled ≠ true := by simp [hopen]
      exact ⟨id, id, fun h => absurd h hopen, fun h => absurd h hopen, fun h => absurd h hopen,
        fun h => absurd h hopen, fun _ h => ⟨h, rfl⟩, fun _ h => ⟨h, rfl, rfl⟩,
        fun h => absurd h hopen⟩
  · exact .refl w

theorem stays_enter_turn (w : Workshop) (k : Nat) : w.Stays (w.turn (.enter k)) := by
  rw [turn]
  split
  · exact .refl w
  · next c hat =>
    obtain ⟨hlt, rfl⟩ := List.getElem?_eq_some_iff.mp hat
    have hframe := (w.stages_enter w.calls[k]).1
    refine stays_enter ?_ rfl ?_
    · show _ → (w.enter w.calls[k]).starting.isBegun = true
      rw [hframe]
      exact id
    · have hperm := List.getElem_cons_eraseIdx_perm hlt
      simp only [pending, hframe]
      exact hperm.append_right _

/-! ## Those Who Cancel -/

theorem stays_reach (w : Workshop) (scope : Scope) : w.Stays (w.reach scope) := by
  cases scope with
  | agent =>
    exact ⟨id, fun _ => rfl, id, fun _ h => h, fun _ => List.Subperm.refl _,
      fun _ => List.Subperm.refl _, fun _ h => ⟨h, rfl⟩, fun _ h => ⟨h, rfl, rfl⟩,
      fun _ _ => .of_eq rfl rfl⟩
  | scheduler =>
    exact ⟨id, id, fun _ => rfl, fun _ h => h, fun _ => List.Subperm.refl _,
      fun _ => List.Subperm.refl _, fun _ h => ⟨h, rfl⟩, fun _ h => ⟨h, rfl, rfl⟩,
      fun _ _ => .of_eq rfl rfl⟩
  | loop l =>
    refine stays_dismiss id (fun h => ?_) (List.Sublist.refl _)
    rw [h]
    rfl

theorem stays_cancel (w : Workshop) : w.Stays w.cancel := by
  have hdismiss : w.Stays (w.dismiss w.scheduler.cancel) :=
    stays_dismiss (fun _ => rfl) (fun _ => rfl) (List.Sublist.refl _)
  exact hdismiss.trans (stays_reach _ .agent)

theorem stays_drain (w : Workshop) : w.Stays w.drain := by
  unfold drain
  split
  · exact ⟨id, id, id, fun _ h => h, fun _ => List.Subperm.refl _,
      fun _ => (List.sublist_append_right _ _).subperm, fun _ h => ⟨h, rfl⟩,
      fun _ h => ⟨h, rfl, rfl⟩, fun _ _ => .of_eq rfl rfl⟩
  · exact .refl w

/-- The start or the shutdown goes on, in the middle of no call. -/
theorem stays_goOn {starting : Starting} {closing : Closing}
    (hbegun : w.starting.isBegun = true → starting.isBegun = true)
    (hcall : w.starting.call? = starting.call?) : w.Stays { w with starting, closing } := by
  have hpending : ({ w with starting, closing } : Workshop).pending = w.pending := by
    rw [pending, pending, hcall]
  refine ⟨hbegun, id, id, fun _ h => h, fun _ => ?_, fun _ => ?_, fun _ h => ⟨h, rfl⟩,
    fun _ h => ⟨h, rfl, rfl⟩, fun _ _ => .of_eq rfl rfl⟩
  · rw [hpending]
  · rw [hpending]

/-! ## Start and Shutdown -/

/-- A follower of an agent begins. -/
theorem stays_begin {w' : Workshop} (hstarting : w.starting.isBegun = false)
    (hcall : w'.pending = w.pending) (hscope : w'.isCanceled = w.isCanceled)
    (hscheduler : w'.scheduler = w.scheduler) (hawake : w'.awake = w.awake)
    (herrands : w'.errands = w.errands) : w.Stays w' := by
  have hbegun : w.starting.isBegun ≠ true := by simp [hstarting]
  refine ⟨fun h => absurd h hbegun, ?_, ?_, ?_, ?_, ?_, fun h => absurd h hbegun,
    fun h => absurd h hbegun, fun _ _ => .of_eq hawake herrands⟩
  · rw [hscope]
    exact id
  · rw [hscheduler]
    exact id
  · rw [hscheduler]
    exact fun _ h => h
  · rw [hcall]
    exact fun _ => List.Subperm.refl _
  · rw [hcall, hscheduler]
    exact fun _ => List.Subperm.refl _

theorem stays_start (w : Workshop) : w.Stays w.start := by
  unfold start
  split
  · next rest hstarting =>
    exact stays_begin (by rw [hstarting]; rfl)
      (by simp [pending, hstarting, Starting.call?, putBroker]) rfl rfl rfl rfl
  · next rest hstarting =>
    exact stays_begin (by rw [hstarting]; rfl)
      (by simp [pending, hstarting, Starting.call?, putBroker]) rfl rfl rfl rfl
  · next rest hstarting =>
    exact stays_begin (by rw [hstarting]; rfl)
      (by simp [pending, hstarting, Starting.call?, putBroker]) rfl rfl rfl rfl
  · next ids hstarting =>
    exact stays_goOn (fun _ => rfl) (by rw [hstarting]; rfl)
  · next t expression rest ids hstarting =>
    rcases w.ask_cases t.number t.name expression with ⟨fault, hask⟩ | ⟨hopen, schedule, -, hask⟩
    · rw [hask]
      exact stays_goOn (fun _ => rfl) (by rw [hstarting]; rfl)
    · rw [hask]
      have hopen : w.scheduler.isCanceled ≠ true := by simp [hopen]
      exact ⟨fun _ => rfl, id, fun h => absurd h hopen, fun h => absurd h hopen,
        fun h => absurd h hopen, fun h => absurd h hopen, fun _ h => ⟨h, rfl⟩,
        fun _ h => ⟨h, rfl, rfl⟩, fun h => absurd h hopen⟩
  · next call rest ids hstarting =>
    have hcalls : (w.enter call).calls = w.calls := by
      unfold enter
      split <;> rfl
    refine stays_enter (c := call) (fun _ => rfl) rfl ?_
    simp only [pending, hstarting, hcalls, Starting.call?, Option.toList_none, List.append_nil,
      Option.toList_some]
    exact (List.perm_append_singleton call w.calls).symm
  · next fault hstarting =>
    exact stays_goOn (fun _ => rfl) (by rw [hstarting]; rfl)
  · next fault id ids hstarting =>
    exact (stays_unschedule w id).trans (stays_goOn (fun _ => rfl) (by
      show w.starting.call? = _
      rw [hstarting]
      rfl))
  · next fault hstarting =>
    exact (stays_cancel w).trans (stays_goOn (fun _ => rfl) (by
      show w.starting.call? = _
      rw [hstarting]
      rfl))
  · next fault hstarting =>
    have hdropped : w.Stays { w with isDropped := true } := .of_concerns rfl
    exact hdropped.trans (stays_goOn (fun _ => rfl) (by
      show w.starting.call? = _
      rw [hstarting]
      rfl))
  · exact .refl w
  · exact .refl w

theorem stays_close (w : Workshop) : w.Stays w.close := by
  unfold close
  split
  · exact stays_goOn id rfl
  · exact .refl w

theorem stays_await (w : Workshop) : w.Stays w.await := by
  unfold await
  split
  · exact (stays_cancel w).trans (stays_goOn id rfl)
  · split
    · exact .refl w
    · exact stays_goOn id rfl
  · split
    · exact .refl w
    · have hdrained : w.Stays (w.dismiss w.scheduler.shutdown) :=
        stays_dismiss (fun _ => rfl) (fun _ => rfl) (List.nil_sublist _)
      exact hdrained.trans (stays_goOn id rfl)
  · split
    · exact .refl w
    · exact stays_goOn id rfl
  · exact .refl w
  · exact .refl w

theorem stays_drop (w : Workshop) : w.Stays w.drop := by
  unfold drop
  split
  · exact .of_concerns rfl
  · exact .refl w

/-! ## All Turns -/

theorem stays_turn (w : Workshop) (t : Turn) : w.Stays (w.turn t) := by
  cases t with
  | start => exact stays_start w
  | journal => exact stays_runJournal w
  | listener => exact stays_runListener w
  | stops eventFirst => exact stays_runStops w eventFirst
  | wake l => exact stays_wake w l
  | tick l => exact stays_tick w l
  | leave l => exact stays_leave w l
  | step i move => exact stays_step w i move
  | work i deed => exact stays_work w i deed
  | retire i => exact stays_retire w i
  | ask task name expression => exact stays_ask w task name expression
  | enter k => exact stays_enter_turn w k
  | unschedule id =>
    rw [turn]
    split
    · exact stays_unschedule w id
    · exact .refl w
  | reach scope =>
    rw [turn]
    split
    · exact stays_reach w scope
    · exact .refl w
  | drain => exact stays_drain w
  | other _ | pass _ => exact .of_concerns rfl
  | close => exact stays_close w
  | await => exact stays_await w
  | drop => exact stays_drop w

theorem stays_after (w : Workshop) (turns : List Turn) : w.Stays (w.after turns) := by
  induction turns with
  | nil => exact .refl w
  | cons t earlier ih => exact ih.trans (stays_turn _ t)

end Workshop

end EdgeSync
