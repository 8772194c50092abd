import EdgeSync.Proofs.Task.Roster
import EdgeSync.Task.Rehearsal

/-!
# Rosters in Rehearsal

Whatever happens in a rehearsal happens to its roster by operations of the roster: time that
passes, events, executions that end, and what is asked of the scheduler. So the laws of
rosters hold for all that a rehearsal comes to.

## Main definitions

- `Rehearsal.roster`: the scheduler with the numbers that the tasks store
- `Rehearsal.Reached`: what a rehearsal comes to

## Main results

- `Rehearsal.leads_pass`, `Rehearsal.leads_publish`: what happens is done by operations
- `Rehearsal.Reached.lawful`: the laws hold in rehearsal
-/

namespace EdgeSync

namespace Roster

/-- One roster comes of another by some operations. -/
def Leads (r r' : Roster) : Prop :=
  ∃ operations, (r.after operations).2 = r'

theorem Leads.refl (r : Roster) : r.Leads r := ⟨[], rfl⟩

theorem Leads.one (r : Roster) (operation : Operation) : r.Leads (r.perform operation).2 :=
  ⟨[operation], rfl⟩

theorem after_append (r : Roster) (later earlier : List Operation) :
    (r.after (later ++ earlier)).2 = ((r.after earlier).2.after later).2 := by
  induction later with
  | nil => rfl
  | cons operation later ih =>
    have hstep := congrArg (fun r : Roster => (r.perform operation).2) ih
    exact hstep

theorem Leads.trans {r s t : Roster} (h : r.Leads s) (hrest : s.Leads t) : r.Leads t := by
  obtain ⟨earlier, rfl⟩ := h
  obtain ⟨later, rfl⟩ := hrest
  exact ⟨later ++ earlier, after_append r later earlier⟩

/-- Heeding events one after the other. -/
theorem leads_heed (r : Roster) (events : List Event) :
    r.Leads { r with scheduler := r.scheduler.heed events } := by
  induction events generalizing r with
  | nil => exact .refl r
  | cons e events ih => exact (Leads.one r (.heed e)).trans (ih _)

end Roster

namespace Rehearsal

open Roster

/-- The scheduler of a rehearsal with the numbers that its tasks store. -/
def roster (r : Rehearsal) : Roster :=
  ⟨r.scheduler, fun task => r.tasks[task]?.bind fun t => t.handle.id⟩

variable {r : Rehearsal}

/-! ## What Leaves the Roster Alone -/

theorem note_roster (r : Rehearsal) (task : Nat) (h : Happening) :
    (r.note task h).roster = r.roster := by
  rw [note]
  split <;> rfl

theorem putTask_stored (r : Rehearsal) {task : Nat} {t : ScriptedTask}
    (ht : r.tasks[task]? = some t) (t' : ScriptedTask) :
    (r.putTask task t').roster.stored = Function.update r.roster.stored task t'.handle.id := by
  obtain ⟨hlt, -⟩ := List.getElem?_eq_some_iff.mp ht
  funext i
  by_cases heq : i = task
  · subst heq
    simp [roster, putTask, hlt]
  · have hne : task ≠ i := fun h => heq h.symm
    simp [roster, putTask, heq, List.getElem?_set_ne hne]

/-- A task that is replaced by one that stores the same number. -/
theorem putTask_roster (r : Rehearsal) {task : Nat} {t t' : ScriptedTask}
    (ht : r.tasks[task]? = some t) (hid : t'.handle.id = t.handle.id) :
    (r.putTask task t').roster = r.roster := by
  have hstored := r.putTask_stored ht t'
  have hsame : Function.update r.roster.stored task t'.handle.id = r.roster.stored := by
    rw [Function.update_eq_self_iff, hid]
    simp [roster, ht]
  rw [hsame] at hstored
  exact congrArg (Roster.mk r.scheduler) hstored

theorem enter_id {h h' : TaskHandle} {obstacle : Option String} {isCanceled : Bool}
    (henter : h.enter obstacle isCanceled = .ok h') : h'.id = h.id := by
  unfold TaskHandle.enter TaskHandle.begin at henter
  split at henter
  · cases henter
  · next running hbegin =>
    have hid : running.id = h.id := by
      split at hbegin
      · cases hbegin
        rfl
      · cases hbegin
    split at henter
    · cases henter
    · split at henter
      · cases henter
      · cases henter
        exact hid

theorem leave_id (t : ScriptedTask) (ending : Ending) : (t.leave ending).2.handle.id = t.handle.id := by
  cases ending <;> rfl

/-! ## Executions -/

theorem leads_conclude (r : Rehearsal) (e : Execution) (ending : Ending) :
    r.roster.Leads (r.conclude e ending).roster := by
  rw [conclude]
  split
  · exact .refl _
  · next t ht =>
    have hput := r.putTask_roster ht (leave_id t ending)
    rcases hleave : t.leave ending with ⟨_ | outcome, t'⟩
    · rw [hleave] at hput
      simp only [hput]
      exact .refl _
    · rw [hleave] at hput
      have hnote := ((r.putTask e.task t').note_roster e.task (.ofOutcome outcome)).trans hput
      dsimp only
      split
      · next hlast =>
        split
        · rw [hnote]
          exact .refl _
        · have hone := Leads.one ((r.putTask e.task t').note e.task (.ofOutcome outcome)).roster
            (.conclude e.id outcome)
          simp only [perform, if_pos hlast] at hone
          rw [← hnote]
          exact hone
      · rw [hnote]
        exact .refl _

theorem abort_roster (r : Rehearsal) (e : Execution) : (r.abort e).roster = r.roster := by
  rw [abort]
  split
  · rfl
  · next t ht =>
    rw [note_roster]
    exact r.putTask_roster ht rfl

/-- What every step of a series of steps does, all of them do. -/
theorem leads_foldl {α : Type} {step : Rehearsal → α → Rehearsal}
    (hstep : ∀ (r : Rehearsal) (a : α), r.roster.Leads (step r a).roster) (r : Rehearsal) (steps : List α) :
    r.roster.Leads (steps.foldl step r).roster := by
  induction steps generalizing r with
  | nil => exact .refl _
  | cons a steps ih => exact (hstep r a).trans (ih (step r a))

theorem leads_settleExecutions (r : Rehearsal) : r.roster.Leads r.settleExecutions.roster := by
  have hconclude : ∀ (r : Rehearsal) (e : Execution),
      r.roster.Leads (r.conclude e e.run.ending).roster :=
    fun r e => leads_conclude r e e.run.ending
  have habort : ∀ (r : Rehearsal) e, r.roster.Leads (r.abort e).roster := by
    intro r e
    rw [abort_roster]
    exact .refl _
  -- Executions that end may leave the scheduler; those that are aborted do not.
  unfold settleExecutions
  extract_lets now isOver ended aborted r₁ r₂
  exact (leads_foldl hconclude r₁ ended).trans (leads_foldl habort r₂ aborted)

/-! ## Ticks and Time -/

theorem elim_note_roster (r : Rehearsal) (task : Nat) (h : Option Happening) :
    (h.elim r (r.note task)).roster = r.roster := by
  cases h with
  | none => rfl
  | some h => exact note_roster r task h

theorem scripted_enter_id {t t' : ScriptedTask} {isCanceled : Bool} {run : Run}
    (henter : t.enter isCanceled = .ok (run, t')) : t'.handle.id = t.handle.id := by
  rw [ScriptedTask.enter] at henter
  split at henter
  · cases henter
  · next handle hhandle =>
    cases henter
    exact enter_id hhandle

theorem leads_attempt (r : Rehearsal) (l : TickLoop) :
    r.roster.Leads (r.attempt l).roster := by
  rw [attempt]
  split
  · exact .refl _
  · next t ht =>
    split
    · rw [elim_note_roster]
      exact .refl _
    · next run t' henter =>
      have hput := r.putTask_roster ht (scripted_enter_id henter)
      extract_lets r₁ r₂ e
      have hstarted : r₂.roster = r.roster := by
        rw [elim_note_roster, note_roster, hput]
      rw [← hstarted]
      split
      · exact leads_conclude r₂ e run.ending
      · exact leads_settleExecutions { r₂ with executions := r₂.executions ++ [e] }

theorem leads_tick (r : Rehearsal) (l : TickLoop) : r.roster.Leads (r.tick l).roster := by
  unfold tick
  extract_lets rearmed noted
  have hnoted : noted.roster = (r.roster.perform (.rearm r.clock l)).2 := by
    simp only [noted]
    split
    · rfl
    · exact note_roster rearmed l.task .noTrigger
  refine (Leads.one r.roster (.rearm r.clock l)).trans ?_
  rw [← hnoted]
  exact leads_attempt noted l

theorem leads_pass (r : Rehearsal) : r.roster.Leads r.pass.roster := by
  have hsettle := leads_settleExecutions { r with clock := r.clock.after 1 }
  exact hsettle.trans (leads_foldl leads_tick _ _)

theorem leads_sleep (millis : Nat) (r : Rehearsal) : r.roster.Leads (sleep millis r).roster := by
  induction millis generalizing r with
  | zero => exact .refl _
  | succ millis ih => exact (leads_pass r).trans (ih r.pass)

/-! ## What Is Asked of a Rehearsal -/

theorem leads_scheduleAgain (r : Rehearsal) (task : Nat) :
    r.roster.Leads (r.scheduleAgain task).2.roster := by
  rw [scheduleAgain]
  split
  · exact .refl _
  · next t ht =>
    have hone := Leads.one r.roster (.schedule r.clock task t.script.name t.script.schedule)
    simp only [perform] at hone
    split
    · exact .refl _
    · next id scheduler hschedule =>
      have hstored := putTask_stored { r with scheduler } ht { t with handle := t.handle.setId id }
      have hput : (putTask { r with scheduler } task { t with handle := t.handle.setId id }).roster =
          ⟨scheduler, Function.update r.roster.stored task (some id)⟩ :=
        congrArg (Roster.mk scheduler) hstored
      have hsame : r.roster.scheduler = r.scheduler := rfl
      rw [hsame, hschedule] at hone
      dsimp only at hone ⊢
      split
      · rw [hput]
        exact hone
      · rw [note_roster, hput]
        exact hone

/-- A new task has stored no number. -/
theorem leads_schedule (r : Rehearsal) {t : ScriptedTask} (hnew : t.handle.id = none) :
    r.roster.Leads (r.schedule t).2.roster := by
  -- The new task stands at a place where there was none.
  have hsame : ({ r with tasks := r.tasks ++ [t] } : Rehearsal).roster = r.roster := by
    refine congrArg (Roster.mk r.scheduler) ?_
    funext i
    show (r.tasks ++ [t])[i]?.bind _ = r.tasks[i]?.bind _
    rw [List.getElem?_append]
    split
    · rfl
    · next hge =>
      rw [List.getElem?_eq_none (Nat.not_lt.mp hge)]
      cases i - r.tasks.length with
      | zero => simpa using hnew
      | succ n => rfl
  rw [← hsame]
  exact leads_scheduleAgain _ _

theorem leads_unschedule (r : Rehearsal) (id : TaskId) :
    r.roster.Leads (r.unschedule id).2.roster :=
  Leads.one r.roster (.unschedule id)

theorem leads_listen (r : Rehearsal) : r.roster.Leads r.listen.roster := by
  rw [listen]
  dsimp only
  split
  · exact .refl _
  · exact leads_heed r.roster _

theorem leads_publish (r : Rehearsal) (e : Event) : r.roster.Leads (r.publish e).2.roster :=
  leads_listen { r with broker := (r.broker.publish e).2 }

theorem leads_cancel (r : Rehearsal) : r.roster.Leads r.cancel.roster := by
  refine (Leads.one r.roster .cancel).trans ?_
  have hconclude : ∀ (r : Rehearsal) (e : Execution),
      r.roster.Leads (r.conclude e (.outcome (.failed .canceled))).roster :=
    fun r e => leads_conclude r e _
  exact leads_foldl hconclude { r with
    scheduler := r.scheduler.cancel
    listener := (r.listener.stop r.broker).1
    broker := (r.listener.stop r.broker).2
    executions := r.executions.filter fun e => !heedsCancel e } _

theorem leads_shutdown (r : Rehearsal) : r.roster.Leads r.shutdown.roster :=
  (leads_cancel r).trans (Leads.one r.cancel.roster .shutdown)

/-! ## All of a Rehearsal -/

/-- What a rehearsal comes to while its scheduler is there. -/
inductive Reached : Rehearsal → Prop where
  | start (wall : Time.Instant) (limit : Option Nat) : Reached (start wall limit)
  | schedule {r : Rehearsal} (script : Script) (obstacle : Option String) :
      Reached r → Reached (r.schedule (.new script obstacle)).2
  | scheduleAgain {r : Rehearsal} (task : Nat) : Reached r → Reached (r.scheduleAgain task).2
  | unschedule {r : Rehearsal} (id : TaskId) : Reached r → Reached (r.unschedule id).2
  | publish {r : Rehearsal} (e : Event) : Reached r → Reached (r.publish e).2
  | sleep {r : Rehearsal} (millis : Nat) : Reached r → Reached (sleep millis r)
  | cancel {r : Rehearsal} : Reached r → Reached r.cancel
  | shutdown {r : Rehearsal} : Reached r → Reached r.shutdown

theorem Reached.leads (h : Reached r) : (Roster.new fun _ => none).Leads r.roster := by
  induction h with
  | start wall limit => exact .refl _
  | schedule script obstacle _ ih => exact ih.trans (leads_schedule _ rfl)
  | scheduleAgain task _ ih => exact ih.trans (leads_scheduleAgain _ task)
  | unschedule id _ ih => exact ih.trans (leads_unschedule _ id)
  | publish e _ ih => exact ih.trans (leads_publish _ e)
  | sleep millis _ ih => exact ih.trans (leads_sleep millis _)
  | cancel _ ih => exact ih.trans (leads_cancel _)
  | shutdown _ ih => exact ih.trans (leads_shutdown _)

/-- In rehearsal the laws hold, as long as there are numbers left. -/
theorem Reached.lawful (h : Reached r) (hfew : r.scheduler.issued < 2 ^ 64) :
    ∃ deeds, Lawful deeds r.roster := by
  obtain ⟨operations, hafter⟩ := h.leads
  have hissued := issued_after (fun _ => none) operations
  rw [hafter] at hissued
  have htells := tells_after (fun _ => none) operations (hissued ▸ hfew)
  rw [hafter] at htells
  exact ⟨_, htells.lawful⟩

end Rehearsal

end EdgeSync
