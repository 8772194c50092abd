import EdgeSync.Task.Tick

/-!
# Attempts at a Task

A tick of a task is an attempt to run it. Many attempts may be under way at once, and each
of them takes small steps between which any steps of the others may come. What the task
answers, whether the scope is canceled, and when an attempt is dropped is left open.

An attempt that has begun has a guard. The guard ends the run: once by an explicit release,
or else when it goes out of scope.

## Main definitions

- `RunGuard`: the guard of a run
- `Attempt`, `Move`, `Attempt.step`: where an attempt stands, and its steps
- `Attempt.path`: some steps of one attempt
- `Crowd`, `Act`, `Crowd.run`: the attempts at a task and what happens to them

## Main results

- `RunGuard.finish_eq_release`: a run that somebody holds ends as with a guard
- `Attempt.step_cases`: what a step can do to the phase of the task
- `Attempt.path_entering`, `Attempt.path_finishing`, `Attempt.path_abandoning`,
  `Attempt.path_ticking`: a tick is an attempt that nothing interferes with
-/

namespace EdgeSync

/-! ## Guards -/

/-- The guard of a run, and whether it has ended the run. -/
structure RunGuard where
  isFinished : Bool
  deriving DecidableEq, Repr

namespace RunGuard

/-- The guard of a run that has begun. -/
def fresh : RunGuard := ⟨false⟩

/-- End the run, unless this has been done. -/
def release (g : RunGuard) (c : Completion) (h : TaskHandle) : RunGuard × TaskHandle :=
  if g.isFinished then (g, h) else (⟨true⟩, h.release c)

theorem release_finished {g : RunGuard} (hg : g.isFinished = true) (c : Completion)
    (h : TaskHandle) : g.release c h = (g, h) := by
  rw [release, if_pos hg]

theorem release_unfinished {g : RunGuard} (hg : g.isFinished = false) (c : Completion)
    (h : TaskHandle) : g.release c h = (⟨true⟩, h.release c) := by
  rw [release, hg]
  rfl

theorem isFinished_release (g : RunGuard) (c : Completion) (h : TaskHandle) :
    (g.release c h).1.isFinished = true := by
  cases hg : g.isFinished with
  | true => rwa [release_finished hg]
  | false => rw [release_unfinished hg]

/-- A handle whose run somebody may hold is one with the guard of the holder. -/
theorem finish_eq_release (g : RunGuard) (c : Completion) (h : TaskHandle) :
    (GuardedHandle.finish ⟨h, !g.isFinished⟩ c).2 = ⟨(g.release c h).2, false⟩ := by
  cases hg : g.isFinished with
  | true => rw [release_finished hg]; rfl
  | false => rw [release_unfinished hg]; rfl

end RunGuard

/-! ## Attempts -/

/-- Where an attempt stands: it is called; the run has begun; the task is ready; the scope is
not canceled; the task executes; it has executed; the guard goes out of scope; all is over.
A tick is missing if the attempt is dropped. -/
inductive Attempt where
  | called
  | begun (guard : RunGuard)
  | ready (guard : RunGuard)
  | cleared (guard : RunGuard)
  | executing (guard : RunGuard)
  | executed (guard : RunGuard) (outcome : Outcome)
  | leaving (guard : RunGuard) (tick : Option Tick)
  | left (tick : Option Tick)
  deriving DecidableEq, Repr

/-- What an attempt does next, with the answers that it gets. -/
inductive Move where
  | begin
  | check (obstacle : Option String)
  | look (isCanceled : Bool)
  | start
  | finish (outcome : Outcome)
  | release
  | abandon
  | drop
  deriving DecidableEq, Repr

namespace Attempt

/-- One step of an attempt. An attempt is dropped before it has begun or while the task
executes, and only then. -/
def step (h : TaskHandle) : Attempt → Move → Option (TaskHandle × Attempt)
  | called, .begin =>
    match h.begin with
    | .ok running => some (running, begun .fresh)
    | .error phase => some (h, left (some (Refusal.busy phase).tick))
  | called, .abandon => some (h, left none)
  | begun g, .check none => some (h, ready g)
  | begun g, .check (some reason) => some (h, leaving g (some (Refusal.notReady reason).tick))
  | ready g, .look false => some (h, cleared g)
  | ready g, .look true => some (h, leaving g (some Refusal.canceled.tick))
  | cleared g, .start => some (h, executing g)
  | executing g, .finish outcome => some (h, executed g outcome)
  | executing g, .abandon => some (h, leaving g none)
  | executed g outcome, .release =>
    let (g, h) := g.release outcome.completion h
    some (h, leaving g (some (.ofOutcome outcome)))
  | leaving g tick, .drop =>
    let (_, h) := g.release .continue h
    some (h, left tick)
  | _, _ => none

/-- Whether an attempt has a guard that has not ended its run. -/
def holds : Attempt → Bool
  | called => false
  | begun g => !g.isFinished
  | ready g => !g.isFinished
  | cleared g => !g.isFinished
  | executing g => !g.isFinished
  | executed g _ => !g.isFinished
  | leaving g _ => !g.isFinished
  | left _ => false

/-- Whether the task executes. -/
def isExecuting : Attempt → Bool
  | executing _ => true
  | _ => false

/-- Whether an attempt is between its begin and its end, so that its run must be going on. -/
def isUnderWay : Attempt → Bool
  | begun _ | ready _ | cleared _ | executing _ | executed _ _ => true
  | called | leaving _ _ | left _ => false

/-- The phase in which an attempt leaves the task that gives its guard up. -/
def parting : Attempt → Phase
  | executed _ (.done .terminated) => .terminated
  | _ => .idle

/-! ## What a Step Can Do -/

/-- What a step does to the task: it begins a run, ends the one that is held, or nothing. -/
inductive Effect (h : TaskHandle) (a : Attempt) (m : Move) (h' : TaskHandle) (a' : Attempt) :
    Prop
  | begins (hmove : m = .begin) (hidle : h.phase = .idle) (hphase : h'.phase = .running)
      (hbefore : a.holds = false) (hafter : a'.holds = true)
  | ends (hphase : h'.phase = a.parting) (hbefore : a.holds = true) (hafter : a'.holds = false)
  | keeps (hphase : h'.phase = h.phase) (hsame : a'.holds = a.holds)

theorem step_called_begin {h : TaskHandle} (hidle : h.phase = .idle) :
    called.step h .begin = some ({ h with phase := .running }, begun .fresh) := by
  simp [step, TaskHandle.begin, hidle]

/-- An attempt at a task that is not idle is refused. -/
theorem step_called_busy {h : TaskHandle} (hbusy : h.phase ≠ .idle) :
    called.step h .begin = some (h, left (some (.skipped ("task is " ++ h.phase.name)))) := by
  obtain ⟨phase, id⟩ := h
  cases phase with
  | idle => exact absurd rfl hbusy
  | running => rfl
  | terminated => rfl

theorem release_completion_phase (h : TaskHandle) (g : RunGuard) (outcome : Outcome) :
    (h.release outcome.completion).phase = (executed g outcome).parting := by
  rcases outcome with (_ | _) | fault <;> rfl

/-- A guard that is released ends the run that it holds, or nothing. -/
theorem effect_release {g : RunGuard} {c : Completion} {h : TaskHandle} {a a' : Attempt}
    (m : Move) (hholds : a.holds = !g.isFinished) (hparting : (h.release c).phase = a.parting)
    (hafter : a'.holds = false) : Effect h a m (g.release c h).2 a' := by
  cases hg : g.isFinished with
  | true =>
    rw [hg] at hholds
    rw [RunGuard.release_finished hg]
    exact .keeps rfl (hafter.trans hholds.symm)
  | false =>
    rw [hg] at hholds
    rw [RunGuard.release_unfinished hg]
    exact .ends hparting hholds hafter

/-- What a step can do. An attempt that is under way holds its run, and goes on to do so. -/
theorem step_cases {h h' : TaskHandle} {a a' : Attempt} {m : Move}
    (hway : a.isUnderWay = true → a.holds = true) (hstep : a.step h m = some (h', a')) :
    (a'.isUnderWay = true → a'.holds = true) ∧ Effect h a m h' a' := by
  -- Where the attempt stands says which moves it has; all others are no steps.
  cases a with
  | called =>
    cases m with
    | begin =>
      by_cases hidle : h.phase = .idle
      · rw [step_called_begin hidle] at hstep
        obtain ⟨rfl, rfl⟩ := Prod.mk.inj (Option.some.inj hstep)
        exact ⟨fun _ => rfl, .begins rfl hidle rfl rfl rfl⟩
      · rw [step_called_busy hidle] at hstep
        obtain ⟨rfl, rfl⟩ := Prod.mk.inj (Option.some.inj hstep)
        exact ⟨nofun, .keeps rfl rfl⟩
    | abandon =>
      obtain ⟨rfl, rfl⟩ := Prod.mk.inj (Option.some.inj hstep)
      exact ⟨nofun, .keeps rfl rfl⟩
    | _ => cases hstep
  | begun g =>
    cases m with
    | check obstacle =>
      cases obstacle with
      | none =>
        obtain ⟨rfl, rfl⟩ := Prod.mk.inj (Option.some.inj hstep)
        exact ⟨hway, .keeps rfl rfl⟩
      | some reason =>
        obtain ⟨rfl, rfl⟩ := Prod.mk.inj (Option.some.inj hstep)
        exact ⟨nofun, .keeps rfl rfl⟩
    | _ => cases hstep
  | ready g =>
    cases m with
    | look isCanceled =>
      cases isCanceled with
      | false =>
        obtain ⟨rfl, rfl⟩ := Prod.mk.inj (Option.some.inj hstep)
        exact ⟨hway, .keeps rfl rfl⟩
      | true =>
        obtain ⟨rfl, rfl⟩ := Prod.mk.inj (Option.some.inj hstep)
        exact ⟨nofun, .keeps rfl rfl⟩
    | _ => cases hstep
  | cleared g =>
    cases m with
    | start =>
      obtain ⟨rfl, rfl⟩ := Prod.mk.inj (Option.some.inj hstep)
      exact ⟨hway, .keeps rfl rfl⟩
    | _ => cases hstep
  | executing g =>
    cases m with
    | finish outcome =>
      obtain ⟨rfl, rfl⟩ := Prod.mk.inj (Option.some.inj hstep)
      exact ⟨hway, .keeps rfl rfl⟩
    | abandon =>
      obtain ⟨rfl, rfl⟩ := Prod.mk.inj (Option.some.inj hstep)
      exact ⟨nofun, .keeps rfl rfl⟩
    | _ => cases hstep
  | executed g outcome =>
    cases m with
    | release =>
      -- The guard ends the run here, and is released a second time when it is dropped.
      obtain ⟨rfl, rfl⟩ := Prod.mk.inj (Option.some.inj hstep)
      have hafter : (leaving (g.release outcome.completion h).1
          (some (.ofOutcome outcome))).holds = false := by
        rw [holds, RunGuard.isFinished_release]
        rfl
      exact ⟨nofun, effect_release _ rfl (release_completion_phase h g outcome) hafter⟩
    | _ => cases hstep
  | leaving g tick =>
    cases m with
    | drop =>
      obtain ⟨rfl, rfl⟩ := Prod.mk.inj (Option.some.inj hstep)
      exact ⟨nofun, effect_release _ rfl rfl rfl⟩
    | _ => cases hstep
  | left tick => cases m <;> cases hstep

/-! ## Attempts That Nothing Interferes With -/

/-- Some moves of an attempt one after the other. -/
def path (h : TaskHandle) (a : Attempt) : List Move → Option (TaskHandle × Attempt)
  | [] => some (h, a)
  | m :: rest => (a.step h m).bind fun w => path w.1 w.2 rest

theorem path_append (h : TaskHandle) (a : Attempt) (first second : List Move) :
    path h a (first ++ second) = (path h a first).bind fun w => path w.1 w.2 second := by
  induction first generalizing h a with
  | nil => rfl
  | cons m rest ih => simp only [List.cons_append, path, Option.bind_assoc, ih]

/-- The moves of an attempt up to the execution, with the answers that it gets. -/
def entering (phase : Phase) (obstacle : Option String) (isCanceled : Bool) : List Move :=
  match phase, obstacle, isCanceled with
  | .idle, none, false => [.begin, .check none, .look false, .start]
  | .idle, none, true => [.begin, .check none, .look true, .drop]
  | .idle, some reason, _ => [.begin, .check (some reason), .drop]
  | _, _, _ => [.begin]

/-- The moves of an attempt after the execution. -/
def finishing (outcome : Outcome) : List Move :=
  [.finish outcome, .release, .drop]

/-- A tick up to the execution is an attempt that takes all its steps at once. -/
theorem path_entering (h : TaskHandle) (obstacle : Option String) (isCanceled : Bool) :
    path h called (entering h.phase obstacle isCanceled) =
      match h.enter obstacle isCanceled with
      | .ok running => some (running, executing .fresh)
      | .error refusal => some (h, left (some refusal.tick)) := by
  obtain ⟨phase, id⟩ := h
  cases phase with
  | idle => cases obstacle <;> cases isCanceled <;> rfl
  | running => rfl
  | terminated => rfl

/-- So is a tick after the execution. -/
theorem path_finishing (h : TaskHandle) (outcome : Outcome) :
    path h (executing .fresh) (finishing outcome) =
      some ((h.leave outcome).2, left (some (h.leave outcome).1)) :=
  rfl

/-- An execution that is dropped is one that is abandoned. -/
theorem path_abandoning (h : TaskHandle) :
    path h (executing .fresh) [.abandon, .drop] = some (h.abandon, left none) :=
  rfl

/-- The moves of a whole tick. -/
def ticking (h : TaskHandle) (obstacle : Option String) (isCanceled : Bool) (outcome : Outcome) :
    List Move :=
  entering h.phase obstacle isCanceled ++
    match h.enter obstacle isCanceled with
    | .ok _ => finishing outcome
    | .error _ => []

/-- A whole tick is an attempt that takes all its steps at once. -/
theorem path_ticking {σ : Type} (h : TaskHandle) (obstacle : Option String)
    (isCanceled : Bool) (execute : σ → Outcome × σ) (s : σ) :
    path h called (ticking h obstacle isCanceled (execute s).1) =
      some ((h.trigger obstacle isCanceled execute s).2.1,
        left (some (h.trigger obstacle isCanceled execute s).1)) := by
  rw [ticking, path_append, path_entering, TaskHandle.trigger]
  cases h.enter obstacle isCanceled with
  | error refusal => rfl
  | ok running => exact path_finishing running (execute s).1

end Attempt

/-! ## Crowds -/

/-- A task and the attempts that have been made so far. -/
structure Crowd where
  handle : TaskHandle
  attempts : List Attempt
  deriving DecidableEq, Repr

/-- What happens to a task: one more attempt is called, the task gets another number, or
some attempt takes a step. -/
inductive Act where
  | call
  | number (id : TaskId)
  | move (i : Nat) (m : Move)
  deriving DecidableEq, Repr

namespace Crowd

/-- A new task that nobody has tried to run. -/
def new : Crowd := ⟨.new, []⟩

/-- One thing happens, if it can. -/
def step (w : Crowd) : Act → Option Crowd
  | .call => some { w with attempts := w.attempts ++ [.called] }
  | .number id => some { w with handle := w.handle.setId id }
  | .move i m =>
    w.attempts[i]?.bind fun a =>
      (a.step w.handle m).map fun answer => ⟨answer.1, w.attempts.set i answer.2⟩

/-- Some things happen one after the other. -/
def run (w : Crowd) : List Act → Option Crowd
  | [] => some w
  | act :: rest => (w.step act).bind fun w => run w rest

/-- How many attempts hold the run. -/
def holders (w : Crowd) : Nat :=
  w.attempts.countP Attempt.holds

theorem run_append (w : Crowd) (first second : List Act) :
    w.run (first ++ second) = (w.run first).bind fun w => w.run second := by
  induction first generalizing w with
  | nil => rfl
  | cons act rest ih =>
    simp only [List.cons_append, run, Option.bind_assoc, ih]

theorem run_concat {w w' : Crowd} {acts : List Act} {act : Act} :
    w.run (acts ++ [act]) = some w' ↔ ∃ v, w.run acts = some v ∧ v.step act = some w' := by
  rw [run_append, Option.bind_eq_some_iff]
  simp [run]

/-- A step of an attempt changes nothing but the task and the attempt. -/
theorem step_move_iff {w w' : Crowd} {i : Nat} {m : Move} :
    w.step (.move i m) = some w' ↔
      ∃ a h a', w.attempts[i]? = some a ∧ a.step w.handle m = some (h, a') ∧
        w' = ⟨h, w.attempts.set i a'⟩ := by
  simp only [step, Option.bind_eq_some_iff, Option.map_eq_some_iff, Prod.exists]
  constructor
  · rintro ⟨a, ha, h, a', hstep, rfl⟩
    exact ⟨a, h, a', ha, hstep, rfl⟩
  · rintro ⟨a, h, a', ha, hstep, rfl⟩
    exact ⟨a, ha, h, a', hstep, rfl⟩

/-- What an attempt can do alone it can do in a crowd. -/
theorem run_path {w : Crowd} {i : Nat} {a a' : Attempt} {h' : TaskHandle} {moves : List Move}
    (ha : w.attempts[i]? = some a) (hpath : a.path w.handle moves = some (h', a')) :
    w.run (moves.map (Act.move i)) = some ⟨h', w.attempts.set i a'⟩ := by
  induction moves generalizing w a with
  | nil =>
    obtain ⟨rfl, rfl⟩ := Prod.mk.inj (Option.some.inj hpath)
    obtain ⟨hi, rfl⟩ := List.getElem?_eq_some_iff.mp ha
    rw [List.set_getElem_self hi]
    rfl
  | cons m rest ih =>
    obtain ⟨⟨h, b⟩, hstep, hrest⟩ := Option.bind_eq_some_iff.mp hpath
    have hmove : w.step (.move i m) = some ⟨h, w.attempts.set i b⟩ :=
      step_move_iff.mpr ⟨a, h, b, ha, hstep, rfl⟩
    obtain ⟨hi, -⟩ := List.getElem?_eq_some_iff.mp ha
    have hb : (w.attempts.set i b)[i]? = some b := List.getElem?_set_self hi
    rw [List.map_cons, run, hmove, Option.bind_some, ih hb hrest, List.set_set]

end Crowd

end EdgeSync
