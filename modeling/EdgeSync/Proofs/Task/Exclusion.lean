import EdgeSync.Proofs.Task.Attempts
import Mathlib.Data.List.Induction

/-!
# Mutual Exclusion of Attempts

However the steps of the attempts at a task come in between each other, the task is running
exactly while one attempt holds the run, and it executes for one attempt at most. The phase
counts the guards that have not ended their run; each step of each attempt keeps this.

## Main definitions

- `Crowd.Guarded`: the invariant that ties the phase to the guards
- `movesOf`, `Crowd.Since`: what an attempt has done since it found the task idle
- `Crowd.Exclusive`: what holds of a task and its attempts after all runs

## Main results

- `Crowd.Guarded.step`: each step keeps the invariant
- `Crowd.trail_of_run`: an attempt that is to execute has got the right answers
- `Crowd.exclusive_of_run`: mutual exclusion
-/

namespace EdgeSync

namespace Crowd

/-! ## The Phase and the Guards -/

/-- The task is running exactly if one attempt holds its run, and nobody else does; who is
under way is among those that hold it. -/
structure Guarded (w : Crowd) : Prop where
  holders : w.holders = if w.handle.phase = .running then 1 else 0
  underWay : ∀ a ∈ w.attempts, a.isUnderWay = true → a.holds = true

theorem guarded_new : new.Guarded := ⟨rfl, by simp [new]⟩

theorem countP_set_add {α : Type} (p : α → Bool) {l : List α} {i : Nat} {a : α} (a' : α)
    (h : l[i]? = some a) :
    (l.set i a').countP p + (p a).toNat = l.countP p + (p a').toNat := by
  obtain ⟨hi, rfl⟩ := List.getElem?_eq_some_iff.mp h
  have hpos : p l[i] = true → 0 < l.countP p := fun hp =>
    List.countP_pos_iff.mpr ⟨l[i], List.getElem_mem hi, hp⟩
  rw [List.countP_set hi]
  cases hold : p l[i] <;> cases p a' <;> simp_all

theorem parting_ne_running (a : Attempt) : a.parting ≠ .running := by
  unfold Attempt.parting
  split <;> simp

/-- Who holds the run holds it of a task that is running. -/
theorem Guarded.running_of_holds {w : Crowd} (hw : w.Guarded) {a : Attempt}
    (ha : a ∈ w.attempts) (hholds : a.holds = true) : w.handle.phase = .running := by
  have hholders := hw.holders
  by_contra hnot
  rw [if_neg hnot] at hholders
  exact List.countP_eq_zero.mp hholders a ha hholds

/-- Each step keeps the phase and the guards together. -/
theorem Guarded.step {w w' : Crowd} (hw : w.Guarded) {act : Act} (hstep : w.step act = some w') :
    w'.Guarded := by
  obtain ⟨hholders, hway⟩ := hw
  cases act with
  | call =>
    obtain rfl := Option.some.inj hstep
    refine ⟨?_, ?_⟩
    · rw [Crowd.holders, List.countP_append]
      exact hholders
    · intro a ha
      rcases List.mem_append.mp ha with hbefore | hnew
      · exact hway a hbefore
      · obtain rfl := List.mem_singleton.mp hnew
        exact nofun
  | number id =>
    obtain rfl := Option.some.inj hstep
    exact ⟨hholders, hway⟩
  | move i m =>
    -- One attempt moves, and the number of those that hold the run changes with it only.
    obtain ⟨a, h, a', ha, hmove, rfl⟩ := step_move_iff.mp hstep
    have hmem := List.mem_of_getElem? ha
    obtain ⟨hway', heffect⟩ := Attempt.step_cases (hway a hmem) hmove
    have hcount := countP_set_add Attempt.holds a' ha
    refine ⟨?_, ?_⟩
    · rw [Crowd.holders] at hholders ⊢
      cases heffect with
      | begins _ hidle hphase hbefore hafter =>
        rw [hidle, if_neg (by decide)] at hholders
        rw [hbefore, hafter, hholders] at hcount
        rw [hphase, if_pos rfl]
        exact hcount
      | ends hphase hbefore hafter =>
        have hrunning := Guarded.running_of_holds ⟨hholders, hway⟩ hmem hbefore
        rw [hrunning, if_pos rfl] at hholders
        rw [hbefore, hafter, hholders] at hcount
        rw [hphase, if_neg (parting_ne_running a)]
        exact Nat.add_right_cancel hcount
      | keeps hphase hsame =>
        rw [hsame] at hcount
        rw [hphase, ← hholders]
        exact Nat.add_right_cancel hcount
    · intro b hb
      rcases List.mem_or_eq_of_mem_set hb with hbefore | rfl
      · exact hway b hbefore
      · exact hway'

/-- What each step keeps holds after a run. -/
theorem run_keeps {P : Crowd → Prop}
    (hstep : ∀ w act w', P w → w.step act = some w' → P w') {w w' : Crowd} {acts : List Act}
    (hw : P w) (hrun : w.run acts = some w') : P w' := by
  induction acts generalizing w with
  | nil =>
    obtain rfl := Option.some.inj hrun
    exact hw
  | cons act rest ih =>
    obtain ⟨v, hv, hrest⟩ := Option.bind_eq_some_iff.mp hrun
    exact ih (hstep w act v hw hv) hrest

theorem guarded_of_run {w : Crowd} {acts : List Act} (hrun : new.run acts = some w) :
    w.Guarded :=
  run_keeps (fun _ _ _ hw hstep => hw.step hstep) guarded_new hrun

/-! ## How an Attempt Comes to Execute -/

/-- The moves of an attempt among all that happens. -/
def movesOf (i : Nat) (acts : List Act) : List Move :=
  acts.filterMap fun
    | .move j m => if j = i then some m else none
    | _ => none

/-- An attempt has begun when the task was idle, and has made some moves since. -/
def Since (acts : List Act) (i : Nat) (moves : List Move) : Prop :=
  ∃ earlier since idle, acts = earlier ++ .move i .begin :: since ∧
    new.run earlier = some idle ∧ idle.handle.phase = .idle ∧ movesOf i since = moves

/-- The moves of an attempt that has not executed yet since it has begun. -/
def trail? : Attempt → Option (List Move)
  | .begun _ => some []
  | .ready _ => some [.check none]
  | .cleared _ => some [.check none, .look false]
  | _ => none

theorem movesOf_concat_self (i : Nat) (acts : List Act) (m : Move) :
    movesOf i (acts ++ [.move i m]) = movesOf i acts ++ [m] := by
  simp [movesOf]

theorem movesOf_concat_other {i : Nat} (acts : List Act) {act : Act}
    (hother : ∀ m, act ≠ .move i m) : movesOf i (acts ++ [act]) = movesOf i acts := by
  cases act with
  | call => simp [movesOf]
  | number id => simp [movesOf]
  | move j m =>
    have hne : j ≠ i := by
      rintro rfl
      exact hother m rfl
    simp [movesOf, hne]

theorem Since.other {acts : List Act} {i : Nat} {moves : List Move} (h : Since acts i moves)
    {act : Act} (hother : ∀ m, act ≠ .move i m) : Since (acts ++ [act]) i moves := by
  obtain ⟨earlier, since, idle, rfl, hrun, hidle, hmoves⟩ := h
  refine ⟨earlier, since ++ [act], idle, by simp, hrun, hidle, ?_⟩
  rw [movesOf_concat_other since hother, hmoves]

theorem Since.move {acts : List Act} {i : Nat} {moves : List Move} (h : Since acts i moves)
    (m : Move) : Since (acts ++ [.move i m]) i (moves ++ [m]) := by
  obtain ⟨earlier, since, idle, rfl, hrun, hidle, hmoves⟩ := h
  refine ⟨earlier, since ++ [.move i m], idle, by simp, hrun, hidle, ?_⟩
  rw [movesOf_concat_self, hmoves]

/-- One move of an attempt makes its trail longer, or is the first. -/
theorem trail?_step {h h' : TaskHandle} {a a' : Attempt} {m : Move} {moves : List Move}
    (hstep : a.step h m = some (h', a')) (htrail : trail? a' = some moves) :
    (m = .begin ∧ h.phase = .idle ∧ moves = []) ∨
      ∃ before, trail? a = some before ∧ moves = before ++ [m] := by
  cases a with
  | called =>
    cases m with
    | begin =>
      by_cases hidle : h.phase = .idle
      · rw [Attempt.step_called_begin hidle] at hstep
        obtain ⟨rfl, rfl⟩ := Prod.mk.inj (Option.some.inj hstep)
        exact .inl ⟨rfl, hidle, (Option.some.inj htrail).symm⟩
      · rw [Attempt.step_called_busy hidle] at hstep
        obtain ⟨rfl, rfl⟩ := Prod.mk.inj (Option.some.inj hstep)
        cases htrail
    | abandon =>
      obtain ⟨rfl, rfl⟩ := Prod.mk.inj (Option.some.inj hstep)
      cases htrail
    | _ => cases hstep
  | begun g =>
    cases m with
    | check obstacle =>
      cases obstacle with
      | none =>
        obtain ⟨rfl, rfl⟩ := Prod.mk.inj (Option.some.inj hstep)
        exact .inr ⟨[], rfl, (Option.some.inj htrail).symm⟩
      | some reason =>
        obtain ⟨rfl, rfl⟩ := Prod.mk.inj (Option.some.inj hstep)
        cases htrail
    | _ => cases hstep
  | ready g =>
    cases m with
    | look isCanceled =>
      cases isCanceled with
      | false =>
        obtain ⟨rfl, rfl⟩ := Prod.mk.inj (Option.some.inj hstep)
        exact .inr ⟨[.check none], rfl, (Option.some.inj htrail).symm⟩
      | true =>
        obtain ⟨rfl, rfl⟩ := Prod.mk.inj (Option.some.inj hstep)
        cases htrail
    | _ => cases hstep
  | _ =>
    -- Later moves leave no trail.
    cases m <;> cases hstep <;> cases htrail

/-- What is left of an attempt that does not move itself. -/
theorem attempt_of_other {v w : Crowd} {act : Act} (hstep : v.step act = some w) {i : Nat}
    (hother : ∀ m, act ≠ .move i m) {a : Attempt} (ha : w.attempts[i]? = some a) :
    v.attempts[i]? = some a ∨ a = .called := by
  cases act with
  | call =>
    obtain rfl := Option.some.inj hstep
    rw [List.getElem?_append] at ha
    split at ha
    · exact .inl ha
    · exact .inr (List.mem_singleton.mp (List.mem_of_getElem? ha))
  | number id =>
    obtain rfl := Option.some.inj hstep
    exact .inl ha
  | move j m =>
    obtain ⟨b, h, b', -, -, rfl⟩ := step_move_iff.mp hstep
    have hne : j ≠ i := by
      rintro rfl
      exact hother m rfl
    rw [List.getElem?_set_ne hne] at ha
    exact .inl ha

/-- An attempt that moves is where its move leads. -/
theorem attempt_of_self {v : Crowd} {i : Nat} {b b' a : Attempt} {h : TaskHandle}
    (hb : v.attempts[i]? = some b) (ha : (⟨h, v.attempts.set i b'⟩ : Crowd).attempts[i]? = some a) :
    a = b' := by
  obtain ⟨hi, -⟩ := List.getElem?_eq_some_iff.mp hb
  rw [List.getElem?_set_self hi] at ha
  exact (Option.some.inj ha).symm

/-- An attempt that has not executed yet has begun when the task was idle, and has got the
answers since that it needs. -/
theorem trail_of_run {w : Crowd} {acts : List Act} (hrun : new.run acts = some w) {i : Nat}
    {a : Attempt} {moves : List Move} (ha : w.attempts[i]? = some a)
    (htrail : trail? a = some moves) : Since acts i moves := by
  -- On what has happened, from its end: what came last is a move of the attempt or not.
  induction acts using List.reverseRecOn generalizing w a moves with
  | nil =>
    obtain rfl := Option.some.inj hrun
    cases ha
  | append_singleton acts act ih =>
    obtain ⟨v, hv, hstep⟩ := run_concat.mp hrun
    by_cases hself : ∃ m, act = .move i m
    · obtain ⟨m, rfl⟩ := hself
      obtain ⟨b, h, b', hb, hmove, rfl⟩ := step_move_iff.mp hstep
      obtain rfl := attempt_of_self hb ha
      rcases trail?_step hmove htrail with ⟨rfl, hidle, rfl⟩ | ⟨before, hbefore, rfl⟩
      · exact ⟨acts, [], v, rfl, hv, hidle, rfl⟩
      · exact (ih hv hb hbefore).move m
    · have hother : ∀ m, act ≠ .move i m := fun m hm => hself ⟨m, hm⟩
      rcases attempt_of_other hstep hother ha with hbefore | rfl
      · exact (ih hv hbefore htrail).other hother
      · cases htrail

/-! ## Starts and Ends -/

/-- Only an attempt that is cleared can start to execute. -/
theorem cleared_of_start {w w' : Crowd} {i : Nat} (hstep : w.step (.move i .start) = some w') :
    ∃ g, w.attempts[i]? = some (.cleared g) := by
  obtain ⟨a, h, a', ha, hmove, -⟩ := step_move_iff.mp hstep
  cases a with
  | cleared g => exact ⟨g, ha⟩
  | _ => cases hmove

/-- A terminated task stays terminated, whatever is tried. -/
theorem Guarded.terminated_step {w w' : Crowd} (hw : w.Guarded)
    (hterminated : w.handle.phase = .terminated) {act : Act} (hstep : w.step act = some w') :
    w'.handle.phase = .terminated ∧ ∀ i, act ≠ .move i .start := by
  -- Nobody holds the run, so that nobody can end it or start to execute.
  have hnone : ∀ a ∈ w.attempts, a.holds = true → False := by
    intro a ha hholds
    have hrunning := hw.running_of_holds ha hholds
    rw [hterminated] at hrunning
    cases hrunning
  refine ⟨?_, ?_⟩
  · cases act with
    | call =>
      obtain rfl := Option.some.inj hstep
      exact hterminated
    | number id =>
      obtain rfl := Option.some.inj hstep
      exact hterminated
    | move i m =>
      obtain ⟨a, h, a', ha, hmove, rfl⟩ := step_move_iff.mp hstep
      have hmem := List.mem_of_getElem? ha
      cases (Attempt.step_cases (hw.underWay a hmem) hmove).2 with
      | begins _ hidle =>
        rw [hterminated] at hidle
        cases hidle
      | ends _ hbefore => exact (hnone a hmem hbefore).elim
      | keeps hphase => exact hphase.trans hterminated
  · rintro i rfl
    obtain ⟨g, hg⟩ := cleared_of_start hstep
    have hmem := List.mem_of_getElem? hg
    exact hnone _ hmem (hw.underWay _ hmem rfl)

theorem Guarded.terminated_run {w w' : Crowd} {acts : List Act} (hw : w.Guarded)
    (hterminated : w.handle.phase = .terminated) (hrun : w.run acts = some w') :
    w'.handle.phase = .terminated ∧ ∀ i, .move i .start ∉ acts := by
  induction acts generalizing w with
  | nil =>
    obtain rfl := Option.some.inj hrun
    exact ⟨hterminated, fun i => List.not_mem_nil⟩
  | cons act rest ih =>
    obtain ⟨v, hv, hrest⟩ := Option.bind_eq_some_iff.mp hrun
    obtain ⟨hstill, hact⟩ := hw.terminated_step hterminated hv
    obtain ⟨hend, hnever⟩ := ih (hw.step hv) hstill hrest
    refine ⟨hend, ?_⟩
    intro i hmem
    rcases List.mem_cons.mp hmem with heq | hlater
    · exact hact i heq.symm
    · exact hnever i hlater

/-- An attempt that gives its guard up leaves the task as its execution says. -/
theorem Guarded.phase_of_end {w w' : Crowd} (hw : w.Guarded) {i : Nat} {m : Move}
    {a a' : Attempt} (hstep : w.step (.move i m) = some w') (ha : w.attempts[i]? = some a)
    (ha' : w'.attempts[i]? = some a') (hbefore : a.holds = true) (hafter : a'.holds = false) :
    w'.handle.phase = a.parting := by
  obtain ⟨b, h, b', hb, hmove, rfl⟩ := step_move_iff.mp hstep
  obtain rfl := attempt_of_self hb ha'
  obtain rfl : a = b := Option.some.inj (ha.symm.trans hb)
  cases (Attempt.step_cases (hw.underWay a (List.mem_of_getElem? ha)) hmove).2 with
  | begins _ _ _ hnot =>
    rw [hbefore] at hnot
    cases hnot
  | ends hphase => exact hphase
  | keeps _ hsame =>
    rw [hbefore, hafter] at hsame
    cases hsame

/-- Who holds nothing changes nothing about the phase, unless it begins. -/
theorem Guarded.phase_of_rest {w w' : Crowd} (hw : w.Guarded) {i : Nat} {m : Move}
    {a : Attempt} (hstep : w.step (.move i m) = some w') (ha : w.attempts[i]? = some a)
    (hbefore : a.holds = false) (hmove : m ≠ .begin) : w'.handle.phase = w.handle.phase := by
  obtain ⟨b, h, b', hb, hmoves, rfl⟩ := step_move_iff.mp hstep
  obtain rfl : a = b := Option.some.inj (ha.symm.trans hb)
  cases (Attempt.step_cases (hw.underWay a (List.mem_of_getElem? ha)) hmoves).2 with
  | begins hbegin => exact absurd hbegin hmove
  | ends _ hholds =>
    rw [hbefore] at hholds
    cases hholds
  | keeps hphase => exact hphase

/-! ## Mutual Exclusion -/

/-- What holds of a task and its attempts after some things have happened, and of what can
happen next. -/
structure Exclusive (acts : List Act) (w : Crowd) : Prop where
  /-- The task is running exactly while an attempt holds its run. -/
  running_iff : w.handle.phase = .running ↔ w.holders = 1
  /-- No two attempts do. -/
  holders_le_one : w.holders ≤ 1
  /-- The task executes for one attempt at most. -/
  executing_le_one : w.attempts.countP Attempt.isExecuting ≤ 1
  /-- To start, an attempt must have found the task idle, and since then have found it ready
  and its scope not canceled. -/
  starts : ∀ i w', w.step (.move i .start) = some w' →
    Since acts i [.check none, .look false]
  /-- Who gives a guard up leaves the task terminated if the execution has said so, and idle
  otherwise. -/
  ends : ∀ i m w' a a', w.step (.move i m) = some w' → w.attempts[i]? = some a →
    w'.attempts[i]? = some a' → a.holds = true → a'.holds = false →
    w'.handle.phase = a.parting
  /-- Who holds no guard, or one that has ended its run, changes nothing about the phase unless
  it begins. -/
  rests : ∀ i m w' a, w.step (.move i m) = some w' → w.attempts[i]? = some a →
    a.holds = false → m ≠ .begin → w'.handle.phase = w.handle.phase
  /-- Who is not interfered with comes to a whole tick of the task. -/
  ticks : ∀ (σ : Type) i obstacle isCanceled (execute : σ → Outcome × σ) s,
    w.attempts[i]? = some .called →
    w.run ((Attempt.ticking w.handle obstacle isCanceled (execute s).1).map (Act.move i)) =
      some ⟨(w.handle.trigger obstacle isCanceled execute s).2.1,
        w.attempts.set i (.left (some (w.handle.trigger obstacle isCanceled execute s).1))⟩
  /-- Who finds the task not idle is skipped, and changes nothing. -/
  skips : ∀ i, w.attempts[i]? = some .called → w.handle.phase ≠ .idle →
    w.step (.move i .begin) = some { w with
      attempts := w.attempts.set i
        (.left (some (.skipped ("task is " ++ w.handle.phase.name)))) }
  /-- Once the task is terminated, it stays so, and never starts. -/
  final : w.handle.phase = .terminated → ∀ later w', w.run later = some w' →
    w'.handle.phase = .terminated ∧ ∀ i, .move i .start ∉ later

/-- However the attempts at a task come in between each other, they exclude each other. -/
theorem exclusive_of_run {acts : List Act} {w : Crowd} (hrun : new.run acts = some w) :
    Exclusive acts w := by
  have hw := guarded_of_run hrun
  have hle : w.holders ≤ 1 := by
    rw [hw.holders]
    split <;> decide
  refine ⟨?_, hle, ?_, ?_, ?_, ?_, ?_, ?_, ?_⟩
  · rw [hw.holders]
    split <;> simp_all
  · -- Who executes is under way, and so holds the run.
    refine Nat.le_trans (List.countP_mono_left ?_) hle
    intro a ha hexecuting
    refine hw.underWay a ha ?_
    cases a with
    | executing g => rfl
    | _ => cases hexecuting
  · intro i w' hstep
    obtain ⟨g, hg⟩ := cleared_of_start hstep
    exact trail_of_run hrun hg rfl
  · intro i m w' a a' hstep ha ha' hbefore hafter
    exact hw.phase_of_end hstep ha ha' hbefore hafter
  · intro i m w' a hstep ha hbefore hmove
    exact hw.phase_of_rest hstep ha hbefore hmove
  · intro σ i obstacle isCanceled execute s hcalled
    exact run_path hcalled (Attempt.path_ticking w.handle obstacle isCanceled execute s)
  · intro i hcalled hbusy
    exact step_move_iff.mpr ⟨_, _, _, hcalled, Attempt.step_called_busy hbusy, rfl⟩
  · intro hterminated later w' hlater
    exact hw.terminated_run hterminated hlater

/-- Two attempts, one of which terminates the task. -/
theorem exclusive_of_run_two :
    let acts : List Act := [.call, .call, .move 1 .begin, .move 0 .begin, .move 1 (.check none),
      .move 1 (.look false), .move 1 .start, .move 1 (.finish (.done .terminated)),
      .move 1 .release, .move 1 .drop]
    let w : Crowd := ⟨⟨.terminated, none⟩,
      [.left (some (.skipped "task is Running")), .left (some .terminated)]⟩
    new.run acts = some w ∧ Exclusive acts w := by
  intro acts w
  have hrun : new.run acts = some w := by decide
  exact ⟨hrun, exclusive_of_run hrun⟩

end Crowd

end EdgeSync
