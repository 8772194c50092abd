import EdgeSync.Proofs.Pass.OneFile
import EdgeSync.Proofs.Pass.Progress

/-!
# Interrupted Passes

A pass may be interrupted at any moment: it is canceled, or a fetch, a deletion or a replication
that is under way is cut off, by a cancellation or by a deadline. The locators that are finished
by then end as in the whole pass, and the others keep the snapshots that they had.

A pass that is canceled goes on up to the next place where it looks. It still finishes the
locator that it works on if this takes no further fetch, deletion or replication; nothing of
that kind begins any more.

## Main definitions

- `Pass.Begins`, `Pass.Looks`: where a pass begins something, and where it looks
- `World.due`: whether the locator in progress will still be finished
- `World.Interrupted`: what comes of a pass that is interrupted

## Main results

- `World.run_cancel`: a canceled pass is cut where it looks, and else goes on
- `World.interrupted_anywhere`: what comes of interruptions at any moment
-/

namespace EdgeSync

variable {σ : Type}

/-! ## Where a Pass Looks -/

namespace Pass

/-- The next step begins a fetch, a deletion or a replication. -/
def Begins (p : Pass) : Prop :=
  match p.stage with
  | .fetch .. => True
  | .delete _ _ c => c.delete ≠ []
  | .replicate _ _ c => c.replicate ≠ []
  | _ => False

/-- The next step looks whether the pass is canceled: it begins something of that kind, or the
next locator. -/
def Looks (p : Pass) : Prop :=
  p.Begins ∨ p.stage = .next ∧ p.waiting ≠ []

/-- A canceled pass ends where it looks. -/
theorem step_of_looks (env : Surroundings σ) {p : Pass} (h : p.Looks) {w : σ}
    (hcanceled : env.isCanceled w = true) : p.step env w = (p.cut, w) := by
  obtain ⟨credentials, total, waiting, failures, stage⟩ := p
  rcases h with hbegins | ⟨rfl, hwaiting⟩
  · cases stage with
    | fetch item source => simp [step, hcanceled]
    | delete item snapshot c =>
      have hsome : c.delete ≠ [] := hbegins
      simp [step, hcanceled, List.isEmpty_iff, hsome]
    | replicate item snapshot c =>
      have hsome : c.replicate ≠ [] := hbegins
      simp [step, hcanceled, List.isEmpty_iff, hsome]
    | _ => cases hbegins
  · cases waiting with
    | nil => exact absurd rfl hwaiting
    | cons item rest => simp [step, hcanceled]

theorem item_of_begins {p : Pass} (h : p.Begins) : ∃ item, p.stage.item? = some item := by
  obtain ⟨credentials, total, waiting, failures, stage⟩ := p
  cases stage with
  | fetch item source => exact ⟨item, rfl⟩
  | delete item snapshot c => exact ⟨item, rfl⟩
  | replicate item snapshot c => exact ⟨item, rfl⟩
  | _ => cases h

/-- Where a pass looks, not all locators are finished. -/
theorem ahead_of_looks {p : Pass} (h : p.Looks) : 0 < p.ahead.length := by
  rw [ahead, List.length_append]
  rcases h with hbegins | ⟨-, hwaiting⟩
  · obtain ⟨item, hitem⟩ := item_of_begins hbegins
    rw [hitem]
    exact Nat.lt_add_right _ Nat.one_pos
  · exact Nat.lt_add_left _ (List.length_pos_iff.mpr hwaiting)

end Pass

namespace World

variable {world : World σ}

/-- Elsewhere a cancellation goes unnoticed. -/
theorem step_cancel {p : Pass} (h : ¬ p.Looks) (w : σ) :
    p.step world.toSurroundings (world.cancel w) =
      ((p.step world.toSurroundings w).1, world.cancel (p.step world.toSurroundings w).2) := by
  obtain ⟨credentials, total, waiting, failures, stage⟩ := p
  cases stage with
  | ended outcome => rfl
  | next =>
    cases waiting with
    | nil => rfl
    | cons item rest => exact absurd (.inr ⟨rfl, List.cons_ne_nil _ _⟩) h
  | resolve item => simp only [Pass.step, world.resolve_cancel]
  | fetch item source => exact absurd (.inl trivial) h
  | delete item snapshot c =>
    have hnone : c.delete = [] := Classical.not_not.mp fun hsome => h (.inl hsome)
    simp [Pass.step, hnone]
  | replicate item snapshot c =>
    have hnone : c.replicate = [] := Classical.not_not.mp fun hsome => h (.inl hsome)
    simp [Pass.step, hnone]
  | commit item snapshot => simp only [Pass.step, world.commit_cancel]
  | notify item => simp only [Pass.step, world.notify_cancel]

/-! ## The Locator in Progress -/

/-- Whether the locator in progress is finished without a further fetch, deletion or
replication: one or none. -/
def due (world : World σ) (p : Pass) (w : σ) : Nat :=
  match p.stage with
  | .resolve item =>
    match (world.resolve item.locator w).1 with
    | .error _ => 1
    | .ok _ => 0
  | .delete _ _ c => if c.delete.isEmpty && c.replicate.isEmpty then 1 else 0
  | .replicate _ _ c => if c.replicate.isEmpty then 1 else 0
  | .commit .. => 1
  | _ => 0

theorem due_of_looks {p : Pass} (h : p.Looks) (w : σ) : world.due p w = 0 := by
  obtain ⟨credentials, total, waiting, failures, stage⟩ := p
  rcases h with hbegins | ⟨rfl, -⟩
  · cases stage with
    | fetch item source => rfl
    | delete item snapshot c =>
      have hsome : c.delete ≠ [] := hbegins
      simp [due, List.isEmpty_iff, hsome]
    | replicate item snapshot c =>
      have hsome : c.replicate ≠ [] := hbegins
      simp [due, List.isEmpty_iff, hsome]
    | _ => cases hbegins
  · rfl

theorem due_of_ended {p : Pass} {outcome : Outcome} (h : p.stage = .ended outcome) (w : σ) :
    world.due p w = 0 := by
  rw [due, h]

/-- A step that does not look finishes the locator if it is due, or leaves it due. -/
theorem ahead_step (world : World σ) {p : Pass} (h : ¬ p.Looks) (w : σ) :
    (p.step world.toSurroundings w).1.ahead.length + world.due p w =
      p.ahead.length +
        world.due (p.step world.toSurroundings w).1 (p.step world.toSurroundings w).2 := by
  obtain ⟨credentials, total, waiting, failures, stage⟩ := p
  cases stage with
  | ended outcome => rfl
  | next =>
    cases waiting with
    | nil => rfl
    | cons item rest => exact absurd (.inr ⟨rfl, List.cons_ne_nil _ _⟩) h
  | resolve item =>
    have hanswer := world.resolve_ne item.locator w
    simp only [Pass.step, due]
    cases hresolve : (world.resolve item.locator w).1 with
    | ok source => rfl
    | error fault =>
      have hfault : fault ≠ .canceled := by
        rintro rfl
        exact hanswer hresolve
      simp [Pass.follow, Pass.fail, hfault, Pass.ahead, Stage.item?]
  | fetch item source => exact absurd (.inl trivial) h
  | delete item snapshot c =>
    have hnone : c.delete = [] := Classical.not_not.mp fun hsome => h (.inl hsome)
    simp [Pass.step, due, hnone, Pass.ahead, Pass.moveTo, Stage.item?]
  | replicate item snapshot c =>
    have hnone : c.replicate = [] := Classical.not_not.mp fun hsome => h (.inl hsome)
    simp [Pass.step, due, hnone, Pass.ahead, Pass.moveTo, Stage.item?]
  | commit item snapshot =>
    simp [Pass.step, due, Pass.ahead, Pass.moveTo, Stage.item?]
  | notify item => rfl

/-! ## Canceled Passes -/

/-- A canceled pass goes on as it would have, up to the next place where it looks; there it is
cut. -/
theorem run_cancel {m : Nat} {p : Pass} (h : p.togo ≤ m) (w : σ) :
    ∃ j q u, Pass.run world.toSurroundings j p w = (q, u) ∧
      q.ahead.length + world.due p w = p.ahead.length ∧
      ((q.Looks ∧ Pass.run world.toSurroundings m p (world.cancel w) = (q.cut, world.cancel u)) ∨
        ((∃ outcome, q.stage = .ended outcome) ∧
          Pass.run world.toSurroundings m p (world.cancel w) = (q, world.cancel u))) := by
  induction m generalizing p w with
  | zero =>
    rcases p.ended_or_not with ⟨outcome, hended⟩ | hnot
    · exact ⟨0, p, w, rfl, by rw [due_of_ended hended]; rfl, .inr ⟨⟨outcome, hended⟩, rfl⟩⟩
    · have hstep := (Pass.goes_step world.toSurroundings p w).togo_lt hnot
      omega
  | succ m ih =>
    rcases p.ended_or_not with ⟨outcome, hended⟩ | hnot
    · refine ⟨0, p, w, rfl, by rw [due_of_ended hended]; rfl, .inr ⟨⟨outcome, hended⟩, ?_⟩⟩
      exact Pass.run_ended world.toSurroundings _ hended _
    · by_cases hlooks : p.Looks
      · refine ⟨0, p, w, rfl, by rw [due_of_looks hlooks]; rfl, .inl ⟨hlooks, ?_⟩⟩
        have hcut := Pass.step_of_looks world.toSurroundings hlooks (world.isCanceled_cancel w)
        rw [Pass.run, hcut]
        exact Pass.run_ended world.toSurroundings m rfl _
      · -- The step is the one that it would have been.
        have hstep := (Pass.goes_step world.toSurroundings p w).togo_lt hnot
        obtain ⟨j, q, u, hrun, hahead, hrest⟩ :=
          ih (p := (p.step world.toSurroundings w).1) (by omega)
            (p.step world.toSurroundings w).2
        have hsame := world.ahead_step hlooks w
        refine ⟨j + 1, q, u, hrun, by omega, ?_⟩
        rw [Pass.run, step_cancel hlooks]
        exact hrest

/-- A canceled pass does the same whatever a fetch, a deletion or a replication would do: none
begins. -/
theorem run_canceled_congr (m : Nat) (p : Pass) {w : σ} (hw : world.isCanceled w = true)
    (fetch : Option Web.Account → Locator → σ → Except SyncFault Snapshot × σ)
    (delete replicate : List Artifact → σ → Except SyncFault Unit × σ) :
    Pass.run world.toSurroundings m p w =
      Pass.run { world.toSurroundings with fetch, delete, replicate } m p w := by
  have hstep : ∀ (p : Pass) w, world.isCanceled w = true →
      p.step world.toSurroundings w =
          p.step { world.toSurroundings with fetch, delete, replicate } w ∧
        world.isCanceled (p.step world.toSurroundings w).2 = true := by
    intro p w hw
    obtain ⟨credentials, total, waiting, failures, stage⟩ := p
    cases stage with
    | ended outcome => exact ⟨rfl, hw⟩
    | next =>
      cases waiting with
      | nil => exact ⟨rfl, hw⟩
      | cons item rest => simp [Pass.step, hw]
    | resolve item => exact ⟨rfl, (world.isCanceled_resolve _ w).trans hw⟩
    | fetch item source => simp [Pass.step, hw]
    | delete item snapshot c =>
      cases hempty : c.delete.isEmpty with
      | true => simp [Pass.step, hw, hempty]
      | false => simp [Pass.step, hw, hempty]
    | replicate item snapshot c =>
      cases hempty : c.replicate.isEmpty with
      | true => simp [Pass.step, hw, hempty]
      | false => simp [Pass.step, hw, hempty]
    | commit item snapshot => exact ⟨rfl, (world.isCanceled_commit _ _ w).trans hw⟩
    | notify item => exact ⟨rfl, (world.isCanceled_notify w).trans hw⟩
  exact Pass.run_congr hstep m p w hw

end World

/-! ## Steps That Are Cut Off -/

/-- The surroundings in which fetches, deletions and replications are cut off and leave a world
behind. -/
def Surroundings.severing (env : Surroundings σ) (left : σ) : Surroundings σ :=
  { env with
    fetch := fun _ _ _ => (.error .canceled, left)
    delete := fun _ _ => (.error .canceled, left)
    replicate := fun _ _ => (.error .canceled, left) }

/-- A pass ends when what it has begun is cut off. -/
theorem Pass.run_severing (env : Surroundings σ) {p : Pass} (h : p.Begins) {w : σ}
    (hlive : env.isCanceled w = false) (left : σ) (m : Nat) :
    run (env.severing left) (m + 1) p w = (p.cut, left) := by
  have hstep : p.step (env.severing left) w = (p.cut, left) := by
    obtain ⟨credentials, total, waiting, failures, stage⟩ := p
    cases stage with
    | fetch item source => simp [step, Surroundings.severing, hlive, follow, fail]
    | delete item snapshot c =>
      have hsome : c.delete ≠ [] := h
      simp [step, Surroundings.severing, hlive, List.isEmpty_iff, hsome, follow, fail]
    | replicate item snapshot c =>
      have hsome : c.replicate ≠ [] := h
      simp [step, Surroundings.severing, hlive, List.isEmpty_iff, hsome, follow, fail]
    | _ => cases h
  rw [run, hstep]
  exact run_ended _ m rfl _

/-! ## What Comes of an Interruption -/

namespace World

variable {world : World σ} {w : σ}

/-- The pass over all locators of a world, without an interruption. -/
def whole (world : World σ) (w : σ) : Outcome × σ :=
  Pass.complete world.toSurroundings (world.reconciler w) w

/-- Where it stands after some steps. -/
def moment (world : World σ) (w : σ) (n : Nat) : Pass × σ :=
  Pass.run world.toSurroundings n (Pass.start (world.reconciler w)) w

/-- In the world `left` that a pass leaves, the first `k` locators are as after the whole pass,
and the others as before it. -/
def LeavesOff (world : World σ) (w : σ) (k : Nat) (left : σ) : Prop :=
  (world.reconciler left).tracked =
    (world.reconciler (world.whole w).2).tracked.take k ++ (world.reconciler w).tracked.drop k

theorem moment_add (world : World σ) (w : σ) (n m : Nat) :
    world.moment w (n + m) =
      Pass.run world.toSurroundings m (world.moment w n).1 (world.moment w n).2 :=
  Pass.run_add world.toSurroundings n m _ w

/-- Where a pass has ended, the whole pass has. -/
theorem whole_of_ended {n : Nat} {outcome : Outcome}
    (h : (world.moment w n).1.stage = .ended outcome) :
    world.whole w = (outcome, (world.moment w n).2) := by
  have hbound : (Pass.start (world.reconciler w)).togo ≤
      Pass.maxSteps (world.reconciler w).tracked.length := Nat.le_refl _
  obtain ⟨o, hended⟩ := Pass.run_ends world.toSurroundings hbound w
  have heq := Pass.run_eq_of_ended world.toSurroundings hended h
  rw [whole, Pass.complete, heq]
  exact Prod.ext (Pass.outcome_of_ended h) rfl

theorem exists_ended (world : World σ) (w : σ) (n : Nat) :
    ∃ m outcome, (world.moment w (n + m)).1.stage = .ended outcome := by
  obtain ⟨outcome, hended⟩ :=
    Pass.run_ends world.toSurroundings (Nat.le_refl (world.moment w n).1.togo)
      (world.moment w n).2
  rw [← moment_add] at hended
  exact ⟨_, outcome, hended⟩

/-- A world that remembers what is remembered when some locators are finished. -/
theorem Stands.leavesOff {n : Nat} {done : List Tracked}
    (h : world.Stands (world.reconciler w).tracked done (world.moment w n).1
      (world.moment w n).2) {left : σ}
    (hleft : world.reconciler left = world.reconciler (world.moment w n).2) :
    world.LeavesOff w done.length left := by
  obtain ⟨m, outcome, hended⟩ := world.exists_ended w n
  obtain ⟨more, hend⟩ := h.run m
  rw [← moment_add] at hend
  rw [LeavesOff, hleft, whole_of_ended hended, h.tracked, h.ahead, hend.tracked,
    List.append_assoc, List.take_left]

/-- A canceled pass ends as the whole pass stands at some moment, when the locator that was due
is finished, too: there it is cut, or the whole pass has ended. -/
theorem Stands.cancel {n : Nat} {done : List Tracked}
    (h : world.Stands (world.reconciler w).tracked done (world.moment w n).1
      (world.moment w n).2) {m : Nat} (hm : (world.moment w n).1.togo ≤ m) :
    ∃ k done', world.Stands (world.reconciler w).tracked done' (world.moment w k).1
        (world.moment w k).2 ∧
      done'.length = (world.moment w n).1.finished +
        world.due (world.moment w n).1 (world.moment w n).2 ∧
      ∃ q, Pass.run world.toSurroundings m (world.moment w n).1
          (world.cancel (world.moment w n).2) = (q, world.cancel (world.moment w k).2) ∧
        (((world.moment w k).1.Looks ∧ q = (world.moment w k).1.cut) ∨
          ((∃ outcome, (world.moment w k).1.stage = .ended outcome) ∧
            q = (world.moment w k).1)) := by
  obtain ⟨j, q, u, hrun, hahead, hcases⟩ := run_cancel hm (world.moment w n).2
  obtain ⟨more, hthen⟩ := h.run j
  have hmoment := world.moment_add w n j
  rw [hrun] at hmoment hthen
  refine ⟨n + j, done ++ more, hmoment ▸ hthen, ?_, ?_⟩
  · have hcount := h.count
    have hcount' : (done ++ more).length + q.ahead.length = _ := hthen.count
    rw [h.finished_eq]
    omega
  · rw [hmoment]
    rcases hcases with ⟨hlooks, hcut⟩ | ⟨hended, hlast⟩
    · exact ⟨_, hcut, .inl ⟨hlooks, rfl⟩⟩
    · exact ⟨_, hlast, .inr ⟨hended, rfl⟩⟩

/-- A pass that has ended by itself has finished all locators. -/
theorem Stands.length_of_ended {items done : List Tracked} {p : Pass} {v : σ}
    (h : world.Stands items done p v) {o : Outcome} (hended : p.stage = .ended o) :
    done.length = items.length := by
  have hcount := h.count
  rw [Pass.ahead, hended, h.ended o hended] at hcount
  exact hcount

/-- What comes of a pass that is interrupted when it stands at `p` in a world `v`. It began in a
world `w`. -/
structure Interrupted (world : World σ) (w : σ) (p : Pass) (v : σ) : Prop where
  /-- If it is canceled, those locators are finished that were so before, and the one in progress
  if this takes no further fetch, deletion or replication. -/
  canceled : ∀ m, p.togo ≤ m →
    world.LeavesOff w (p.finished + world.due p v)
      (Pass.run world.toSurroundings m p (world.cancel v)).2
  /-- The outcome says that the pass is canceled, unless these are all locators; then it is that
  of the whole pass. -/
  outcome : ∀ m, p.togo ≤ m →
    (Pass.run world.toSurroundings m p (world.cancel v)).1.outcome =
      if p.finished + world.due p v < (world.reconciler w).tracked.length then .failed .canceled
      else (world.whole w).1
  /-- No fetch, deletion or replication begins any more: the same is done whatever they do. -/
  calm : ∀ m fetch delete replicate,
    Pass.run world.toSurroundings m p (world.cancel v) =
      Pass.run { world.toSurroundings with fetch, delete, replicate } m p (world.cancel v)
  /-- If a fetch, a deletion or a replication is cut off by a cancellation or by a deadline,
  whatever else it leaves behind, the locator in progress is as it was before, -/
  cutOff : p.Begins → ∀ left, world.reconciler left = world.reconciler v →
    world.LeavesOff w p.finished left ∧ p.finished < (world.reconciler w).tracked.length
  /-- and a pass that is canceled so is over. A deadline leaves no outcome at all. -/
  ends : p.Begins → ∀ left m,
    (Pass.run (world.severing left) (m + 1) p v).1.outcome = .failed .canceled ∧
      (Pass.run (world.severing left) (m + 1) p v).2 = left

/-- It is known what comes of interruptions at any moment. The locators of a reconciler are
distinct, wherever it comes from. -/
theorem interrupted_anywhere (world : World σ) {w : σ} (hlive : world.isCanceled w = false)
    (hdistinct : (world.reconciler w).locators.Nodup) (n : Nat) :
    world.Interrupted w (world.moment w n).1 (world.moment w n).2 := by
  obtain ⟨done, hstands⟩ := (stands_start hlive hdistinct).run n
  rw [List.nil_append] at hstands
  change world.Stands _ done (world.moment w n).1 (world.moment w n).2 at hstands
  refine ⟨?_, ?_, ?_, ?_, ?_⟩
  · intro m hm
    obtain ⟨k, done', hthen, hdone, q, hrun, -⟩ := hstands.cancel hm
    rw [← hdone, hrun]
    exact hthen.leavesOff (world.reconciler_cancel _)
  · intro m hm
    obtain ⟨k, done', hthen, hdone, q, hrun, ⟨hlooks, rfl⟩ | ⟨⟨outcome, hended⟩, rfl⟩⟩ :=
      hstands.cancel hm
    · have hahead := Pass.ahead_of_looks hlooks
      have hcount := hthen.count
      rw [← hdone, hrun, if_pos (by omega)]
      rfl
    · have hall := hthen.length_of_ended hended
      rw [← hdone, hrun, if_neg (hall ▸ Nat.lt_irrefl _), whole_of_ended hended]
      exact Pass.outcome_of_ended hended
  · intro m fetch delete replicate
    exact run_canceled_congr m _ (world.isCanceled_cancel _) fetch delete replicate
  · intro hbegins left hleft
    have hahead := Pass.ahead_of_looks (.inl hbegins)
    have hcount := hstands.count
    rw [hstands.finished_eq]
    exact ⟨hstands.leavesOff hleft, by omega⟩
  · intro hbegins left m
    rw [Pass.run_severing world.toSurroundings hbegins hstands.live left m]
    exact ⟨rfl, rfl⟩

end World

/-! ## Scenes -/

namespace Scene

/-- A scene whose replica answers in a given way. -/
def world {replies : Replies} (hreplies : ∀ before c, replies before c ≠ .error .canceled) :
    World Scene where
  toSurroundings := answering replies
  reconciler := reconciler
  cancel s := { s with isCanceled := true }
  isCanceled_cancel _ := rfl
  reconciler_cancel _ := rfl
  resolve_cancel locator s := by
    simp only [answering, surroundings, resolve]
    split <;> rfl
  commit_cancel _ _ _ := rfl
  notify_cancel _ := rfl
  reconciler_commit _ _ _ := rfl
  reconciler_resolve locator s := (s.resolve_frame locator).2
  reconciler_fetch _ _ _ := rfl
  reconciler_delete _ _ := rfl
  reconciler_replicate _ _ := rfl
  reconciler_notify _ := rfl
  isCanceled_commit _ _ _ := rfl
  isCanceled_resolve locator s := (s.alike_resolve locator).isCanceled
  isCanceled_fetch _ _ _ := rfl
  isCanceled_delete _ _ := rfl
  isCanceled_replicate _ _ := rfl
  isCanceled_notify _ := rfl
  resolve_ne locator s := by
    simp only [answering, surroundings, resolve]
    split <;> simp
  fetch_ne account source s := fetch_ne_canceled s.site.files s.site.network account source
  delete_ne artifacts s := hreplies s.calls (.delete artifacts)
  replicate_ne artifacts s := hreplies s.calls (.replicate artifacts)

/-- A file is there for one of two locators. The pass is interrupted while it replicates what
the file holds. -/
theorem interrupted_anywhere_two :
    let replies : Replies := fun _ _ => .ok ()
    let s := new (Site.holding (oneImageText "d1")) (.new .empty ["a", "b"])
    ∃ hreplies : ∀ before c, replies before c ≠ .error .canceled,
      s.isCanceled = false ∧ s.reconciler.locators.Nodup ∧
        (world hreplies).Interrupted s ((world hreplies).moment s 4).1
          ((world hreplies).moment s 4).2 := by
  intro replies s
  have hreplies : ∀ before c, replies before c ≠ .error .canceled := nofun
  have hdistinct : s.reconciler.locators.Nodup :=
    (Reconciler.Arises.new .empty ["a", "b"]).nodup_locators
  have hlive : (world hreplies).isCanceled s = false := rfl
  exact ⟨hreplies, hlive, hdistinct,
    World.interrupted_anywhere (world hreplies) hlive hdistinct 4⟩

/-- A scene with one locator that is canceled while the replica replicates. -/
def canceledMeanwhile : Scene :=
  { new (Site.holding (oneImageText "d1")) (.new .empty ["a"]) with
    cues := [⟨.replicate, .cancel⟩] }

/-- The cancellation comes when the only locator is not finished. The replica goes on to the
end of its work, and the pass is not canceled. -/
theorem canceled_pass_completes :
    let s := canceledMeanwhile
    let before := Pass.run surroundings 4 (Pass.start s.reconciler) s
    let after := Pass.run surroundings 5 (Pass.start s.reconciler) s
    before.2.isCanceled = false ∧ after.2.isCanceled = true ∧
      after.1.finished = 0 ∧ s.reconciler.tracked.length = 1 ∧
      s.execute.1 = .done .continue := by
  intro s before after
  -- The source is found and the document is fetched; there is nothing to delete.
  have hresolve : surroundings.resolve "a" s = (.ok (.file "a"), s) :=
    resolve_file (Site.parse_holding _ _)
  have hfetch : ∀ account, surroundings.fetch account (.file "a") s = (.ok (oneImage "d1"), s) :=
    fetch_file (fetchFile_of_parse (Site.read_holding _) parse_oneImageText)
  have hcompare : Pass.run surroundings 3 (Pass.start s.reconciler) s =
      (⟨.empty, 1, [], [], Pass.compare ⟨"a", none⟩ (oneImage "d1")⟩, s) :=
    Pass.run_compare (p := Pass.start s.reconciler) rfl rfl rfl hresolve hfetch
  have hthen : ∀ k, Pass.run surroundings (3 + k) (Pass.start s.reconciler) s =
      Pass.run surroundings k
        ⟨.empty, 1, [], [], Pass.compare ⟨"a", none⟩ (oneImage "d1")⟩ s := by
    intro k
    rw [Pass.run_add, hcompare]
  have hbefore : before = _ := hthen 1
  have hafter : after = _ := hthen 2
  have hwhole : s.execute.1 = _ := congrArg (fun answer => answer.1.outcome) (hthen 5)
  rw [hbefore, hafter, hwhole]
  decide +kernel

end Scene

end EdgeSync
