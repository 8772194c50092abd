import EdgeSync.Proofs.Pass.Scenes

/-!
# Progress of Passes

At every moment of a pass some locators are finished, in the order in which they are tracked,
and the others are ahead of it. Those that are finished keep what has become of them, and those
that are ahead still have the snapshots that they had at the beginning. Every step brings the
end nearer.

This holds in all worlds in which only the pass changes what is remembered of the locators and
nothing is canceled by itself, whatever else may happen in them between two steps.

## Main definitions

- `Pass.ahead`: the locators that are not finished
- `Pass.Goes`: what a step can make of a pass
- `Reconciler.Arises`: what becomes of a reconciler
- `World`: surroundings in which nothing but the pass touches its locators
- `World.Stands`: how a pass stands at a moment

## Main results

- `Pass.goes_step`: what a step makes of a pass
- `World.Stands.step`, `World.Stands.run`: what some steps leave
- `Pass.run_ends`: a pass ends
- `Reconciler.Arises.nodup_locators`: no locator is tracked twice
-/

namespace EdgeSync

/-! ## Stages -/

/-- An upper bound of the steps that are left on a locator, and one for what follows. -/
def Stage.rank : Stage → Nat
  | .ended _ => 0
  | .next => 1
  | .notify _ => 2
  | .commit .. => 3
  | .replicate .. => 4
  | .delete .. => 5
  | .fetch .. => 6
  | .resolve _ => 7

/-- The locator that a stage works on. One whose snapshot is remembered is finished. -/
def Stage.item? : Stage → Option Tracked
  | .resolve item => some item
  | .fetch item _ => some item
  | .delete item _ _ => some item
  | .replicate item _ _ => some item
  | .commit item _ => some item
  | .next => none
  | .notify _ => none
  | .ended _ => none

theorem Stage.rank_of_item {stage : Stage} {item : Tracked} (h : stage.item? = some item) :
    3 ≤ stage.rank := by
  cases stage with
  | next => cases h
  | notify item => cases h
  | ended outcome => cases h
  | resolve item => exact (by decide : 3 ≤ 7)
  | fetch item source => exact (by decide : 3 ≤ 6)
  | delete item snapshot c => exact (by decide : 3 ≤ 5)
  | replicate item snapshot c => exact (by decide : 3 ≤ 4)
  | commit item snapshot => exact Nat.le_refl 3

namespace Pass

/-- The locators that are not finished: the one that is being worked on and those that wait. -/
def ahead (p : Pass) : List Tracked :=
  p.stage.item?.toList ++ p.waiting

/-- An upper bound of the steps that are left. -/
def togo (p : Pass) : Nat :=
  7 * p.waiting.length + p.stage.rank

theorem togo_start (r : Reconciler) : (start r).togo = maxSteps r.tracked.length := rfl

/-! ## Steps -/

/-- What a step makes of a pass, whatever the surroundings answer. -/
inductive Goes (p : Pass) : Pass → Prop where
  | stays {outcome : Outcome} (h : p.stage = .ended outcome) : Goes p p
  | ends (h : p.stage = .next) (hwaiting : p.waiting = []) : Goes p (p.moveTo (.ended p.conclusion))
  | takes {item : Tracked} {rest : List Tracked} (h : p.stage = .next)
      (hwaiting : p.waiting = item :: rest) :
      Goes p { p with waiting := rest, stage := .resolve item }
  | cut (h : 0 < p.stage.rank) : Goes p p.cut
  | fails {item : Tracked} (fault : SyncFault) (h : p.stage.item? = some item) :
      Goes p (p.fail item fault)
  /-- The work on a locator goes on; to a deletion it comes from a comparison only. -/
  | proceeds {item : Tracked} {stage : Stage} (h : p.stage.item? = some item)
      (hstage : stage.item? = some item) (hrank : stage.rank < p.stage.rank)
      (hdelete : ∀ snapshot c, stage = .delete item snapshot c →
        c = changes item.last snapshot) : Goes p (p.moveTo stage)
  | finishes {item : Tracked} {snapshot : Snapshot} (h : p.stage = .commit item snapshot) :
      Goes p (p.moveTo (.notify item))
  | notes {item : Tracked} (h : p.stage = .notify item) : Goes p (p.moveTo .next)

theorem goes_follow {p : Pass} {item : Tracked} (h : p.stage.item? = some item) {α : Type}
    (answer : Except SyncFault α) {stage : α → Stage} (hstage : ∀ a, (stage a).item? = some item)
    (hrank : ∀ a, (stage a).rank < p.stage.rank)
    (hdelete : ∀ a snapshot c, stage a = .delete item snapshot c →
      c = changes item.last snapshot) : Goes p (p.follow item answer stage) := by
  cases answer with
  | ok a => exact .proceeds h (hstage a) (hrank a) (hdelete a)
  | error fault => exact .fails fault h

variable {σ : Type} (env : Surroundings σ)

/-- A step does one of these things. -/
theorem goes_step (p : Pass) (w : σ) : Goes p (p.step env w).1 := by
  obtain ⟨credentials, total, waiting, failures, stage⟩ := p
  cases stage with
  | ended outcome => exact .stays rfl
  | next =>
    cases waiting with
    | nil => exact .ends rfl rfl
    | cons item rest =>
      simp only [step]
      split
      · exact .cut Nat.one_pos
      · exact .takes rfl rfl
  | resolve item => exact goes_follow rfl _ (fun _ => rfl) (fun _ => Nat.lt_succ_self 6) fun _ _ _ h => by cases h
  | fetch item source =>
    simp only [step]
    split
    · exact .cut (Nat.succ_pos 5)
    · refine goes_follow rfl _ (fun _ => rfl) (fun _ => Nat.lt_succ_self 5) ?_
      rintro fetched snapshot c ⟨⟩
      rfl
  | delete item snapshot c =>
    simp only [step]
    split
    · exact .proceeds rfl rfl (Nat.lt_succ_self 4) fun _ _ h => by cases h
    · split
      · exact .cut (Nat.succ_pos 4)
      · exact goes_follow rfl _ (fun _ => rfl) (fun _ => Nat.lt_succ_self 4) fun _ _ _ h => by cases h
  | replicate item snapshot c =>
    simp only [step]
    split
    · exact .proceeds rfl rfl (Nat.lt_succ_self 3) fun _ _ h => by cases h
    · split
      · exact .cut (Nat.succ_pos 3)
      · exact goes_follow rfl _ (fun _ => rfl) (fun _ => Nat.lt_succ_self 3) fun _ _ _ h => by cases h
  | commit item snapshot => exact .finishes rfl
  | notify item => exact .notes rfl

/-- Every step brings the end nearer. -/
theorem Goes.togo_lt {p q : Pass} (hgoes : Goes p q) (h : ∀ outcome, p.stage ≠ .ended outcome) :
    q.togo < p.togo := by
  cases hgoes with
  | stays hended => exact absurd hended (h _)
  | ends hnext hwaiting => simp [togo, moveTo, hnext, hwaiting, Stage.rank]
  | takes hnext hwaiting =>
    simp only [togo, hnext, hwaiting, Stage.rank, List.length_cons]
    omega
  | cut hrank => exact Nat.add_lt_add_left hrank _
  | @fails item fault hitem =>
    have hrank := Stage.rank_of_item hitem
    have hfail : (p.fail item fault).togo ≤ 7 * p.waiting.length + 1 := by
      unfold fail
      split
      · exact Nat.le_succ _
      · exact Nat.le_refl _
    simp only [togo] at hfail ⊢
    omega
  | proceeds hitem hstage hrank hdelete => exact Nat.add_lt_add_left hrank _
  | finishes hcommit => simp [togo, moveTo, hcommit, Stage.rank]
  | notes hnotify => simp [togo, moveTo, hnotify, Stage.rank]

/-- No step turns to a locator that was not ahead. -/
theorem Goes.mem_ahead {p q : Pass} (hgoes : Goes p q) {t : Tracked} (h : t ∈ q.ahead) :
    t ∈ p.ahead := by
  cases hgoes with
  | stays hended => exact h
  | ends hnext hwaiting => exact List.mem_append_right _ h
  | takes hnext hwaiting => simpa [ahead, hnext, hwaiting, Stage.item?] using h
  | cut hrank => exact List.mem_append_right _ h
  | fails fault hitem =>
    unfold fail at h
    split at h
    · exact List.mem_append_right _ h
    · exact List.mem_append_right _ h
  | proceeds hitem hstage hrank hdelete =>
    rw [ahead, hitem, ← hstage]
    exact h
  | finishes hcommit => exact List.mem_append_right _ h
  | notes hnotify => exact List.mem_append_right _ h

/-- A deletion is of what a comparison asks for. -/
theorem Goes.changes_eq {p q : Pass} (hgoes : Goes p q) {item : Tracked} {snapshot : Snapshot}
    {c : Changes} (h : q.stage = .delete item snapshot c) : c = changes item.last snapshot := by
  cases hgoes with
  | stays hended => cases hended.symm.trans h
  | ends hnext hwaiting => cases h
  | takes hnext hwaiting => cases h
  | cut hrank => cases h
  | fails fault hitem =>
    unfold fail at h
    split at h
    · cases h
    · cases h
  | @proceeds first stage hitem hstage hrank hdelete =>
    obtain rfl : stage = .delete item snapshot c := h
    obtain rfl : item = first := Option.some.inj hstage
    exact hdelete snapshot c rfl
  | finishes hcommit => cases h
  | notes hnotify => cases h

/-! ## The End -/

theorem ended_or_not (p : Pass) :
    (∃ outcome, p.stage = .ended outcome) ∨ ∀ outcome, p.stage ≠ .ended outcome := by
  by_cases h : ∃ outcome, p.stage = .ended outcome
  · exact .inl h
  · exact .inr fun outcome hended => h ⟨outcome, hended⟩

theorem outcome_of_ended {p : Pass} {o : Outcome} (h : p.stage = .ended o) : p.outcome = o := by
  simp only [outcome, h]

/-- A pass ends. -/
theorem run_ends {m : Nat} {p : Pass} (h : p.togo ≤ m) (w : σ) :
    ∃ outcome, (run env m p w).1.stage = .ended outcome := by
  induction m generalizing p w with
  | zero =>
    -- A pass that has not ended has a step to go.
    rcases p.ended_or_not with hended | hnot
    · exact hended
    · have hstep := (goes_step env p w).togo_lt hnot
      omega
  | succ m ih =>
    rcases p.ended_or_not with ⟨outcome, hended⟩ | hnot
    · rw [run_ended env _ hended]
      exact ⟨outcome, hended⟩
    · have hstep := (goes_step env p w).togo_lt hnot
      exact ih (Nat.le_of_lt_succ (Nat.lt_of_lt_of_le hstep h)) (p.step env w).2

/-- Where a pass has ended does not depend on the number of steps. -/
theorem run_eq_of_ended {m n : Nat} {p : Pass} {w : σ} {o o' : Outcome}
    (hm : (run env m p w).1.stage = .ended o) (hn : (run env n p w).1.stage = .ended o') :
    run env m p w = run env n p w := by
  rcases Nat.le_total m n with h | h
  · obtain ⟨more, rfl⟩ := Nat.exists_eq_add_of_le h
    rw [run_add, run_ended env more hm]
  · obtain ⟨more, rfl⟩ := Nat.exists_eq_add_of_le h
    rw [run_add, run_ended env more hn]

end Pass

/-! ## Distinct Locators -/

theorem nodup_track {tracked : List Tracked} (h : (tracked.map Tracked.locator).Nodup)
    (locator : String) : ((track tracked locator).map Tracked.locator).Nodup := by
  unfold track
  split
  · exact h
  · next hnew =>
    have hother : ∀ t ∈ tracked, t.locator ≠ locator := by
      intro t ht heq
      exact hnew (List.any_eq_true.mpr ⟨t, ht, beq_iff_eq.mpr heq⟩)
    rw [List.map_append, List.nodup_append]
    refine ⟨h, List.pairwise_singleton _ _, ?_⟩
    simpa using hother

theorem nodup_tracks {tracked : List Tracked} (h : (tracked.map Tracked.locator).Nodup)
    (locators : List String) : ((locators.foldl track tracked).map Tracked.locator).Nodup := by
  induction locators generalizing tracked with
  | nil => exact h
  | cons locator rest ih => exact ih (nodup_track h locator)

namespace Reconciler

/-- What becomes of a reconciler. -/
inductive Arises : Reconciler → Prop
  | new (credentials : Credentials) (locators : List String) : Arises (.new credentials locators)
  | setLocators {r : Reconciler} (h : Arises r) (locators : List String) :
    Arises (r.setLocators locators)
  | applyRegistration {r : Reconciler} (h : Arises r) (e : Enrollment) :
    Arises (r.applyRegistration e)
  | commit {r : Reconciler} (h : Arises r) (locator : String) (snapshot : Snapshot) :
    Arises (r.commit locator snapshot)

theorem Arises.heed {r : Reconciler} (h : r.Arises) (event : Event) : (r.heed event).Arises := by
  unfold Reconciler.heed
  split
  · exact h.applyRegistration _
  · split
    · exact h
    · exact h.setLocators _
  · exact h

theorem locators_commit (r : Reconciler) (locator : String) (snapshot : Snapshot) :
    (r.commit locator snapshot).locators = r.locators := by
  simp only [locators, commit, List.map_map]
  refine List.map_congr_left fun t _ => ?_
  dsimp only [Function.comp_apply]
  split <;> rfl

theorem nodup_kept {r : Reconciler} (h : r.locators.Nodup) (locators : List String) :
    ((r.tracked.filter fun t => locators.contains t.locator).map Tracked.locator).Nodup :=
  h.sublist (List.filter_sublist.map _)

/-- No locator is tracked twice. -/
theorem Arises.nodup_locators {r : Reconciler} (h : r.Arises) : r.locators.Nodup := by
  induction h with
  | new credentials locators =>
    have hnone : (([] : List Tracked).map Tracked.locator).Nodup := List.nodup_nil
    exact nodup_tracks hnone locators
  | setLocators _ locators ih => exact nodup_tracks (nodup_kept ih locators) locators
  | applyRegistration _ e ih => exact nodup_tracks (nodup_kept ih e.states) e.states
  | commit _ locator snapshot ih => rwa [locators_commit]

end Reconciler

/-! ## Worlds -/

/-- Surroundings with a reconciler, in which nothing but the pass changes what is remembered of
the locators. A pass is canceled from outside only; then nothing else is different, and it goes
unnoticed except where the pass looks for it. -/
structure World (σ : Type) extends Surroundings σ where
  /-- What remembers the snapshots of the locators. -/
  reconciler : σ → Reconciler
  /-- Cancel the pass. -/
  cancel : σ → σ
  isCanceled_cancel : ∀ w, isCanceled (cancel w) = true
  reconciler_cancel : ∀ w, reconciler (cancel w) = reconciler w
  resolve_cancel : ∀ locator w,
    resolve locator (cancel w) = ((resolve locator w).1, cancel (resolve locator w).2)
  commit_cancel : ∀ locator snapshot w,
    commit locator snapshot (cancel w) = cancel (commit locator snapshot w)
  notify_cancel : ∀ w, notify (cancel w) = cancel (notify w)
  /-- A commit is remembered. -/
  reconciler_commit : ∀ locator snapshot w,
    reconciler (commit locator snapshot w) = (reconciler w).commit locator snapshot
  reconciler_resolve : ∀ locator w, reconciler (resolve locator w).2 = reconciler w
  reconciler_fetch : ∀ account source w, reconciler (fetch account source w).2 = reconciler w
  reconciler_delete : ∀ artifacts w, reconciler (delete artifacts w).2 = reconciler w
  reconciler_replicate : ∀ artifacts w, reconciler (replicate artifacts w).2 = reconciler w
  reconciler_notify : ∀ w, reconciler (notify w) = reconciler w
  /-- No step cancels the pass. -/
  isCanceled_commit : ∀ locator snapshot w, isCanceled (commit locator snapshot w) = isCanceled w
  isCanceled_resolve : ∀ locator w, isCanceled (resolve locator w).2 = isCanceled w
  isCanceled_fetch : ∀ account source w, isCanceled (fetch account source w).2 = isCanceled w
  isCanceled_delete : ∀ artifacts w, isCanceled (delete artifacts w).2 = isCanceled w
  isCanceled_replicate : ∀ artifacts w, isCanceled (replicate artifacts w).2 = isCanceled w
  isCanceled_notify : ∀ w, isCanceled (notify w) = isCanceled w
  /-- No step is cut off by itself. -/
  resolve_ne : ∀ locator w, (resolve locator w).1 ≠ .error .canceled
  fetch_ne : ∀ account source w, (fetch account source w).1 ≠ .error .canceled
  delete_ne : ∀ artifacts w, (delete artifacts w).1 ≠ .error .canceled
  replicate_ne : ∀ artifacts w, (replicate artifacts w).1 ≠ .error .canceled

/-! ## How a Pass Stands -/

/-- How many locators are finished. -/
def Pass.finished (p : Pass) : Nat :=
  p.total - p.ahead.length

namespace World

variable {σ : Type} {world : World σ} {items done : List Tracked} {p : Pass} {w : σ}

/-- How a pass over some locators stands at a moment: `done` is what has become of those that
are finished. -/
structure Stands (world : World σ) (items done : List Tracked) (p : Pass) (w : σ) : Prop where
  live : world.isCanceled w = false
  tracked : (world.reconciler w).tracked = done ++ p.ahead
  distinct : (world.reconciler w).locators.Nodup
  ahead : p.ahead = items.drop done.length
  count : done.length + p.ahead.length = items.length
  total : p.total = items.length
  /-- It has not ended before its last locator. -/
  ended : ∀ outcome, p.stage = .ended outcome → p.waiting = []

theorem Stands.finished_eq (h : world.Stands items done p w) : p.finished = done.length := by
  rw [Pass.finished, h.total, ← h.count, Nat.add_sub_cancel]

/-- A step that stays with its locator, or with none. -/
theorem Stands.keep (h : world.Stands items done p w) {q : Pass} {w' : σ}
    (hreconciler : world.reconciler w' = world.reconciler w)
    (hlive : world.isCanceled w' = world.isCanceled w) (hahead : q.ahead = p.ahead)
    (htotal : q.total = p.total) (hended : ∀ outcome, q.stage = .ended outcome → q.waiting = []) :
    world.Stands items done q w' where
  live := hlive.trans h.live
  tracked := by rw [hreconciler, hahead, h.tracked]
  distinct := by rw [hreconciler]; exact h.distinct
  ahead := hahead.trans h.ahead
  count := by rw [hahead, h.count]
  total := htotal.trans h.total
  ended := hended

/-- A step that finishes its locator. -/
theorem Stands.finish (h : world.Stands items done p w) {item entry : Tracked}
    (hitem : p.stage.item? = some item) {q : Pass} {w' : σ}
    (htracked : (world.reconciler w').tracked = done ++ entry :: p.waiting)
    (hdistinct : (world.reconciler w').locators.Nodup)
    (hlive : world.isCanceled w' = world.isCanceled w) (hahead : q.ahead = p.waiting)
    (htotal : q.total = p.total) (hended : ∀ outcome, q.stage ≠ .ended outcome) :
    world.Stands items (done ++ [entry]) q w' := by
  have hsplit : p.ahead = item :: p.waiting := by
    rw [Pass.ahead, hitem]
    rfl
  have hdrop := h.ahead
  have hcount := h.count
  rw [hsplit] at hdrop hcount
  refine ⟨hlive.trans h.live, ?_, hdistinct, ?_, ?_, htotal.trans h.total,
    fun outcome hq => absurd hq (hended outcome)⟩
  · rw [htracked, hahead, List.append_assoc]
    rfl
  · rw [hahead, List.length_append, List.length_singleton, ← List.tail_drop, ← hdrop]
    rfl
  · rw [hahead, ← hcount]
    simp only [List.length_append, List.length_cons, List.length_nil]
    omega

/-- A step that may fail; then its locator is finished as it was. -/
theorem Stands.follow (h : world.Stands items done p w) {item : Tracked}
    (hitem : p.stage.item? = some item) {w' : σ}
    (hreconciler : world.reconciler w' = world.reconciler w)
    (hlive : world.isCanceled w' = world.isCanceled w) {α : Type} {answer : Except SyncFault α}
    (hanswer : answer ≠ .error .canceled) {stage : α → Stage}
    (hstage : ∀ a, (stage a).item? = some item) :
    ∃ more, world.Stands items (done ++ more) (p.follow item answer stage) w' := by
  have hsplit : p.ahead = item :: p.waiting := by
    rw [Pass.ahead, hitem]
    rfl
  cases answer with
  | ok a =>
    -- The pass stays with the locator.
    refine ⟨[], ?_⟩
    rw [List.append_nil]
    refine h.keep hreconciler hlive ?_ rfl ?_
    · rw [hsplit]
      simp only [Pass.follow, Pass.moveTo, Pass.ahead, hstage]
      rfl
    · intro outcome hended
      have hnone := hstage a
      rw [show stage a = .ended outcome from hended] at hnone
      cases hnone
  | error fault =>
    have hfault : fault ≠ .canceled := by
      rintro rfl
      exact hanswer rfl
    refine ⟨[item], ?_⟩
    simp only [Pass.follow, Pass.fail, if_neg hfault]
    refine h.finish hitem ?_ ?_ hlive rfl rfl fun _ h => by cases h
    · rw [hreconciler, h.tracked, hsplit]
    · rw [hreconciler]
      exact h.distinct

/-- A step leaves what has become of the finished locators, and may finish one more. -/
theorem Stands.step (h : world.Stands items done p w) :
    ∃ more, world.Stands items (done ++ more) (p.step world.toSurroundings w).1
      (p.step world.toSurroundings w).2 := by
  have hstay : world.Stands items (done ++ []) p w := by rwa [List.append_nil]
  have hlive := h.live
  obtain ⟨credentials, total, waiting, failures, stage⟩ := p
  cases stage with
  | ended outcome => exact ⟨[], hstay⟩
  | next =>
    refine ⟨[], ?_⟩
    cases waiting with
    | nil => exact hstay.keep rfl rfl rfl rfl fun _ _ => rfl
    | cons item rest =>
      simp only [Pass.step, hlive, Bool.false_eq_true, if_false]
      exact hstay.keep rfl rfl rfl rfl fun _ h => by cases h
  | resolve item =>
    exact h.follow rfl (world.reconciler_resolve _ w) (world.isCanceled_resolve _ w)
      (world.resolve_ne _ w) fun _ => rfl
  | fetch item source =>
    simp only [Pass.step, hlive, Bool.false_eq_true, if_false]
    exact h.follow rfl (world.reconciler_fetch _ _ w) (world.isCanceled_fetch _ _ w)
      (world.fetch_ne _ _ w) fun _ => rfl
  | delete item snapshot c =>
    simp only [Pass.step, hlive, Bool.false_eq_true, if_false]
    split
    · exact ⟨[], hstay.keep rfl rfl rfl rfl fun _ h => by cases h⟩
    · exact h.follow rfl (world.reconciler_delete _ w) (world.isCanceled_delete _ w)
        (world.delete_ne _ w) fun _ => rfl
  | replicate item snapshot c =>
    simp only [Pass.step, hlive, Bool.false_eq_true, if_false]
    split
    · exact ⟨[], hstay.keep rfl rfl rfl rfl fun _ h => by cases h⟩
    · exact h.follow rfl (world.reconciler_replicate _ w) (world.isCanceled_replicate _ w)
        (world.replicate_ne _ w) fun _ => rfl
  | commit item snapshot =>
    have hcommit := Reconciler.commit_tracked h.tracked h.distinct snapshot
    have hreconciler := world.reconciler_commit item.locator snapshot w
    rw [hcommit] at hreconciler
    refine ⟨[{ item with last := some snapshot }], h.finish rfl ?_ ?_
      (world.isCanceled_commit _ _ w) rfl rfl fun _ h => by cases h⟩
    · exact congrArg Reconciler.tracked hreconciler
    · have hlocators := h.distinct
      rw [Reconciler.locators, h.tracked] at hlocators
      simpa [Pass.step, hreconciler, Reconciler.locators, Pass.ahead, Stage.item?] using hlocators
  | notify item =>
    exact ⟨[], hstay.keep (world.reconciler_notify w) (world.isCanceled_notify w) rfl rfl fun _ h => by cases h⟩

/-- So do some steps. -/
theorem Stands.run (h : world.Stands items done p w) (n : Nat) :
    ∃ more, world.Stands items (done ++ more) (Pass.run world.toSurroundings n p w).1
      (Pass.run world.toSurroundings n p w).2 := by
  induction n generalizing done p w with
  | zero => exact ⟨[], by rwa [List.append_nil]⟩
  | succ n ih =>
    obtain ⟨first, hfirst⟩ := h.step
    obtain ⟨more, hmore⟩ := ih hfirst
    rw [List.append_assoc] at hmore
    exact ⟨first ++ more, hmore⟩

/-- At the beginning no locator is finished. -/
theorem stands_start (hlive : world.isCanceled w = false)
    (hdistinct : (world.reconciler w).locators.Nodup) :
    world.Stands (world.reconciler w).tracked [] (Pass.start (world.reconciler w)) w where
  live := hlive
  tracked := rfl
  distinct := hdistinct
  ahead := rfl
  count := Nat.zero_add _
  total := rfl
  ended _ h := by cases h

end World

end EdgeSync
