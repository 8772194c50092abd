import EdgeSync.Sync.Pass

/-!
# Passes in Big Steps

A pass takes small steps, so that other things may happen between them. When nothing
else happens it comes to the same as treating its locators one after the other, each
in one go. This holds in all surroundings, whatever they answer.

## Main results

- `leads_treat`: the small steps on one locator come to its treatment
- `complete_eq_sweep`: a whole pass comes to the treatment of all locators
-/

namespace EdgeSync

open EdgeSync.Web

variable {σ : Type}

/-! ## Treating a Locator in One Go -/

namespace Surroundings

/-- Ask the replica for something, unless there is nothing to ask for or the pass is
canceled. -/
def ask (env : Surroundings σ) (call : List Artifact → σ → Except SyncFault Unit × σ)
    (artifacts : List Artifact) (w : σ) : Except SyncFault Unit × σ :=
  if artifacts.isEmpty then (.ok (), w)
  else if env.isCanceled w then (.error .canceled, w)
  else call artifacts w

/-- Go on after a step that has succeeded; a fault ends the work on the locator. -/
def andThen {α : Type} (answer : Except SyncFault α × σ) (more : α → σ → Option SyncFault × σ) :
    Option SyncFault × σ :=
  match answer with
  | (.error fault, w) => (some fault, w)
  | (.ok a, w) => more a w

/-- Treat a locator; the answer is the fault that ended the work on it, if any. -/
def treat (env : Surroundings σ) (account : Option Account) (item : Tracked) (w : σ) :
    Option SyncFault × σ :=
  andThen (env.resolve item.locator w) fun source w =>
    if env.isCanceled w then (some .canceled, w)
    else
      andThen (env.fetch account source w) fun fetched w =>
        let c := changes item.last fetched.prepare
        andThen (env.ask env.delete c.delete w) fun _ w =>
          andThen (env.ask env.replicate c.replicate w) fun _ w =>
            (none, env.notify (env.commit item.locator fetched.prepare w))

/-- How a pass ends with some failures among a number of locators. -/
def concluded (failures : List LocatorFailure) (total : Nat) : Outcome :=
  if failures.isEmpty then .done .continue
  else .failed (.failed (Pass.failureMessage failures total))

theorem concluded_of_ne_nil {failures : List LocatorFailure} (h : failures ≠ []) (total : Nat) :
    concluded failures total = .failed (.failed (Pass.failureMessage failures total)) := by
  cases failures with
  | nil => exact absurd rfl h
  | cons failure rest => rfl

/-- A pass succeeds iff there are no failures. -/
theorem concluded_eq_done_iff {failures : List LocatorFailure} {total : Nat} :
    concluded failures total = .done .continue ↔ failures = [] := by
  cases failures with
  | nil => simp [concluded]
  | cons failure rest => simp [concluded]

/-- Treat locators one after the other, up to one that is canceled. -/
def sweep (env : Surroundings σ) (account : Option Account) (total : Nat) :
    List LocatorFailure → List Tracked → σ → Outcome × σ
  | failures, [], w => (concluded failures total, w)
  | failures, item :: rest, w =>
    if env.isCanceled w then (.failed .canceled, w)
    else
      match env.treat account item w with
      | (none, w) => sweep env account total failures rest w
      | (some fault, w) =>
        if fault = .canceled then (.failed .canceled, w)
        else sweep env account total (failures ++ [⟨item.locator, fault⟩]) rest w

end Surroundings

namespace Pass

/-! ## Some Steps -/

theorem run_add (env : Surroundings σ) (m n : Nat) (p : Pass) (w : σ) :
    run env (m + n) p w = run env n (run env m p w).1 (run env m p w).2 := by
  induction m generalizing p w with
  | zero => simp [run]
  | succ m ih =>
    rw [Nat.succ_add]
    exact ih (p.step env w).1 (p.step env w).2

/-- A pass that has ended stays as it is. -/
theorem run_ended (env : Surroundings σ) (n : Nat) {p : Pass} {outcome : Outcome}
    (h : p.stage = .ended outcome) (w : σ) : run env n p w = (p, w) := by
  induction n with
  | zero => rfl
  | succ n ih =>
    have hstep : p.step env w = (p, w) := by simp [step, h]
    rw [run, hstep]
    exact ih

/-- At most `n` steps lead from one state to another. -/
def Leads (env : Surroundings σ) (n : Nat) (a b : Pass × σ) : Prop :=
  ∃ k ≤ n, run env k a.1 a.2 = b

theorem Leads.refl (env : Surroundings σ) (a : Pass × σ) : Leads env 0 a a :=
  ⟨0, Nat.le_refl 0, rfl⟩

theorem Leads.trans {env : Surroundings σ} {m n : Nat} {a b c : Pass × σ}
    (hab : Leads env m a b) (hbc : Leads env n b c) : Leads env (m + n) a c := by
  obtain ⟨k, hk, rfl⟩ := hab
  obtain ⟨l, hl, rfl⟩ := hbc
  exact ⟨k + l, Nat.add_le_add hk hl, run_add env k l a.1 a.2⟩

theorem Leads.mono {env : Surroundings σ} {m n : Nat} {a b : Pass × σ}
    (h : Leads env m a b) (hmn : m ≤ n) : Leads env n a b := by
  obtain ⟨k, hk, hrun⟩ := h
  exact ⟨k, Nat.le_trans hk hmn, hrun⟩

theorem leads_step (env : Surroundings σ) (p : Pass) (w : σ) :
    Leads env 1 (p, w) (p.step env w) :=
  ⟨1, Nat.le_refl 1, rfl⟩

/-- More steps than it takes to end change nothing. -/
theorem Leads.run_eq {env : Surroundings σ} {n : Nat} {a b : Pass × σ} {outcome : Outcome}
    (h : Leads env n a b) (hended : b.1.stage = .ended outcome) : run env n a.1 a.2 = b := by
  obtain ⟨k, hk, hrun⟩ := h
  obtain ⟨more, rfl⟩ := Nat.exists_eq_add_of_le hk
  rw [run_add, hrun, run_ended env more hended]

/-! ## Stages -/

@[simp] theorem moveTo_moveTo (p : Pass) (s t : Stage) : (p.moveTo s).moveTo t = p.moveTo t :=
  rfl

@[simp] theorem fail_moveTo (p : Pass) (s : Stage) (item : Tracked) (fault : SyncFault) :
    (p.moveTo s).fail item fault = p.fail item fault := by
  unfold fail
  split <;> rfl

@[simp] theorem follow_moveTo {α : Type} (p : Pass) (s : Stage) (item : Tracked)
    (answer : Except SyncFault α) (stage : α → Stage) :
    (p.moveTo s).follow item answer stage = p.follow item answer stage := by
  cases answer <;> simp [follow]

theorem fail_canceled (p : Pass) (item : Tracked) : p.fail item .canceled = p.cut := by
  simp [fail]

variable (env : Surroundings σ) (p : Pass) (item : Tracked) (w : σ)

theorem step_resolve : (p.moveTo (.resolve item)).step env w =
    (p.follow item (env.resolve item.locator w).1 (.fetch item),
      (env.resolve item.locator w).2) := by
  simp [step, moveTo, ← follow_moveTo p (.resolve item)]

theorem step_fetch (source : Locator) (h : env.isCanceled w = false) :
    (p.moveTo (.fetch item source)).step env w =
      (p.follow item
          (env.fetch (accountFor p.credentials.username p.credentials.password) source w).1
          (compare item),
        (env.fetch (accountFor p.credentials.username p.credentials.password) source w).2) := by
  simp [step, moveTo, h, ← follow_moveTo p (.fetch item source)]

theorem step_fetch_canceled (source : Locator) (h : env.isCanceled w = true) :
    (p.moveTo (.fetch item source)).step env w = (p.cut, w) := by
  simp [step, moveTo, cut, h]

/-- Both steps that call the replica ask it in the same way. -/
theorem step_delete (snapshot : Snapshot) (c : Changes) :
    (p.moveTo (.delete item snapshot c)).step env w =
      (p.follow item (env.ask env.delete c.delete w).1 fun _ => .replicate item snapshot c,
        (env.ask env.delete c.delete w).2) := by
  by_cases hempty : c.delete.isEmpty = true
  · simp [step, moveTo, Surroundings.ask, follow, hempty]
  · by_cases hcanceled : env.isCanceled w = true
    · simp [step, moveTo, Surroundings.ask, follow, fail, cut, hempty, hcanceled]
    · simp [step, moveTo, Surroundings.ask, hempty, hcanceled,
        ← follow_moveTo p (.delete item snapshot c)]

theorem step_replicate (snapshot : Snapshot) (c : Changes) :
    (p.moveTo (.replicate item snapshot c)).step env w =
      (p.follow item (env.ask env.replicate c.replicate w).1 fun _ => .commit item snapshot,
        (env.ask env.replicate c.replicate w).2) := by
  by_cases hempty : c.replicate.isEmpty = true
  · simp [step, moveTo, Surroundings.ask, follow, hempty]
  · by_cases hcanceled : env.isCanceled w = true
    · simp [step, moveTo, Surroundings.ask, follow, fail, cut, hempty, hcanceled]
    · simp [step, moveTo, Surroundings.ask, hempty, hcanceled,
        ← follow_moveTo p (.replicate item snapshot c)]

/-! ## One Locator -/

/-- The pass after a locator has been treated, with the surroundings. -/
def settle (answer : Option SyncFault × σ) : Pass × σ :=
  match answer with
  | (none, w) => (p.moveTo .next, w)
  | (some fault, w) => (p.fail item fault, w)

omit env w in
/-- A step and what follows it if it has succeeded. -/
theorem Leads.andThen {env : Surroundings σ} {α : Type} {n : Nat} {a : Pass × σ}
    {answer : Except SyncFault α × σ} {stage : α → Stage} {more : α → σ → Option SyncFault × σ}
    (hstep : Leads env 1 a (p.follow item answer.1 stage, answer.2))
    (hmore : ∀ v w, Leads env n (p.moveTo (stage v), w) (p.settle item (more v w))) :
    Leads env (1 + n) a (p.settle item (Surroundings.andThen answer more)) := by
  rcases answer with ⟨fault | v, w⟩
  · exact hstep.mono (by omega)
  · exact hstep.trans (hmore v w)

/-- The small steps on one locator come to its treatment. -/
theorem leads_treat :
    Leads env 6 (p.moveTo (.resolve item), w)
      (p.settle item
        (env.treat (accountFor p.credentials.username p.credentials.password) item w)) := by
  have hresolve := leads_step env (p.moveTo (.resolve item)) w
  rw [step_resolve] at hresolve
  refine Leads.andThen (n := 5) p item hresolve fun source w => ?_
  have hfetch := leads_step env (p.moveTo (.fetch item source)) w
  cases hcanceled : env.isCanceled w with
  | true =>
    rw [step_fetch_canceled env p item w source hcanceled, ← fail_canceled p item] at hfetch
    exact hfetch.mono (by omega)
  | false =>
    rw [step_fetch env p item w source hcanceled] at hfetch
    refine Leads.andThen (n := 4) p item hfetch fun fetched w => ?_
    have hdelete := leads_step env (p.moveTo (compare item fetched)) w
    rw [compare, step_delete] at hdelete
    refine Leads.andThen (n := 3) p item hdelete fun _ w => ?_
    have hreplicate := leads_step env
      (p.moveTo (.replicate item fetched.prepare (changes item.last fetched.prepare))) w
    rw [step_replicate] at hreplicate
    refine Leads.andThen (n := 2) p item hreplicate fun _ w => ?_
    -- The snapshot is remembered and notice is given.
    exact ⟨2, Nat.le_refl 2, rfl⟩

/-! ## All Locators -/

theorem step_next {rest : List Tracked} (hnext : p.stage = .next)
    (hwaiting : p.waiting = item :: rest) (hlive : env.isCanceled w = false) :
    p.step env w = (({ p with waiting := rest }).moveTo (.resolve item), w) := by
  simp [step, hnext, hwaiting, hlive, moveTo]

theorem step_next_canceled {rest : List Tracked} (hnext : p.stage = .next)
    (hwaiting : p.waiting = item :: rest) (hcanceled : env.isCanceled w = true) :
    p.step env w = (p.cut, w) := by
  simp [step, hnext, hwaiting, hcanceled]

theorem step_last (hnext : p.stage = .next) (hwaiting : p.waiting = []) :
    p.step env w = (p.moveTo (.ended p.conclusion), w) := by
  simp [step, hnext, hwaiting]

/-- From between two locators the small steps come to the treatment of those that are
waiting. -/
theorem leads_sweep (waiting : List Tracked) (p : Pass) (w : σ) (hnext : p.stage = .next)
    (hwaiting : p.waiting = waiting) :
    ∃ q : Pass,
      q.stage = .ended (env.sweep (accountFor p.credentials.username p.credentials.password)
        p.total p.failures waiting w).1 ∧
      Leads env (7 * waiting.length + 1) (p, w)
        (q, (env.sweep (accountFor p.credentials.username p.credentials.password)
          p.total p.failures waiting w).2) := by
  -- On those that are waiting; the pass differs from one to the next in its failures.
  induction waiting generalizing p w with
  | nil =>
    have hlast := leads_step env p w
    rw [step_last env p w hnext hwaiting] at hlast
    exact ⟨_, rfl, hlast⟩
  | cons item rest ih =>
    have hstep := leads_step env p w
    unfold Surroundings.sweep
    cases hcanceled : env.isCanceled w with
    | true =>
      rw [step_next_canceled env p item w hnext hwaiting hcanceled] at hstep
      exact ⟨p.cut, rfl, hstep.mono (by omega)⟩
    | false =>
      rw [step_next env p item w hnext hwaiting hcanceled] at hstep
      have htreat := hstep.trans (leads_treat env { p with waiting := rest } item w)
      simp only [Bool.false_eq_true, if_false] at htreat ⊢
      -- One step to take the locator up, six to treat it, and the rest by induction.
      have hlength : 1 + 6 + (7 * rest.length + 1) ≤ 7 * (item :: rest).length + 1 := by
        simp only [List.length_cons]
        omega
      rcases hanswer : env.treat (accountFor p.credentials.username p.credentials.password)
        item w with ⟨_ | fault, w'⟩
      · rw [hanswer] at htreat
        obtain ⟨q, hq, hleads⟩ := ih (({ p with waiting := rest }).moveTo .next) w' rfl rfl
        exact ⟨q, hq, (htreat.trans hleads).mono hlength⟩
      · rw [hanswer] at htreat
        simp only [settle, fail] at htreat
        dsimp only
        split
        · next hfault =>
          rw [if_pos hfault] at htreat
          exact ⟨({ p with waiting := rest }).cut, rfl, htreat.mono (by omega)⟩
        · next hfault =>
          rw [if_neg hfault] at htreat
          obtain ⟨q, hq, hleads⟩ := ih
            { p with waiting := rest, failures := p.failures ++ [⟨item.locator, fault⟩],
                     stage := .next } w' rfl rfl
          exact ⟨q, hq, (htreat.trans hleads).mono hlength⟩

/-- A whole pass comes to the treatment of all locators. -/
theorem complete_eq_sweep (r : Reconciler) :
    complete env r w =
      env.sweep (accountFor r.credentials.username r.credentials.password)
        r.tracked.length [] r.tracked w := by
  obtain ⟨q, hq, hleads⟩ := leads_sweep env r.tracked (start r) w rfl rfl
  have hrun := hleads.run_eq hq
  -- Seven steps for each locator and one for the end are enough.
  unfold complete maxSteps
  rw [hrun]
  simp only [outcome, hq]
  rfl

end Pass

end EdgeSync
