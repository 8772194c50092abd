import EdgeSync.Proofs.Pass.Progress
import EdgeSync.Proofs.Registration.Once

/-!
# Sessions

A reconciler and the registration work at one site. While a pass goes on, it may be canceled or
dropped, the reconciler may be given other locators, the registration may get an enrollment, and
the files and the network may change. A session is all that comes of this, one incident after
the other, together with what the steps of its passes have achieved.

A history lists the incidents, the latest first.

## Main definitions

- `Feat`, `Pass.feat?`: what a step achieves
- `Incident`, `Session.next`, `Session.after`: incidents one after the other

## Main results

- `Scene.step_frame`: which steps change the reconciler and the store
-/

namespace EdgeSync

/-! ## Feats -/

/-- What steps achieve: a source is found, a document is fetched, the replica has deleted or
replicated what it was asked to, and a snapshot is remembered. -/
inductive Feat where
  | found (locator : String) (source : Locator)
  | fetched (source : Locator) (document : Snapshot)
  | deleted (artifacts : List Artifact)
  | replicated (artifacts : List Artifact)
  | committed (locator : String) (snapshot : Snapshot)

/-- What an answer achieves, unless it is a fault. -/
def Feat.ofAnswer {α : Type} (answer : Except SyncFault α) (feat : α → Feat) : Option Feat :=
  match answer with
  | .ok a => some (feat a)
  | .error _ => none

/-- What the next step of a pass achieves. A step that fails, that is cut off, or that has
nothing to do achieves nothing. -/
def Pass.feat? {σ : Type} (env : Surroundings σ) (p : Pass) (w : σ) : Option Feat :=
  match p.stage with
  | .resolve item => Feat.ofAnswer (env.resolve item.locator w).1 (.found item.locator)
  | .fetch _ source =>
    if env.isCanceled w then none
    else
      Feat.ofAnswer
        (env.fetch (accountFor p.credentials.username p.credentials.password) source w).1
        (.fetched source)
  | .delete _ _ c =>
    if c.delete.isEmpty then none
    else if env.isCanceled w then none
    else Feat.ofAnswer (env.delete c.delete w).1 fun _ => .deleted c.delete
  | .replicate _ _ c =>
    if c.replicate.isEmpty then none
    else if env.isCanceled w then none
    else Feat.ofAnswer (env.replicate c.replicate w).1 fun _ => .replicated c.replicate
  | .commit item snapshot => some (.committed item.locator snapshot)
  | .next => none
  | .notify _ => none
  | .ended _ => none

/-! ## Sessions -/

/-- What may happen next: a pass begins in a scope that may be canceled, takes a step, is
canceled, or is dropped; the reconciler follows an event or is given other locators or an
enrollment; the registration executes; or the surroundings of the site are others. -/
inductive Incident where
  | begin (isCanceled : Bool)
  | step
  | cancel
  | drop
  | heed (event : Event)
  | setLocators (locators : List String)
  | applyRegistration (e : Enrollment)
  | register (id : Option TaskId) (isCanceled : Bool) (exchange : Registration.Exchange)
  | surroundings (files : FileTree) (network : Web.Network) (broker : Broker)

/-- A scene, the pass that goes on there or was the last one, and the feats of all passes in
their order. -/
structure Session where
  scene : Scene
  pass : Pass
  feats : List Feat

namespace Session

/-- A session before its first pass. -/
def new (site : Site) (r : Reconciler) : Session :=
  ⟨.new site r, (Pass.start r).moveTo (.ended (.done .continue)), []⟩

/-- The locators of the reconciler with their snapshots. -/
def tracked (s : Session) : List Tracked :=
  s.scene.reconciler.tracked

/-- The enrollment in the store. -/
def enrollment (s : Session) : Enrollment :=
  s.scene.site.store.config.enrollment

/-- The session with another reconciler. -/
def putReconciler (s : Session) (r : Reconciler) : Session :=
  { s with scene := { s.scene with reconciler := r } }

/-- The session at another site. -/
def putSite (s : Session) (site : Site) : Session :=
  { s with scene := { s.scene with site } }

/-- A pass begins if none goes on. -/
def begin (s : Session) (isCanceled : Bool) : Session :=
  match s.pass.stage with
  | .ended _ =>
    { s with scene := { s.scene with isCanceled }, pass := Pass.start s.scene.reconciler }
  | _ => s

theorem begin_cases (s : Session) (isCanceled : Bool) :
    s.begin isCanceled = s ∨ s.begin isCanceled =
      { s with scene := { s.scene with isCanceled }, pass := Pass.start s.scene.reconciler } := by
  unfold begin
  split
  · exact .inr rfl
  · exact .inl rfl

variable (replies : Replies)

/-- The pass takes a step. -/
def step (s : Session) : Session :=
  let (pass, scene) := s.pass.step (Scene.answering replies) s.scene
  ⟨scene, pass, s.feats ++ (s.pass.feat? (Scene.answering replies) s.scene).toList⟩

/-- What comes of an incident. -/
def next (s : Session) : Incident → Session
  | .begin isCanceled => s.begin isCanceled
  | .step => s.step replies
  | .cancel => { s with scene := { s.scene with isCanceled := true } }
  -- Whatever is under way when a pass is dropped comes to nothing.
  | .drop => { s with pass := s.pass.cut }
  | .heed event => s.putReconciler (s.scene.reconciler.heed event)
  | .setLocators locators => s.putReconciler (s.scene.reconciler.setLocators locators)
  | .applyRegistration e => s.putReconciler (s.scene.reconciler.applyRegistration e)
  | .register id isCanceled exchange =>
    s.putSite (Registration.proceed exchange id isCanceled s.scene.site).2
  -- The store belongs to the agent; nobody else can change it.
  | .surroundings files network broker =>
    s.putSite { s.scene.site with files, network, broker }

/-- The session after a history. -/
def after (s : Session) : List Incident → Session
  | [] => s
  | incident :: earlier => (s.after earlier).next replies incident

end Session

/-! ## Steps at a Scene -/

namespace Scene

variable (replies : Replies) (p : Pass) (s : Scene)

/-- Only a commit changes the reconciler, and only finding a source changes the store. -/
theorem step_frame :
    (p.step (answering replies) s).2.reconciler =
        (match p.stage with
        | .commit item snapshot => s.reconciler.commit item.locator snapshot
        | _ => s.reconciler) ∧
      (p.step (answering replies) s).2.site.store =
        (match p.stage with
        | .resolve item => (s.resolve item.locator).2.site.store
        | _ => s.site.store) := by
  obtain ⟨credentials, total, waiting, failures, stage⟩ := p
  cases stage with
  | ended outcome => exact ⟨rfl, rfl⟩
  | next =>
    cases waiting with
    | nil => exact ⟨rfl, rfl⟩
    | cons item rest =>
      simp only [Pass.step]
      split <;> exact ⟨rfl, rfl⟩
  | resolve item => exact ⟨(s.resolve_frame item.locator).2, rfl⟩
  | fetch item source =>
    simp only [Pass.step]
    split <;> exact ⟨rfl, rfl⟩
  | delete item snapshot c =>
    simp only [Pass.step]
    split
    · exact ⟨rfl, rfl⟩
    · split <;> exact ⟨rfl, rfl⟩
  | replicate item snapshot c =>
    simp only [Pass.step]
    split
    · exact ⟨rfl, rfl⟩
    · split <;> exact ⟨rfl, rfl⟩
  | commit item snapshot => exact ⟨rfl, rfl⟩
  | notify item => exact ⟨rfl, rfl⟩

end Scene

end EdgeSync
