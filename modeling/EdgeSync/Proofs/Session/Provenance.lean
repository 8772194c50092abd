import EdgeSync.Proofs.Replica.Sharing
import EdgeSync.Proofs.Session.Session

/-!
# Where the Enrollment Comes From

The registration and the passes share one store. The registration replaces the enrollment as a
whole. A pass that resolves a locator at an address of the web makes this address the registry
that artifacts come from, and leaves the rest of the enrollment as it is; it does so before the
document is fetched, and whether or not the fetch succeeds.

So the name, the secret and the locators always belong together: they are those of the enrollment
that was issued last. The registry is that of the same enrollment, unless a locator of the web has
been resolved since.

## Main definitions

- `Incident.issued?`, `issuedIn`: the enrollments that are issued
- `Session.redirect?`, `Session.redirectedIn`: the addresses that replace the registry
- `Session.Writes`: what becomes of the store by an incident

## Main results

- `Session.writes`: an incident changes the store in one of two ways, or not at all
- `Session.stems_after`: where the enrollment in the store comes from
- `Session.registry_replaced_alone`: the registry may come from elsewhere than the rest
-/

namespace EdgeSync

/-! ## Issued Enrollments and Other Registries -/

/-- The enrollment that an incident gives to the store as a whole. -/
def Incident.issued? : Incident → Option Enrollment
  | .register _ isCanceled exchange => if isCanceled then none else exchange.answer.toOption
  | _ => none

/-- The enrollment that was issued last in a history, or else the initial one. -/
def issuedIn (initial : Enrollment) (history : List Incident) : Enrollment :=
  (history.findSome? Incident.issued?).getD initial

/-- The address that becomes the registry when a text turns out to be an address of the web. -/
def webAddress? (names : Web.NameForm) (files : FileTree) (locator : String) : Option String :=
  match Locator.parse names files locator with
  | .ok (.web url) => some (registryAddress url.text)
  | _ => none

/-- An enrollment with another registry, if there is one. -/
def Enrollment.redirected (e : Enrollment) : Option String → Enrollment
  | none => e
  | some registry => { e with auth := { e.auth with registry } }

/-- Only the registry is another one. -/
theorem Enrollment.redirected_auth (e : Enrollment) (address : Option String) :
    (e.redirected address).auth = { e.auth with registry := address.getD e.auth.registry } := by
  cases address <;> rfl

theorem Enrollment.redirected_states (e : Enrollment) (address : Option String) :
    (e.redirected address).states = e.states := by
  cases address <;> rfl

/-- Of two registries the second one counts. -/
theorem Enrollment.redirected_redirected (e : Enrollment) (first second : Option String) :
    (e.redirected first).redirected second = e.redirected (second.or first) := by
  cases first <;> cases second <;> rfl

/-- The enrollment of a configuration that is to have another registry. -/
theorem ConfigStore.setRemoteRegistryUrl_enrollment (s : ConfigStore) (address : String) :
    (s.setRemoteRegistryUrl address).config.enrollment =
      s.config.enrollment.redirected (some address) :=
  rfl

/-- Finding a source makes an address of the web the registry. -/
theorem Scene.resolve_store (s : Scene) (locator : String) :
    (s.resolve locator).2.site.store =
      match webAddress? s.site.network.names s.site.files locator with
      | some address => s.site.store.setRemoteRegistryUrl address
      | none => s.site.store := by
  unfold resolve webAddress?
  rcases Locator.parse s.site.network.names s.site.files locator with fault | (url | path) <;> rfl

/-- A registration stores an enrollment if and only if it accepts one. -/
theorem Registration.proceed_store (x : Exchange) (id : Option TaskId) (isCanceled : Bool)
    (s : Site) :
    (proceed x id isCanceled s).2.store =
      match (Incident.register id isCanceled x).issued? with
      | some e => (s.store.enroll s.files e).1
      | none => s.store := by
  cases isCanceled with
  | true => rfl
  | false =>
    rw [proceed, Incident.issued?]
    cases x.answer with
    | error fault => rfl
    | ok e =>
      -- All announcements are published, which does not concern the store.
      simp only [Bool.false_eq_true, if_false, accept,
        Site.publishAll_right (announcements_right id e)]
      rfl

/-! ## What Incidents Do to the Store -/

namespace Session

variable {replies : Replies}

/-- The address that an incident makes the registry: that of a locator of the web that a pass
resolves. -/
def redirect? (s : Session) : Incident → Option String
  | .step =>
    match s.pass.stage with
    | .resolve item => webAddress? s.scene.site.network.names s.scene.site.files item.locator
    | _ => none
  | _ => none

/-- What becomes of the store by an incident: it gets an enrollment as a whole, or another
registry, or stays as it is. -/
inductive Writes (replies : Replies) (s : Session) (incident : Incident) : Prop
  | enrolls {e : Enrollment} (hissued : incident.issued? = some e)
    (hnext : (s.next replies incident).scene.site.store =
      (s.scene.site.store.enroll s.scene.site.files e).1)
  | redirects {address : String} (hissued : incident.issued? = none)
    (haddress : s.redirect? incident = some address)
    (hnext : (s.next replies incident).scene.site.store =
      s.scene.site.store.setRemoteRegistryUrl address)
  | stays (hissued : incident.issued? = none) (haddress : s.redirect? incident = none)
    (hnext : (s.next replies incident).scene.site.store = s.scene.site.store)

/-- A step makes an address the registry, or leaves the store as it is. -/
theorem writes_step (s : Session) : s.Writes replies .step := by
  have hframe := (s.scene.step_frame replies s.pass).2
  cases hstage : s.pass.stage with
  | resolve item =>
    rw [hstage] at hframe
    have haddress : s.redirect? .step =
        webAddress? s.scene.site.network.names s.scene.site.files item.locator := by
      rw [redirect?, hstage]
    have hresolve := s.scene.resolve_store item.locator
    cases hweb : webAddress? s.scene.site.network.names s.scene.site.files item.locator with
    | some address =>
      rw [hweb] at hresolve
      exact .redirects rfl (haddress.trans hweb) (hframe.trans hresolve)
    | none =>
      rw [hweb] at hresolve
      exact .stays rfl (haddress.trans hweb) (hframe.trans hresolve)
  | _ =>
    -- No other stage touches the store.
    rw [hstage] at hframe
    have hnone : s.redirect? .step = none := by
      rw [redirect?, hstage]
    exact .stays rfl hnone hframe

/-- An incident does one of these things. -/
theorem writes (s : Session) (incident : Incident) : s.Writes replies incident := by
  cases incident with
  | begin isCanceled =>
    refine .stays rfl rfl ?_
    show (s.begin isCanceled).scene.site.store = s.scene.site.store
    rcases s.begin_cases isCanceled with heq | heq
    · rw [heq]
    · rw [heq]
  | step => exact s.writes_step
  | register id isCanceled exchange =>
    have hstore := Registration.proceed_store exchange id isCanceled s.scene.site
    cases hissued : (Incident.register id isCanceled exchange).issued? with
    | some e =>
      rw [hissued] at hstore
      exact .enrolls hissued hstore
    | none =>
      rw [hissued] at hstore
      exact .stays hissued rfl hstore
  | _ => exact .stays rfl rfl rfl

/-! ## Provenance -/

/-- The address that became the registry last since an enrollment was issued. -/
def redirectedIn (replies : Replies) (start : Session) : List Incident → Option String
  | [] => none
  | incident :: earlier =>
    match incident.issued? with
    | some _ => none
    | none =>
      ((start.after replies earlier).redirect? incident).or (start.redirectedIn replies earlier)

/-- What the enrollment in the store is after a history. -/
theorem enrollment_after (replies : Replies) (start : Session) (history : List Incident) :
    (start.after replies history).enrollment =
      (issuedIn start.enrollment history).redirected (start.redirectedIn replies history) := by
  induction history with
  | nil => rfl
  | cons incident earlier ih =>
    rw [issuedIn, List.findSome?_cons, redirectedIn, after]
    rcases (start.after replies earlier).writes incident with
      ⟨hissued, hnext⟩ | @⟨address, hissued, haddress, hnext⟩ | ⟨hissued, haddress, hnext⟩
    · -- Whatever the registry was, the enrollment is replaced as a whole.
      rw [enrollment, hnext, Registration.Trial.enroll_config, hissued]
      rfl
    · -- An address replaces the one before it.
      rw [enrollment, hnext, ConfigStore.setRemoteRegistryUrl_enrollment, hissued, haddress]
      have htwice := congrArg (Enrollment.redirected · (some address)) ih
      exact htwice.trans (Enrollment.redirected_redirected _ _ _)
    · rw [enrollment, hnext, hissued, haddress]
      exact ih

/-- Where the enrollment in the store comes from, after a history. -/
structure Stems (replies : Replies) (start : Session) (history : List Incident) : Prop where
  /-- One enrollment was the first one or was issued, and each that is issued is stored as a
  whole. -/
  issued : issuedIn start.enrollment history = start.enrollment ∨
    ∃ incident ∈ history, incident.issued? = some (issuedIn start.enrollment history)
  stored : ∀ incident e, incident.issued? = some e →
    ((start.after replies history).next replies incident).scene.site.store =
      ((start.after replies history).scene.site.store.enroll
        (start.after replies history).scene.site.files e).1
  /-- The name, the secret and the locators are those of this enrollment, -/
  name : (start.after replies history).enrollment.auth.name =
    (issuedIn start.enrollment history).auth.name
  secret : (start.after replies history).enrollment.auth.secret =
    (issuedIn start.enrollment history).auth.secret
  states : (start.after replies history).enrollment.states =
    (issuedIn start.enrollment history).states
  /-- and so is the registry, unless an address has replaced it since. -/
  registry : (start.after replies history).enrollment.auth.registry =
    (start.redirectedIn replies history).getD (issuedIn start.enrollment history).auth.registry

/-- Whatever the order of registrations, passes and other incidents and whatever comes of them, the
enrollment in the store comes from the one that was issued last, and from the locators of the web
that were resolved since. -/
theorem stems_after (replies : Replies) (start : Session) (history : List Incident) :
    start.Stems replies history := by
  have henrollment := enrollment_after replies start history
  refine ⟨?_, ?_, ?_, ?_, ?_, ?_⟩
  · cases hlast : history.findSome? Incident.issued? with
    | none =>
      left
      rw [issuedIn, hlast]
      rfl
    | some e =>
      right
      obtain ⟨incident, hincident, hissued⟩ := List.exists_of_findSome?_eq_some hlast
      refine ⟨incident, hincident, ?_⟩
      rw [issuedIn, hlast]
      exact hissued
  · intro incident e hissued
    rcases (start.after replies history).writes incident with
      ⟨hother, hnext⟩ | ⟨hnone, haddress, hnext⟩ | ⟨hnone, haddress, hnext⟩
    · obtain rfl := Option.some.inj (hissued.symm.trans hother)
      exact hnext
    · cases hissued.symm.trans hnone
    · cases hissued.symm.trans hnone
  · rw [henrollment, Enrollment.redirected_auth]
  · rw [henrollment, Enrollment.redirected_auth]
  · rw [henrollment, Enrollment.redirected_states]
  · rw [henrollment, Enrollment.redirected_auth]

end Session

/-! ## A Locator of the Web -/

/-- The enrollment that is there from the beginning. -/
def webEnrollment : Enrollment :=
  ⟨⟨"robot$edge", "harbor.example.com", "s3cr3t"⟩, ["http://a"]⟩

/-- A session over a store with this enrollment. -/
def Session.ofWeb : Session :=
  .new { Site.holding "" with store := .ofConfig { Config.empty with enrollment := webEnrollment } }
    (.new .empty webEnrollment.states)

/-- Two steps of the first pass are enough to replace the registry alone, though no enrollment has
been issued and nothing has been fetched. -/
theorem Session.registry_replaced_alone :
    let history := [.step, .step, .begin false]
    let s := ofWeb.after willing history
    ofWeb.enrollment = webEnrollment ∧ (∀ incident ∈ history, incident.issued? = none) ∧
      s.enrollment = webEnrollment.redirected (some "a") ∧ s.enrollment ≠ webEnrollment := by
  refine ⟨rfl, ?_, ?_, ?_⟩
  · simp [Incident.issued?]
  · decide +kernel
  · decide +kernel

end EdgeSync
