import EdgeSync.Proofs.Json.RoundTrip
import EdgeSync.Proofs.Registration.Once
import EdgeSync.Sync.Reconciler
import Mathlib.Data.List.DropRight

/-!
# Ready After a Registration

An enrollment is accepted if no part of its account is empty. The reconciler, however, works
with the registry without its scheme and the slashes at its end, and of some registries nothing
is left then. With such a registry the reconciler does not become ready, and as no update
changes the account, it never will.

## Main definitions

- `Nameless`: a registry of which nothing is left

## Main results

- `registryAddress_eq_empty`: the registries of which nothing is left
- `Reconciler.ready_iff_named`: when the reconciler is ready after a registration
- `Reconciler.obstacle_after_updates`: no update changes that
-/

namespace EdgeSync

open EdgeSync.Json EdgeSync.Text

/-! ## Registries Without a Name -/

/-- A registry that is a scheme, or none, and slashes. -/
def Nameless (registry : String) : Prop :=
  ∃ scheme slashes, registry.toList = scheme ++ slashes ∧ scheme ∈ [] :: registrySchemes ∧
    ∀ c ∈ slashes, c = '/'

theorem dropEndWhile_eq_rdropWhile : dropEndWhile = List.rdropWhile := rfl

/-- The characters of a registry after its scheme. -/
def afterScheme (cs : List Char) : List Char :=
  match registrySchemes.find? fun scheme => scheme.isPrefixOf cs with
  | some scheme => cs.drop scheme.length
  | none => cs

theorem registryAddress_eq (registry : String) :
    registryAddress registry =
      String.ofList (dropEndWhile (· == '/') (afterScheme registry.toList)) := rfl

/-- What stands before the rest of a registry is a scheme or nothing. -/
theorem exists_scheme (cs : List Char) :
    ∃ scheme ∈ [] :: registrySchemes, cs = scheme ++ afterScheme cs := by
  unfold afterScheme
  split
  · next scheme hfind =>
    have hprefix := List.find?_some hfind
    refine ⟨scheme, List.mem_cons_of_mem _ (List.mem_of_find?_eq_some hfind), ?_⟩
    obtain ⟨more, rfl⟩ := List.isPrefixOf_iff_prefix.mp hprefix
    rw [List.drop_left]
  · exact ⟨[], List.mem_cons_self, rfl⟩

/-- No slash begins a scheme, and no scheme begins another one. -/
theorem afterScheme_append {scheme slashes : List Char} (hscheme : scheme ∈ [] :: registrySchemes)
    (hslashes : ∀ c ∈ slashes, c = '/') : afterScheme (scheme ++ slashes) = slashes := by
  simp only [registrySchemes, List.mem_cons, List.not_mem_nil, or_false] at hscheme
  rcases hscheme with rfl | rfl | rfl
  · cases slashes with
    | nil => rfl
    | cons c slashes =>
      rw [hslashes c List.mem_cons_self]
      rfl
  · rfl
  · rfl

/-- Nothing is left exactly of the registries without a name. -/
theorem registryAddress_eq_empty {registry : String} :
    registryAddress registry = "" ↔ Nameless registry := by
  have hrest : registryAddress registry = "" ↔ ∀ c ∈ afterScheme registry.toList, c = '/' := by
    rw [registryAddress_eq, String.ofList_eq_empty_iff, dropEndWhile_eq_rdropWhile,
      List.rdropWhile_eq_nil_iff]
    simp
  rw [hrest]
  constructor
  · intro hslashes
    obtain ⟨scheme, hscheme, hwhole⟩ := exists_scheme registry.toList
    exact ⟨scheme, _, hwhole, hscheme, hslashes⟩
  · rintro ⟨scheme, slashes, hwhole, hscheme, hslashes⟩
    rw [hwhole, afterScheme_append hscheme hslashes]
    exact hslashes

/-! ## Accepted Enrollments -/

/-- Every enrollment whose account is complete may come back from a registration. -/
theorem readEnrollment_compact {e : Enrollment} (h : e.auth.isComplete = true) :
    readEnrollment (.ok ⟨200, Document.ofString e.toJson.compact⟩) = .ok e :=
  readEnrollment_eq_ok.mpr
    ⟨_, rfl, readCompleteEnrollment_eq_ok.mpr ⟨read_compact (restores_enrollment e), h⟩⟩

/-- Only such enrollments do. -/
theorem isComplete_of_readEnrollment {reply : Except Web.WebFault Web.Response} {e : Enrollment}
    (h : readEnrollment reply = .ok e) : e.auth.isComplete = true := by
  obtain ⟨body, -, hbody⟩ := readEnrollment_eq_ok.mp h
  exact (readCompleteEnrollment_eq_ok.mp hbody).2

/-! ## Tracked Locators -/

theorem track_ne_nil (tracked : List Tracked) (locator : String) : track tracked locator ≠ [] := by
  unfold track
  split
  · next hany =>
    rintro rfl
    cases hany
  · exact List.append_ne_nil_of_right_ne_nil _ (List.cons_ne_nil _ _)

/-- Where there are locators, some are tracked. -/
theorem retrack_ne_nil (tracked : List Tracked) {locators : List String} (h : locators ≠ []) :
    retrack tracked locators ≠ [] := by
  obtain ⟨earlier, last, rfl⟩ := (List.eq_nil_or_concat' locators).resolve_left h
  rw [retrack, List.foldl_append]
  exact track_ne_nil _ last

namespace Reconciler

/-! ## Readiness -/

/-- With locators and an account nothing but a registry can be missing. -/
theorem obstacle_of_account {r : Reconciler} (htracked : r.tracked ≠ [])
    (hdestination : r.credentials.destination ≠ "") (husername : r.credentials.username ≠ "")
    (hpassword : r.credentials.password ≠ "") :
    r.obstacle? =
      if r.credentials.sourceRegistry = "" then some "missing source registry" else none := by
  have hmissing : r.credentials.missing =
      if r.credentials.sourceRegistry = "" then ["source registry"] else [] := by
    simp [Credentials.missing, hdestination, husername, hpassword]
  rw [obstacle?, hmissing, if_neg (by simpa using htracked), List.nil_append]
  split
  · rfl
  · rfl

/-- After a registration that was accepted and lists locators, the reconciler is ready exactly
if the registry has a name; else the source registry is missing, and nothing else. -/
theorem ready_iff_named {reply : Except Web.WebFault Web.Response} {e : Enrollment}
    (hreply : readEnrollment reply = .ok e) (hstates : e.states ≠ []) {r : Reconciler}
    (hdestination : r.credentials.destination ≠ "") :
    ((r.applyRegistration e).obstacle? = none ↔ ¬ Nameless e.auth.registry) ∧
      (Nameless e.auth.registry →
        (r.applyRegistration e).obstacle? = some "missing source registry") := by
  obtain ⟨hname, -, hsecret⟩ := Auth.isComplete_iff.mp (isComplete_of_readEnrollment hreply)
  have hobstacle := obstacle_of_account (r := r.applyRegistration e)
    (retrack_ne_nil r.tracked hstates) hdestination hname hsecret
  have hregistry : (r.applyRegistration e).credentials.sourceRegistry = "" ↔
      Nameless e.auth.registry := registryAddress_eq_empty
  rw [hobstacle]
  by_cases hnameless : Nameless e.auth.registry
  · rw [if_pos (hregistry.mpr hnameless)]
    exact ⟨⟨nofun, fun hnamed => absurd hnameless hnamed⟩, fun _ => rfl⟩
  · rw [if_neg (mt hregistry.mp hnameless)]
    exact ⟨⟨fun _ => hnameless, fun _ => rfl⟩, fun h => absurd h hnameless⟩

/-- An enrollment with a registry at which there is something. -/
def namedEnrollment : Enrollment :=
  ⟨⟨"robot$edge", "https://harbor.example.com/", "s3cr3t"⟩, ["state.json"]⟩

/-- An enrollment whose registry is a scheme only. -/
def namelessEnrollment : Enrollment :=
  ⟨⟨"robot$edge", "https://", "s3cr3t"⟩, ["state.json"]⟩

/-- A reconciler before its registration. -/
def unregistered : Reconciler :=
  .new { Credentials.empty with destination := "127.0.0.1:8585" } []

theorem ready_iff_named_harbor :
    namedEnrollment.states ≠ [] ∧ unregistered.credentials.destination ≠ "" ∧
      ((unregistered.applyRegistration namedEnrollment).obstacle? = none ↔
        ¬ Nameless namedEnrollment.auth.registry) ∧
      (unregistered.applyRegistration namedEnrollment).obstacle? = none := by
  have hstates : namedEnrollment.states ≠ [] := by decide
  have hdestination : unregistered.credentials.destination ≠ "" := by decide
  have hready := ready_iff_named (readEnrollment_compact (e := namedEnrollment) (by decide))
    hstates hdestination
  exact ⟨hstates, hdestination, hready.1, by decide⟩

/-- A complete enrollment with locators is not enough. -/
theorem accepted_not_ready :
    readEnrollment (.ok ⟨200, Document.ofString namelessEnrollment.toJson.compact⟩) =
        .ok namelessEnrollment ∧
      namelessEnrollment.states ≠ [] ∧ unregistered.credentials.destination ≠ "" ∧
      (unregistered.applyRegistration namelessEnrollment).obstacle? =
        some "missing source registry" :=
  ⟨readEnrollment_compact (by decide), by decide, by decide, by decide⟩

/-! ## Updates -/

/-- An event of another kind than a registration changes neither whether locators are tracked
nor the credentials. -/
theorem heed_of_tracked {r : Reconciler} (htracked : r.tracked ≠ []) {event : Event}
    (hevent : ∀ e, event.payload ≠ .registered e) :
    (r.heed event).tracked ≠ [] ∧ (r.heed event).credentials = r.credentials := by
  unfold heed
  split
  · next e hpayload => exact absurd hpayload (hevent e)
  · next update hpayload =>
    split
    · exact ⟨htracked, rfl⟩
    · next hstates => exact ⟨retrack_ne_nil r.tracked (by simpa using hstates), rfl⟩
  · exact ⟨htracked, rfl⟩

/-- Whatever is updated after a registration, the reconciler stays as ready as it was. -/
theorem obstacle_after_updates {r : Reconciler} (htracked : r.tracked ≠ []) {events : List Event}
    (hevents : ∀ event ∈ events, ∀ e, event.payload ≠ .registered e) :
    (events.foldl heed r).obstacle? = r.obstacle? := by
  induction events generalizing r with
  | nil => rfl
  | cons event events ih =>
    rw [List.forall_mem_cons] at hevents
    obtain ⟨hstill, hcredentials⟩ := heed_of_tracked htracked hevents.1
    rw [List.foldl_cons, ih hstill hevents.2]
    simp [obstacle?, hcredentials, htracked, hstill]

end Reconciler

end EdgeSync
