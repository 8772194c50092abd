import EdgeSync.Proofs.Changes.PerKey
import EdgeSync.Proofs.Pass.OneFile
import EdgeSync.Proofs.Pass.Progress

/-!
# Artifacts That Locators Share

All locators are followed by one replica, but each comparison sees the snapshots of its own
locator only. So what is deleted for one locator is what its own last snapshot listed and its
new document does not list any more. The other locators are not asked: an artifact that two
locators list is deleted as soon as one of them drops it.

Between any two steps of a pass the site may change, and the reconciler may get other locators.

## Main definitions

- `Course`, `Occurrence`: a pass that goes on while other things happen
- `Course.Sound`: what a pass goes by

## Main results

- `mem_digestsOf_delete`: what a comparison deletes of a key
- `Course.sound_after`: a pass goes by the snapshots that it found when it began
- `deletes_own`: what is deleted for a locator
- `shared_image_deleted`: what one locator drops is deleted though another one lists it
-/

namespace EdgeSync

/-! ## What a Comparison Deletes -/

/-- The artifacts of the last known snapshot. -/
def listed (last : Option Snapshot) : List Artifact :=
  last.elim [] Snapshot.artifacts

/-- Of a key a comparison deletes the digest that it stood for, unless the first new artifact of
the key has it. -/
theorem mem_digestsOf_delete {last : Option Snapshot} {new : Snapshot} {key digest : String} :
    digest ∈ digestsOf key (changes last new).delete ↔
      (digestsOf key (listed last)).getLast? = some digest ∧
        (digestsOf key new.artifacts).head? ≠ some digest := by
  have hold : (digestsOf key (listed last)).getLast? =
      (last.bind (·.lastOfKey? key)).map Artifact.digest := by
    cases last with
    | none => rfl
    | some old => exact List.getLast?_map
  -- Key by key, only the last artifact known and the first new one count.
  rw [hold, digestsOf, digestsOf, ofKey_changes_delete, List.head?_map]
  cases last.bind (·.lastOfKey? key) with
  | none => simp [compareKey]
  | some previous =>
    cases ofKey key new.artifacts with
    | nil => simp [compareKey, eq_comm]
    | cons a rest =>
      by_cases hsame : previous.digest = a.digest
      · simp [compareKey, hsame]
      · simp only [compareKey, if_neg hsame, List.map_cons, List.map_nil, List.mem_singleton,
          Option.map_some, Option.some.injEq, List.head?_cons]
        constructor
        · rintro rfl
          exact ⟨rfl, fun h => hsame (Option.some.inj h).symm⟩
        · exact fun h => h.1.symm

/-! ## Passes Among Other Things -/

/-- What may happen next: a pass begins or takes a step, the site is another one, or the
reconciler gets other locators. -/
inductive Occurrence where
  | begin
  | step
  | site (site : Site)
  | register (e : Enrollment)
  | setLocators (locators : List String)

/-- A scene at which a pass goes on or has ended, and the reconciler as this pass found it. -/
structure Course where
  scene : Scene
  found : Reconciler
  pass : Pass

namespace Course

variable (replies : Replies)

/-- A course before its first pass. -/
def new (site : Site) (r : Reconciler) : Course :=
  ⟨.new site r, r, (Pass.start r).moveTo (.ended (.done .continue))⟩

/-- A pass begins if none goes on. -/
def begin (c : Course) : Course :=
  match c.pass.stage with
  | .ended _ =>
    { c with found := c.scene.reconciler, pass := Pass.start c.scene.reconciler }
  | _ => c

theorem begin_of_ended {c : Course} {outcome : Outcome} (h : c.pass.stage = .ended outcome) :
    c.begin =
      { c with found := c.scene.reconciler, pass := Pass.start c.scene.reconciler } := by
  simp only [begin, h]

/-- What comes of something that happens. -/
def next (c : Course) : Occurrence → Course
  | .begin => c.begin
  | .step =>
    let (pass, scene) := c.pass.step (Scene.answering replies) c.scene
    { c with pass, scene }
  | .site site => { c with scene := { c.scene with site } }
  | .register e =>
    { c with scene := { c.scene with reconciler := c.scene.reconciler.applyRegistration e } }
  | .setLocators locators =>
    { c with scene := { c.scene with reconciler := c.scene.reconciler.setLocators locators } }

/-- The course after all that has happened. -/
def after (c : Course) (history : List Occurrence) : Course :=
  history.foldl (next replies) c

theorem after_append (c : Course) (first second : List Occurrence) :
    c.after replies (first ++ second) = (c.after replies first).after replies second :=
  List.foldl_append

/-- Steps between which nothing else happens are those of the pass. -/
theorem after_steps (c : Course) (n : Nat) :
    c.after replies (List.replicate n .step) =
      { c with
        pass := (Pass.run (Scene.answering replies) n c.pass c.scene).1
        scene := (Pass.run (Scene.answering replies) n c.pass c.scene).2 } := by
  induction n generalizing c with
  | zero => rfl
  | succ n ih => exact ih (c.next replies .step)

/-- A pass that begins goes to its end if nothing else happens. -/
theorem after_pass {c : Course} {outcome : Outcome} (h : c.pass.stage = .ended outcome) :
    let d := c.after replies
      (.begin :: List.replicate (Pass.maxSteps c.scene.reconciler.tracked.length) .step)
    let whole := Pass.complete (Scene.answering replies) c.scene.reconciler c.scene
    d.scene = whole.2 ∧ d.pass.stage = .ended whole.1 := by
  intro d whole
  have hd : d = c.begin.after replies (List.replicate _ .step) := rfl
  obtain ⟨o, hended⟩ := Pass.run_ends (Scene.answering replies)
    (Nat.le_of_eq (Pass.togo_start c.scene.reconciler)) c.scene
  rw [hd, begin_of_ended h, after_steps]
  refine ⟨rfl, hended.trans ?_⟩
  exact congrArg Stage.ended (Pass.outcome_of_ended hended).symm

end Course

/-! ## What a Pass Goes By -/

namespace Course

variable {replies : Replies}

/-- The locators that are ahead of a pass have the snapshots that it found when it began, and
what it deletes comes from comparing these. -/
structure Sound (c : Course) : Prop where
  ahead : ∀ t ∈ c.pass.ahead, t ∈ c.found.tracked
  compared : ∀ item snapshot changed, c.pass.stage = .delete item snapshot changed →
    changed = changes item.last snapshot

theorem sound_new (site : Site) (r : Reconciler) : (new site r).Sound :=
  ⟨fun _ h => h, fun _ _ _ h => by cases h⟩

theorem Sound.begin {c : Course} (h : c.Sound) : c.begin.Sound := by
  unfold Course.begin
  split
  · exact ⟨fun _ h => h, fun _ _ _ h => by cases h⟩
  · exact h

theorem Sound.next {c : Course} (h : c.Sound) (occurrence : Occurrence) :
    (c.next replies occurrence).Sound := by
  cases occurrence with
  | begin => exact h.begin
  | step =>
    have hgoes := Pass.goes_step (Scene.answering replies) c.pass c.scene
    exact ⟨fun t ht => h.ahead t (hgoes.mem_ahead ht), fun _ _ _ hdelete =>
      hgoes.changes_eq hdelete⟩
  | site site => exact ⟨h.ahead, h.compared⟩
  | register e => exact ⟨h.ahead, h.compared⟩
  | setLocators locators => exact ⟨h.ahead, h.compared⟩

/-- A pass goes by the snapshots that it found, whatever happens before and between. -/
theorem sound_after {c : Course} (h : c.Sound) (history : List Occurrence) :
    (c.after replies history).Sound := by
  induction history generalizing c with
  | nil => exact h
  | cons occurrence history ih => exact ih (h.next occurrence)

end Course

/-- The replica is asked to delete something at one stage only. -/
theorem stage_of_delete {replies : Replies} {p : Pass} {s : Scene} {artifacts : List Artifact}
    (h : (p.step (Scene.answering replies) s).2.calls = s.calls ++ [.delete artifacts]) :
    ∃ item snapshot c, p.stage = .delete item snapshot c ∧ artifacts = c.delete := by
  have hsame : s.calls ≠ s.calls ++ [.delete artifacts] := by simp
  have hother : ∀ c, c ≠ .delete artifacts → s.calls ++ [c] ≠ s.calls ++ [.delete artifacts] := by
    intro c hc heq
    exact hc (List.singleton_inj.mp (List.append_cancel_left heq))
  obtain ⟨credentials, total, waiting, failures, stage⟩ := p
  cases stage with
  | ended outcome => exact absurd h hsame
  | next =>
    cases waiting with
    | nil => exact absurd h hsame
    | cons item rest =>
      simp only [Pass.step] at h
      split at h
      · exact absurd h hsame
      · exact absurd h hsame
  | resolve item =>
    have hcalls := (s.resolve_frame item.locator).1
    exact absurd (hcalls.symm.trans h) hsame
  | fetch item source =>
    simp only [Pass.step] at h
    split at h
    · exact absurd h hsame
    · exact absurd h hsame
  | delete item snapshot c =>
    refine ⟨item, snapshot, c, rfl, ?_⟩
    simp only [Pass.step] at h
    split at h
    · exact absurd h hsame
    · split at h
      · exact absurd h hsame
      · have hcall := List.singleton_inj.mp (List.append_cancel_left h)
        exact (ReplicaCall.delete.inj hcall).symm
  | replicate item snapshot c =>
    simp only [Pass.step] at h
    split at h
    · exact absurd h hsame
    · split at h
      · exact absurd h hsame
      · exact absurd h (hother _ fun heq => by cases heq)
  | commit item snapshot => exact absurd h hsame
  | notify item => exact absurd h (hother _ fun heq => by cases heq)

/-! ## Two Locators with the Same Image -/

/-- A site with two files. -/
def Site.holdingBoth (first second : String) : Site :=
  { holding first with
    files := ⟨[(FileTree.workingDirectory ++ ["a"], .file first.toUTF8),
      (FileTree.workingDirectory ++ ["b"], .file second.toUTF8)]⟩ }

theorem Site.parse_holdingBoth (names : Web.NameForm) (first second : String) :
    Locator.parse names (holdingBoth first second).files "a" = .ok (.file "a") ∧
      Locator.parse names (holdingBoth first second).files "b" = .ok (.file "b") := by
  refine ⟨?_, ?_⟩
  · cbv
  · cbv

theorem Site.read_holdingBoth (first second : String) :
    (holdingBoth first second).files.read "a" = .ok first.toUTF8 ∧
      (holdingBoth first second).files.read "b" = .ok second.toUTF8 := by
  refine ⟨?_, ?_⟩
  · cbv
  · cbv

/-- A replica that does all that it is asked for. -/
def willing : Replies := fun _ _ => .ok ()

/-- Two locators with the same image. -/
def bothTracked : Reconciler :=
  ⟨.empty, [⟨"a", some (oneImage "d1")⟩, ⟨"b", some (oneImage "d1")⟩]⟩

/-- The course before the first pass over the two locators. -/
def Course.ofBoth : Course :=
  .new (.holdingBoth (oneImageText "d1") (oneImageText "d1")) (.new .empty ["a", "b"])

/-- A pass over both locators. -/
def overBoth : List Occurrence :=
  .begin :: List.replicate (Pass.maxSteps 2) .step

/-- The first locator drops the image, and the next pass comes to its comparison. -/
def oneDrops : List Occurrence :=
  [.site (.holdingBoth "\x7b\x7d" (oneImageText "d1")), .begin, .step, .step, .step]

theorem parse_nothing :
    (Snapshot.parse (Text.Document.ofBytes "\x7b\x7d".toUTF8)).toOption = some .empty := by
  decide +kernel

/-- A pass over two locators that list the image gives both of them the image. -/
theorem Scene.complete_bothListed {s : Scene}
    (hsite : s.site = .holdingBoth (oneImageText "d1") (oneImageText "d1"))
    (hreconciler : s.reconciler = .new .empty ["a", "b"]) (hlive : s.isCanceled = false) :
    let answer := Pass.complete (answering willing) s.reconciler s
    answer.1 = .done .continue ∧ answer.2.reconciler = bothTracked ∧
      answer.2.isCanceled = false := by
  intro answer
  obtain ⟨hparse_a, hparse_b⟩ :=
    Site.parse_holdingBoth s.site.network.names (oneImageText "d1") (oneImageText "d1")
  obtain ⟨hread_a, hread_b⟩ := Site.read_holdingBoth (oneImageText "d1") (oneImageText "d1")
  rw [← hsite] at hparse_a hparse_b hread_a hread_b
  have hfirst : s.arrival "a" = .ok (oneImage "d1").prepare :=
    arrival_file hparse_a (fetchFile_of_parse hread_a parse_oneImageText)
  have hsecond : s.arrival "b" = .ok (oneImage "d1").prepare :=
    arrival_file hparse_b (fetchFile_of_parse hread_b parse_oneImageText)
  have htracked : s.reconciler.tracked = [⟨"a", none⟩, ⟨"b", none⟩] := by
    rw [hreconciler]
    decide
  have hdistinct : s.reconciler.locators.Nodup := by
    rw [hreconciler]
    exact (Reconciler.Arises.new .empty ["a", "b"]).nodup_locators
  have hwilling : ∀ before c, willing before c ≠ .error .canceled := nofun
  have hwhole := complete_answering hwilling s hlive hdistinct
  -- Both visits succeed, and both leave the image behind.
  have hvisits : let vs := visits willing s.arrival s.calls s.reconciler.tracked
      vs.filterMap Visit.failure? = [] ∧ vs.map Visit.outcome = bothTracked.tracked := by
    rw [htracked]
    simp only [visits, hfirst, hsecond]
    generalize s.calls = calls
    exact ⟨rfl, rfl⟩
  refine ⟨hwhole.outcome.trans ?_, hwhole.reconciler.trans ?_,
    hwhole.alike.isCanceled.trans hlive⟩
  · rw [hvisits.1]
    rfl
  · rw [hvisits.2, hreconciler]
    rfl

namespace Course

/-- After the first pass both locators have the image. -/
theorem stands_overBoth :
    let c := ofBoth.after willing overBoth
    c.pass.stage = .ended (.done .continue) ∧ c.scene.reconciler = bothTracked ∧
      c.scene.isCanceled = false := by
  intro c
  have hended : ofBoth.pass.stage = .ended (.done .continue) := rfl
  obtain ⟨hscene, hstage⟩ := after_pass willing hended
  obtain ⟨houtcome, hreconciler, hlive⟩ :=
    Scene.complete_bothListed (s := ofBoth.scene) rfl rfl rfl
  rw [houtcome] at hstage
  rw [← hscene] at hreconciler hlive
  exact ⟨hstage, hreconciler, hlive⟩

/-- The next pass comes to where it deletes the image for one locator, though the other one still
has it. -/
theorem stands_oneDrops {c : Course} {outcome : Outcome} (h : c.pass.stage = .ended outcome)
    (hreconciler : c.scene.reconciler = bothTracked) (hlive : c.scene.isCanceled = false) :
    let d := c.after willing oneDrops
    d.pass = ⟨.empty, 2, [⟨"b", some (oneImage "d1")⟩], [],
        .delete ⟨"a", some (oneImage "d1")⟩ .empty ⟨(oneImage "d1").artifacts, []⟩⟩ ∧
      d.scene.reconciler = bothTracked ∧ d.scene.isCanceled = false := by
  intro d
  generalize hs : { c.scene with site := Site.holdingBoth "\x7b\x7d" (oneImageText "d1") } = s
  obtain ⟨hsite, hsame, hlive'⟩ : s.site = .holdingBoth "\x7b\x7d" (oneImageText "d1") ∧
      s.reconciler = bothTracked ∧ s.isCanceled = false := by
    subst hs
    exact ⟨rfl, hreconciler, hlive⟩
  have hd : d = (begin { c with scene := s }).after willing (List.replicate 3 .step) := by
    subst hs
    rfl
  have hended : ({ c with scene := s } : Course).pass.stage = .ended outcome := h
  -- The source is found and the document is fetched; then the snapshots are compared.
  have hlocator := (Site.parse_holdingBoth s.site.network.names "\x7b\x7d" (oneImageText "d1")).1
  have hread := (Site.read_holdingBoth "\x7b\x7d" (oneImageText "d1")).1
  rw [← hsite] at hlocator hread
  have hresolve : (Scene.answering willing).resolve "a" s = (.ok (.file "a"), s) :=
    Scene.resolve_file hlocator
  have hfetch : ∀ account, (Scene.answering willing).fetch account (.file "a") s =
      (.ok .empty, s) :=
    Scene.fetch_file (fetchFile_of_parse hread parse_nothing)
  have hcompare : Pass.run (Scene.answering willing) 3 (Pass.start bothTracked) s =
      (⟨.empty, 2, [⟨"b", some (oneImage "d1")⟩], [],
        Pass.compare ⟨"a", some (oneImage "d1")⟩ .empty⟩, s) :=
    Pass.run_compare rfl rfl hlive' hresolve hfetch
  rw [hd, begin_of_ended hended, after_steps, hsame, hcompare]
  exact ⟨rfl, hsame, hlive'⟩

/-- A pass that comes to a deletion asks the replica for it. -/
theorem calls_step_delete (replies : Replies) {c : Course} {item : Tracked} {snapshot : Snapshot}
    {changed : Changes} (hstage : c.pass.stage = .delete item snapshot changed)
    (hsome : changed.delete.isEmpty = false) (hlive : c.scene.isCanceled = false) :
    (c.next replies .step).scene.calls = c.scene.calls ++ [.delete changed.delete] := by
  have hlive' : (Scene.answering replies).isCanceled c.scene = false := hlive
  simp only [next, Pass.step, hstage, hsome, hlive']
  rfl

end Course

/-! ## What Is Deleted for a Locator -/

/-- Whenever the replica is asked to delete artifacts, this is for a locator with the snapshot
that its pass found when it began. They are the artifacts that this snapshot stood for, unless
they come first in the new document; what other locators list plays no part. So an artifact that
another locator lists is deleted only if the locator itself has listed it, too. -/
theorem deletes_own (replies : Replies) (site : Site) (credentials : Credentials)
    (locators : List String) (history : List Occurrence) (artifacts : List Artifact) :
    let c := (Course.new site (.new credentials locators)).after replies history
    (c.next replies .step).scene.calls = c.scene.calls ++ [.delete artifacts] →
    ∃ item snapshot, item ∈ c.found.tracked ∧
      c.pass.stage = .delete item snapshot (changes item.last snapshot) ∧
      (∀ key digest, digest ∈ digestsOf key artifacts ↔
        (digestsOf key (listed item.last)).getLast? = some digest ∧
          (digestsOf key snapshot.artifacts).head? ≠ some digest) ∧
      ∀ other ∈ c.scene.reconciler.tracked, other.locator ≠ item.locator → ∀ key digest,
        digest ∈ digestsOf key (listed other.last) → digest ∉ digestsOf key (listed item.last) →
        digest ∉ digestsOf key artifacts := by
  intro c hcall
  have hsound : c.Sound := Course.sound_after (Course.sound_new site _) history
  obtain ⟨item, snapshot, changed, hstage, rfl⟩ := stage_of_delete hcall
  obtain rfl := hsound.compared item snapshot changed hstage
  have hitem : item ∈ c.pass.ahead := by
    rw [Pass.ahead, hstage]
    exact List.mem_cons_self
  refine ⟨item, snapshot, hsound.ahead item hitem, hstage, ?_, ?_⟩
  · intro key digest
    exact mem_digestsOf_delete
  · intro other _ _ key digest _ hown hdeleted
    exact hown (List.mem_of_getLast? (mem_digestsOf_delete.mp hdeleted).1)

/-- The image that both locators list is deleted when the first one drops it. -/
theorem deletes_own_shared :
    let c := Course.ofBoth.after willing (overBoth ++ oneDrops)
    (c.next willing .step).scene.calls = c.scene.calls ++ [.delete (oneImage "d1").artifacts] ∧
      ∃ item snapshot, item ∈ c.found.tracked ∧
        c.pass.stage = .delete item snapshot (changes item.last snapshot) ∧
        (∀ key digest, digest ∈ digestsOf key (oneImage "d1").artifacts ↔
          (digestsOf key (listed item.last)).getLast? = some digest ∧
            (digestsOf key snapshot.artifacts).head? ≠ some digest) ∧
        ∀ other ∈ c.scene.reconciler.tracked, other.locator ≠ item.locator → ∀ key digest,
          digest ∈ digestsOf key (listed other.last) → digest ∉ digestsOf key (listed item.last) →
          digest ∉ digestsOf key (oneImage "d1").artifacts := by
  intro c
  obtain ⟨hended, hreconciler, hlive⟩ := Course.stands_overBoth
  obtain ⟨hpass, -, hlive'⟩ := Course.stands_oneDrops hended hreconciler hlive
  rw [← Course.after_append] at hpass hlive'
  have hcalls := Course.calls_step_delete willing (congrArg Pass.stage hpass) rfl hlive'
  exact ⟨hcalls, deletes_own willing (.holdingBoth (oneImageText "d1") (oneImageText "d1")) .empty
    ["a", "b"] (overBoth ++ oneDrops) (oneImage "d1").artifacts hcalls⟩

/-- What one locator drops is deleted though another one still lists it, and though everything
has succeeded so far. -/
theorem shared_image_deleted :
    let first := Course.ofBoth.after willing overBoth
    let c := first.after willing oneDrops
    first.pass.stage = .ended (.done .continue) ∧ c.pass.failures = [] ∧
      ∃ item artifacts, c.pass.stage.item? = some item ∧
        (c.next willing .step).scene.calls = c.scene.calls ++ [.delete artifacts] ∧
        ∃ other ∈ c.scene.reconciler.tracked, other.locator ≠ item.locator ∧
          ∃ key digest, digest ∈ digestsOf key artifacts ∧
            digest ∈ digestsOf key (listed other.last) := by
  intro first c
  obtain ⟨hended, hreconciler, hlive⟩ := Course.stands_overBoth
  obtain ⟨hpass, hreconciler', hlive'⟩ := Course.stands_oneDrops hended hreconciler hlive
  have hcalls := Course.calls_step_delete willing (congrArg Pass.stage hpass) rfl hlive'
  have hother : ⟨"b", some (oneImage "d1")⟩ ∈ c.scene.reconciler.tracked := by
    rw [hreconciler']
    exact List.mem_cons_of_mem _ List.mem_cons_self
  exact ⟨hended, congrArg Pass.failures hpass, ⟨"a", some (oneImage "d1")⟩,
    (oneImage "d1").artifacts, congrArg (·.stage.item?) hpass, hcalls, _, hother, by decide,
    "a|1", "d1", by decide, by decide⟩

end EdgeSync
