import EdgeSync.Proofs.Replica.Sharing
import EdgeSync.Proofs.Session.Tracking

/-!
# What Is Deleted for Dropped Locators

A locator that is dropped is to be forgotten, and what was replicated for it is to stay. The
reconciler forgets it at once. A pass that is under way does not: it works on the entries that it
found when it began, and before it deletes anything it does not look whether the locator is still
tracked. Only when it comes to remember the snapshot, it finds that the locator is gone.

So a deletion for a dropped locator comes from such a pass and from no other one: the pass was
under way when the locator was dropped, it had the locator ahead, and it has not ended since.

## Main definitions

- `Session.DeletesFor`: the next step of the pass deletes artifacts on behalf of a locator
- `Session.Clears`: the pass will do nothing more for a locator
- `Session.Spares`: how a locator that has been dropped is spared

## Main results

- `Session.Clears.after`: a locator that is not tracked stays clear of all passes
- `Session.spares_dropped`: no pass but the one under way deletes for a dropped locator
- `Session.dropped_image_deleted`: the one under way does
-/

namespace EdgeSync

/-- A pass that has ended goes nowhere. -/
theorem Pass.Goes.eq_of_ended {p q : Pass} (hgoes : Goes p q) {outcome : Outcome}
    (h : p.stage = .ended outcome) : q = p := by
  have hidle : ∀ item, p.stage.item? ≠ some item := by
    rw [h]
    exact nofun
  cases hgoes with
  | stays _ => rfl
  | ends hnext _ => cases h.symm.trans hnext
  | takes hnext _ => cases h.symm.trans hnext
  | cut hrank =>
    rw [h] at hrank
    cases hrank
  | fails _ hitem => exact absurd hitem (hidle _)
  | proceeds hitem _ _ _ => exact absurd hitem (hidle _)
  | finishes hcommit => cases h.symm.trans hcommit
  | notes hnotify => cases h.symm.trans hnotify

namespace Session

variable {replies : Replies}

/-! ## Histories -/

theorem after_append (replies : Replies) (s : Session) (later earlier : List Incident) :
    s.after replies (later ++ earlier) = (s.after replies earlier).after replies later := by
  induction later with
  | nil => rfl
  | cons incident later ih => exact congrArg (·.next replies incident) ih

/-- Steps between which nothing else happens are those of the pass. -/
theorem after_steps (replies : Replies) (s : Session) (n : Nat) :
    let whole := Pass.run (Scene.answering replies) n s.pass s.scene
    (s.after replies (List.replicate n .step)).pass = whole.1 ∧
      (s.after replies (List.replicate n .step)).scene = whole.2 := by
  induction n with
  | zero => exact ⟨rfl, rfl⟩
  | succ n ih =>
    -- The step that comes last is the one after a run.
    rw [Pass.run_add, ← ih.1, ← ih.2]
    exact ⟨rfl, rfl⟩

/-! ## Deletions -/

/-- The next step of the pass asks the replica to delete artifacts on behalf of a locator. -/
structure DeletesFor (replies : Replies) (s : Session) (locator : String)
    (artifacts : List Artifact) : Prop where
  item : s.pass.stage.item?.map Tracked.locator = some locator
  call : (s.next replies .step).scene.calls = s.scene.calls ++ [.delete artifacts]

/-- The pass will do nothing more for a locator: it has ended, or the locator is not ahead of
it. -/
def Clears (s : Session) (locator : String) : Prop :=
  (∃ outcome, s.pass.stage = .ended outcome) ∨ ∀ item ∈ s.pass.ahead, item.locator ≠ locator

theorem DeletesFor.not_clears {s : Session} {locator : String} {artifacts : List Artifact}
    (h : s.DeletesFor replies locator artifacts) : ¬s.Clears locator := by
  obtain ⟨item, hitem, hlocator⟩ := Option.map_eq_some_iff.mp h.item
  rintro (⟨outcome, hended⟩ | hother)
  · rw [hended] at hitem
    cases hitem
  · refine hother item ?_ hlocator
    rw [Pass.ahead, hitem]
    exact List.mem_cons_self

/-- What an incident makes of the pass: another pass begins, it takes a step or is dropped, or it
stays where it is. -/
theorem pass_next (replies : Replies) (s : Session) (incident : Incident) :
    ((∃ outcome, s.pass.stage = .ended outcome) ∧
        (s.next replies incident).pass = Pass.start s.scene.reconciler) ∨
      Pass.Goes s.pass (s.next replies incident).pass ∨
      (s.next replies incident).pass = s.pass.cut ∨ (s.next replies incident).pass = s.pass := by
  cases incident with
  | begin isCanceled =>
    rw [next, begin]
    split
    · next outcome hended => exact .inl ⟨⟨outcome, hended⟩, rfl⟩
    · exact .inr (.inr (.inr rfl))
  | step => exact .inr (.inl (Pass.goes_step (Scene.answering replies) s.pass s.scene))
  | drop => exact .inr (.inr (.inl rfl))
  | _ => exact .inr (.inr (.inr rfl))

/-- Only a pass that begins turns to a locator again, and it does so only if the locator is
tracked. -/
theorem Clears.next {s : Session} {locator : String} (h : s.Clears locator)
    (huntracked : locator ∉ s.tracked.map Tracked.locator) (incident : Incident) :
    (s.next replies incident).Clears locator := by
  rcases s.pass_next replies incident with
    ⟨-, hstart⟩ | hgoes | hcut | hsame
  · right
    rw [hstart]
    intro item hitem hlocator
    have htracked : item ∈ s.tracked := hitem
    exact huntracked (hlocator ▸ List.mem_map_of_mem htracked)
  · rcases h with ⟨outcome, hended⟩ | hother
    · rw [Clears, hgoes.eq_of_ended hended]
      exact .inl ⟨outcome, hended⟩
    · exact .inr fun item hitem => hother item (hgoes.mem_ahead hitem)
  · exact .inl ⟨_, congrArg Pass.stage hcut⟩
  · rw [Clears, hsame]
    exact h

theorem Clears.after {s : Session} {locator : String} (h : s.Clears locator)
    {later : List Incident}
    (huntracked : ∀ sooner, sooner <:+ later →
      locator ∉ (s.after replies sooner).tracked.map Tracked.locator) :
    (s.after replies later).Clears locator := by
  induction later with
  | nil => exact h
  | cons incident later ih =>
    have hlater : later <:+ incident :: later := List.suffix_cons incident later
    exact (ih fun sooner hsooner => huntracked sooner (hsooner.trans hlater)).next
      (huntracked later hlater) incident

/-! ## Dropped Locators -/

/-- How a locator is spared after it was dropped, as long as it is not tracked again. -/
structure Spares (replies : Replies) (dropped : Session) (locator : String)
    (later : List Incident) : Prop where
  /-- Nothing is deleted on its behalf, if the pass that was under way when it was dropped was
  done with it. -/
  spared : dropped.Clears locator →
    ∀ artifacts, ¬(dropped.after replies later).DeletesFor replies locator artifacts
  /-- Otherwise this pass may still delete for it, but none that begins later, -/
  lingering : ∀ artifacts, (dropped.after replies later).DeletesFor replies locator artifacts →
    ∀ sooner, sooner <:+ later →
      ∀ outcome, (dropped.after replies sooner).pass.stage ≠ .ended outcome
  /-- and what it deletes is what the entry asks for that it has found when it began. -/
  found : ∀ artifacts, (dropped.after replies later).DeletesFor replies locator artifacts →
    ∃ item ∈ dropped.pass.ahead, item.locator = locator ∧ ∃ snapshot,
      (dropped.after replies later).pass.stage =
          .delete item snapshot (changes item.last snapshot) ∧
        artifacts = (changes item.last snapshot).delete

/-- What is ahead of a pass that has not ended was ahead of it earlier. -/
theorem mem_ahead_after {s : Session} {later : List Incident}
    (hongoing : ∀ sooner, sooner <:+ later →
      ∀ outcome, (s.after replies sooner).pass.stage ≠ .ended outcome) {item : Tracked}
    (h : item ∈ (s.after replies later).pass.ahead) : item ∈ s.pass.ahead := by
  induction later with
  | nil => exact h
  | cons incident later ih =>
    have hlater : later <:+ incident :: later := List.suffix_cons incident later
    -- No other pass begins, so each incident only shortens what is ahead.
    refine ih (fun sooner hsooner => hongoing sooner (hsooner.trans hlater)) ?_
    rw [after] at h
    rcases (s.after replies later).pass_next replies incident with
      ⟨⟨outcome, hended⟩, -⟩ | hgoes | hcut | hsame
    · exact absurd hended (hongoing later hlater outcome)
    · exact hgoes.mem_ahead h
    · rw [hcut] at h
      exact List.mem_append_right _ h
    · rw [← hsame]
      exact h

/-- A locator that is dropped is spared until it is tracked again, except by the pass that is
under way when it is dropped. -/
theorem spares_dropped (replies : Replies) (site : Site) (credentials : Credentials)
    (locators : List String) (earlier later : List Incident) (locator : String)
    (huntracked : ∀ sooner, sooner <:+ later →
      locator ∉ (((new site (.new credentials locators)).after replies earlier).after replies
        sooner).tracked.map Tracked.locator) :
    ((new site (.new credentials locators)).after replies earlier).Spares replies locator
      later := by
  generalize hdropped : (new site (.new credentials locators)).after replies earlier = dropped
  rw [hdropped] at huntracked
  have hongoing : ∀ artifacts,
      (dropped.after replies later).DeletesFor replies locator artifacts →
      ∀ sooner, sooner <:+ later →
        ∀ outcome, (dropped.after replies sooner).pass.stage ≠ .ended outcome := by
    intro artifacts hdeletes sooner hsooner outcome hended
    obtain ⟨rest, rfl⟩ := hsooner
    -- From where the pass had ended, the locator was clear of all passes.
    have hclears : (dropped.after replies sooner).Clears locator := .inl ⟨outcome, hended⟩
    rw [after_append] at hdeletes
    refine hdeletes.not_clears (hclears.after fun between hbetween => ?_)
    rw [← after_append]
    exact huntracked _ (List.suffix_append_self_iff.mpr hbetween)
  refine ⟨?_, hongoing, ?_⟩
  · intro hclears artifacts hdeletes
    exact hdeletes.not_clears (hclears.after huntracked)
  · intro artifacts hdeletes
    obtain ⟨item, snapshot, c, hstage, rfl⟩ := stage_of_delete hdeletes.call
    have hsound : (dropped.after replies later).Sound := by
      rw [← hdropped, ← after_append]
      exact sound_after (sound_new site credentials locators) (later ++ earlier)
    have hunderway := hsound.underway
    rw [hstage] at hunderway
    obtain rfl := hunderway.1
    have hitem : item ∈ (dropped.after replies later).pass.ahead := by
      rw [Pass.ahead, hstage]
      exact List.mem_cons_self
    have hlocator := hdeletes.item
    rw [hstage] at hlocator
    exact ⟨item, mem_ahead_after (hongoing _ hdeletes) hitem, Option.some.inj hlocator,
      snapshot, hstage, rfl⟩

/-! ## A Locator That Is Dropped During a Pass -/

/-- A session over one locator with an image. -/
def ofOne : Session :=
  .new (.holding (oneImageText "d1")) (.new .empty ["a"])

/-- The first pass. -/
def overOne : List Incident :=
  List.replicate (Pass.maxSteps 1) .step ++ [.begin false]

/-- The document does not list the image any more, and the next pass begins. -/
def imageGone : List Incident :=
  [.begin false, .surroundings (Site.holding "\x7b\x7d").files (.bare true)
    (.new Broker.defaultCapacity)]

/-- The next pass comes to its comparison, and then the locator is dropped. -/
def dropsAmid : List Incident :=
  .setLocators [] :: (List.replicate 3 .step ++ imageGone)

/-- The first pass remembers the image. -/
theorem stands_overOne :
    let s := ofOne.after willing overOne
    s.pass.stage = .ended (.done .continue) ∧
      s.scene.reconciler = ⟨.empty, [⟨"a", some (oneImage "d1")⟩]⟩ := by
  intro s
  obtain ⟨hpass, hscene⟩ := after_steps willing (ofOne.begin false) (Pass.maxSteps 1)
  have hs : s = (ofOne.begin false).after willing (List.replicate (Pass.maxSteps 1) .step) :=
    after_append willing ofOne _ [.begin false]
  rw [← hs] at hpass hscene
  have harrival : ofOne.scene.arrival "a" = .ok (oneImage "d1").prepare :=
    Scene.arrival_holding rfl parse_oneImageText
  have htracked : ofOne.scene.reconciler.tracked = [⟨"a", none⟩] := rfl
  have hsingle := Scene.complete_answering_single willing ofOne.scene rfl htracked
  rw [harrival] at hsingle
  obtain ⟨outcome, hended⟩ := Pass.run_ends (Scene.answering willing)
    (Nat.le_of_eq (Pass.togo_start ofOne.scene.reconciler)) ofOne.scene
  have hdone := hsingle.done_iff.mpr rfl
  refine ⟨?_, ?_⟩
  · rw [hpass]
    refine hended.trans (congrArg Stage.ended ?_)
    exact (Pass.outcome_of_ended hended).symm.trans hdone
  · rw [hscene]
    exact hsingle.reconciler

/-- The next pass comes to where it deletes the image, and nothing is tracked any more. -/
theorem stands_dropsAmid {s : Session} {outcome : Outcome} (h : s.pass.stage = .ended outcome)
    (hreconciler : s.scene.reconciler = ⟨.empty, [⟨"a", some (oneImage "d1")⟩]⟩) :
    let t := s.after willing dropsAmid
    t.pass.stage = .delete ⟨"a", some (oneImage "d1")⟩ .empty ⟨(oneImage "d1").artifacts, []⟩ ∧
      t.tracked = [] ∧ t.scene.isCanceled = false := by
  intro t
  generalize hu : s.after willing imageGone = u
  obtain ⟨hstart, hfiles, hlive⟩ : u.pass = Pass.start s.scene.reconciler ∧
      u.scene.site.files = (Site.holding "\x7b\x7d").files ∧ u.scene.isCanceled = false := by
    subst hu
    simp [imageGone, after, next, putSite, begin, h]
  have ht : t = (u.after willing (List.replicate 3 .step)).next willing (.setLocators []) := by
    subst hu
    exact congrArg (·.next willing (.setLocators [])) (after_append willing s _ _)
  -- The source is found and the document is fetched; then the snapshots are compared.
  have hlocator := Site.parse_holding u.scene.site.network.names "\x7b\x7d"
  have hread := Site.read_holding "\x7b\x7d"
  rw [← hfiles] at hlocator hread
  have hresolve : (Scene.answering willing).resolve "a" u.scene = (.ok (.file "a"), u.scene) :=
    Scene.resolve_file hlocator
  have hfetch : ∀ account, (Scene.answering willing).fetch account (.file "a") u.scene =
      (.ok .empty, u.scene) :=
    Scene.fetch_file (fetchFile_of_parse hread parse_nothing)
  have hnext : u.pass.stage = .next := congrArg Pass.stage hstart
  have hwaiting : u.pass.waiting = [⟨"a", some (oneImage "d1")⟩] := by
    rw [hstart, hreconciler]
    rfl
  have hcompare := Pass.run_compare hnext hwaiting hlive hresolve hfetch
  obtain ⟨hpass, hscene⟩ := after_steps willing u 3
  rw [hcompare] at hpass hscene
  rw [ht]
  refine ⟨congrArg Pass.stage hpass, ?_, ?_⟩
  · show retrack _ [] = []
    simp [retrack]
  · exact (congrArg Scene.isCanceled hscene).trans hlive

/-- A pass that comes to a deletion asks the replica for it, on behalf of its locator. -/
theorem deletesFor_of_stage (replies : Replies) {s : Session} {item : Tracked}
    {snapshot : Snapshot} {c : Changes} (hstage : s.pass.stage = .delete item snapshot c)
    (hsome : c.delete.isEmpty = false) (hlive : s.scene.isCanceled = false) :
    s.DeletesFor replies item.locator c.delete := by
  have hlive' : (Scene.answering replies).isCanceled s.scene = false := hlive
  refine ⟨?_, ?_⟩
  · rw [hstage]
    rfl
  · simp only [next, step, Pass.step, hstage, hsome, hlive']
    rfl

/-- A locator that is dropped during a pass is spared by the passes after it. -/
theorem spares_dropped_amid :
    (∀ sooner, sooner <:+ ([] : List Incident) →
        "a" ∉ ((ofOne.after willing (dropsAmid ++ overOne)).after willing sooner).tracked.map
          Tracked.locator) ∧
      (ofOne.after willing (dropsAmid ++ overOne)).Spares willing "a" [] := by
  obtain ⟨hended, hreconciler⟩ := stands_overOne
  obtain ⟨-, htracked, -⟩ := stands_dropsAmid hended hreconciler
  rw [← after_append] at htracked
  have huntracked : ∀ sooner, sooner <:+ ([] : List Incident) →
      "a" ∉ ((ofOne.after willing (dropsAmid ++ overOne)).after willing sooner).tracked.map
        Tracked.locator := by
    intro sooner hsooner
    obtain rfl := List.suffix_nil.mp hsooner
    rw [after, htracked]
    exact List.not_mem_nil
  exact ⟨huntracked, spares_dropped willing (.holding (oneImageText "d1")) .empty ["a"]
    (dropsAmid ++ overOne) [] "a" huntracked⟩

/-- The pass during which the locator is dropped deletes its image, though the locator is not
tracked any more, and though everything has succeeded so far. -/
theorem dropped_image_deleted :
    let first := ofOne.after willing overOne
    let dropped := first.after willing dropsAmid
    first.pass.stage = .ended (.done .continue) ∧
      first.tracked = [⟨"a", some (oneImage "d1")⟩] ∧
      dropped.tracked = [] ∧ dropped.DeletesFor willing "a" (oneImage "d1").artifacts := by
  intro first dropped
  obtain ⟨hended, hreconciler⟩ := stands_overOne
  obtain ⟨hstage, htracked, hlive⟩ := stands_dropsAmid hended hreconciler
  exact ⟨hended, congrArg Reconciler.tracked hreconciler, htracked,
    deletesFor_of_stage willing hstage rfl hlive⟩

end Session

end EdgeSync
