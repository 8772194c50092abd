import EdgeSync.Proofs.Replica.NormalForm
import EdgeSync.Proofs.Session.Session

/-!
# Tracked Locators

A pass works on a copy of the locators that it found when it began, while the reconciler is given
other ones. When a snapshot is to be remembered, its locator may have been dropped, it may have
come back, and it may have changed its place. Nevertheless no locator is ever tracked twice, the
locators are those that were given last, and every snapshot that is remembered was earned: its
document was fetched from the locator, and whatever the comparison asked for was done.

## Main definitions

- `survivors`, `newcomers`: what becomes of the entries when other locators are given
- `Incident.applied?`, `lastApplied`: the locators that are given
- `Earned`: the feats behind a snapshot
- `Session.Tracks`: what holds of the tracked locators after a history

## Main results

- `retrack_eq`: the survivors stay in their order, and the newcomers follow
- `underway_step`: what a pass has achieved for the locator that it works on
- `Session.tracks_after`: what holds of the tracked locators after any history
-/

namespace EdgeSync

/-! ## Other Locators -/

/-- Whether a locator is tracked. -/
def isTracked (tracked : List Tracked) (locator : String) : Bool :=
  tracked.any fun t => t.locator == locator

/-- The entries that stay when some locators are tracked instead. -/
def survivors (tracked : List Tracked) (locators : List String) : List Tracked :=
  tracked.filter fun t => locators.contains t.locator

/-- The entries that come: the locators that are not tracked, in the order in which they first
occur, without snapshots. -/
def newcomers (tracked : List Tracked) (locators : List String) : List Tracked :=
  (locators.filter fun l => !isTracked tracked l).eraseDups.map fun l => ⟨l, none⟩

theorem isTracked_iff {tracked : List Tracked} {locator : String} :
    isTracked tracked locator ↔ locator ∈ tracked.map Tracked.locator := by
  simp [isTracked]

theorem mem_locators_survivors {tracked : List Tracked} {locators : List String} {l : String} :
    l ∈ (survivors tracked locators).map Tracked.locator ↔
      l ∈ locators ∧ l ∈ tracked.map Tracked.locator := by
  simp only [survivors, List.mem_map, List.mem_filter, List.contains_iff_mem]
  constructor
  · rintro ⟨t, ⟨ht, hlisted⟩, rfl⟩
    exact ⟨hlisted, t, ht, rfl⟩
  · rintro ⟨hlisted, t, ht, rfl⟩
    exact ⟨t, ⟨ht, hlisted⟩, rfl⟩

/-- A locator that is not tracked comes first, and then the others that are not. -/
theorem newcomers_cons {tracked : List Tracked} {locator : String}
    (h : isTracked tracked locator = false) (rest : List String) :
    newcomers tracked (locator :: rest) =
      ⟨locator, none⟩ :: newcomers (tracked ++ [⟨locator, none⟩]) rest := by
  have hothers : (rest.filter fun l => !isTracked tracked l).filter (fun l => !l == locator) =
      rest.filter fun l => !isTracked (tracked ++ [⟨locator, none⟩]) l := by
    rw [List.filter_filter]
    apply List.filter_congr
    intro l _
    simp [isTracked, Bool.and_comm, Bool.beq_comm (a := l)]
  rw [newcomers, List.filter_cons_of_pos (by simp [h]), List.eraseDups_cons, hothers]
  rfl

/-- Locators that are added one after the other come at the end. -/
theorem tracks_eq (tracked : List Tracked) (locators : List String) :
    locators.foldl track tracked = tracked ++ newcomers tracked locators := by
  induction locators generalizing tracked with
  | nil => simp [newcomers]
  | cons locator rest ih =>
    rw [List.foldl_cons, ih]
    cases h : isTracked tracked locator with
    | true =>
      have hsame : track tracked locator = tracked := if_pos h
      simp [hsame, newcomers, h]
    | false =>
      have hadded : track tracked locator = tracked ++ [⟨locator, none⟩] :=
        if_neg (Bool.eq_false_iff.mp h)
      simp [hadded, newcomers_cons h]

/-- The survivors stay in their order, and the newcomers follow. -/
theorem retrack_eq (tracked : List Tracked) (locators : List String) :
    retrack tracked locators = survivors tracked locators ++ newcomers tracked locators := by
  have hsame : newcomers (survivors tracked locators) locators = newcomers tracked locators := by
    unfold newcomers
    congr 2
    apply List.filter_congr
    intro l hl
    -- The entry of a locator that is given survives, so the locator does not come again.
    have hiff : isTracked (survivors tracked locators) l ↔ isTracked tracked l := by
      rw [isTracked_iff, isTracked_iff, mem_locators_survivors]
      exact and_iff_right hl
    rw [Bool.eq_iff_iff.mpr hiff]
  rw [retrack, tracks_eq]
  exact congrArg _ hsame

/-- One locator is dropped, one stays with its snapshot, and one comes though it is given twice. -/
example : retrack [⟨"a", none⟩, ⟨"b", some .empty⟩] ["c", "b", "c"] =
    [⟨"b", some .empty⟩, ⟨"c", none⟩] := by
  rfl

/-- The locators that are given are tracked, and no others. -/
theorem mem_locators_retrack {tracked : List Tracked} {locators : List String} {l : String} :
    l ∈ (retrack tracked locators).map Tracked.locator ↔ l ∈ locators := by
  have hnewcomers : l ∈ (newcomers tracked locators).map Tracked.locator ↔
      l ∈ locators ∧ l ∉ tracked.map Tracked.locator := by
    simp [newcomers, isTracked]
  rw [retrack_eq, List.map_append, List.mem_append, mem_locators_survivors, hnewcomers]
  by_cases h : l ∈ tracked.map Tracked.locator
  · simp [h]
  · simp [h]

/-- An entry before and after a snapshot of a locator is remembered. -/
structure Tracked.Remembers (locator : String) (snapshot : Snapshot) (t t' : Tracked) :
    Prop where
  locator_eq : t'.locator = t.locator
  own : t.locator = locator → t'.last = some snapshot
  other : t.locator ≠ locator → t' = t

theorem Tracked.remembers (t : Tracked) (locator : String) (snapshot : Snapshot) :
    Remembers locator snapshot t
      (if t.locator == locator then { t with last := some snapshot } else t) := by
  split
  · next hown => exact ⟨rfl, fun _ => rfl, fun hother => absurd (beq_iff_eq.mp hown) hother⟩
  · next hother => exact ⟨rfl, fun hown => absurd (beq_iff_eq.mpr hown) hother, fun _ => rfl⟩

theorem Reconciler.mem_commit {r : Reconciler} {locator : String} {snapshot : Snapshot}
    {t' : Tracked} (h : t' ∈ (r.commit locator snapshot).tracked) :
    ∃ t ∈ r.tracked, Tracked.Remembers locator snapshot t t' := by
  obtain ⟨t, ht, rfl⟩ := List.mem_map.mp h
  exact ⟨t, ht, t.remembers locator snapshot⟩

/-- The locators that an incident gives to the reconciler. An update without locators gives
none. -/
def Incident.applied? : Incident → Option (List String)
  | .setLocators locators => some locators
  | .applyRegistration e => some e.states
  | .heed event =>
    match event.payload with
    | .registered e => some e.states
    | .updated update => if update.states.isEmpty then none else some update.states
    | .stop _ => none
  | _ => none

/-- The locators that were given last in a history, or else the initial ones. -/
def lastApplied (initial : List String) (history : List Incident) : List String :=
  (history.findSome? Incident.applied?).getD initial

/-! ## Earned Snapshots -/

/-- The feat of deleting what changes ask for, if they do. -/
def Changes.deletion (c : Changes) : List Feat :=
  if c.delete.isEmpty then [] else [.deleted c.delete]

/-- The feat of replicating what changes ask for, if they do. -/
def Changes.replication (c : Changes) : List Feat :=
  if c.replicate.isEmpty then [] else [.replicated c.replicate]

/-- The feats by which a document of a locator comes to the replica as a snapshot: it is fetched
from the source of the locator, and after the comparison with a last snapshot all changes are
made. -/
def work (locator : String) (source : Locator) (document snapshot : Snapshot)
    (last : Option Snapshot) : List Feat :=
  [.found locator source, .fetched source document] ++
    (changes last snapshot).deletion ++ (changes last snapshot).replication

/-- The feats behind the snapshot of a locator. It is a document in the form in which it is
compared, and right before it was remembered, the document came to the replica. -/
structure Earned (feats : List Feat) (locator : String) (snapshot : Snapshot) : Prop where
  worked : ∃ source document last, document.PreparesTo snapshot ∧
    work locator source document snapshot last ++ [.committed locator snapshot] <:+: feats
  normalized : ∀ a ∈ snapshot.artifacts, ∃ b : Artifact, b.NormalizesTo a
  tagged : ∀ a ∈ snapshot.artifacts, a.tags ≠ []

/-- Later feats take nothing away. -/
theorem Earned.append {feats : List Feat} {locator : String} {snapshot : Snapshot}
    (h : Earned feats locator snapshot) (more : List Feat) :
    Earned (feats ++ more) locator snapshot := by
  obtain ⟨source, document, last, hsnapshot, hfeats⟩ := h.worked
  refine ⟨⟨source, document, last, hsnapshot, ?_⟩, h.normalized, h.tagged⟩
  exact hfeats.trans (List.prefix_append feats more).isInfix

/-- What a pass has achieved for the locator that it works on: the last feats are those that lead
to its stage. -/
def Underway (feats : List Feat) : Stage → Prop
  | .fetch item source => [.found item.locator source] <:+ feats
  | .delete item snapshot c => c = changes item.last snapshot ∧
    ∃ source document, snapshot = document.prepare ∧
      [.found item.locator source, .fetched source document] <:+ feats
  | .replicate item snapshot c => c = changes item.last snapshot ∧
    ∃ source document, snapshot = document.prepare ∧
      [.found item.locator source, .fetched source document] ++ c.deletion <:+ feats
  | .commit item snapshot => ∃ source document, snapshot = document.prepare ∧
    work item.locator source document snapshot item.last <:+ feats
  | _ => True

/-- After a fault the pass works on no locator. -/
theorem underway_fail (feats : List Feat) (p : Pass) (item : Tracked) (fault : SyncFault) :
    Underway feats (p.fail item fault).stage := by
  unfold Pass.fail
  split <;> trivial

/-- An answer adds its feat to those that lead to the next stage. -/
theorem underway_follow {feats : List Feat} (p : Pass) (item : Tracked) {α : Type}
    (answer : Except SyncFault α) {feat : α → Feat} {stage : α → Stage}
    (h : ∀ a, Underway (feats ++ [feat a]) (stage a)) :
    Underway (feats ++ (Feat.ofAnswer answer feat).toList) (p.follow item answer stage).stage := by
  cases answer with
  | ok a => exact h a
  | error fault => apply underway_fail

/-- A step adds its feat to those that lead to the stage. -/
theorem underway_step {σ : Type} (env : Surroundings σ) {feats : List Feat} {p : Pass}
    (h : Underway feats p.stage) (w : σ) :
    Underway (feats ++ (p.feat? env w).toList) (p.step env w).1.stage := by
  obtain ⟨credentials, total, waiting, failures, stage⟩ := p
  cases stage with
  | ended outcome => trivial
  | next =>
    cases waiting with
    | nil => trivial
    | cons item rest =>
      simp only [Pass.step]
      split <;> trivial
  | resolve item =>
    apply underway_follow
    intro source
    exact List.suffix_append feats _
  | fetch item source =>
    simp only [Pass.step, Pass.feat?]
    split_ifs
    · trivial
    · apply underway_follow
      intro document
      -- The document is compared with the snapshot that the pass has found.
      exact ⟨rfl, source, document, rfl, List.suffix_append_self_iff.mpr h⟩
  | delete item snapshot c =>
    obtain ⟨hc, source, document, hsnapshot, hfeats⟩ := h
    simp only [Pass.step, Pass.feat?]
    split_ifs with hempty
    · -- There is nothing to delete, and no feat is needed.
      refine ⟨hc, source, document, hsnapshot, ?_⟩
      simpa [Changes.deletion, hempty] using hfeats
    · trivial
    · apply underway_follow
      intro _
      refine ⟨hc, source, document, hsnapshot, ?_⟩
      rw [Changes.deletion, if_neg hempty]
      exact List.suffix_append_self_iff.mpr hfeats
  | replicate item snapshot c =>
    obtain ⟨rfl, source, document, rfl, hfeats⟩ := h
    simp only [Pass.step, Pass.feat?]
    split_ifs with hempty
    · -- There is nothing to replicate, so the work is already done.
      refine ⟨source, document, rfl, ?_⟩
      simpa [work, Changes.replication, hempty] using hfeats
    · trivial
    · apply underway_follow
      intro _
      refine ⟨source, document, rfl, ?_⟩
      rw [work, Changes.replication, if_neg hempty]
      exact List.suffix_append_self_iff.mpr hfeats
  | commit item snapshot => trivial
  | notify item => trivial

/-- The snapshot that is to be remembered is earned. -/
theorem Underway.earned {feats : List Feat} {item : Tracked} {snapshot : Snapshot}
    (h : Underway feats (.commit item snapshot)) :
    Earned (feats ++ [.committed item.locator snapshot]) item.locator snapshot := by
  obtain ⟨source, document, hsnapshot, hfeats⟩ := h
  have hprepares := Snapshot.preparesTo_iff.mpr hsnapshot
  refine ⟨⟨source, document, item.last, hprepares, ?_⟩, ?_, ?_⟩
  · exact (List.suffix_append_self_iff.mpr hfeats).isInfix
  · exact fun a ha => hprepares.exists_normalizesTo ha
  · exact fun a ha => hprepares.tags_ne_nil ha

/-! ## What Incidents Do -/

namespace Session

variable {replies : Replies} {s : Session}

/-- What becomes of the locators by an incident: other ones are given, a snapshot is remembered,
or they stay as they are. -/
inductive Affects (replies : Replies) (s : Session) (incident : Incident) : Prop
  | applies {locators : List String} (hgiven : incident.applied? = some locators)
    (hnext : (s.next replies incident).tracked = retrack s.tracked locators)
  | commits {item : Tracked} {snapshot : Snapshot} (hstep : incident = .step)
    (hstage : s.pass.stage = .commit item snapshot)
    (hnext : (s.next replies incident).tracked =
      (s.scene.reconciler.commit item.locator snapshot).tracked)
  | stays (hgiven : incident.applied? = none)
    (hother : incident = .step → ∀ item snapshot, s.pass.stage ≠ .commit item snapshot)
    (hnext : (s.next replies incident).tracked = s.tracked)

/-- Following an event gives the reconciler the locators of the event, if it has any. -/
theorem affects_heed (s : Session) (event : Event) : s.Affects replies (.heed event) := by
  cases hpayload : event.payload with
  | registered e =>
    have hgiven : (Incident.heed event).applied? = some e.states := by
      simp only [Incident.applied?, hpayload]
    apply Affects.applies hgiven
    simp only [tracked, next, putReconciler, Reconciler.heed, hpayload]
    rfl
  | updated update =>
    by_cases hempty : update.states.isEmpty = true
    · -- An update without locators is passed over.
      have hgiven : (Incident.heed event).applied? = none := by
        simp only [Incident.applied?, hpayload, hempty, if_true]
      apply Affects.stays hgiven nofun
      simp only [tracked, next, putReconciler, Reconciler.heed, hpayload, hempty, if_true]
    · have hgiven : (Incident.heed event).applied? = some update.states := by
        simp only [Incident.applied?, hpayload, if_neg hempty]
      apply Affects.applies hgiven
      simp only [tracked, next, putReconciler, Reconciler.heed, hpayload, if_neg hempty]
      rfl
  | stop request =>
    have hgiven : (Incident.heed event).applied? = none := by
      simp only [Incident.applied?, hpayload]
    apply Affects.stays hgiven nofun
    simp only [tracked, next, putReconciler, Reconciler.heed, hpayload]

theorem affects_step (s : Session) : s.Affects replies .step := by
  have hframe := (s.scene.step_frame replies s.pass).1
  by_cases hstage : ∃ item snapshot, s.pass.stage = .commit item snapshot
  · obtain ⟨item, snapshot, hcommit⟩ := hstage
    rw [hcommit] at hframe
    exact .commits rfl hcommit (congrArg Reconciler.tracked hframe)
  · have hother : ∀ item snapshot, s.pass.stage ≠ .commit item snapshot :=
      fun item snapshot hcommit => hstage ⟨item, snapshot, hcommit⟩
    apply Affects.stays rfl fun _ => hother
    -- No other stage touches the reconciler.
    rw [tracked, next, step, hframe]
    split
    · next item snapshot hcommit => exact absurd hcommit (hother item snapshot)
    · rfl

/-- An incident does one of these things. -/
theorem affects (s : Session) (incident : Incident) : s.Affects replies incident := by
  cases incident with
  | begin isCanceled =>
    refine .stays rfl nofun ?_
    show (s.begin isCanceled).tracked = s.tracked
    rcases s.begin_cases isCanceled with heq | heq
    · rw [heq]
    · rw [heq]
      rfl
  | step => exact s.affects_step
  | cancel => exact .stays rfl nofun rfl
  | drop => exact .stays rfl nofun rfl
  | heed event => exact s.affects_heed event
  | setLocators locators => exact .applies rfl rfl
  | applyRegistration e => exact .applies rfl rfl
  | register id isCanceled exchange => exact .stays rfl nofun rfl
  | surroundings files network broker => exact .stays rfl nofun rfl

/-- Feats are never taken back. -/
theorem feats_next (s : Session) (incident : Incident) :
    ∃ more, (s.next replies incident).feats = s.feats ++ more := by
  cases incident with
  | begin isCanceled =>
    refine ⟨[], ?_⟩
    show (s.begin isCanceled).feats = s.feats ++ []
    rcases s.begin_cases isCanceled with heq | heq
    · rw [heq, List.append_nil]
    · rw [heq, List.append_nil]
  | step => exact ⟨_, rfl⟩
  | _ => exact ⟨[], (List.append_nil _).symm⟩

/-! ## What Holds After a History -/

/-- What carries the laws of the tracked locators from one incident to the next: no locator is
tracked twice, the feats lead to the stage of the pass, and all snapshots are earned. -/
structure Sound (s : Session) : Prop where
  distinct : s.scene.reconciler.locators.Nodup
  underway : Underway s.feats s.pass.stage
  earned : ∀ t ∈ s.tracked, ∀ snapshot, t.last = some snapshot →
    Earned s.feats t.locator snapshot

theorem sound_new (site : Site) (credentials : Credentials) (locators : List String) :
    (new site (.new credentials locators)).Sound := by
  refine ⟨(Reconciler.Arises.new credentials locators).nodup_locators, trivial, ?_⟩
  intro t ht snapshot hlast
  -- At the beginning there are newcomers only.
  have htracked : t ∈ retrack [] locators := ht
  rw [retrack_eq, newcomers] at htracked
  obtain ⟨l, -, rfl⟩ := List.mem_map.mp htracked
  cases hlast

theorem Sound.underway_next (h : s.Sound) (incident : Incident) :
    Underway (s.next replies incident).feats (s.next replies incident).pass.stage := by
  cases incident with
  | begin isCanceled =>
    rcases s.begin_cases isCanceled with heq | heq
    · rw [Session.next, heq]
      exact h.underway
    · rw [Session.next, heq]
      trivial
  | step => exact underway_step (Scene.answering replies) h.underway s.scene
  | drop => trivial
  | _ => exact h.underway

theorem Sound.next (h : s.Sound) (incident : Incident) : (s.next replies incident).Sound := by
  obtain ⟨more, hmore⟩ := s.feats_next incident
  -- What was earned before is still earned.
  have hkept : ∀ t ∈ s.tracked, ∀ snapshot, t.last = some snapshot →
      Earned (s.next replies incident).feats t.locator snapshot := by
    intro t ht snapshot hlast
    rw [hmore]
    exact (h.earned t ht snapshot hlast).append more
  rcases s.affects incident with
    ⟨hgiven, hnext⟩ | @⟨item, earned, hstep, hstage, hnext⟩ | ⟨hgiven, hother, hnext⟩
  · refine ⟨?_, h.underway_next incident, ?_⟩
    · show ((s.next replies incident).tracked.map Tracked.locator).Nodup
      rw [hnext]
      exact nodup_tracks (Reconciler.nodup_kept h.distinct _) _
    · -- A survivor has its old snapshot, and a newcomer has none.
      intro t ht snapshot hlast
      rw [hnext, retrack_eq, List.mem_append] at ht
      rcases ht with hsurvivor | hnewcomer
      · exact hkept t (List.mem_filter.mp hsurvivor).1 snapshot hlast
      · obtain ⟨l, -, rfl⟩ := List.mem_map.mp hnewcomer
        cases hlast
  · subst hstep
    refine ⟨?_, h.underway_next .step, ?_⟩
    · show ((s.next replies .step).tracked.map Tracked.locator).Nodup
      rw [hnext]
      show (s.scene.reconciler.commit _ _).locators.Nodup
      rw [Reconciler.locators_commit]
      exact h.distinct
    · intro t ht snapshot hlast
      rw [hnext] at ht
      obtain ⟨before, hbefore, hremembers⟩ := Reconciler.mem_commit ht
      rw [hremembers.locator_eq]
      by_cases hown : before.locator = item.locator
      · -- The snapshot is the one that has been earned right now.
        obtain rfl := Option.some.inj ((hremembers.own hown).symm.trans hlast)
        have hunderway := h.underway
        rw [hstage] at hunderway
        rw [hown, Session.next, step, Pass.feat?, hstage]
        exact hunderway.earned
      · obtain rfl := hremembers.other hown
        exact hkept t hbefore snapshot hlast
  · refine ⟨?_, h.underway_next incident, ?_⟩
    · show ((s.next replies incident).tracked.map Tracked.locator).Nodup
      rw [hnext]
      exact h.distinct
    · rw [hnext]
      exact hkept

theorem sound_after (h : s.Sound) (history : List Incident) : (s.after replies history).Sound := by
  induction history with
  | nil => exact h
  | cons incident earlier ih => exact ih.next incident

/-- What holds of the tracked locators after a history that begins with some locators. -/
structure Tracks (replies : Replies) (start : Session) (initial : List String)
    (history : List Incident) : Prop where
  /-- No locator is tracked twice. -/
  distinct : ((start.after replies history).tracked.map Tracked.locator).Nodup
  /-- The locators are those that were given last. -/
  listed : ∀ l, l ∈ (start.after replies history).tracked.map Tracked.locator ↔
    l ∈ lastApplied initial history
  /-- When other locators are given, the survivors stay in their order with their snapshots, and
  the newcomers follow. -/
  applies : ∀ incident locators, incident.applied? = some locators →
    ((start.after replies history).next replies incident).tracked =
      survivors (start.after replies history).tracked locators ++
        newcomers (start.after replies history).tracked locators
  /-- A commit changes no more than the entry of its locator. -/
  commits : ∀ item snapshot,
    (start.after replies history).pass.stage = .commit item snapshot →
      List.Forall₂ (Tracked.Remembers item.locator snapshot) (start.after replies history).tracked
        ((start.after replies history).next replies .step).tracked
  /-- Nothing else changes the entries. -/
  stays : ∀ incident, incident.applied? = none →
    (incident = .step →
      ∀ item snapshot, (start.after replies history).pass.stage ≠ .commit item snapshot) →
    ((start.after replies history).next replies incident).tracked =
      (start.after replies history).tracked
  /-- Every snapshot is earned by feats, -/
  earned : ∀ t ∈ (start.after replies history).tracked, ∀ snapshot, t.last = some snapshot →
    Earned (start.after replies history).feats t.locator snapshot
  /-- and every feat was achieved by a step of a pass. -/
  achieved : ∀ feat ∈ (start.after replies history).feats, ∃ before,
    .step :: before <:+ history ∧
      (start.after replies before).pass.feat? (Scene.answering replies)
        (start.after replies before).scene = some feat

end Session

end EdgeSync
