import EdgeSync.Proofs.Pass.OneFile
import EdgeSync.Proofs.Replica.NormalForm

/-!
# Isolation of Locators

A pass treats every locator on its own. Which calls are made for a locator, whether they
succeed, and what is remembered of it depend on its own last snapshot, on what it gives
at the scene where the pass begins, and on the answers to its own calls. A locator that
fails is named at the end; it keeps nobody else from being reconciled.

## Main definitions

- `Scene.Isolated`: the locators of a pass have been treated on their own, in order
- `Visit.complaint?`: what the result of a pass says of a visit

## Main results

- `Scene.complete_isolated`: passes do so, whatever the replica answers
- `Scene.execute_isolated`: so do those whose replica has cues to fail
-/

namespace EdgeSync

/-! ## What Isolation Means -/

/-- What the result of a pass says of a visit that has failed: its locator and the fault. -/
def Visit.complaint? (v : Visit) : Option String :=
  v.fault.map fun fault => v.item.locator ++ ": " ++ fault.message

namespace Scene

/-- The locators of a pass at a scene have been treated on their own: the pass has come to
some visits, each of which stands for itself. -/
structure Isolated (replies : Replies) (s : Scene) (vs : List Visit)
    (answer : Outcome × Scene) : Prop where
  /-- Every locator is visited once, in order, with its last snapshot. -/
  items : vs.map Visit.item = s.reconciler.tracked
  /-- A visit looks at what its own locator gives when the pass begins. It goes on as the
  replica answers, which knows the calls before. -/
  proceeds : ∀ earlier v later, vs = earlier ++ v :: later →
    v.arrival = s.arrival v.item.locator ∧
      Visit.Proceeds replies (s.calls ++ earlier.flatMap Visit.calls) v
  /-- A locator gives a snapshot exactly if its source is found and a document is fetched from
  there; the snapshot is this document with normalized artifacts, and none without a tag. -/
  arrives : ∀ v ∈ vs, ∀ snapshot, v.arrival = .ok snapshot ↔ ∃ source document,
    Locator.parse s.site.network.names s.site.files v.item.locator = .ok source ∧
      (EdgeSync.fetch s.site.files s.site.network s.account source).1 = .ok document ∧
      document.PreparesTo snapshot
  /-- The calls are those of the visits. -/
  calls : answer.2.calls = s.calls ++ vs.flatMap Visit.calls
  /-- A locator has the new snapshot if its visit has succeeded, else the last one. -/
  reconciler : answer.2.reconciler = { s.reconciler with tracked := vs.map Visit.outcome }
  /-- The pass succeeds if all visits do. -/
  done_iff : answer.1 = .done .continue ↔ ∀ v ∈ vs, v.fault = none
  /-- Else it names those that have failed, in order, and counts them. -/
  failed : (∃ v ∈ vs, v.fault ≠ none) →
    answer.1 = .failed (.failed
      (toString (vs.filterMap Visit.complaint?).length ++ " of " ++
        toString s.reconciler.tracked.length ++ " locators failed: " ++
        "; ".intercalate (vs.filterMap Visit.complaint?)))

/-- A snapshot that arrives is a document in the form in which it is compared. -/
theorem arrival_eq_ok_iff {s : Scene} {locator : String} {snapshot : Snapshot} :
    s.arrival locator = .ok snapshot ↔ ∃ source document,
      Locator.parse s.site.network.names s.site.files locator = .ok source ∧
        (EdgeSync.fetch s.site.files s.site.network s.account source).1 = .ok document ∧
        document.PreparesTo snapshot := by
  simp only [arrival, Snapshot.preparesTo_iff]
  cases hparse : Locator.parse s.site.network.names s.site.files locator with
  | error fault => simp
  | ok source =>
    cases hfetch : (EdgeSync.fetch s.site.files s.site.network s.account source).1 with
    | error fault => simp [Except.map, hfetch]
    | ok document => simp [Except.map, hfetch, eq_comm]

/-- The result names the failed locators with their faults, and counts them. -/
theorem failureMessage_eq (vs : List Visit) (total : Nat) :
    Pass.failureMessage (vs.filterMap Visit.failure?) total =
      toString (vs.filterMap Visit.complaint?).length ++ " of " ++ toString total ++
        " locators failed: " ++ "; ".intercalate (vs.filterMap Visit.complaint?) := by
  have hcomplaints : (vs.filterMap Visit.failure?).map LocatorFailure.message =
      vs.filterMap Visit.complaint? := by
    rw [List.map_filterMap]
    apply List.filterMap_congr
    intro v _
    rw [Visit.failure?, Option.map_map]
    rfl
  rw [Pass.failureMessage, hcomplaints, ← List.length_map, hcomplaints]

/-! ## Passes Isolate -/

/-- What a pass comes to says that its locators have been treated on their own. -/
theorem SweepsTo.isolated {replies : Replies} {s : Scene} {answer : Outcome × Scene}
    (h : SweepsTo s (visits replies s.arrival s.calls s.reconciler.tracked) [] []
      s.reconciler.tracked.length answer) :
    s.Isolated replies (visits replies s.arrival s.calls s.reconciler.tracked) answer := by
  generalize hvs : visits replies s.arrival s.calls s.reconciler.tracked = vs at h
  obtain ⟨houtcome, hcalls, hreconciler, -⟩ := h
  rw [List.nil_append] at houtcome
  have hnone : vs.filterMap Visit.failure? = [] ↔ ∀ v ∈ vs, v.fault = none := by
    simp [List.filterMap_eq_nil_iff, Visit.failure?]
  have hproceeds : ∀ earlier v later, vs = earlier ++ v :: later →
      v.arrival = s.arrival v.item.locator ∧
        Visit.Proceeds replies (s.calls ++ earlier.flatMap Visit.calls) v := by
    -- A visit is determined by the calls before it and by its own locator.
    intro earlier v later hsplit
    have hv := visits_split (hvs.trans hsplit)
    rw [hv, Visit.make_arrival, Visit.make_item]
    exact ⟨rfl, Visit.make_proceeds ..⟩
  refine ⟨?_, hproceeds, ?_, hcalls, hreconciler, ?_, ?_⟩
  · rw [← hvs]
    exact map_item_visits ..
  · intro v hv snapshot
    obtain ⟨earlier, later, hsplit⟩ := List.append_of_mem hv
    rw [(hproceeds earlier v later hsplit).1]
    exact arrival_eq_ok_iff
  · rw [houtcome, ← hnone]
    exact Surroundings.concluded_eq_done_iff
  · rintro ⟨v, hv, hfault⟩
    have hsome : vs.filterMap Visit.failure? ≠ [] := fun hempty => hfault (hnone.mp hempty v hv)
    rw [houtcome, Surroundings.concluded_of_ne_nil hsome, failureMessage_eq]

/-- A pass whose replica has cues to fail treats its locators on their own. -/
theorem execute_isolated {s : Scene}
    (hcues : ∀ cue ∈ s.cues, ∃ reason, cue.action = .fail reason) (hlive : s.isCanceled = false)
    (hdistinct : s.reconciler.locators.Nodup) :
    s.Isolated (Cue.replies s.cues)
      (visits (Cue.replies s.cues) s.arrival s.calls s.reconciler.tracked) s.execute := by
  rw [execute_eq_complete_answering hcues]
  exact (complete_answering (Cue.replies_ne_canceled s.cues) s hlive hdistinct).isolated

/-- A pass treats its locators on their own, whatever the replica answers, and so does one
whose replica has cues to fail. -/
theorem complete_isolated {replies : Replies}
    (hreplies : ∀ before c, replies before c ≠ .error .canceled) (s : Scene)
    (hlive : s.isCanceled = false) (hdistinct : s.reconciler.locators.Nodup) :
    s.Isolated replies (visits replies s.arrival s.calls s.reconciler.tracked)
        (Pass.complete (answering replies) s.reconciler s) ∧
      ((∀ cue ∈ s.cues, ∃ reason, cue.action = .fail reason) →
        s.Isolated (Cue.replies s.cues)
          (visits (Cue.replies s.cues) s.arrival s.calls s.reconciler.tracked) s.execute) := by
  refine ⟨?_, ?_⟩
  · exact (complete_answering hreplies s hlive hdistinct).isolated
  · intro hcues
    exact execute_isolated hcues hlive hdistinct

/-- Two locators at a site that has a file for one of them, and a replica that refuses
every second call. -/
theorem complete_isolated_two :
    let replies : Replies := fun before _ =>
      if before.length % 2 = 0 then .ok () else .error (.replication "full")
    let s := Scene.new (Site.holding (oneImageText "d1")) (Reconciler.new .empty ["a", "b"])
    ((∀ before c, replies before c ≠ .error .canceled) ∧ s.isCanceled = false ∧
      s.reconciler.locators.Nodup ∧ ∀ cue ∈ s.cues, ∃ reason, cue.action = .fail reason) ∧
    s.Isolated replies (visits replies s.arrival s.calls s.reconciler.tracked)
      (Pass.complete (answering replies) s.reconciler s) ∧
    s.Isolated (Cue.replies s.cues)
      (visits (Cue.replies s.cues) s.arrival s.calls s.reconciler.tracked) s.execute := by
  intro replies s
  have hreplies : ∀ before c, replies before c ≠ .error .canceled := by
    intro before c
    dsimp only [replies]
    split <;> simp
  have hdistinct : s.reconciler.locators.Nodup := by decide
  have hcues : ∀ cue ∈ s.cues, ∃ reason, cue.action = .fail reason := nofun
  obtain ⟨hcomplete, hexecute⟩ := complete_isolated hreplies s rfl hdistinct
  exact ⟨⟨hreplies, rfl, hdistinct, hcues⟩, hcomplete, hexecute hcues⟩

end Scene

end EdgeSync
