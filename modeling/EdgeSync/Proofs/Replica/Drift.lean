import EdgeSync.Proofs.Pass.OneFile
import EdgeSync.Proofs.Replica.Mirror

/-!
# Drift of the Replica

A pass that fails at its replication has already deleted, while the last known snapshot
stays. If the old document comes back, the comparison finds nothing to do, and what was
deleted goes on missing. Over all runs of passes on one locator, this is the only way in
which the replica and the last known snapshot come apart: the replica lacks the keys that
are lost in this way, and agrees about all others.

A history lists the occasions of the passes, the latest first.

## Main definitions

- `Occasion`, `Scene.turn`, `Scene.after`: passes one after the other
- `Drops`, `Regains`, `Scene.Lost`: how keys are lost and found again

## Main results

- `Visit.Proceeds.agrees`: what a visit does to a key
- `Scene.follows_after`: what a run of passes does to the keys
- `mirror_lacks_lost`: the replica lacks the lost keys only
-/

namespace EdgeSync

/-! ## Runs -/

/-- What a pass meets: the site, and whether its scope has been canceled before. -/
structure Occasion where
  site : Site
  isCanceled : Bool

namespace Scene

/-- A scene on an occasion. -/
def meet (s : Scene) (o : Occasion) : Scene :=
  { s with site := o.site, isCanceled := o.isCanceled }

/-- A pass on an occasion. -/
def turn (replies : Replies) (o : Occasion) (s : Scene) : Outcome × Scene :=
  Pass.complete (answering replies) s.reconciler (s.meet o)

/-- The scene after a history of passes. -/
def after (replies : Replies) (start : Scene) : List Occasion → Scene
  | [] => start
  | o :: earlier => ((after replies start earlier).turn replies o).2

end Scene

/-! ## Keys That Are Lost -/

/-- Some calls after others delete a key, and the pass that made them does not succeed. -/
def Drops (replies : Replies) (before calls : List ReplicaCall) (succeeds : Prop)
    (key : String) : Prop :=
  ¬ succeeds ∧ ∃ artifacts more, calls = .delete artifacts :: more ∧
    replies before (.delete artifacts) = .ok () ∧ ofKey key artifacts ≠ []

/-- Some calls replicate a key, or it is not asked for any more, and the pass that made them
succeeds. -/
def Regains (calls : List ReplicaCall) (succeeds : Prop) (last : Option Snapshot)
    (key : String) : Prop :=
  succeeds ∧ ((∃ artifacts, .replicate artifacts ∈ calls ∧ ofKey key artifacts ≠ []) ∨
    mirrorOf last key = none)

/-- The keys that have been lost in a history and not been regained. -/
def Scene.Lost (replies : Replies) (start : Scene) (locator : String) :
    List Occasion → String → Prop
  | [], _ => False
  | o :: earlier, key =>
    let s := start.after replies earlier
    let answer := s.turn replies o
    let calls := answer.2.calls.drop s.calls.length
    let succeeds := answer.1 = .done .continue
    Drops replies s.calls calls succeeds key ∨
      Lost replies start locator earlier key ∧
        ¬ Regains calls succeeds (answer.2.reconciler.lastKnown? locator) key

/-- A key is held as the last known snapshot asks, unless it is lost; a lost one is not held,
though the snapshot asks for it. -/
def Agrees (lost : Prop) (held wanted : Option String) : Prop :=
  (lost ∧ held = none ∧ wanted ≠ none) ∨ (¬ lost ∧ held = wanted)

/-! ## One Visit -/

/-- If nothing is dropped and nothing regained, as much is lost as before. -/
theorem Agrees.of_nothing {lost drops regains : Prop} {held wanted : Option String}
    (h : Agrees lost held wanted) (hdrops : ¬ drops) (hregains : ¬ regains) :
    Agrees (drops ∨ lost ∧ ¬ regains) held wanted := by
  have hlost : (drops ∨ lost ∧ ¬ regains) = lost := by simp [hdrops, hregains]
  rwa [hlost]

theorem not_drops_of_succeeds {replies : Replies} {before calls : List ReplicaCall}
    {succeeds : Prop} {key : String} (h : succeeds) :
    ¬ Drops replies before calls succeeds key :=
  fun hdrops => hdrops.1 h

theorem not_regains_of_fails {calls : List ReplicaCall} {succeeds : Prop}
    {last : Option Snapshot} {key : String} (h : ¬ succeeds) :
    ¬ Regains calls succeeds last key :=
  fun hregains => h hregains.1

/-- What the calls of a visit replicate that has succeeded. -/
theorem exists_replicate_iff {c : Changes} {key : String} :
    (∃ artifacts, .replicate artifacts ∈ c.orders ++ [.notify] ∧ ofKey key artifacts ≠ []) ↔
      ofKey key c.replicate ≠ [] := by
  constructor
  · rintro ⟨artifacts, hmem, hkey⟩
    have hreplicate : c.replicate ≠ [] ∧ artifacts = c.replicate := by
      simpa [Changes.orders, Changes.deleteOrder, Changes.replicateOrder] using hmem
    rwa [← hreplicate.2]
  · intro hkey
    have hsome : c.replicate ≠ [] := by
      intro hnil
      rw [hnil] at hkey
      exact hkey rfl
    exact ⟨c.replicate, by simp [Changes.orders, Changes.replicateOrder, hsome], hkey⟩

/-- What the calls of a visit drop that has failed at its replication. -/
theorem drops_deleteOrder_iff {replies : Replies} {before : List ReplicaCall} {c : Changes}
    {artifacts : List Artifact} {succeeds : Prop} {key : String}
    (hdeleted : ∀ order ∈ c.deleteOrder, replies before order = .ok ()) (hfails : ¬ succeeds) :
    Drops replies before (c.deleteOrder ++ [.replicate artifacts]) succeeds key ↔
      ofKey key c.delete ≠ [] := by
  unfold Changes.deleteOrder at hdeleted ⊢
  split
  · next hempty =>
    rw [List.isEmpty_iff.mp hempty]
    constructor
    · rintro ⟨-, asked, more, hcalls, -⟩
      cases hcalls
    · intro hkey
      exact absurd rfl hkey
  · next hsome =>
    rw [if_neg hsome] at hdeleted
    constructor
    · rintro ⟨-, asked, more, hcalls, -, hkey⟩
      obtain rfl : c.delete = asked := ReplicaCall.delete.inj (List.cons.inj hcalls).1
      exact hkey
    · intro hkey
      exact ⟨hfails, c.delete, _, rfl, hdeleted _ List.mem_cons_self, hkey⟩

variable {replies : Replies} {before : List ReplicaCall} {v : Visit} {m : Mirror} {key : String}
  {lost : Prop}

/-- What a visit does to a key. -/
theorem Visit.Proceeds.agrees (h : Visit.Proceeds replies before v)
    (hm : Agrees lost (m key) (mirrorOf v.item.last key)) :
    Agrees
      (Drops replies before v.calls (v.fault = none) key ∨
        lost ∧ ¬ Regains v.calls (v.fault = none) v.outcome.last key)
      (replies.replay before v.calls m key) (mirrorOf v.outcome.last key) := by
  cases h with
  | unreached fault harrival hplaced hfault =>
    -- No call is made.
    have hfails : ¬ v.fault = none := by simp [hfault]
    rw [Visit.outcome_of_failed hfault, Visit.calls_of_failed hfault, hplaced]
    refine hm.of_nothing ?_ (not_regains_of_fails hfails)
    rintro ⟨-, artifacts, more, hcalls, -⟩
    cases hcalls
  | undeleted snapshot c fault harrival hchanges hsome hanswer hplaced hfault =>
    have hfails : ¬ v.fault = none := by simp [hfault]
    rw [Visit.outcome_of_failed hfault, Visit.calls_of_failed hfault, hplaced,
      Replies.replay_failed hanswer]
    refine hm.of_nothing ?_ (not_regains_of_fails hfails)
    -- The only call is the deletion, and it has failed.
    rintro ⟨-, artifacts, more, hcalls, hdeleted, -⟩
    obtain ⟨hcall, -⟩ := List.cons.inj hcalls
    rw [← hcall, hanswer] at hdeleted
    cases hdeleted
  | unreplicated snapshot c fault harrival hchanges hdeleted hsome hanswer hplaced hfault =>
    -- The deletion stays in force, and the last known snapshot stays what it was.
    have hfails : ¬ v.fault = none := by simp [hfault]
    rw [Visit.outcome_of_failed hfault, Visit.calls_of_failed hfault, hplaced,
      Replies.replay_append, Replies.replay_deleteOrder hdeleted, Replies.replay_failed hanswer,
      Mirror.forget_apply]
    have hdrops : Drops replies before (c.deleteOrder ++ [.replicate c.replicate])
        (v.fault = none) key ↔ ofKey key c.delete ≠ [] :=
      drops_deleteOrder_iff hdeleted hfails
    by_cases hkey : ofKey key c.delete = []
    · rw [if_pos hkey]
      exact hm.of_nothing (fun h => hdrops.mp h hkey) (not_regains_of_fails hfails)
    · -- What has been deleted is lost, as the last known snapshot asks for it.
      rw [if_neg hkey]
      have hwanted : mirrorOf v.item.last key ≠ none := by
        rw [hchanges, ofKey_changes_delete] at hkey
        rw [mirrorOf_apply]
        simpa using compareKey_delete_ne_nil hkey
      exact .inl ⟨.inl (hdrops.mpr hkey), rfl, hwanted⟩
  | reconciled snapshot c harrival hchanges hdeleted hreplicated hplaced hfault =>
    -- The replica has followed all changes, and the new snapshot is remembered.
    rw [Visit.outcome_of_succeeded hfault harrival, Visit.calls_of_succeeded hfault, hplaced,
      Replies.replay_append, Replies.replay_notify, Changes.orders, Replies.replay_append,
      Replies.replay_deleteOrder hdeleted, Replies.replay_replicateOrder hreplicated,
      ← Changes.orders]
    have hdrops : ¬ Drops replies before (c.orders ++ [.notify]) (v.fault = none) key :=
      not_drops_of_succeeds hfault
    have hregains : Regains (c.orders ++ [.notify]) (v.fault = none) (some snapshot) key ↔
        ofKey key c.replicate ≠ [] ∨ snapshot.mirror key = none := by
      rw [Regains, exists_replicate_iff]
      exact and_iff_right hfault
    subst hchanges
    rcases hm with ⟨hlost, hheld, -⟩ | ⟨hnot, hheld⟩
    · by_cases hreplicate : ofKey key (changes v.item.last snapshot).replicate = []
      · -- A lost key that is not replicated goes on missing.
        have hmissing : ((m.forget (changes v.item.last snapshot).delete).hold
            (changes v.item.last snapshot).replicate) key = none := by
          rw [hold_forget_of_not_replicated hreplicate, hheld, ite_self]
        rw [hmissing]
        by_cases hwanted : snapshot.mirror key = none
        · -- The new snapshot does not ask for it either.
          have hfound := hregains.mpr (.inr hwanted)
          exact .inr ⟨by simp [hdrops, hfound], hwanted.symm⟩
        · have hmissed := mt hregains.mp (by simp [hreplicate, hwanted])
          exact .inl ⟨.inr ⟨hlost, hmissed⟩, rfl, hwanted⟩
      · have hfound := hregains.mpr (.inl hreplicate)
        exact .inr ⟨by simp [hdrops, hfound], hold_forget_of_replicated hreplicate⟩
    · exact .inr ⟨by simp [hdrops, hnot], hold_forget_of_agrees hheld⟩

/-! ## All Visits of a Run -/

namespace Scene

/-- The visit of a pass on an occasion: nothing comes if the scope has been canceled. -/
def turnVisit (replies : Replies) (o : Occasion) (s : Scene) (item : Tracked) : Visit :=
  Visit.make replies s.calls item
    (if o.isCanceled then .error .canceled else (s.meet o).arrival item.locator)

/-- A pass on an occasion comes to its visit. -/
theorem turn_single (replies : Replies) (o : Occasion) {s : Scene} {item : Tracked}
    (htracked : s.reconciler.tracked = [item]) :
    Single (s.meet o) (s.turnVisit replies o item) (s.turn replies o) := by
  unfold turnVisit
  cases hcanceled : o.isCanceled with
  | false => exact complete_answering_single replies (s.meet o) hcanceled htracked
  | true =>
    -- A pass that is canceled before it begins does nothing.
    have hturn : s.turn replies o = (.failed .canceled, s.meet o) := by
      have hcanceled' : (answering replies).isCanceled (s.meet o) = true := hcanceled
      rw [turn, Pass.complete_eq_sweep, htracked, Surroundings.sweep, if_pos hcanceled']
    have hkeep : s.reconciler = { s.reconciler with tracked := [item] } := by rw [← htracked]
    rw [hturn]
    exact ⟨by simp [Visit.make], (List.append_nil s.calls).symm, hkeep, Alike.refl _⟩

/-- What a replica holds at a scene, if it held nothing at first. -/
def held (replies : Replies) (s : Scene) : Mirror :=
  replies.replay [] s.calls .empty

/-- A scene with one locator: the replica holds what its last known snapshot asks for, but for
the keys that are lost. -/
structure Follows (replies : Replies) (locator : String) (lost : String → Prop) (s : Scene) :
    Prop where
  tracked : ∃ last, s.reconciler.tracked = [⟨locator, last⟩]
  agrees : ∀ key, Agrees (lost key) (s.held replies key)
    (mirrorOf (s.reconciler.lastKnown? locator) key)

theorem lastKnown?_of_tracked {r : Reconciler} {item : Tracked} (h : r.tracked = [item]) :
    r.lastKnown? item.locator = item.last := by
  simp [Reconciler.lastKnown?, h]

theorem Follows.turn {replies : Replies} {locator : String} {lost : String → Prop} {s : Scene}
    (h : s.Follows replies locator lost) (o : Occasion) :
    (s.turn replies o).2.Follows replies locator fun key =>
      Drops replies s.calls ((s.turn replies o).2.calls.drop s.calls.length)
          ((s.turn replies o).1 = .done .continue) key ∨
        lost key ∧
          ¬ Regains ((s.turn replies o).2.calls.drop s.calls.length)
            ((s.turn replies o).1 = .done .continue)
            ((s.turn replies o).2.reconciler.lastKnown? locator) key := by
  obtain ⟨⟨last, htracked⟩, hagrees⟩ := h
  obtain ⟨hdone, hcalls, hreconciler, -⟩ := turn_single replies o htracked
  have hproceeds := Visit.make_proceeds replies s.calls ⟨locator, last⟩
    (if o.isCanceled then .error .canceled else (s.meet o).arrival locator)
  have hitem : (s.turnVisit replies o ⟨locator, last⟩).item = ⟨locator, last⟩ := Visit.make_item ..
  change Visit.Proceeds replies s.calls (s.turnVisit replies o ⟨locator, last⟩) at hproceeds
  -- Of the visit only its way is needed, and what it says of the pass.
  generalize s.turnVisit replies o ⟨locator, last⟩ = v at hdone hcalls hreconciler hproceeds hitem
  have hlocator : v.outcome.locator = locator := by rw [Visit.outcome_locator, hitem]
  have htracked' : (s.turn replies o).2.reconciler.tracked = [v.outcome] := by
    rw [hreconciler]
  have hlast : s.reconciler.lastKnown? locator = v.item.last := by
    rw [hitem]
    exact lastKnown?_of_tracked htracked
  have hlast' : (s.turn replies o).2.reconciler.lastKnown? locator = v.outcome.last := by
    rw [← hlocator]
    exact lastKnown?_of_tracked htracked'
  have hnew : (s.turn replies o).2.calls.drop s.calls.length = v.calls := by
    rw [hcalls]
    exact List.drop_left
  have hheld : (s.turn replies o).2.held replies =
      replies.replay s.calls v.calls (s.held replies) := by
    rw [held, hcalls]
    exact replies.replay_append [] s.calls v.calls .empty
  refine ⟨⟨v.outcome.last, ?_⟩, ?_⟩
  · rw [htracked', ← hlocator]
  · intro key
    rw [hlast', hnew, hheld, hdone]
    exact hproceeds.agrees (hlast ▸ hagrees key)

theorem follows_after {replies : Replies} {locator : String} {start : Scene}
    (h : start.Follows replies locator fun _ => False) (history : List Occasion) :
    (start.after replies history).Follows replies locator
      (start.Lost replies locator history) := by
  induction history with
  | nil => exact h
  | cons o earlier ih => exact ih.turn o

/-- A reconciler of one locator that has fetched nothing. -/
theorem follows_new (replies : Replies) (site : Site) (credentials : Credentials)
    (locator : String) :
    (new site (.new credentials [locator])).Follows replies locator fun _ => False := by
  have htracked : (Reconciler.new credentials [locator]).tracked = [⟨locator, none⟩] := by
    simp [Reconciler.new, retrack, track]
  refine ⟨⟨none, htracked⟩, ?_⟩
  intro key
  refine .inr ⟨not_false, ?_⟩
  have hlast : (Reconciler.new credentials [locator]).lastKnown? locator = none :=
    lastKnown?_of_tracked htracked
  simp only [new, hlast]
  rfl

end Scene

/-- After all runs of passes on one locator, the replica lacks the keys that are lost, and for
all others it holds what the last known snapshot asks for. -/
theorem mirror_lacks_lost (replies : Replies) (site : Site) (credentials : Credentials)
    (locator : String) (history : List Occasion) :
    let start := Scene.new site (Reconciler.new credentials [locator])
    let s := start.after replies history
    let held := s.held replies
    let wanted := mirrorOf (s.reconciler.lastKnown? locator)
    (∀ key, (start.Lost replies locator history key ∧ held key = none ∧ wanted key ≠ none) ∨
      (¬ start.Lost replies locator history key ∧ held key = wanted key)) ∧
    (held = wanted ↔ ∀ key, ¬ start.Lost replies locator history key) := by
  intro start s held wanted
  have hagrees := (Scene.follows_after (Scene.follows_new replies site credentials locator)
    history).agrees
  refine ⟨hagrees, ?_⟩
  rw [funext_iff]
  refine forall_congr' fun key => ?_
  rcases hagrees key with ⟨hlost, hheld, hwanted⟩ | ⟨hnot, heq⟩
  · refine iff_of_false ?_ (fun hnot => hnot hlost)
    intro heq
    exact hwanted (heq.symm.trans hheld)
  · exact iff_of_true heq hnot

/-! ## A Run That Loses a Key -/

/-- A site that has the document. -/
def offering (digest : String) : Occasion :=
  ⟨.holding (oneImageText digest), false⟩

/-- A replica that fails to replicate a digest. -/
def refusing (digest : String) : Replies
  | _, .replicate artifacts =>
    if artifacts.any fun a => a.digest == digest then .error (.replication "full") else .ok ()
  | _, _ => .ok ()

theorem turn_offering (replies : Replies) (made : List ReplicaCall) (next : Option Snapshot)
    {digest : String} {s : Scene} {before : List ReplicaCall} {last : Option Snapshot}
    (hparse : (Snapshot.parse (Text.Document.ofBytes (oneImageText digest).toUTF8)).toOption =
      some (oneImage digest))
    (hbefore : s.calls = before) (htracked : s.reconciler.tracked = [⟨"a", last⟩])
    (hmade : (Visit.make replies before ⟨"a", last⟩ (.ok (oneImage digest).prepare)).calls = made)
    (hnext : (Visit.make replies before ⟨"a", last⟩ (.ok (oneImage digest).prepare)).outcome =
      ⟨"a", next⟩) :
    (s.turn replies (offering digest)).2.calls = before ++ made ∧
      (s.turn replies (offering digest)).2.reconciler.tracked = [⟨"a", next⟩] ∧
      ((s.turn replies (offering digest)).1 = .done .continue ↔
        (Visit.make replies before ⟨"a", last⟩ (.ok (oneImage digest).prepare)).fault = none) := by
  have harrival : (s.meet (offering digest)).arrival "a" = .ok (oneImage digest).prepare :=
    Scene.arrival_holding rfl hparse
  subst hbefore hmade
  rw [← hnext, ← harrival]
  obtain ⟨hdone, hcalls, hreconciler, -⟩ :=
    Scene.turn_single replies (offering digest) htracked
  exact ⟨hcalls, congrArg Reconciler.tracked hreconciler, hdone⟩

/-- An artifact is replicated. Its successor cannot be, but the artifact has been deleted
before; then the old document comes back. The last pass succeeds, and the artifact is missing. -/
theorem deleted_key_goes_missing :
    let replies := refusing "d2"
    let start := Scene.new (offering "d1").site (Reconciler.new .empty ["a"])
    let answer := (start.after replies [offering "d2", offering "d1"]).turn replies
      (offering "d1")
    answer.1 = .done .continue ∧ answer.2.held replies "a|1" = none ∧
      mirrorOf (answer.2.reconciler.lastKnown? "a") "a|1" = some "d1" := by
  intro replies start answer
  have hparse₁ : (Snapshot.parse (Text.Document.ofBytes (oneImageText "d1").toUTF8)).toOption =
      some (oneImage "d1") := by
    decide +kernel
  have hparse₂ : (Snapshot.parse (Text.Document.ofBytes (oneImageText "d2").toUTF8)).toOption =
      some (oneImage "d2") := by
    decide +kernel
  have hstart : start.calls = [] ∧ start.reconciler.tracked = [⟨"a", none⟩] := ⟨rfl, rfl⟩
  have hanswer : answer = (start.after replies [offering "d2", offering "d1"]).turn replies
    (offering "d1") := rfl
  rw [hanswer, Scene.after, Scene.after, Scene.after]
  -- The first document is replicated and remembered.
  obtain ⟨hcalls₁, htracked₁, -⟩ := turn_offering replies
    [.replicate (oneImage "d1").artifacts, .notify] (some (oneImage "d1"))
    hparse₁ hstart.1 hstart.2 (by decide) (by decide)
  generalize (start.turn replies (offering "d1")).2 = first at hcalls₁ htracked₁ ⊢
  -- The second one is not replicated; the first one remains the last known.
  obtain ⟨hcalls₂, htracked₂, -⟩ := turn_offering replies
    [.delete (oneImage "d1").artifacts, .replicate (oneImage "d2").artifacts]
    (some (oneImage "d1")) hparse₂ hcalls₁ htracked₁ (by decide) (by decide)
  generalize (first.turn replies (offering "d2")).2 = second at hcalls₂ htracked₂ ⊢
  -- It comes again, and nothing is to be done.
  obtain ⟨hcalls₃, htracked₃, hdone₃⟩ := turn_offering replies [.notify] (some (oneImage "d1"))
    hparse₁ hcalls₂ htracked₂ (by decide) (by decide)
  generalize second.turn replies (offering "d1") = third at hcalls₃ htracked₃ hdone₃ ⊢
  have hlast : third.2.reconciler.lastKnown? "a" = some (oneImage "d1") :=
    Scene.lastKnown?_of_tracked htracked₃
  refine ⟨hdone₃.mpr (by decide), ?_, ?_⟩
  · rw [Scene.held, hcalls₃]
    decide
  · rw [hlast]
    decide

end EdgeSync
