import EdgeSync.Proofs.Pass.Visits
import EdgeSync.Proofs.Web.Following

/-!
# Passes at a Scene

At a scene whose replica may answer in any way, treating a locator is a visit, and a
whole pass is the visits of its locators. What a visit needs of the scene is not changed
by the visits before it: the files, the routes of the network and the credentials stay.

## Main definitions

- `Scene.Alike`: scenes that look the same to whoever resolves and fetches
- `Scene.ComesTo`, `Scene.SweepsTo`: a treatment or a pass comes to visits

## Main results

- `treat_answering`: treating a locator at a scene is a visit
- `complete_answering`: a pass without cancellation is the visits of its locators
- `complete_answering_single`: a pass over one locator, whatever the replica answers
- `execute_eq_complete_answering`: replicas that have cues to fail are among those that
  answer in some way
-/

namespace EdgeSync

open EdgeSync.Web

/-! ## Treating a Locator at a Scene -/

namespace Scene

/-- Two scenes look the same to whoever resolves and fetches. -/
structure Alike (s t : Scene) : Prop where
  files : t.site.files = s.site.files
  routes : t.site.network.routes = s.site.network.routes
  isReachable : t.site.network.isReachable = s.site.network.isReachable
  names : t.site.network.names = s.site.network.names
  credentials : t.reconciler.credentials = s.reconciler.credentials
  isCanceled : t.isCanceled = s.isCanceled

theorem Alike.refl (s : Scene) : Alike s s := ⟨rfl, rfl, rfl, rfl, rfl, rfl⟩

theorem Alike.trans {s t u : Scene} (hst : Alike s t) (htu : Alike t u) : Alike s u :=
  ⟨htu.files.trans hst.files, htu.routes.trans hst.routes,
    htu.isReachable.trans hst.isReachable, htu.names.trans hst.names,
    htu.credentials.trans hst.credentials, htu.isCanceled.trans hst.isCanceled⟩

theorem Alike.account_eq {s t : Scene} (h : Alike s t) : t.account = s.account := by
  rw [account, account, h.credentials]

theorem Alike.fetch_eq {s t : Scene} (h : Alike s t) (account : Option Account)
    (source : Locator) :
    (EdgeSync.fetch t.site.files t.site.network account source).1 =
      (EdgeSync.fetch s.site.files s.site.network account source).1 := by
  cases source with
  | file path => simp only [EdgeSync.fetch, h.files]
  | web url => simp only [EdgeSync.fetch, Network.get_eq h.routes h.isReachable]

theorem Alike.arrival_eq {s t : Scene} (h : Alike s t) : t.arrival = s.arrival := by
  funext locator
  simp only [arrival, h.account_eq, h.fetch_eq]
  rw [h.files, h.names]

/-- Resolving a locator changes nothing that a pass looks at. -/
theorem alike_resolve (s : Scene) (locator : String) : Alike s (s.resolve locator).2 := by
  unfold resolve
  split <;> exact ⟨rfl, rfl, rfl, rfl, rfl, rfl⟩

theorem resolve_frame (s : Scene) (locator : String) :
    (s.resolve locator).2.calls = s.calls ∧
      (s.resolve locator).2.reconciler = s.reconciler := by
  unfold resolve
  split <;> exact ⟨rfl, rfl⟩

theorem resolve_cues (s : Scene) (locator : String) :
    (s.resolve locator).2.cues = s.cues := by
  unfold resolve
  split <;> rfl

theorem alike_fetch (s : Scene) (account : Option Account) (source : Locator) :
    Alike s (s.fetch account source).2 := by
  have hkept := fetch_kept s.site.files s.site.network account source
  exact ⟨rfl, hkept.routes, hkept.isReachable, hkept.names, rfl, rfl⟩

theorem arrival_eq_resolve (s : Scene) (locator : String) :
    s.arrival locator =
      match (s.resolve locator).1 with
      | .error fault => .error fault
      | .ok source => (s.fetch s.account source).1.map Snapshot.prepare := by
  unfold arrival resolve fetch
  rcases Locator.parse s.site.network.names s.site.files locator with fault | (url | path) <;> rfl

end Scene

namespace Scene

/-- Asking for one kind of change is placing the order for it, if there is one. -/
theorem ask_answering (replies : Replies) (s : Scene) (hlive : s.isCanceled = false)
    (order : List Artifact → ReplicaCall) (artifacts : List Artifact) :
    (answering replies).ask (fun as => hear replies (order as)) artifacts s =
      match replies.place s.calls (if artifacts.isEmpty then [] else [order artifacts]) with
      | (placed, some fault) => (.error fault, { s with calls := s.calls ++ placed })
      | (placed, none) => (.ok (), { s with calls := s.calls ++ placed }) := by
  have hlive' : (answering replies).isCanceled s = false := hlive
  unfold Surroundings.ask
  by_cases hempty : artifacts.isEmpty = true
  · simp [hempty, Replies.place]
  · simp only [hempty, hlive', Bool.false_eq_true, if_false, hear, Replies.place]
    cases replies s.calls (order artifacts) <;> rfl

end Scene

/-- What a reconciler remembers of a visit. -/
def Visit.remember (v : Visit) (r : Reconciler) : Reconciler :=
  match v.fault, v.arrival with
  | none, .ok snapshot => r.commit v.item.locator snapshot
  | _, _ => r

namespace Scene

/-- A treatment of a locator at a scene comes to a visit. -/
structure ComesTo (s : Scene) (v : Visit) (answer : Option SyncFault × Scene) : Prop where
  fault : answer.1 = v.fault
  calls : answer.2.calls = s.calls ++ v.calls
  reconciler : answer.2.reconciler = v.remember s.reconciler
  alike : Alike s answer.2

/-- What came before a treatment may be forgotten if it changed neither the calls nor
the reconciler. -/
theorem ComesTo.of_alike {s t : Scene} {v : Visit} {answer : Option SyncFault × Scene}
    (h : ComesTo t v answer) (halike : Alike s t) (hcalls : t.calls = s.calls)
    (hreconciler : t.reconciler = s.reconciler) : ComesTo s v answer :=
  ⟨h.fault, hcalls ▸ h.calls, hreconciler ▸ h.reconciler, halike.trans h.alike⟩

/-- The part of a treatment after the snapshot has come. -/
theorem order_answering (replies : Replies) (s : Scene) (hlive : s.isCanceled = false)
    (item : Tracked) (snapshot : Snapshot) :
    ComesTo s (Visit.make replies s.calls item (.ok snapshot))
      (Surroundings.andThen
        ((answering replies).ask (answering replies).delete
          (changes item.last snapshot).delete s) fun _ s =>
        Surroundings.andThen
          ((answering replies).ask (answering replies).replicate
            (changes item.last snapshot).replicate s) fun _ s =>
          (none, (answering replies).notify
            ((answering replies).commit item.locator snapshot s))) := by
  rw [Visit.make_ok]
  generalize changes item.last snapshot = c
  have hdelete : (answering replies).ask (answering replies).delete c.delete s = _ :=
    ask_answering replies s hlive .delete c.delete
  rw [hdelete, Changes.orders, replies.place_append, Changes.deleteOrder]
  -- A failed deletion ends the visit; else the replication decides.
  rcases replies.place s.calls (if c.delete.isEmpty then [] else [.delete c.delete]) with
    ⟨placed, _ | fault⟩
  · have hreplicate : (answering replies).ask (answering replies).replicate c.replicate
        { s with calls := s.calls ++ placed } = _ :=
      ask_answering replies { s with calls := s.calls ++ placed } hlive .replicate c.replicate
    simp only [Surroundings.andThen, Changes.replicateOrder]
    rw [hreplicate]
    rcases replies.place (s.calls ++ placed)
      (if c.replicate.isEmpty then [] else [.replicate c.replicate]) with ⟨more, _ | fault⟩
    · exact ⟨rfl, by simp [Visit.calls, answering, surroundings, hear], rfl,
        ⟨rfl, rfl, rfl, rfl, rfl, rfl⟩⟩
    · exact ⟨rfl, by simp [Visit.calls], rfl, ⟨rfl, rfl, rfl, rfl, rfl, rfl⟩⟩
  · exact ⟨rfl, by simp [Visit.calls, Surroundings.andThen], rfl, ⟨rfl, rfl, rfl, rfl, rfl, rfl⟩⟩

/-- A visit that has found no snapshot. -/
theorem comesTo_fault {replies : Replies} {s t : Scene} {item : Tracked} {fault : SyncFault}
    (halike : Alike s t) (hcalls : t.calls = s.calls)
    (hreconciler : t.reconciler = s.reconciler) :
    ComesTo s (Visit.make replies s.calls item (.error fault)) (some fault, t) :=
  ⟨rfl, by simp [Visit.make, Visit.calls, hcalls], hreconciler, halike⟩

/-- Treating a locator at a scene is a visit. -/
theorem treat_answering (replies : Replies) (s : Scene) (hlive : s.isCanceled = false)
    (item : Tracked) :
    ComesTo s (Visit.make replies s.calls item (s.arrival item.locator))
      ((answering replies).treat s.account item s) := by
  have halike := s.alike_resolve item.locator
  have hframe := s.resolve_frame item.locator
  rw [s.arrival_eq_resolve item.locator]
  unfold Surroundings.treat
  have hresolve : (answering replies).resolve item.locator s = s.resolve item.locator := rfl
  rw [hresolve]
  -- The locator is resolved, its document is fetched, and then the replica is called.
  generalize s.resolve item.locator = resolved at halike hframe
  rcases resolved with ⟨fault | source, t⟩
  · exact comesTo_fault halike hframe.1 hframe.2
  · have hlive' : (answering replies).isCanceled t = false := halike.isCanceled.trans hlive
    have hfetch : (answering replies).fetch s.account source t =
        ((s.fetch s.account source).1, (t.fetch s.account source).2) :=
      Prod.ext (halike.fetch_eq s.account source) rfl
    have halike' := halike.trans (t.alike_fetch s.account source)
    have hcalls : (t.fetch s.account source).2.calls = s.calls := hframe.1
    have hreconciler : (t.fetch s.account source).2.reconciler = s.reconciler := hframe.2
    simp only [Surroundings.andThen, hlive', hfetch, Bool.false_eq_true, if_false]
    generalize (t.fetch s.account source).2 = u at halike' hcalls hreconciler
    rcases (s.fetch s.account source).1 with fault | fetched
    · exact comesTo_fault halike' hcalls hreconciler
    · have horder := order_answering replies u (halike'.isCanceled.trans hlive) item
        fetched.prepare
      rw [hcalls] at horder
      exact horder.of_alike halike' hcalls hreconciler

end Scene

/-! ## A Whole Pass at a Scene -/

/-- Remembering the snapshot of a locator concerns its own entry only. -/
theorem Reconciler.commit_tracked {r : Reconciler} {done rest : List Tracked} {item : Tracked}
    (htracked : r.tracked = done ++ item :: rest) (hdistinct : r.locators.Nodup)
    (snapshot : Snapshot) :
    r.commit item.locator snapshot =
      { r with tracked := done ++ { item with last := some snapshot } :: rest } := by
  -- No other entry has the locator, so all others are kept.
  have hothers : ∀ t ∈ done ++ rest, t.locator ≠ item.locator := by
    intro t ht heq
    rw [locators, htracked] at hdistinct
    have hcons := (List.perm_middle.map Tracked.locator).nodup_iff.mp hdistinct
    rw [List.map_cons, List.nodup_cons] at hcons
    exact hcons.1 (heq ▸ List.mem_map_of_mem ht)
  have hkeep : ∀ items : List Tracked, (∀ t ∈ items, t ∈ done ++ rest) →
      items.map (fun t => if t.locator == item.locator then { t with last := some snapshot }
        else t) = items := by
    intro items hitems
    refine (List.map_congr_left fun t ht => ?_).trans (List.map_id items)
    simp [hothers t (hitems t ht)]
  simp only [commit, htracked, List.map_append, List.map_cons, beq_self_eq_true, if_true]
  rw [hkeep done fun t ht => List.mem_append_left _ ht,
    hkeep rest fun t ht => List.mem_append_right _ ht]

/-- What a reconciler remembers of a visit concerns the entry of the locator only. -/
theorem Visit.remember_tracked {v : Visit} {r : Reconciler} {done rest : List Tracked}
    (htracked : r.tracked = done ++ v.item :: rest) (hdistinct : r.locators.Nodup) :
    v.remember r = { r with tracked := done ++ v.outcome :: rest } := by
  obtain ⟨item, arrival, placed, fault⟩ := v
  have hkeep : r = { r with tracked := done ++ item :: rest } := by rw [← htracked]
  cases fault with
  | some _ => exact hkeep
  | none =>
    cases arrival with
    | error _ => exact hkeep
    | ok snapshot => exact Reconciler.commit_tracked htracked hdistinct snapshot

namespace Scene

/-- The treatment of the first of some locators is a visit; the others follow unless it
was canceled. -/
theorem sweep_cons_answering (replies : Replies) (total : Nat) (failures : List LocatorFailure)
    (item : Tracked) (rest : List Tracked) (s : Scene) (hlive : s.isCanceled = false) {v : Visit}
    (hv : Visit.make replies s.calls item (s.arrival item.locator) = v) :
    ∃ t, ComesTo s v (v.fault, t) ∧
      (answering replies).sweep s.account total failures (item :: rest) s =
        if v.fault = some .canceled then (.failed .canceled, t)
        else (answering replies).sweep s.account total (failures ++ v.failure?.toList) rest t := by
  have hitem : v.item = item := by rw [← hv, Visit.make_item]
  have hcomes := treat_answering replies s hlive item
  have hlive' : (answering replies).isCanceled s = false := hlive
  rw [hv] at hcomes
  simp only [Surroundings.sweep, hlive', Bool.false_eq_true, if_false]
  generalize (answering replies).treat s.account item s = answer at hcomes
  obtain ⟨answer, t⟩ := answer
  obtain rfl : answer = v.fault := hcomes.fault
  refine ⟨t, hcomes, ?_⟩
  cases hfault : v.fault with
  | none => simp [Visit.failure?, hfault]
  | some fault => simp [Visit.failure?, hfault, hitem]

/-- Treating locators at a scene comes to visits. `done` are the entries of those that
have been treated before. -/
structure SweepsTo (s : Scene) (vs : List Visit) (done : List Tracked)
    (failures : List LocatorFailure) (total : Nat) (answer : Outcome × Scene) : Prop where
  outcome : answer.1 = Surroundings.concluded (failures ++ vs.filterMap Visit.failure?) total
  calls : answer.2.calls = s.calls ++ vs.flatMap Visit.calls
  reconciler : answer.2.reconciler =
    { s.reconciler with tracked := done ++ vs.map Visit.outcome }
  alike : Alike s answer.2

theorem SweepsTo.cons {s t : Scene} {v : Visit} {vs : List Visit} {done : List Tracked}
    {failures : List LocatorFailure} {total : Nat} {rest : List Tracked}
    {answer : Outcome × Scene} (hcomes : ComesTo s v (v.fault, t))
    (htracked : s.reconciler.tracked = done ++ v.item :: rest)
    (hdistinct : s.reconciler.locators.Nodup)
    (h : SweepsTo t vs (done ++ [v.outcome]) (failures ++ v.failure?.toList) total answer) :
    SweepsTo s (v :: vs) done failures total answer := by
  have hreconciler := hcomes.reconciler
  rw [Visit.remember_tracked htracked hdistinct] at hreconciler
  refine ⟨?_, ?_, ?_, hcomes.alike.trans h.alike⟩
  · rw [h.outcome]
    cases hfailure : v.failure? <;> simp [hfailure]
  · rw [h.calls, hcomes.calls]
    simp
  · rw [h.reconciler, hreconciler]
    simp

/-- Treating locators one after the other, without cancellation. -/
theorem sweep_answering {replies : Replies}
    (hreplies : ∀ before c, replies before c ≠ .error .canceled) (total : Nat)
    (items done : List Tracked) (failures : List LocatorFailure) (s : Scene)
    (hlive : s.isCanceled = false) (htracked : s.reconciler.tracked = done ++ items)
    (hdistinct : s.reconciler.locators.Nodup) :
    SweepsTo s (visits replies s.arrival s.calls items) done failures total
      ((answering replies).sweep s.account total failures items s) := by
  induction items generalizing done failures s with
  | nil =>
    have hdone : s.reconciler = { s.reconciler with tracked := done ++ [] } := by
      rw [← htracked]
    exact ⟨by simp [visits, Surroundings.sweep], by simp [visits, Surroundings.sweep], hdone,
      Alike.refl s⟩
  | cons item rest ih =>
    generalize hv : Visit.make replies s.calls item (s.arrival item.locator) = v
    obtain ⟨t, hcomes, hsweep⟩ :=
      sweep_cons_answering replies total failures item rest s hlive hv
    obtain rfl : v.item = item := by rw [← hv, Visit.make_item]
    -- Without cancellation the others follow, at a scene that looks the same to them.
    have hfault : v.fault ≠ some .canceled := by
      rw [← hv]
      exact Visit.fault_make_ne_canceled hreplies _ _ (s.arrival_ne_canceled _)
    rw [hsweep, if_neg hfault, visits, hv]
    have hreconciler : t.reconciler = _ := hcomes.reconciler
    rw [Visit.remember_tracked htracked hdistinct] at hreconciler
    have hdistinct' : t.reconciler.locators.Nodup := by
      rw [hreconciler]
      simpa [Reconciler.locators, htracked] using hdistinct
    have hnext := ih (done ++ [v.outcome]) (failures ++ v.failure?.toList) t
      (hcomes.alike.isCanceled.trans hlive) (by simp [hreconciler]) hdistinct'
    rw [hcomes.alike.arrival_eq, hcomes.alike.account_eq, hcomes.calls] at hnext
    exact hnext.cons hcomes htracked hdistinct

/-- A pass without cancellation comes to the visits of its locators. -/
theorem complete_answering {replies : Replies}
    (hreplies : ∀ before c, replies before c ≠ .error .canceled) (s : Scene)
    (hlive : s.isCanceled = false) (hdistinct : s.reconciler.locators.Nodup) :
    SweepsTo s (visits replies s.arrival s.calls s.reconciler.tracked) [] []
      s.reconciler.tracked.length
      (Pass.complete (answering replies) s.reconciler s) := by
  rw [Pass.complete_eq_sweep]
  exact sweep_answering hreplies _ s.reconciler.tracked [] [] s hlive rfl hdistinct

/-- A pass over one locator comes to its visit, also if something is canceled meanwhile. -/
structure Single (s : Scene) (v : Visit) (answer : Outcome × Scene) : Prop where
  done_iff : answer.1 = .done .continue ↔ v.fault = none
  calls : answer.2.calls = s.calls ++ v.calls
  reconciler : answer.2.reconciler = { s.reconciler with tracked := [v.outcome] }
  alike : Alike s answer.2

theorem complete_answering_single (replies : Replies) (s : Scene) (hlive : s.isCanceled = false)
    {item : Tracked} (htracked : s.reconciler.tracked = [item]) :
    Single s (Visit.make replies s.calls item (s.arrival item.locator))
      (Pass.complete (answering replies) s.reconciler s) := by
  generalize hv : Visit.make replies s.calls item (s.arrival item.locator) = v
  obtain ⟨t, hcomes, hsweep⟩ := sweep_cons_answering replies 1 [] item [] s hlive hv
  obtain rfl : v.item = item := by rw [← hv, Visit.make_item]
  have hreconciler := hcomes.reconciler
  have hdistinct : s.reconciler.locators.Nodup := by simp [Reconciler.locators, htracked]
  have htracked' : s.reconciler.tracked = [] ++ v.item :: [] := htracked
  rw [Visit.remember_tracked htracked' hdistinct] at hreconciler
  have hcomplete : Pass.complete (answering replies) s.reconciler s =
      (answering replies).sweep s.account 1 [] [v.item] s := by
    rw [Pass.complete_eq_sweep, htracked]
    rfl
  rw [hcomplete, hsweep]
  split
  · next hcanceled => exact ⟨by simp [hcanceled], hcomes.calls, hreconciler, hcomes.alike⟩
  · have hdone : Surroundings.concluded ([] ++ v.failure?.toList) 1 = .done .continue ↔
        v.fault = none := by
      rw [Surroundings.concluded_eq_done_iff]
      cases hfault : v.fault <;> simp [Visit.failure?, hfault]
    exact ⟨hdone, hcomes.calls, hreconciler, hcomes.alike⟩

end Scene

/-! ## Replicas with Cues to Fail -/

/-- How a replica answers that has cues to fail at some kinds of calls. -/
def Cue.replies (cues : List Cue) : Replies := fun _ c =>
  match (cues.filter fun cue => cue.kind == c.kind).head?.map Cue.action with
  | some (.fail reason) => .error (.replication reason)
  | _ => .ok ()

theorem Cue.replies_ne_canceled (cues : List Cue) (before : List ReplicaCall)
    (c : ReplicaCall) : Cue.replies cues before c ≠ .error .canceled := by
  unfold replies
  split <;> simp

/-- Surroundings whose steps agree as long as something is kept come to the same. -/
theorem Pass.run_congr {σ : Type} {env env' : Surroundings σ} {Kept : σ → Prop}
    (hstep : ∀ p w, Kept w → Pass.step env p w = Pass.step env' p w ∧ Kept (Pass.step env p w).2)
    (n : Nat) (p : Pass) (w : σ) (hw : Kept w) : run env n p w = run env' n p w := by
  induction n generalizing p w with
  | zero => rfl
  | succ n ih =>
    obtain ⟨heq, hkept⟩ := hstep p w hw
    rw [run, run, ← heq]
    exact ih _ _ hkept

namespace Scene

/-- Calls follow cues to fail as the answers say. -/
theorem call_eq_hear {s : Scene} (hcues : ∀ cue ∈ s.cues, ∃ reason, cue.action = .fail reason)
    (c : ReplicaCall) : s.call .replication c = hear (Cue.replies s.cues) c s := by
  unfold call hear Cue.replies
  cases hkind : s.cues.filter fun cue => cue.kind == c.kind with
  | nil => rfl
  | cons cue rest =>
    have hmem : cue ∈ s.cues := by
      have hcue : cue ∈ s.cues.filter fun cue => cue.kind == c.kind := by simp [hkind]
      exact (List.mem_filter.mp hcue).1
    obtain ⟨reason, haction⟩ := hcues cue hmem
    simp [follow, haction]

theorem notice_eq_hear {s : Scene} (hcues : ∀ cue ∈ s.cues, ∃ reason, cue.action = .fail reason) :
    (s.call .notification .notify).2 = (hear (Cue.replies s.cues) .notify s).2 := by
  unfold call hear
  cases hkind : s.cues.filter fun cue => cue.kind == ReplicaCall.notify.kind with
  | nil => rfl
  | cons cue rest =>
    have hmem : cue ∈ s.cues := by
      have hcue : cue ∈ s.cues.filter fun cue => cue.kind == ReplicaCall.notify.kind := by
        simp [hkind]
      exact (List.mem_filter.mp hcue).1
    obtain ⟨reason, haction⟩ := hcues cue hmem
    simp [follow, haction]

/-- A step at a scene whose replica has cues to fail is a step at one that answers so. -/
theorem step_answering {cues : List Cue}
    (hcues : ∀ cue ∈ cues, ∃ reason, cue.action = .fail reason) (p : Pass) (s : Scene)
    (hs : s.cues = cues) :
    p.step surroundings s = p.step (answering (Cue.replies cues)) s ∧
      (p.step surroundings s).2.cues = cues := by
  subst hs
  have hdelete : ∀ as, surroundings.delete as s = hear (Cue.replies s.cues) (.delete as) s :=
    fun as => call_eq_hear hcues (.delete as)
  have hreplicate : ∀ as,
      surroundings.replicate as s = hear (Cue.replies s.cues) (.replicate as) s :=
    fun as => call_eq_hear hcues (.replicate as)
  have hnotify : surroundings.notify s = (hear (Cue.replies s.cues) .notify s).2 :=
    notice_eq_hear hcues
  -- Only the stages that call the replica make a difference.
  unfold Pass.step
  cases p.stage with
  | next =>
    refine ⟨rfl, ?_⟩
    cases p.waiting with
    | nil => rfl
    | cons item rest =>
      dsimp only
      split <;> rfl
  | resolve item => exact ⟨rfl, s.resolve_cues item.locator⟩
  | fetch item source =>
    refine ⟨rfl, ?_⟩
    dsimp only
    split <;> rfl
  | delete item snapshot c =>
    simp only [hdelete]
    refine ⟨rfl, ?_⟩
    split
    · rfl
    · split <;> rfl
  | replicate item snapshot c =>
    simp only [hreplicate]
    refine ⟨rfl, ?_⟩
    split
    · rfl
    · split <;> rfl
  | commit item snapshot => exact ⟨rfl, rfl⟩
  | notify item =>
    simp only [hnotify]
    exact ⟨rfl, rfl⟩
  | ended outcome => exact ⟨rfl, rfl⟩

/-- A replica with cues to fail is one of those that answer in some way. -/
theorem execute_eq_complete_answering {s : Scene}
    (hcues : ∀ cue ∈ s.cues, ∃ reason, cue.action = .fail reason) :
    s.execute = Pass.complete (answering (Cue.replies s.cues)) s.reconciler s := by
  unfold execute Pass.complete
  have hstep : ∀ (p : Pass) (t : Scene), t.cues = s.cues →
      p.step surroundings t = p.step (answering (Cue.replies s.cues)) t ∧
        (p.step surroundings t).2.cues = s.cues :=
    fun p t ht => step_answering hcues p t ht
  rw [Pass.run_congr hstep _ _ s rfl]

end Scene

end EdgeSync
