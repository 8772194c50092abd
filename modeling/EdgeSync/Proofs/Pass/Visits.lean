import EdgeSync.Proofs.Pass.BigSteps
import EdgeSync.Sync.Reconciliation

/-!
# Visits

A pass at a scene visits its locators one after the other. What a visit comes to is
determined by the locator, its last snapshot, the files and the network, and by how
the replica answers the calls of this visit; neither the failure of another locator
nor what became of it enters. The replica may answer in any way.

## Main definitions

- `Replies`, `Scene.answering`: a replica that may answer in any way
- `Scene.arrival`: the snapshot that a locator gives
- `Visit`, `visits`: what is done for one locator, and for some of them in order
- `Visit.Proceeds`: the four ways in which a visit can go

## Main results

- `Visit.make_proceeds`: a visit goes in one of these ways
- `visits_split`: the visits are made one after the other
- `Visit.fault_make_ne_canceled`: nothing is canceled by itself
-/

namespace EdgeSync

open EdgeSync.Web

/-! ## Replicas That Answer in Any Way -/

/-- How a replica answers a call, by the calls that came before it. -/
abbrev Replies := List ReplicaCall → ReplicaCall → Except SyncFault Unit

namespace Scene

/-- Note a call and let the replica answer it. -/
def hear (replies : Replies) (c : ReplicaCall) (s : Scene) : Except SyncFault Unit × Scene :=
  (replies s.calls c, { s with calls := s.calls ++ [c] })

/-- What the steps of a pass do at a scene whose replica answers in a given way. -/
def answering (replies : Replies) : Surroundings Scene :=
  { surroundings with
    delete := fun artifacts => hear replies (.delete artifacts)
    replicate := fun artifacts => hear replies (.replicate artifacts)
    notify := fun s => (hear replies .notify s).2 }

/-- The account that requests carry. -/
def account (s : Scene) : Option Account :=
  accountFor s.reconciler.credentials.username s.reconciler.credentials.password

/-- The snapshot that a locator gives, in the form in which snapshots are compared:
the locator is resolved and its document is fetched and decoded. -/
def arrival (s : Scene) (locator : String) : Except SyncFault Snapshot :=
  match Locator.parse s.site.network.names s.site.files locator with
  | .error fault => .error (.invalidLocator locator fault)
  | .ok source =>
    (EdgeSync.fetch s.site.files s.site.network s.account source).1.map Snapshot.prepare

end Scene

/-! ## Visits -/

namespace Changes

/-- The call that changes ask for to delete something, if there is something. -/
def deleteOrder (c : Changes) : List ReplicaCall :=
  if c.delete.isEmpty then [] else [.delete c.delete]

/-- The call that changes ask for to replicate something, if there is something. -/
def replicateOrder (c : Changes) : List ReplicaCall :=
  if c.replicate.isEmpty then [] else [.replicate c.replicate]

/-- The calls that changes ask for: deletions come first. -/
def orders (c : Changes) : List ReplicaCall :=
  c.deleteOrder ++ c.replicateOrder

end Changes

/-- Make calls up to the first that fails: those that are made, and the fault. -/
def Replies.place (replies : Replies) (before : List ReplicaCall) :
    List ReplicaCall → List ReplicaCall × Option SyncFault
  | [] => ([], none)
  | c :: rest =>
    match replies before c with
    | .error fault => ([c], some fault)
    | .ok _ =>
      let (placed, fault) := place replies (before ++ [c]) rest
      (c :: placed, fault)

/-- What is done for one locator: the snapshot that it gave, the calls that were made to
change the replica, and the fault that ended the work, if any. -/
structure Visit where
  item : Tracked
  arrival : Except SyncFault Snapshot
  placed : List ReplicaCall
  fault : Option SyncFault

namespace Visit

/-- Visit a locator that gives a snapshot or none. -/
def make (replies : Replies) (before : List ReplicaCall) (item : Tracked)
    (arrival : Except SyncFault Snapshot) : Visit :=
  match arrival with
  | .error fault => ⟨item, arrival, [], some fault⟩
  | .ok snapshot =>
    let (placed, fault) := replies.place before (changes item.last snapshot).orders
    ⟨item, arrival, placed, fault⟩

/-- All calls of a visit: one that succeeds ends with a notice. -/
def calls (v : Visit) : List ReplicaCall :=
  v.placed ++ if v.fault.isNone then [.notify] else []

/-- The locator after the visit: it has the new snapshot if nothing has failed. -/
def outcome (v : Visit) : Tracked :=
  match v.fault, v.arrival with
  | none, .ok snapshot => { v.item with last := some snapshot }
  | _, _ => v.item

/-- The failure of a visit, if it has failed. -/
def failure? (v : Visit) : Option LocatorFailure :=
  v.fault.map fun fault => ⟨v.item.locator, fault⟩

end Visit

/-- Visit locators in order. What is common to the visits is only that the replica
knows all calls before. -/
def visits (replies : Replies) (look : String → Except SyncFault Snapshot) :
    List ReplicaCall → List Tracked → List Visit
  | _, [] => []
  | before, item :: rest =>
    let v := Visit.make replies before item (look item.locator)
    v :: visits replies look (before ++ v.calls) rest

theorem Visit.make_ok (replies : Replies) (before : List ReplicaCall) (item : Tracked)
    (snapshot : Snapshot) :
    make replies before item (.ok snapshot) =
      ⟨item, .ok snapshot, (replies.place before (changes item.last snapshot).orders).1,
        (replies.place before (changes item.last snapshot).orders).2⟩ :=
  rfl

@[simp] theorem Visit.make_item (replies : Replies) (before : List ReplicaCall)
    (item : Tracked) (arrival : Except SyncFault Snapshot) :
    (Visit.make replies before item arrival).item = item := by
  cases arrival <;> rfl

@[simp] theorem Visit.make_arrival (replies : Replies) (before : List ReplicaCall)
    (item : Tracked) (arrival : Except SyncFault Snapshot) :
    (Visit.make replies before item arrival).arrival = arrival := by
  cases arrival <;> rfl

@[simp] theorem Visit.outcome_locator (v : Visit) : v.outcome.locator = v.item.locator := by
  unfold Visit.outcome
  split <;> rfl

@[simp] theorem map_item_visits (replies : Replies) (look : String → Except SyncFault Snapshot)
    (before : List ReplicaCall) (items : List Tracked) :
    (visits replies look before items).map Visit.item = items := by
  induction items generalizing before with
  | nil => rfl
  | cons item rest ih => simp only [visits, List.map_cons, Visit.make_item, ih]

theorem Visit.calls_of_failed {v : Visit} {fault : SyncFault} (h : v.fault = some fault) :
    v.calls = v.placed := by
  simp [calls, h]

theorem Visit.calls_of_succeeded {v : Visit} (h : v.fault = none) :
    v.calls = v.placed ++ [.notify] := by
  simp [calls, h]

theorem Visit.outcome_of_failed {v : Visit} {fault : SyncFault} (h : v.fault = some fault) :
    v.outcome = v.item := by
  simp [outcome, h]

theorem Visit.outcome_of_succeeded {v : Visit} {snapshot : Snapshot} (h : v.fault = none)
    (harrival : v.arrival = .ok snapshot) : v.outcome = { v.item with last := some snapshot } := by
  simp [outcome, h, harrival]

/-- Each visit is made after the calls of those before it, with the snapshot that its own
locator gives. -/
theorem visits_split {replies : Replies} {look : String → Except SyncFault Snapshot}
    {before : List ReplicaCall} {items : List Tracked} {earlier later : List Visit} {v : Visit}
    (h : visits replies look before items = earlier ++ v :: later) :
    v = Visit.make replies (before ++ earlier.flatMap Visit.calls) v.item
      (look v.item.locator) := by
  -- The split may fall on the first visit, or leave it among the earlier ones.
  induction items generalizing before earlier with
  | nil => simp [visits] at h
  | cons item rest ih =>
    rw [visits] at h
    cases earlier with
    | nil =>
      obtain ⟨rfl, -⟩ := List.cons.inj h
      simp
    | cons first earlier =>
      obtain ⟨rfl, htail⟩ := List.cons.inj h
      have hv := ih htail
      rwa [List.flatMap_cons, ← List.append_assoc]

/-! ## How a Visit Can Go -/

/-- Some calls are placed after others only if none of those has failed. -/
theorem Replies.place_append (replies : Replies) (before first second : List ReplicaCall) :
    replies.place before (first ++ second) =
      match replies.place before first with
      | (placed, some fault) => (placed, some fault)
      | (placed, none) =>
        (placed ++ (replies.place (before ++ placed) second).1,
          (replies.place (before ++ placed) second).2) := by
  induction first generalizing before with
  | nil => simp [place]
  | cons c rest ih =>
    simp only [List.cons_append, place]
    cases replies before c with
    | error fault => rfl
    | ok _ =>
      dsimp only
      rw [ih (before ++ [c])]
      rcases replies.place (before ++ [c]) rest with ⟨placed, _ | fault⟩
      · simp
      · rfl

theorem Replies.place_singleton (replies : Replies) (before : List ReplicaCall)
    (c : ReplicaCall) :
    replies.place before [c] =
      match replies before c with
      | .error fault => ([c], some fault)
      | .ok _ => ([c], none) := by
  unfold place
  cases replies before c <;> rfl

/-- The four ways in which a visit can go, after some calls. `c` are the changes from the
last snapshot to the one that has come. -/
inductive Visit.Proceeds (replies : Replies) (before : List ReplicaCall) (v : Visit) : Prop
  /-- No snapshot has come: the replica is not called. -/
  | unreached (fault : SyncFault) (harrival : v.arrival = .error fault)
      (hplaced : v.placed = []) (hfault : v.fault = some fault)
  /-- There is something to delete, and the deletion fails: nothing is replicated. -/
  | undeleted (snapshot : Snapshot) (c : Changes) (fault : SyncFault)
      (harrival : v.arrival = .ok snapshot) (hchanges : c = changes v.item.last snapshot)
      (hsome : c.delete ≠ []) (hanswer : replies before (.delete c.delete) = .error fault)
      (hplaced : v.placed = [.delete c.delete]) (hfault : v.fault = some fault)
  /-- Nothing is left to delete, there is something to replicate, and this fails. -/
  | unreplicated (snapshot : Snapshot) (c : Changes) (fault : SyncFault)
      (harrival : v.arrival = .ok snapshot) (hchanges : c = changes v.item.last snapshot)
      (hdeleted : ∀ order ∈ c.deleteOrder, replies before order = .ok ())
      (hsome : c.replicate ≠ [])
      (hanswer : replies (before ++ c.deleteOrder) (.replicate c.replicate) = .error fault)
      (hplaced : v.placed = c.deleteOrder ++ [.replicate c.replicate])
      (hfault : v.fault = some fault)
  /-- All that was to be done has been done. -/
  | reconciled (snapshot : Snapshot) (c : Changes)
      (harrival : v.arrival = .ok snapshot) (hchanges : c = changes v.item.last snapshot)
      (hdeleted : ∀ order ∈ c.deleteOrder, replies before order = .ok ())
      (hreplicated : ∀ order ∈ c.replicateOrder,
        replies (before ++ c.deleteOrder) order = .ok ())
      (hplaced : v.placed = c.orders) (hfault : v.fault = none)

/-- What becomes of placing an order, if there is one. -/
theorem Replies.place_order (replies : Replies) (before : List ReplicaCall)
    (order : List Artifact → ReplicaCall) (artifacts : List Artifact) :
    (∃ fault, artifacts ≠ [] ∧ replies before (order artifacts) = .error fault ∧
        replies.place before (if artifacts.isEmpty then [] else [order artifacts]) =
          ([order artifacts], some fault)) ∨
      (∀ c ∈ (if artifacts.isEmpty then [] else [order artifacts]), replies before c = .ok ()) ∧
        replies.place before (if artifacts.isEmpty then [] else [order artifacts]) =
          (if artifacts.isEmpty then [] else [order artifacts], none) := by
  cases artifacts with
  | nil => exact .inr ⟨by simp, rfl⟩
  | cons a as =>
    simp only [List.isEmpty_cons, Bool.false_eq_true, if_false, place_singleton]
    cases hanswer : replies before (order (a :: as)) with
    | error fault => exact .inl ⟨fault, by simp, rfl, rfl⟩
    | ok _ => exact .inr ⟨by simp [hanswer], rfl⟩

/-- A visit goes in one of the four ways. -/
theorem Visit.make_proceeds (replies : Replies) (before : List ReplicaCall) (item : Tracked)
    (arrival : Except SyncFault Snapshot) :
    Visit.Proceeds replies before (Visit.make replies before item arrival) := by
  cases arrival with
  | error fault => exact .unreached fault rfl rfl rfl
  | ok snapshot =>
    rw [Visit.make_ok]
    generalize hc : changes item.last snapshot = c
    rw [Changes.orders, replies.place_append]
    -- First what is to be deleted, if anything, and then what is to be replicated.
    obtain ⟨fault, hsome, hanswer, hplace⟩ | ⟨hdeleted, hplace⟩ :=
      replies.place_order before .delete c.delete
    · rw [Changes.deleteOrder, hplace]
      exact .undeleted snapshot c fault rfl hc.symm hsome hanswer rfl rfl
    · rw [← Changes.deleteOrder] at hdeleted hplace
      rw [hplace]
      obtain ⟨fault, hsome, hanswer, hplace'⟩ | ⟨hreplicated, hplace'⟩ :=
        replies.place_order (before ++ c.deleteOrder) .replicate c.replicate
      · refine .unreplicated snapshot c fault rfl hc.symm hdeleted hsome hanswer ?_ ?_
        · simp only [Changes.replicateOrder, hplace']
        · simp only [Changes.replicateOrder, hplace']
      · refine .reconciled snapshot c rfl hc.symm hdeleted hreplicated ?_ ?_
        · simp only [Changes.orders, Changes.replicateOrder, hplace']
        · simp only [Changes.replicateOrder, hplace']

/-! ## Faults That Come Without Cancellation -/

theorem fetch_ne_canceled (files : FileTree) (network : Network) (account : Option Account)
    (source : Locator) : (fetch files network account source).1 ≠ .error .canceled := by
  have hread : ∀ d, readSnapshot d ≠ .error .canceled := by
    intro d
    unfold readSnapshot
    split <;> simp
  cases source with
  | file path =>
    simp only [fetch, fetchFile]
    split
    · simp
    · exact hread _
  | web url =>
    simp only [fetch]
    generalize (network.get url account).1 = response
    unfold readResponse
    split
    · simp
    · split
      · exact hread _
      · simp

theorem Scene.arrival_ne_canceled (s : Scene) (locator : String) :
    s.arrival locator ≠ .error .canceled := by
  unfold Scene.arrival
  split
  · simp
  · next source _ =>
    have hfetch := fetch_ne_canceled s.site.files s.site.network s.account source
    revert hfetch
    cases (EdgeSync.fetch s.site.files s.site.network s.account source).1 <;>
      simp [Except.map]

theorem Replies.place_ne_canceled {replies : Replies}
    (hreplies : ∀ before c, replies before c ≠ .error .canceled)
    (before orders : List ReplicaCall) :
    (replies.place before orders).2 ≠ some .canceled := by
  induction orders generalizing before with
  | nil => simp [place]
  | cons c rest ih =>
    unfold place
    have hc := hreplies before c
    split
    · next fault hfault =>
      intro h
      rw [hfault] at hc
      exact hc (by simpa using h)
    · exact ih (before ++ [c])

theorem Visit.fault_make_ne_canceled {replies : Replies}
    (hreplies : ∀ before c, replies before c ≠ .error .canceled) (before : List ReplicaCall)
    (item : Tracked) {arrival : Except SyncFault Snapshot} (h : arrival ≠ .error .canceled) :
    (Visit.make replies before item arrival).fault ≠ some .canceled := by
  cases arrival with
  | error fault => simpa [Visit.make] using h
  | ok snapshot => exact replies.place_ne_canceled hreplies before _

end EdgeSync
