import EdgeSync.Proofs.Changes.PerKey
import EdgeSync.Proofs.Pass.OneFile

/-!
# What Is Left Alone

An artifact that both snapshots have is left alone if its key is in neither of them
twice. If a key is repeated, only the last old artifact counts, it is met by the first
new one, and all further new ones count as new: so comparing a snapshot with itself
comes to nothing exactly if no key is repeated.

## Main definitions

- `Snapshot.keys`: the keys of the tagged artifacts
- `Scene.Settled`: nothing has changed since the locators were last reconciled

## Main results

- `compareKey_leaves_iff`: which digest of a key is left alone
- `changes_self_isEmpty_iff`: comparing a snapshot with itself
- `Scene.sweep_settled`: a pass when nothing has changed
- `unchanged_left_alone`: all of this together
-/

namespace EdgeSync

/-! ## One Key -/

/-- A digest that a key has before and after is left alone iff it is the last one before
and the first one after, and comes once only after. -/
theorem compareKey_leaves_iff {old new : List Artifact} {digest : String}
    (hold : digest ∈ old.map Artifact.digest) (hnew : digest ∈ new.map Artifact.digest) :
    (digest ∉ (compareKey old.getLast? new).delete.map Artifact.digest ∧
        digest ∉ (compareKey old.getLast? new).replicate.map Artifact.digest) ↔
      (old.map Artifact.digest).getLast? = some digest ∧
        (new.map Artifact.digest).head? = some digest ∧
        digest ∉ (new.map Artifact.digest).tail := by
  have hsome : old ≠ [] := by
    rintro rfl
    exact List.not_mem_nil hold
  cases new with
  | nil => exact absurd hnew List.not_mem_nil
  | cons a rest =>
    rw [List.getLast?_map, List.getLast?_eq_some_getLast hsome]
    generalize old.getLast hsome = previous
    simp only [compareKey, Option.map_some, Option.some.injEq, List.map_cons, List.head?_cons,
      List.tail_cons] at hnew ⊢
    by_cases hsame : previous.digest = a.digest
    · -- The first new artifact is met, and all others are asked for.
      rw [if_pos hsame]
      constructor
      · rintro ⟨-, hrest⟩
        have hfirst : digest = a.digest := by
          rcases List.mem_cons.mp hnew with hfirst | hlater
          · exact hfirst
          · exact absurd hlater hrest
        exact ⟨hsame.trans hfirst.symm, hfirst.symm, hrest⟩
      · rintro ⟨-, -, hrest⟩
        exact ⟨List.not_mem_nil, hrest⟩
    · -- All new artifacts are asked for.
      rw [if_neg hsame]
      constructor
      · rintro ⟨-, hnone⟩
        exact absurd hnew hnone
      · rintro ⟨hprevious, hfirst, -⟩
        exact absurd (hprevious.trans hfirst.symm) hsame

/-- A key that stands for its last artifact asks for nothing else iff it has one only. -/
theorem compareKey_self_iff (as : List Artifact) :
    compareKey as.getLast? as = ⟨[], []⟩ ↔ as.length ≤ 1 := by
  rcases as with _ | ⟨a, _ | ⟨b, rest⟩⟩
  · simp [compareKey]
  · simp [compareKey]
  · rw [List.getLast?_eq_some_getLast (List.cons_ne_nil a _)]
    simp only [compareKey]
    split <;> simp

/-! ## Snapshots -/

/-- The keys of the tagged artifacts. -/
def Snapshot.keys (s : Snapshot) : List String :=
  s.artifacts.filterMap Artifact.key?

theorem count_keys (s : Snapshot) (key : String) :
    s.keys.count key = (ofKey key s.artifacts).length := by
  rw [Snapshot.keys, List.count_filterMap, ofKey, ← List.countP_eq_length_filter]
  refine List.countP_congr fun a _ => ?_
  rw [Artifact.hasKey_iff, beq_iff_eq]

/-- No key is repeated iff each of them has one artifact at most. -/
theorem nodup_keys_iff (s : Snapshot) :
    s.keys.Nodup ↔ ∀ key, (ofKey key s.artifacts).length ≤ 1 := by
  simp only [List.nodup_iff_count, count_keys]

/-- A snapshot that is compared with itself asks for nothing iff it repeats no key. -/
theorem changes_self_isEmpty_iff (s : Snapshot) :
    (changes (some s) s).isEmpty = true ↔ s.keys.Nodup := by
  rw [changes_isEmpty_iff, nodup_keys_iff]
  refine forall_congr' fun key => ?_
  exact compareKey_self_iff (ofKey key s.artifacts)

/-! ## Passes When Nothing Has Changed -/

theorem Changes.orders_eq_nil_iff (c : Changes) : c.orders = [] ↔ c.isEmpty = true := by
  rw [orders, deleteOrder, replicateOrder, isEmpty]
  cases c.delete.isEmpty <;> cases c.replicate.isEmpty <;> simp

theorem Changes.ne_notify_of_mem_orders {c : Changes} {order : ReplicaCall}
    (h : order ∈ c.orders) : order ≠ .notify := by
  rcases List.mem_append.mp h with hdelete | hreplicate
  · unfold deleteOrder at hdelete
    split at hdelete <;> simp_all
  · unfold replicateOrder at hreplicate
    split at hreplicate <;> simp_all

/-- The first of some calls is made in any case. -/
theorem Replies.place_cons (replies : Replies) (before : List ReplicaCall) (c : ReplicaCall)
    (rest : List ReplicaCall) : ∃ more, (replies.place before (c :: rest)).1 = c :: more := by
  unfold place
  cases replies before c with
  | error fault => exact ⟨[], rfl⟩
  | ok _ => exact ⟨_, rfl⟩

/-- A visit that finds the last snapshot again gives notice only, if no key is repeated. -/
theorem Visit.calls_unchanged (replies : Replies) (before : List ReplicaCall) {item : Tracked}
    {snapshot : Snapshot} (hlast : item.last = some snapshot) (hkeys : snapshot.keys.Nodup) :
    (make replies before item (.ok snapshot)).fault = none ∧
      (make replies before item (.ok snapshot)).calls = [.notify] := by
  have horders : (changes item.last snapshot).orders = [] := by
    rw [Changes.orders_eq_nil_iff, hlast]
    exact (changes_self_isEmpty_iff snapshot).mpr hkeys
  rw [make_ok, horders]
  exact ⟨rfl, rfl⟩

/-- If a key is repeated, the replica is asked to do something. -/
theorem Visit.calls_unchanged_of_repeated (replies : Replies) (before : List ReplicaCall)
    {item : Tracked} {snapshot : Snapshot} (hlast : item.last = some snapshot)
    (hkeys : ¬ snapshot.keys.Nodup) :
    ∃ order ∈ (make replies before item (.ok snapshot)).calls, order ≠ .notify := by
  have horders : (changes item.last snapshot).orders ≠ [] := by
    intro hnil
    rw [Changes.orders_eq_nil_iff, hlast] at hnil
    exact hkeys ((changes_self_isEmpty_iff snapshot).mp hnil)
  obtain ⟨order, rest, hcons⟩ := List.exists_cons_of_ne_nil horders
  have hmem : order ∈ (changes item.last snapshot).orders := by
    rw [hcons]
    exact List.mem_cons_self
  obtain ⟨more, hplace⟩ := replies.place_cons before order rest
  refine ⟨order, ?_, Changes.ne_notify_of_mem_orders hmem⟩
  simp only [make_ok, hcons, calls, hplace]
  exact List.mem_append_left _ List.mem_cons_self

namespace Scene

/-- Some calls go on from others with notices only. -/
def OnlyNotices (before after : List ReplicaCall) : Prop :=
  ∃ notices, after = before ++ notices ∧ ∀ c ∈ notices, c = .notify

theorem onlyNotices_append_iff {before more : List ReplicaCall} :
    OnlyNotices before (before ++ more) ↔ ∀ c ∈ more, c = .notify := by
  constructor
  · rintro ⟨notices, heq, hall⟩
    obtain rfl : more = notices := List.append_cancel_left heq
    exact hall
  · exact fun hall => ⟨more, rfl, hall⟩

/-- Every locator gives the snapshot that the replica was last brought up to. -/
def Settled (s : Scene) (items : List Tracked) : Prop :=
  ∀ t ∈ items, ∃ snapshot, t.last = some snapshot ∧ s.arrival t.locator = .ok snapshot

/-- The calls of a pass come after those before it. -/
theorem sweep_calls (replies : Replies) (total : Nat) (items : List Tracked)
    (failures : List LocatorFailure) (s : Scene) (hlive : s.isCanceled = false) :
    ∃ more, ((answering replies).sweep s.account total failures items s).2.calls =
      s.calls ++ more := by
  induction items generalizing failures s with
  | nil => exact ⟨[], (List.append_nil s.calls).symm⟩
  | cons item rest ih =>
    obtain ⟨t, hcomes, hsweep⟩ := sweep_cons_answering replies total failures item rest s hlive rfl
    have hcalls : t.calls = _ := hcomes.calls
    rw [hsweep]
    split
    · exact ⟨_, hcalls⟩
    · obtain ⟨more, hmore⟩ := ih _ t (hcomes.alike.isCanceled.trans hlive)
      rw [hcomes.alike.account_eq, hcalls, List.append_assoc] at hmore
      exact ⟨_, hmore⟩

/-- When nothing has changed, nothing is asked for iff no snapshot repeats a key. -/
theorem sweep_settled (replies : Replies) (total : Nat) (items : List Tracked)
    (failures : List LocatorFailure) (s : Scene) (hlive : s.isCanceled = false)
    (hsettled : s.Settled items) :
    OnlyNotices s.calls
        ((answering replies).sweep s.account total failures items s).2.calls ↔
      ∀ t ∈ items, ∀ snapshot, t.last = some snapshot → snapshot.keys.Nodup := by
  induction items generalizing failures s with
  | nil =>
    have hnone : OnlyNotices s.calls s.calls := ⟨[], (List.append_nil s.calls).symm, by simp⟩
    exact ⟨fun _ t ht => absurd ht List.not_mem_nil, fun _ => hnone⟩
  | cons item rest ih =>
    obtain ⟨⟨snapshot, hlast, harrival⟩, hrest⟩ := List.forall_mem_cons.mp hsettled
    -- The first locator is settled, and so are the others at the scene that it leaves.
    obtain ⟨t, hcomes, hsweep⟩ := sweep_cons_answering replies total failures item rest s hlive rfl
    have hlive' : t.isCanceled = false := hcomes.alike.isCanceled.trans hlive
    have hcalls : t.calls = _ := hcomes.calls
    have hmore := sweep_calls replies total rest
    rw [harrival] at hcalls hsweep
    rw [List.forall_mem_cons, hlast, hsweep]
    by_cases hkeys : snapshot.keys.Nodup
    · -- The visit gives notice only, and the others decide.
      obtain ⟨hfault, hnotice⟩ := Visit.calls_unchanged replies s.calls hlast hkeys
      have hsettled' : t.Settled rest := by
        intro u hu
        rw [hcomes.alike.arrival_eq]
        exact hrest u hu
      have hnext := ih (failures ++ []) t hlive' hsettled'
      obtain ⟨more, hmore⟩ := hmore (failures ++ []) t hlive'
      rw [hmore, onlyNotices_append_iff] at hnext
      rw [hcomes.alike.account_eq, hcalls, hnotice, List.append_assoc] at hmore
      rw [hfault, if_neg (by simp), Visit.failure?, hfault]
      simp only [Option.map_none, Option.toList_none]
      rw [hmore, onlyNotices_append_iff, ← hnext]
      simpa using fun _ => hkeys
    · -- The visit asks for something, whatever comes after it.
      obtain ⟨order, hmem, horder⟩ :=
        Visit.calls_unchanged_of_repeated replies s.calls hlast hkeys
      have hasked : ∀ more, ¬ OnlyNotices s.calls (t.calls ++ more) := by
        intro more honly
        rw [hcalls, List.append_assoc, onlyNotices_append_iff] at honly
        exact horder (honly order (List.mem_append_left _ hmem))
      refine iff_of_false ?_ fun hall => hkeys (hall.1 snapshot rfl)
      split
      · simpa using hasked []
      · obtain ⟨more, hmore⟩ := hmore (failures ++ _) t hlive'
        rw [hcomes.alike.account_eq] at hmore
        rw [hmore]
        exact hasked more

end Scene

/-! ## What Is Left Alone -/

/-- What both snapshots have is left alone if neither repeats a key. -/
theorem leaves_of_nodup {old new : Snapshot} (hold : old.keys.Nodup) (hnew : new.keys.Nodup)
    {key digest : String} (hbefore : digest ∈ digestsOf key old.artifacts)
    (hafter : digest ∈ digestsOf key new.artifacts) :
    (digestsOf key old.artifacts).getLast? = some digest ∧
      (digestsOf key new.artifacts).head? = some digest ∧
      digest ∉ (digestsOf key new.artifacts).tail := by
  have hsingle : ∀ s : Snapshot, s.keys.Nodup → digest ∈ digestsOf key s.artifacts →
      digestsOf key s.artifacts = [digest] := by
    intro s hs hmem
    have hlength : (digestsOf key s.artifacts).length ≤ 1 := by
      rw [digestsOf, List.length_map]
      exact (nodup_keys_iff s).mp hs key
    obtain ⟨first, hfirst⟩ := List.length_eq_one_iff.mp
      (Nat.le_antisymm hlength (List.length_pos_of_mem hmem))
    rw [hfirst] at hmem ⊢
    rw [List.mem_singleton.mp hmem]
  rw [hsingle old hold hbefore, hsingle new hnew hafter]
  exact ⟨rfl, rfl, List.not_mem_nil⟩

/-- What both snapshots have is left alone iff it is what the key stood for before and the
first of the key after, and comes once only after. -/
theorem changes_leaves_iff (old new : Snapshot) {key digest : String}
    (hbefore : digest ∈ digestsOf key old.artifacts)
    (hafter : digest ∈ digestsOf key new.artifacts) :
    (digest ∉ digestsOf key (changes (some old) new).delete ∧
        digest ∉ digestsOf key (changes (some old) new).replicate) ↔
      (digestsOf key old.artifacts).getLast? = some digest ∧
        (digestsOf key new.artifacts).head? = some digest ∧
        digest ∉ (digestsOf key new.artifacts).tail := by
  simp only [digestsOf] at hbefore hafter ⊢
  rw [ofKey_changes_delete, ofKey_changes_replicate]
  exact compareKey_leaves_iff hbefore hafter

/-- What is left alone, between any two snapshots, between a snapshot and itself, and by a
pass when nothing has changed. -/
theorem unchanged_left_alone :
    (∀ (old new : Snapshot) (key digest : String), digest ∈ digestsOf key old.artifacts →
      digest ∈ digestsOf key new.artifacts →
      ((digest ∉ digestsOf key (changes (some old) new).delete ∧
          digest ∉ digestsOf key (changes (some old) new).replicate) ↔
        (digestsOf key old.artifacts).getLast? = some digest ∧
          (digestsOf key new.artifacts).head? = some digest ∧
          digest ∉ (digestsOf key new.artifacts).tail)) ∧
    (∀ old new : Snapshot, old.keys.Nodup → new.keys.Nodup → ∀ key digest,
      digest ∈ digestsOf key old.artifacts → digest ∈ digestsOf key new.artifacts →
      digest ∉ digestsOf key (changes (some old) new).delete ∧
        digest ∉ digestsOf key (changes (some old) new).replicate) ∧
    (∀ s : Snapshot, (changes (some s) s).isEmpty = true ↔ s.keys.Nodup) ∧
    ∀ (replies : Replies) (s : Scene), s.isCanceled = false →
      s.Settled s.reconciler.tracked →
      (Scene.OnlyNotices s.calls
          (Pass.complete (Scene.answering replies) s.reconciler s).2.calls ↔
        ∀ t ∈ s.reconciler.tracked, ∀ snapshot, t.last = some snapshot →
          snapshot.keys.Nodup) := by
  refine ⟨?_, ?_, changes_self_isEmpty_iff, ?_⟩
  · intro old new key digest hbefore hafter
    exact changes_leaves_iff old new hbefore hafter
  · intro old new hold hnew key digest hbefore hafter
    exact (changes_leaves_iff old new hbefore hafter).mpr
      (leaves_of_nodup hold hnew hbefore hafter)
  · intro replies s hlive hsettled
    rw [Pass.complete_eq_sweep]
    exact s.sweep_settled replies _ s.reconciler.tracked [] hlive hsettled

/-- A key with two digests: comparing the snapshot with itself asks to replicate both, though
both were there before. -/
theorem repeated_key_not_left_alone :
    let s : Snapshot := ⟨"", [⟨"", "a", ["1"], [], "", "d1", false⟩,
      ⟨"", "a", ["1"], [], "", "d2", false⟩]⟩
    "d1" ∈ digestsOf "a|1" s.artifacts ∧
      "d1" ∈ digestsOf "a|1" (changes (some s) s).replicate ∧
      (changes (some s) s).isEmpty = false := by
  decide

/-- An artifact that is there before and after, and a pass that finds it again. -/
theorem unchanged_left_alone_one :
    let old := oneImage "d1"
    let new : Snapshot := ⟨"", ⟨"", "b", ["1"], [], "", "d2", false⟩ :: old.artifacts⟩
    let s := Scene.new (Site.holding (oneImageText "d1")) ⟨.empty, [⟨"a", some old⟩]⟩
    ("d1" ∉ digestsOf "a|1" (changes (some old) new).delete ∧
      "d1" ∉ digestsOf "a|1" (changes (some old) new).replicate) ∧
    Scene.OnlyNotices s.calls
      (Pass.complete (Scene.answering fun _ _ => .ok ()) s.reconciler s).2.calls := by
  intro old new s
  obtain ⟨-, hleaves, -, hpass⟩ := unchanged_left_alone
  have hparse : (Snapshot.parse (Text.Document.ofBytes (oneImageText "d1").toUTF8)).toOption =
      some old := by
    decide +kernel
  have hsettled : s.Settled s.reconciler.tracked := by
    intro t ht
    obtain rfl : t = ⟨"a", some old⟩ := List.mem_singleton.mp ht
    exact ⟨old, rfl, Scene.arrival_holding rfl hparse⟩
  refine ⟨hleaves old new (by decide) (by decide) "a|1" "d1" (by decide) (by decide), ?_⟩
  refine (hpass _ s rfl hsettled).mpr ?_
  intro t ht snapshot hlast
  obtain rfl : t = ⟨"a", some old⟩ := List.mem_singleton.mp ht
  obtain rfl : old = snapshot := Option.some.inj hlast
  decide

end EdgeSync
