import EdgeSync.Proofs.Changes.PerKey
import EdgeSync.Proofs.Pass.Visits

/-!
# What the Replica Holds

The calls of a replica read as updates of what it holds: a deletion takes the keys of its
artifacts away, a replication sets them to the digests, one after the other. A call that
fails changes nothing.

## Main definitions

- `Mirror`: a digest for some keys
- `Mirror.forget`, `Mirror.hold`, `Mirror.apply`: what calls change
- `Snapshot.mirror`: what a snapshot asks the replica to hold
- `Replies.replay`: what a replica holds after some calls

## Main results

- `hold_forget_of_agrees`: the changes between two snapshots lead from one to the other
- `hold_forget_of_replicated`, `hold_forget_of_not_replicated`: where they lead to from
  anything else
- `Replies.replay_append`: calls after other calls
-/

namespace EdgeSync

/-- The digests that are held, by key. -/
abbrev Mirror := String → Option String

namespace Mirror

/-! ## Updates -/

/-- Nothing is held. -/
def empty : Mirror := fun _ => none

/-- The keys of some artifacts are taken away. -/
def forget (m : Mirror) (as : List Artifact) : Mirror :=
  as.foldl (fun m a key => if a.hasKey key then none else m key) m

/-- The keys of some artifacts are set to their digests, in order. -/
def hold (m : Mirror) (as : List Artifact) : Mirror :=
  as.foldl (fun m a key => if a.hasKey key then some a.digest else m key) m

/-- What a call that succeeds changes. -/
def apply (m : Mirror) : ReplicaCall → Mirror
  | .delete artifacts => m.forget artifacts
  | .replicate artifacts => m.hold artifacts
  | .notify => m

@[simp] theorem forget_nil (m : Mirror) : m.forget [] = m := rfl

@[simp] theorem hold_nil (m : Mirror) : m.hold [] = m := rfl

/-- A key is taken away by any artifact that has it. -/
theorem forget_apply (m : Mirror) (as : List Artifact) (key : String) :
    m.forget as key = if ofKey key as = [] then m key else none := by
  induction as generalizing m with
  | nil => rfl
  | cons a rest ih =>
    have hstep : m.forget (a :: rest) key =
        forget (fun key => if a.hasKey key then none else m key) rest key := rfl
    rw [hstep, ih]
    by_cases hkey : a.key? = some key
    · simp [ofKey_cons_self hkey, hkey]
    · simp [ofKey_cons_ne hkey, hkey]

/-- The last artifact of a key counts. -/
theorem hold_apply (m : Mirror) (as : List Artifact) (key : String) :
    m.hold as key = ((ofKey key as).getLast?.map Artifact.digest).or (m key) := by
  induction as generalizing m with
  | nil => rfl
  | cons a rest ih =>
    have hstep : m.hold (a :: rest) key =
        hold (fun key => if a.hasKey key then some a.digest else m key) rest key := rfl
    rw [hstep, ih]
    by_cases hkey : a.key? = some key
    · rw [ofKey_cons_self hkey, List.getLast?_cons]
      cases (ofKey key rest).getLast? <;> simp [hkey]
    · simp [ofKey_cons_ne hkey, hkey]

end Mirror

/-- What a snapshot asks the replica to hold: for each key the digest of its last artifact. -/
def Snapshot.mirror (s : Snapshot) : Mirror :=
  Mirror.empty.hold s.artifacts

theorem Snapshot.mirror_apply (s : Snapshot) (key : String) :
    s.mirror key = (s.lastOfKey? key).map Artifact.digest := by
  rw [mirror, Mirror.hold_apply, lastOfKey?]
  simp [Mirror.empty]

/-- What the last known snapshot asks to hold; nothing, if there is none. -/
def mirrorOf (s : Option Snapshot) : Mirror :=
  s.elim Mirror.empty Snapshot.mirror

theorem mirrorOf_apply (s : Option Snapshot) (key : String) :
    mirrorOf s key = (s.bind (·.lastOfKey? key)).map Artifact.digest := by
  cases s with
  | none => rfl
  | some s => exact s.mirror_apply key

/-! ## Changes -/

/-- What is replicated of a key ends as the new snapshot does. -/
theorem getLast?_compareKey_replicate {old : Option Artifact} {new : List Artifact}
    (h : (compareKey old new).replicate ≠ []) :
    (compareKey old new).replicate.getLast? = new.getLast? := by
  cases old with
  | none => rfl
  | some previous =>
    cases new with
    | nil => exact absurd rfl h
    | cons a rest =>
      simp only [compareKey] at h ⊢
      by_cases hsame : previous.digest = a.digest
      · rw [if_pos hsame] at h ⊢
        rw [List.getLast?_eq_some_getLast h, List.getLast?_cons,
          List.getLast?_eq_some_getLast h]
        rfl
      · rw [if_neg hsame]

/-- If nothing is replicated of a key that is there, its digest stays. -/
theorem compareKey_replicate_eq_nil {old : Option Artifact} {new : List Artifact}
    (h : (compareKey old new).replicate = []) (hsome : new ≠ []) :
    (compareKey old new).delete = [] ∧
      old.map Artifact.digest = new.getLast?.map Artifact.digest := by
  cases old with
  | none => exact absurd h hsome
  | some previous =>
    cases new with
    | nil => exact absurd rfl hsome
    | cons a rest =>
      simp only [compareKey] at h ⊢
      by_cases hsame : previous.digest = a.digest
      · rw [if_pos hsame] at h ⊢
        obtain rfl : rest = [] := h
        exact ⟨rfl, congrArg some hsame⟩
      · rw [if_neg hsame] at h
        exact absurd h (List.cons_ne_nil a rest)

/-- What is deleted of a key was there. -/
theorem compareKey_delete_ne_nil {old : Option Artifact} {new : List Artifact}
    (h : (compareKey old new).delete ≠ []) : old ≠ none := by
  rintro rfl
  exact h rfl

/-- If nothing is asked for a key that is not there any more, it was not there before. -/
theorem compareKey_nil_delete {old : Option Artifact}
    (h : (compareKey old []).delete = []) : old = none := by
  cases old with
  | none => rfl
  | some previous => exact absurd h (List.cons_ne_nil previous [])

variable {m : Mirror} {key : String} {old : Option Snapshot} {new : Snapshot}

/-- A key that is replicated gets the digest that the new snapshot has for it. -/
theorem hold_forget_of_replicated (h : ofKey key (changes old new).replicate ≠ []) :
    ((m.forget (changes old new).delete).hold (changes old new).replicate) key =
      new.mirror key := by
  rw [Mirror.hold_apply, List.getLast?_eq_some_getLast h, Option.map_some, Option.some_or,
    ← Option.map_some, ← List.getLast?_eq_some_getLast h, Snapshot.mirror_apply]
  rw [ofKey_changes_replicate] at h ⊢
  rw [getLast?_compareKey_replicate h, Snapshot.lastOfKey?]

/-- A key that is not replicated is gone if it is deleted, and else as it was. -/
theorem hold_forget_of_not_replicated (h : ofKey key (changes old new).replicate = []) :
    ((m.forget (changes old new).delete).hold (changes old new).replicate) key =
      if ofKey key (changes old new).delete = [] then m key else none := by
  rw [Mirror.hold_apply, h, Mirror.forget_apply]
  rfl

/-- Where a replica holds what the old snapshot asks for, the changes lead to the new one. -/
theorem hold_forget_of_agrees (h : m key = mirrorOf old key) :
    ((m.forget (changes old new).delete).hold (changes old new).replicate) key =
      new.mirror key := by
  by_cases hreplicate : ofKey key (changes old new).replicate = []
  · -- Then the key is gone from both, or it has kept its digest.
    rw [hold_forget_of_not_replicated hreplicate, h, mirrorOf_apply, Snapshot.mirror_apply,
      Snapshot.lastOfKey?, ofKey_changes_delete]
    rw [ofKey_changes_replicate] at hreplicate
    by_cases hnew : ofKey key new.artifacts = []
    · rw [hnew]
      split
      · next hdelete => rw [compareKey_nil_delete hdelete, List.getLast?_nil]
      · rfl
    · obtain ⟨hdelete, hdigest⟩ := compareKey_replicate_eq_nil hreplicate hnew
      rw [if_pos hdelete, hdigest]
  · exact hold_forget_of_replicated hreplicate

/-! ## Calls -/

namespace Replies

/-- What a replica holds after some more calls: those that fail change nothing. -/
def replay (replies : Replies) : List ReplicaCall → List ReplicaCall → Mirror → Mirror
  | _, [], m => m
  | before, c :: rest, m =>
    match replies before c with
    | .error _ => replay replies (before ++ [c]) rest m
    | .ok _ => replay replies (before ++ [c]) rest (m.apply c)

theorem replay_append (replies : Replies) (before first second : List ReplicaCall) (m : Mirror) :
    replies.replay before (first ++ second) m =
      replies.replay (before ++ first) second (replies.replay before first m) := by
  induction first generalizing before m with
  | nil => rw [List.append_nil, List.nil_append, replay]
  | cons c rest ih =>
    rw [List.append_cons before c rest]
    simp only [List.cons_append, replay]
    cases replies before c with
    | error fault => exact ih (before ++ [c]) m
    | ok _ => exact ih (before ++ [c]) (m.apply c)

theorem replay_failed {replies : Replies} {before : List ReplicaCall} {c : ReplicaCall}
    {fault : SyncFault} (h : replies before c = .error fault) (m : Mirror) :
    replies.replay before [c] m = m := by
  simp only [replay, h]

theorem replay_succeeded {replies : Replies} {before : List ReplicaCall} {c : ReplicaCall}
    (h : replies before c = .ok ()) (m : Mirror) : replies.replay before [c] m = m.apply c := by
  simp only [replay, h]

theorem replay_notify (replies : Replies) (before : List ReplicaCall) (m : Mirror) :
    replies.replay before [.notify] m = m := by
  simp only [replay, Mirror.apply]
  split <;> rfl

theorem replay_deleteOrder {replies : Replies} {before : List ReplicaCall} {c : Changes}
    (h : ∀ order ∈ c.deleteOrder, replies before order = .ok ()) (m : Mirror) :
    replies.replay before c.deleteOrder m = m.forget c.delete := by
  unfold Changes.deleteOrder at h ⊢
  split
  · next hempty => rw [List.isEmpty_iff.mp hempty, replay, Mirror.forget_nil]
  · next hsome =>
    rw [if_neg hsome] at h
    exact replay_succeeded (h _ List.mem_cons_self) m

theorem replay_replicateOrder {replies : Replies} {before : List ReplicaCall} {c : Changes}
    (h : ∀ order ∈ c.replicateOrder, replies before order = .ok ()) (m : Mirror) :
    replies.replay before c.replicateOrder m = m.hold c.replicate := by
  unfold Changes.replicateOrder at h ⊢
  split
  · next hempty => rw [List.isEmpty_iff.mp hempty, replay, Mirror.hold_nil]
  · next hsome =>
    rw [if_neg hsome] at h
    exact replay_succeeded (h _ List.mem_cons_self) m

end Replies

end EdgeSync
