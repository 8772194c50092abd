import EdgeSync.Proofs.Replica.Mirror

/-!
# Carried From Snapshot to Snapshot

The changes between two snapshots are all that a mirror of the first one needs to become a
mirror of the second one, whatever keys they repeat: what is deleted is taken away, then what is
replicated is set in its order. So a mirror that starts empty and takes every change of a
sequence of snapshots ends as the last of them.

## Main definitions

- `Mirror.carry`, `Mirror.carryAll`: take the changes to one snapshot, or to many

## Main results

- `carryAll_mirrorOf`: from the mirror of a snapshot to that of the last one
- `carries_to_last`: the changes between snapshots lead from mirror to mirror
-/

namespace EdgeSync

namespace Mirror

/-- Some changes are taken: deletions first, then replications. -/
def carry (m : Mirror) (c : Changes) : Mirror :=
  (m.forget c.delete).hold c.replicate

/-- The changes of successive snapshots are taken, the first against the last known one. -/
def carryAll (m : Mirror) (last : Option Snapshot) : List Snapshot → Mirror
  | [] => m
  | s :: rest => carryAll (m.carry (changes last s)) (some s) rest

end Mirror

/-- A mirror holds for each key the digest of its last artifact. -/
theorem Snapshot.mirror_eq_getLast? (s : Snapshot) (key : String) :
    s.mirror key = (digestsOf key s.artifacts).getLast? := by
  rw [s.mirror_apply, lastOfKey?, digestsOf, List.getLast?_map]

/-- One step: from the mirror of the last known snapshot to that of the next one. -/
theorem carry_mirrorOf (old : Option Snapshot) (new : Snapshot) :
    (mirrorOf old).carry (changes old new) = new.mirror :=
  funext fun _ => hold_forget_of_agrees rfl

/-- Any number of steps. -/
theorem carryAll_mirrorOf (last : Option Snapshot) (snapshots : List Snapshot) :
    (mirrorOf last).carryAll last snapshots = mirrorOf (snapshots.getLast?.or last) := by
  -- The invariant: what is held is the mirror of the last known snapshot.
  induction snapshots generalizing last with
  | nil => rfl
  | cons s rest ih =>
    have hstep : (mirrorOf last).carry (changes last s) = mirrorOf (some s) :=
      carry_mirrorOf last s
    rw [Mirror.carryAll, hstep, ih, List.getLast?_cons]
    cases rest.getLast? <;> rfl

/-- What the changes are enough for. The mirror of a snapshot holds for each key the digest of
its last artifact; the changes between two snapshots lead from the mirror of the first to that
of the second; and those of any sequence of snapshots lead from nothing to the mirror of the
last. -/
theorem carries_to_last :
    (∀ (s : Snapshot) (key : String), s.mirror key = (digestsOf key s.artifacts).getLast?) ∧
    (∀ old new : Snapshot, old.mirror.carry (changes (some old) new) = new.mirror) ∧
    ∀ snapshots : List Snapshot,
      Mirror.empty.carryAll none snapshots = mirrorOf snapshots.getLast? := by
  refine ⟨Snapshot.mirror_eq_getLast?, fun old => carry_mirrorOf (some old), ?_⟩
  intro snapshots
  have hall := carryAll_mirrorOf none snapshots
  rwa [Option.or_none] at hall

/-- A key that is repeated: its old digest is deleted, and of the new ones the later one
stays. -/
example :
    let old : Snapshot := ⟨"", [⟨"", "a", ["1"], [], "", "d1", false⟩]⟩
    let new : Snapshot := ⟨"", [⟨"", "a", ["1"], [], "", "d2", false⟩,
      ⟨"", "a", ["1"], [], "", "d3", false⟩]⟩
    old.mirror.carry (changes (some old) new) "a|1" = some "d3" := by
  decide

end EdgeSync
