import EdgeSync.Files.Tree
import Mathlib.Tactic.SplitIfs

/-!
# Written Files

What has been written to a path is found at this path. A path that could be written leads
through directories up to its place, and at the place itself there is none. So the lookup of
the path does not come across the new file before its end.

## Main results

- `FileTree.resolve_put`: a path leads to the same place as before the write
- `FileTree.isFile_of_write`, `FileTree.readText_of_write`: what is written can be read
-/

namespace EdgeSync.FileTree

variable {t : FileTree} {target : PathSegments} {node : FileNode}

/-! ## Nodes -/

theorem node?_put_self (h : t.node? target ≠ some .directory) :
    (t.put target node).node? target = some node := by
  have hplain : ¬ (target = [] ∨ target = workingDirectory) := by
    intro hfixed
    exact h (by rw [node?, if_pos hfixed])
  rw [node?, if_neg hplain, put]
  simp

theorem node?_put_of_ne {place : PathSegments} (h : place ≠ target) :
    (t.put target node).node? place = t.node? place := by
  unfold node? put
  split
  · rfl
  · rw [List.find?_cons_of_neg (by simpa using h.symm), List.find?_filter]
    congr 2
    funext entry
    by_cases heq : entry.1 = place
    · simp [heq, h]
    · simp [heq]

/-! ## Paths -/

/-- The segments of a path lead through directories, so they meet the target at their end
only. -/
theorem follow_put (htarget : t.node? target ≠ some .directory) {place goal : PathSegments}
    {segments : List String} (h : t.follow place segments = .ok goal) :
    (t.put target node).follow place segments = .ok goal := by
  induction segments generalizing place with
  | nil => exact h
  | cons segment rest ih =>
    -- The walk goes on from a directory only, and the target is none.
    have hdirectory : t.node? place = some .directory := by
      rw [follow] at h
      split at h
      · cases h
      · cases h
      · assumption
    have hplace : place ≠ target := by
      rintro rfl
      exact htarget hdirectory
    simp only [follow, node?_put_of_ne hplace, hdirectory] at h ⊢
    split_ifs at h ⊢
    · exact ih h
    · exact ih h

/-- A path leads to the same place as before. -/
theorem resolve_put (htarget : t.node? target ≠ some .directory) {path : String}
    {goal : PathSegments} (h : t.resolve path = .ok goal) :
    (t.put target node).resolve path = .ok goal := by
  unfold resolve at h ⊢
  split_ifs at h ⊢
  · exact follow_put htarget h
  · exact follow_put htarget h

/-! ## Writing and Reading -/

/-- What has been written is found. -/
theorem lookUp_of_write {t' : FileTree} {path : String} {content : ByteArray}
    (h : t.write path content = .ok t') : t'.lookUp path = .ok (.file content) := by
  unfold write at h
  split at h
  · cases h
  · next place hresolve =>
    -- There is a file, or nothing, at the place; and the path does not ask for a directory.
    have hput : t.node? place ≠ some .directory ∧ asksDirectory path = false ∧
        t' = t.put place (.file content) := by
      split at h
      · cases h
      · next old hold =>
        split_ifs at h with hasks
        cases h
        exact ⟨by rw [hold]; nofun, by simpa using hasks, rfl⟩
      · next hnone =>
        split_ifs at h with hasks
        cases h
        exact ⟨by rw [hnone]; nofun, by simpa using hasks, rfl⟩
    obtain ⟨hplace, hasks, rfl⟩ := hput
    simp only [lookUp, resolve_put hplace hresolve, node?_put_self hplace, hasks]
    rfl

theorem isFile_of_write {t' : FileTree} {path : String} {content : ByteArray}
    (h : t.write path content = .ok t') : t'.isFile path = .ok true := by
  rw [isFile, lookUp_of_write h]
  rfl

theorem readText_of_write {t' : FileTree} {path text : String}
    (h : t.write path text.toUTF8 = .ok t') : t'.readText path = .ok text := by
  have htext : String.fromUTF8? text.toUTF8 = some text := dif_pos text.isValidUTF8
  simp only [readText, read, lookUp_of_write h, htext]

end EdgeSync.FileTree
