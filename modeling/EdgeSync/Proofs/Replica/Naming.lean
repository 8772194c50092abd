import EdgeSync.Proofs.Replica.NormalForm
import EdgeSync.Sync.DryRun

/-!
# Names in the Log of a Dry Run

The normal form of an artifact cuts its repository path at the last slash, and the log joins
both parts again. Of a path without a slash both parts are the path itself, so the log writes
equal parts only once, and of an empty part it writes nothing. Hence two shapes of path are
shortened to their last segment: a segment after a leading slash, and a segment that stands
below one of the same name. All other paths are named as they are.

## Main definitions

- `Shortens`: a path of which the log keeps the last segment only
- `DryRun.Logs`: what the log names an artifact

## Main results

- `logs_path_and_tag`: the name of an artifact, and which artifacts share it
-/

namespace EdgeSync

variable {a b : Artifact} {tag : String}

/-! ## What Is Written of a Path -/

/-- The log keeps the last segment of a path only: it follows a leading slash, or stands below
a segment of the same name. -/
def Shortens (path leaf : String) : Prop :=
  '/' ∉ leaf.toList ∧ (path = "/" ++ leaf ∨ path = leaf ++ "/" ++ leaf)

/-- What the log writes of a path. -/
def IsWritten (path name : String) : Prop :=
  Shortens path name ∨ (name = path ∧ ∀ leaf, ¬ Shortens path leaf)

section

variable {path leaf name name' : String}

theorem Shortens.cut (h : Shortens path leaf) :
    '/' ∉ leaf.toList ∧
      ∃ parent, path = parent ++ "/" ++ leaf ∧ (parent = "" ∨ parent = leaf) := by
  obtain ⟨hleaf, rfl | rfl⟩ := h
  · exact ⟨hleaf, "", by simp, Or.inl rfl⟩
  · exact ⟨hleaf, leaf, rfl, Or.inr rfl⟩

theorem Shortens.unique (h : Shortens path name) (h' : Shortens path name') : name = name' := by
  obtain ⟨hname, parent, hcut, -⟩ := h.cut
  obtain ⟨hname', parent', hcut', -⟩ := h'.cut
  exact (cut_unique hname hname' (hcut.symm.trans hcut')).2

/-- One thing is written of a path. -/
theorem IsWritten.unique (h : IsWritten path name) (h' : IsWritten path name') : name = name' := by
  rcases h with h | ⟨rfl, hnone⟩
  · rcases h' with h' | ⟨-, hnone⟩
    · exact h.unique h'
    · exact absurd h (hnone name)
  · rcases h' with h' | ⟨rfl, -⟩
    · exact absurd h' (hnone name')
    · rfl

/-- A segment is written of itself and of the two paths that are shortened to it. -/
theorem isWritten_segment (hleaf : '/' ∉ leaf.toList)
    (h : path ∈ [leaf, "/" ++ leaf, leaf ++ "/" ++ leaf]) : IsWritten path leaf := by
  simp only [List.mem_cons, List.not_mem_nil, or_false] at h
  rcases h with rfl | hshort
  · refine Or.inr ⟨rfl, ?_⟩
    rintro leaf ⟨-, rfl | rfl⟩
    · simp at hleaf
    · simp at hleaf
  · exact Or.inl ⟨hleaf, hshort⟩

/-- The same is written of two paths if they are the same, or if both are a segment or
shortened to it. -/
theorem isWritten_eq_iff {other : String} (h : IsWritten path name) (h' : IsWritten other name') :
    name = name' ↔ path = other ∨ ∃ leaf : String, '/' ∉ leaf.toList ∧
      ∀ p ∈ [path, other], p ∈ [leaf, "/" ++ leaf, leaf ++ "/" ++ leaf] := by
  constructor
  · rintro rfl
    rcases h with ⟨hname, hshort⟩ | ⟨rfl, -⟩
    · refine Or.inr ⟨name, hname, ?_⟩
      rcases h' with ⟨-, hshort'⟩ | ⟨rfl, -⟩
      · simp [hshort, hshort']
      · simp [hshort]
    · rcases h' with ⟨hname, hshort'⟩ | ⟨rfl, -⟩
      · exact Or.inr ⟨name, hname, by simp [hshort']⟩
      · exact Or.inl rfl
  · rintro (rfl | ⟨leaf, hleaf, hall⟩)
    · exact h.unique h'
    · have hpath := isWritten_segment hleaf (hall path (by simp))
      have hother := isWritten_segment hleaf (hall other (by simp))
      exact (h.unique hpath).trans (hother.unique h')

end

/-! ## Names in the Log -/

namespace DryRun

/-- What the log names an artifact, whether it is replicated or deleted. -/
def Logs (a : Artifact) (reference : String) : Prop :=
  ∀ destination, ∀ r ∈ replicate destination [a] ++ delete destination [a],
    r.fields.lookup "artifact" = some (.text reference)

theorem logs_iff {reference : String} : Logs a reference ↔ a.reference = reference := by
  have hlookup : ∀ message destination,
      (record message destination a).fields.lookup "artifact" = some (.text a.reference) :=
    fun _ _ => rfl
  simp [Logs, replicate, delete, hlookup]

end DryRun

/-- Of an artifact with a tag the log writes the path and the first tag. -/
theorem isWritten_reference (htag : a.firstTag? = some tag) (hpath : a.path ≠ "") :
    ∃ name, IsWritten a.path name ∧ a.normalize.reference = name ++ ":" ++ tag := by
  have htag : ∀ repository name, { a with repository, name }.firstTag? = some tag :=
    fun _ _ => htag
  by_cases hslash : '/' ∈ a.path.toList
  · obtain ⟨parent, leaf, hcut, hleaf⟩ := exists_parent hslash
    rw [normalize_nested hcut hleaf, Artifact.reference, htag]
    -- The parts are joined unless the first one is empty or the same as the second.
    by_cases hshort : parent = "" ∨ parent = leaf
    · refine ⟨leaf, Or.inl ⟨hleaf, ?_⟩, by simp [hshort]⟩
      rcases hshort with rfl | rfl
      · exact Or.inl (by simpa using hcut)
      · exact Or.inr hcut
    · refine ⟨a.path, Or.inr ⟨rfl, fun other hother => hshort ?_⟩, by simp [hshort, hcut]⟩
      obtain ⟨hother, parent', hcut', hparent'⟩ := hother.cut
      obtain ⟨rfl, rfl⟩ := cut_unique hleaf hother (hcut.symm.trans hcut')
      exact hparent'
  · rw [normalize_single hpath hslash, Artifact.reference, htag]
    exact ⟨a.path, isWritten_segment hslash List.mem_cons_self, by simp⟩

/-- What the log names a normalized artifact with a tag: a path that is shortened to its last
segment, by that segment and the tag, any other path by the path and the tag. So two artifacts
with the same tag have a name in common exactly if their paths are the same, or if each of them
is the same segment, that segment after a slash, or that segment twice. -/
theorem logs_path_and_tag (htag : a.firstTag? = some tag) (hpath : a.path ≠ "") :
    ((∀ leaf, ¬ Shortens a.path leaf) → DryRun.Logs a.normalize (a.path ++ ":" ++ tag)) ∧
    (∀ leaf, Shortens a.path leaf → DryRun.Logs a.normalize (leaf ++ ":" ++ tag)) ∧
    ∀ b : Artifact, b.firstTag? = some tag → b.path ≠ "" →
      ((∃ reference, DryRun.Logs a.normalize reference ∧ DryRun.Logs b.normalize reference) ↔
        a.path = b.path ∨ ∃ leaf : String, '/' ∉ leaf.toList ∧
          ∀ path ∈ [a.path, b.path], path ∈ [leaf, "/" ++ leaf, leaf ++ "/" ++ leaf]) := by
  obtain ⟨name, hname, href⟩ := isWritten_reference htag hpath
  simp only [DryRun.logs_iff, href, exists_eq_left']
  refine ⟨fun hnone => ?_, fun leaf hshort => ?_, fun b hbtag hbpath => ?_⟩
  · rw [hname.unique (Or.inr ⟨rfl, hnone⟩)]
  · rw [hname.unique (Or.inl hshort)]
  · obtain ⟨name', hname', href'⟩ := isWritten_reference hbtag hbpath
    rw [← isWritten_eq_iff hname hname', href', eq_comm]
    simp [String.append_assoc]

/-- An artifact with one tag. -/
def taggedAt (repository tag : String) : Artifact :=
  { Artifact.empty with repository, tags := [tag] }

/-- A path of three segments is named as it is, without the slashes at its end. -/
theorem logs_path_and_tag_team :
    (taggedAt "library/team/nginx//" "1.25").path = "library/team/nginx" ∧
      (∀ leaf, ¬ Shortens "library/team/nginx" leaf) ∧
      DryRun.Logs (taggedAt "library/team/nginx//" "1.25").normalize "library/team/nginx:1.25" := by
  have hpath : (taggedAt "library/team/nginx//" "1.25").path = "library/team/nginx" := by decide
  have hnone : ∀ leaf, ¬ Shortens "library/team/nginx" leaf := by
    intro leaf hshort
    obtain ⟨hleaf, parent, hcut, hparent⟩ := hshort.cut
    have hcut' : "library/team" ++ "/" ++ "nginx" = parent ++ "/" ++ leaf := hcut
    obtain ⟨rfl, rfl⟩ := cut_unique (by decide) hleaf hcut'
    exact absurd hparent (by decide)
  have hlogs := (logs_path_and_tag (a := taggedAt "library/team/nginx//" "1.25") rfl
    (by rw [hpath]; decide)).1
  rw [hpath] at hlogs
  exact ⟨hpath, hnone, hlogs hnone⟩

/-- A segment below one of the same name is left out, and the name is that of another path. -/
theorem segment_below_itself_left_out :
    (taggedAt "nginx/nginx" "1").path = "nginx/nginx" ∧
      ¬ DryRun.Logs (taggedAt "nginx/nginx" "1").normalize "nginx/nginx:1" ∧
      (taggedAt "nginx" "1").path = "nginx" ∧
      DryRun.Logs (taggedAt "nginx/nginx" "1").normalize "nginx:1" ∧
      DryRun.Logs (taggedAt "nginx" "1").normalize "nginx:1" := by
  simp only [DryRun.logs_iff]
  decide

end EdgeSync
