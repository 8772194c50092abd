import EdgeSync.Model.Snapshot
import EdgeSync.Proofs.Text.Words
import Mathlib.Data.List.Forall2

/-!
# The Normal Form of a Snapshot

The normal form of an artifact takes the slashes off the end of its repository path and cuts what
is left at its last slash: what stands in front of it is the repository, and what stands behind it
is the name. A path of one segment is both, and an artifact without a path stays as it is. This is
stated as a relation, apart from the way in which the cut is computed, and the computed form is
shown to be the only one that is related. A document is prepared by giving every artifact its normal
form and leaving out those without a tag.

## Main definitions

- `Artifact.path`: the repository path without slashes at its end
- `Trims`: a text without slashes at its end
- `Artifact.NormalizesTo`: the normal form of an artifact
- `Snapshot.PreparesTo`: the form of a document in which it is compared

## Main results

- `splitLast?_append`: where a path is cut
- `Artifact.normalizesTo_iff`: the normal form that is computed
- `Snapshot.preparesTo_iff`: the form of a document that is computed
-/

namespace EdgeSync

/-! ## Cutting a Path -/

namespace Artifact

variable {path parent leaf : List Char}

theorem not_isSlash_of_mem (h : '/' ∉ leaf) : ∀ c ∈ leaf.reverse, (!isSlash c) = true := by
  intro c hc
  rw [Bool.not_eq_true', isSlash, beq_eq_false_iff_ne]
  rintro rfl
  exact h (List.mem_reverse.mp hc)

/-- A path is cut at its last slash. -/
theorem splitLast?_append (parent : List Char) (h : '/' ∉ leaf) :
    splitLast? (parent ++ '/' :: leaf) = some (parent, leaf) := by
  have hall := not_isSlash_of_mem h
  have hreverse : (parent ++ '/' :: leaf).reverse = leaf.reverse ++ '/' :: parent.reverse := by
    simp
  have hstop : isSlash '/' = true := rfl
  unfold splitLast?
  simp only [hreverse, List.dropWhile_append_of_pos hall, List.takeWhile_append_of_pos hall,
    List.dropWhile_cons, List.takeWhile_cons, hstop, Bool.not_true, Bool.false_eq_true, if_false,
    List.append_nil, List.reverse_reverse]

/-- A path without a slash cannot be cut. -/
theorem splitLast?_of_not_mem (h : '/' ∉ path) : splitLast? path = none := by
  have hdrop : (path.reverse.dropWhile fun c => !isSlash c) = [] :=
    List.dropWhile_eq_nil_iff.mpr (not_isSlash_of_mem h)
  unfold splitLast?
  dsimp only
  rw [hdrop]

theorem exists_last_slash (h : '/' ∈ path) :
    ∃ parent leaf, path = parent ++ '/' :: leaf ∧ '/' ∉ leaf := by
  -- The last slash is the first one from the end.
  obtain ⟨after, before, hreverse, hafter⟩ :=
    List.eq_append_cons_of_mem (List.mem_reverse.mpr h)
  refine ⟨before.reverse, after.reverse, ?_, fun hmem => hafter (List.mem_reverse.mp hmem)⟩
  rw [← path.reverse_reverse, hreverse]
  simp

end Artifact

/-- The repository path of an artifact, without slashes at its end. -/
def Artifact.path (a : Artifact) : String :=
  String.ofList (Text.dropEndWhile Artifact.isSlash a.repository.toList)

variable {a b : Artifact} {tag : String}

/-- A path of several segments is cut into the repository and the name. -/
theorem normalize_nested {parent leaf : String} (hpath : a.path = parent ++ "/" ++ leaf)
    (hleaf : '/' ∉ leaf.toList) :
    a.normalize = { a with repository := parent, name := leaf } := by
  have hchars : Text.dropEndWhile Artifact.isSlash a.repository.toList =
      parent.toList ++ '/' :: leaf.toList := by
    simpa [Artifact.path] using congrArg String.toList hpath
  unfold Artifact.normalize
  simp [hchars, Artifact.splitLast?_append parent.toList hleaf]

/-- A path of one segment is both. -/
theorem normalize_single (hpath : a.path ≠ "") (hslash : '/' ∉ a.path.toList) :
    a.normalize = { a with repository := a.path, name := a.path } := by
  have hchars : Text.dropEndWhile Artifact.isSlash a.repository.toList = a.path.toList := by
    simp [Artifact.path]
  unfold Artifact.normalize
  simp [hchars, hpath, Artifact.splitLast?_of_not_mem hslash]

/-- Without a path nothing is cut. -/
theorem normalize_pathless (hpath : a.path = "") : a.normalize = a := by
  have hchars : Text.dropEndWhile Artifact.isSlash a.repository.toList = [] := by
    simpa [Artifact.path] using hpath
  unfold Artifact.normalize
  simp [hchars]

theorem exists_parent {path : String} (h : '/' ∈ path.toList) :
    ∃ parent leaf : String, path = parent ++ "/" ++ leaf ∧ '/' ∉ leaf.toList := by
  obtain ⟨parent, leaf, hpath, hleaf⟩ := Artifact.exists_last_slash h
  refine ⟨String.ofList parent, String.ofList leaf, ?_, by simpa using hleaf⟩
  rw [← String.toList_inj, hpath]
  simp

/-- A path is cut in one way only. -/
theorem cut_unique {parent leaf parent' leaf' : String} (hleaf : '/' ∉ leaf.toList)
    (hleaf' : '/' ∉ leaf'.toList) (h : parent ++ "/" ++ leaf = parent' ++ "/" ++ leaf') :
    parent = parent' ∧ leaf = leaf' := by
  have hchars : parent.toList ++ '/' :: leaf.toList = parent'.toList ++ '/' :: leaf'.toList := by
    simpa using congrArg String.toList h
  have hcut := Artifact.splitLast?_append parent.toList hleaf
  rw [hchars, Artifact.splitLast?_append parent'.toList hleaf', Option.some.injEq,
    Prod.mk.injEq] at hcut
  exact ⟨String.toList_inj.mp hcut.1.symm, String.toList_inj.mp hcut.2.symm⟩

/-! ## The Normal Form -/

/-- A path is a text without the slashes at its end. -/
structure Trims (text path : String) : Prop where
  rest : ∃ count, text.toList = path.toList ++ List.replicate count '/'
  last : path.toList.getLast? ≠ some '/'

/-- The normal form of an artifact: its repository path, without slashes at its end, is cut at the
last slash. Nothing else is changed. -/
inductive Artifact.NormalizesTo (a : Artifact) : Artifact → Prop
  /-- There is no path, and the artifact stays as it is. -/
  | pathless (htrims : Trims a.repository "") : NormalizesTo a a
  /-- The path has one segment, which is the repository and the name. -/
  | single (path : String) (htrims : Trims a.repository path) (hne : path ≠ "")
      (hslash : '/' ∉ path.toList) : NormalizesTo a { a with repository := path, name := path }
  /-- The name is what follows the last slash, and the repository what stands in front of it. -/
  | nested (parent leaf : String) (htrims : Trims a.repository (parent ++ "/" ++ leaf))
      (hleaf : '/' ∉ leaf.toList) : NormalizesTo a { a with repository := parent, name := leaf }

theorem Artifact.trims_path (a : Artifact) : Trims a.repository a.path := by
  obtain ⟨slashes, hrepository, hslashes⟩ :=
    Text.exists_dropEndWhile isSlash a.repository.toList
  have hall : slashes = List.replicate slashes.length '/' :=
    List.eq_replicate_iff.mpr ⟨rfl, fun c hc => beq_iff_eq.mp (hslashes c hc)⟩
  refine ⟨⟨slashes.length, ?_⟩, fun hlast => ?_⟩
  · rw [← hall, path, String.toList_ofList]
    exact hrepository
  · have hstop := Text.getLast?_dropEndWhile isSlash a.repository.toList '/'
    rw [path, String.toList_ofList] at hlast
    exact absurd (hstop hlast) (by decide)

/-- There is one path only. -/
theorem Trims.path_eq {path : String} (h : Trims a.repository path) : a.path = path := by
  obtain ⟨⟨count, hrest⟩, hlast⟩ := h
  have hslashes : ∀ c ∈ List.replicate count '/', Artifact.isSlash c = true := by
    intro c hc
    rw [List.eq_of_mem_replicate hc]
    rfl
  have hstop : ∀ c ∈ path.toList.getLast?, Artifact.isSlash c = false := by
    intro c hc
    rw [Artifact.isSlash, beq_eq_false_iff_ne]
    rintro rfl
    exact hlast hc
  rw [Artifact.path, hrest, Text.dropEndWhile_append_of_all hslashes,
    Text.dropEndWhile_eq_self hstop, String.ofList_toList]

/-- The normal form that is computed is the only one. -/
theorem Artifact.normalizesTo_iff : a.NormalizesTo b ↔ b = a.normalize := by
  constructor
  · rintro (htrims | ⟨path, htrims, hne, hslash⟩ | ⟨parent, leaf, htrims, hleaf⟩)
    · exact (normalize_pathless htrims.path_eq).symm
    · obtain rfl := htrims.path_eq
      exact (normalize_single hne hslash).symm
    · exact (normalize_nested htrims.path_eq hleaf).symm
  · rintro rfl
    have htrims := a.trims_path
    by_cases hpath : a.path = ""
    · rw [normalize_pathless hpath]
      exact .pathless (hpath ▸ htrims)
    · by_cases hslash : '/' ∈ a.path.toList
      · obtain ⟨parent, leaf, hcut, hleaf⟩ := exists_parent hslash
        rw [normalize_nested hcut hleaf]
        exact .nested parent leaf (hcut ▸ htrims) hleaf
      · rw [normalize_single hpath hslash]
        exact .single a.path htrims hpath hslash

/-! ## Prepared Documents -/

namespace Snapshot

variable {document snapshot : Snapshot}

/-- The form of a document in which it is compared: every artifact has its normal form, and those
without a tag are left out. -/
structure PreparesTo (document snapshot : Snapshot) : Prop where
  registry : snapshot.registry = document.registry
  artifacts : ∃ normal, List.Forall₂ Artifact.NormalizesTo document.artifacts normal ∧
    snapshot.artifacts = normal.filter fun a => a.tags ≠ []

/-- The form that is computed is the only one. -/
theorem preparesTo_iff : document.PreparesTo snapshot ↔ snapshot = document.prepare := by
  have hnormal : ∀ normal, List.Forall₂ Artifact.NormalizesTo document.artifacts normal ↔
      normal = document.artifacts.map Artifact.normalize := by
    intro normal
    have hrelation : Artifact.NormalizesTo = fun a b => a.normalize = b := by
      funext a b
      exact propext (Artifact.normalizesTo_iff.trans eq_comm)
    rw [hrelation, ← List.forall₂_map_left_iff, List.forall₂_eq_eq_eq]
    exact eq_comm
  have htagged : (fun a : Artifact => decide (a.tags ≠ [])) = Artifact.isTagged := by
    funext a
    cases htags : a.tags <;> simp [Artifact.isTagged, htags]
  constructor
  · rintro ⟨hregistry, normal, hforall, hartifacts⟩
    obtain rfl := (hnormal normal).mp hforall
    obtain ⟨registry, artifacts⟩ := snapshot
    obtain rfl : registry = document.registry := hregistry
    obtain rfl : artifacts = _ := hartifacts
    rw [htagged]
    rfl
  · rintro rfl
    refine ⟨rfl, _, (hnormal _).mpr rfl, ?_⟩
    rw [htagged]
    rfl

theorem PreparesTo.exists_normalizesTo (h : document.PreparesTo snapshot)
    (ha : a ∈ snapshot.artifacts) : ∃ b : Artifact, b.NormalizesTo a := by
  obtain rfl := preparesTo_iff.mp h
  obtain ⟨b, -, hb⟩ := List.mem_map.mp (List.mem_filter.mp ha).1
  exact ⟨b, Artifact.normalizesTo_iff.mpr hb.symm⟩

theorem PreparesTo.tags_ne_nil (h : document.PreparesTo snapshot) (ha : a ∈ snapshot.artifacts) :
    a.tags ≠ [] := by
  obtain ⟨normal, -, hartifacts⟩ := h.artifacts
  rw [hartifacts, List.mem_filter] at ha
  exact of_decide_eq_true ha.2

end Snapshot

end EdgeSync
