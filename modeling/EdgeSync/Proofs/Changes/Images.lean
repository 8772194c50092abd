import EdgeSync.Proofs.Changes.PerKey
import Mathlib.Data.List.Nodup

/-!
# Images and Keys

A registry finds an artifact by its repository, name and tag. The key of an artifact leaves the
repository out and joins the name and the tag with a bar, so different images can have the same
key: then they count as one artifact that changes. Without such a meeting the comparison of two
snapshots lists exactly the images that are gone or changed, and those that are new or changed.

## Main definitions

- `Image`, `Artifact.image`: what a registry finds an artifact by
- `Artifact.IsMissingFrom`: the image of an artifact is absent or has another digest
- `Changes.ListImages`: the changes are those of the images
- `Undisturbed`: no other image disturbs the comparison of one key

## Main results

- `compareKey_listImages_iff`: the comparison of one key lists the images iff it is undisturbed
- `lists_images_iff`: the comparison of two snapshots does so iff all keys are undisturbed
-/

namespace EdgeSync

/-! ## Images -/

/-- What a registry finds an artifact by. -/
structure Image where
  repository : String
  name : String
  tag : Option String
  deriving DecidableEq, Repr

/-- The image of an artifact. -/
def Artifact.image (a : Artifact) : Image :=
  ⟨a.repository, a.name, a.firstTag?⟩

/-- The image of an artifact is absent from a list, or has another digest there. -/
def Artifact.IsMissingFrom (a : Artifact) (as : List Artifact) : Prop :=
  ∀ b ∈ as, b.image = a.image → b.digest ≠ a.digest

instance (a : Artifact) (as : List Artifact) : Decidable (a.IsMissingFrom as) :=
  inferInstanceAs (Decidable (∀ b ∈ as, b.image = a.image → b.digest ≠ a.digest))

/-- The changes are those of the images: deleted is what is missing from the new list,
replicated is what is missing from the old one. -/
def Changes.ListImages (c : Changes) (old new : List Artifact) : Prop :=
  (∀ a, a ∈ c.delete ↔ a ∈ old ∧ a.IsMissingFrom new) ∧
    ∀ a, a ∈ c.replicate ↔ a ∈ new ∧ a.IsMissingFrom old

theorem key?_eq_of_image_eq {a b : Artifact} (h : a.image = b.image) : a.key? = b.key? := by
  obtain ⟨-, hname, htag⟩ := Image.mk.injEq .. ▸ h
  rw [Artifact.key?, Artifact.key?, hname, htag]

/-- Only the artifacts of its own key can have the image of an artifact. -/
theorem isMissingFrom_ofKey {key : String} {a : Artifact} (h : a.key? = some key)
    (as : List Artifact) : a.IsMissingFrom (ofKey key as) ↔ a.IsMissingFrom as := by
  constructor
  · intro hmissing b hb himage
    exact hmissing b (mem_ofKey.mpr ⟨hb, (key?_eq_of_image_eq himage).trans h⟩) himage
  · intro hmissing b hb
    exact hmissing b (mem_ofKey.mp hb).1

theorem not_isMissingFrom {a : Artifact} {as : List Artifact} :
    ¬ a.IsMissingFrom as ↔ ∃ b ∈ as, b.image = a.image ∧ b.digest = a.digest := by
  simp [Artifact.IsMissingFrom]

theorem isMissingFrom_singleton {a b : Artifact} :
    a.IsMissingFrom [b] ↔ (b.image = a.image → b.digest ≠ a.digest) :=
  List.forall_mem_singleton

/-! ## One Key -/

/-- No other image disturbs the comparison of one key: there is at most one old artifact, and
if the first new one has its digest, or if its image keeps its digest, then the first new one is
the same image with the same digest. -/
def Undisturbed (old new : List Artifact) : Prop :=
  old = [] ∨ ∃ b, old = [b] ∧ ∀ a ∈ new.head?,
    a.digest = b.digest ∨ ¬ b.IsMissingFrom new → a.image = b.image ∧ a.digest = b.digest

variable {old new rest : List Artifact} {a b : Artifact}

theorem undisturbed_iff (h : old.getLast? = some b) :
    Undisturbed old new ↔ old = [b] ∧ ∀ a ∈ new.head?,
      a.digest = b.digest ∨ ¬ b.IsMissingFrom new → a.image = b.image ∧ a.digest = b.digest := by
  constructor
  · rintro (rfl | ⟨b', rfl, hfirst⟩)
    · cases h
    · obtain rfl : b' = b := Option.some.inj h
      exact ⟨rfl, hfirst⟩
  · exact fun ⟨hold, hfirst⟩ => Or.inr ⟨b, hold, hfirst⟩

theorem eq_singleton_of_image (hnodup : (old.map Artifact.image).Nodup) (hmem : b ∈ old)
    (hall : ∀ x ∈ old, x.image = b.image) : old = [b] := by
  by_contra hne
  rcases (hnodup.of_map.ne_singleton_iff b).mp hne with rfl | ⟨x, hx, hxb⟩
  · exact List.not_mem_nil hmem
  · exact hxb (List.inj_on_of_nodup_map hnodup hx hmem (hall x hx))

/-- A key that is gone. -/
theorem listImages_gone_iff (hnodup : (old.map Artifact.image).Nodup) (hmem : b ∈ old) :
    (Changes.mk [b] []).ListImages old [] ↔ old = [b] := by
  constructor
  · rintro ⟨hdelete, -⟩
    refine eq_singleton_of_image hnodup hmem fun x hx => ?_
    have hx : x ∈ [b] := (hdelete x).mpr ⟨hx, nofun⟩
    rw [List.mem_singleton.mp hx]
  · rintro rfl
    exact ⟨fun x => by simp [Artifact.IsMissingFrom], fun x => by simp⟩

/-- A key whose first new artifact has the old digest. -/
theorem listImages_kept_iff (hold : (old.map Artifact.image).Nodup)
    (hnew : ((a :: rest).map Artifact.image).Nodup) (hmem : b ∈ old)
    (hsame : a.digest = b.digest) :
    (Changes.mk [] rest).ListImages old (a :: rest) ↔ old = [b] ∧ a.image = b.image := by
  obtain ⟨hfirst, -⟩ := List.nodup_cons.mp (List.map_cons ▸ hnew)
  constructor
  · rintro ⟨hdelete, hreplicate⟩
    -- What is kept of the old ones can only be the first of the new ones: all others are
    -- replicated, so nothing old has their image and digest.
    have hkept : ∀ x ∈ old, a.image = x.image := by
      intro x hx
      have hthere : ¬ x.IsMissingFrom (a :: rest) :=
        fun hmissing => List.not_mem_nil ((hdelete x).mpr ⟨hx, hmissing⟩)
      obtain ⟨y, hy, himage, hdigest⟩ := not_isMissingFrom.mp hthere
      rcases List.mem_cons.mp hy with rfl | hlater
      · exact himage
      · exact absurd hdigest.symm (((hreplicate y).mp hlater).2 x hx himage.symm)
    exact ⟨eq_singleton_of_image hold hmem fun x hx => (hkept x hx).symm.trans (hkept b hmem),
      hkept b hmem⟩
  · rintro ⟨rfl, himage⟩
    constructor
    · intro x
      refine iff_of_false List.not_mem_nil ?_
      rintro ⟨hx, hmissing⟩
      obtain rfl := List.mem_singleton.mp hx
      exact hmissing a List.mem_cons_self himage hsame
    · intro x
      rw [isMissingFrom_singleton]
      constructor
      · intro hx
        refine ⟨List.mem_cons_of_mem a hx, fun hother => absurd ?_ hfirst⟩
        rw [himage, hother]
        exact List.mem_map_of_mem hx
      · rintro ⟨hx, hmissing⟩
        rcases List.mem_cons.mp hx with rfl | hlater
        · exact absurd hsame.symm (hmissing himage.symm)
        · exact hlater

/-- A key whose first new artifact has another digest. -/
theorem listImages_replaced_iff (hnodup : (old.map Artifact.image).Nodup) (hmem : b ∈ old) :
    (Changes.mk [b] new).ListImages old new ↔ old = [b] ∧ b.IsMissingFrom new := by
  constructor
  · rintro ⟨hdelete, hreplicate⟩
    -- Nothing new was there before, so nothing old is still there.
    have hmissing : ∀ x ∈ old, x.IsMissingFrom new := fun x hx y hy himage hdigest =>
      ((hreplicate y).mp hy).2 x hx himage.symm hdigest.symm
    refine ⟨eq_singleton_of_image hnodup hmem fun x hx => ?_, hmissing b hmem⟩
    have hx : x ∈ [b] := (hdelete x).mpr ⟨hx, hmissing x hx⟩
    rw [List.mem_singleton.mp hx]
  · rintro ⟨rfl, hmissing⟩
    constructor
    · intro x
      refine ⟨fun hx => ⟨hx, ?_⟩, And.left⟩
      rwa [List.mem_singleton.mp hx]
    · intro x
      rw [isMissingFrom_singleton]
      exact ⟨fun hx => ⟨hx, fun himage hdigest => hmissing x hx himage.symm hdigest.symm⟩,
        And.left⟩

/-- The comparison of one key lists its images exactly if no other image disturbs it. -/
theorem compareKey_listImages_iff (hold : (old.map Artifact.image).Nodup)
    (hnew : (new.map Artifact.image).Nodup) :
    (compareKey old.getLast? new).ListImages old new ↔ Undisturbed old new := by
  cases hlast : old.getLast? with
  | none =>
    obtain rfl := List.getLast?_eq_none_iff.mp hlast
    refine iff_of_true ⟨?_, ?_⟩ (Or.inl rfl)
    · simp [compareKey]
    · simp [compareKey, Artifact.IsMissingFrom]
  | some b =>
    have hmem : b ∈ old := List.mem_of_getLast? hlast
    rw [undisturbed_iff hlast]
    -- The key is gone, kept or replaced.
    cases new with
    | nil =>
      rw [compareKey, listImages_gone_iff hold hmem]
      simp
    | cons a rest =>
      rw [compareKey]
      simp only [List.head?_cons, Option.mem_some_iff, forall_eq']
      by_cases hsame : a.digest = b.digest
      · rw [if_pos hsame.symm, listImages_kept_iff hold hnew hmem hsame]
        simp [hsame]
      · rw [if_neg (Ne.symm hsame), listImages_replaced_iff hold hmem]
        simp [hsame]

/-- Only the old artifact that the key stands for can be deleted, if the first new one does not
have its digest. -/
theorem mem_compareKey_delete {previous : Option Artifact} :
    a ∈ (compareKey previous new).delete ↔
      previous = some a ∧ ∀ first ∈ new.head?, first.digest ≠ a.digest := by
  cases previous with
  | none => simp [compareKey]
  | some b =>
    cases new with
    | nil => simp [compareKey, eq_comm]
    | cons first rest =>
      simp only [compareKey, List.head?_cons, Option.mem_some_iff, forall_eq', Option.some.injEq]
      by_cases hsame : b.digest = first.digest
      · rw [if_pos hsame]
        refine iff_of_false List.not_mem_nil ?_
        rintro ⟨rfl, hdiffer⟩
        exact hdiffer hsame.symm
      · rw [if_neg hsame, List.mem_singleton]
        exact ⟨fun h => ⟨h.symm, fun hdigest => hsame (h ▸ hdigest.symm)⟩, fun h => h.1.symm⟩

/-- All new artifacts are replicated but the first one, if it has the old digest. -/
theorem mem_compareKey_replicate (hnodup : new.Nodup) {previous : Option Artifact} :
    a ∈ (compareKey previous new).replicate ↔
      a ∈ new ∧ (new.head? ≠ some a ∨ ∀ b ∈ previous, b.digest ≠ a.digest) := by
  cases previous with
  | none => simp [compareKey]
  | some b =>
    cases new with
    | nil => simp [compareKey]
    | cons first rest =>
      have hfirst : first ∉ rest := (List.nodup_cons.mp hnodup).1
      simp only [compareKey, List.head?_cons, Option.mem_some_iff, forall_eq', ne_eq,
        Option.some.injEq]
      by_cases hsame : b.digest = first.digest
      · rw [if_pos hsame]
        constructor
        · intro ha
          exact ⟨List.mem_cons_of_mem first ha, Or.inl fun h => hfirst (h ▸ ha)⟩
        · rintro ⟨ha, hlater⟩
          rcases List.mem_cons.mp ha with rfl | ha
          · exact absurd hsame (hlater.resolve_left (not_not.mpr rfl))
          · exact ha
      · rw [if_neg hsame]
        refine ⟨fun ha => ⟨ha, ?_⟩, And.left⟩
        by_cases heq : first = a
        · exact Or.inr (heq ▸ hsame)
        · exact Or.inl heq

theorem nodup_compareKey (hnodup : new.Nodup) (previous : Option Artifact) :
    (compareKey previous new).delete.Nodup ∧ (compareKey previous new).replicate.Nodup := by
  cases previous with
  | none => exact ⟨List.nodup_nil, hnodup⟩
  | some b =>
    cases new with
    | nil => exact ⟨List.nodup_singleton b, List.nodup_nil⟩
    | cons first rest =>
      rw [compareKey]
      split
      · exact ⟨List.nodup_nil, (List.nodup_cons.mp hnodup).2⟩
      · exact ⟨List.nodup_singleton b, hnodup⟩

/-! ## All Keys -/

section AllKeys

variable {as : List Artifact}

theorem mem_iff_ofKey (htagged : ∀ x ∈ as, x.key? ≠ none) :
    a ∈ as ↔ ∃ key, a.key? = some key ∧ a ∈ ofKey key as := by
  constructor
  · intro ha
    obtain ⟨key, hkey⟩ := Option.ne_none_iff_exists'.mp (htagged a ha)
    exact ⟨key, hkey, mem_ofKey.mpr ⟨ha, hkey⟩⟩
  · rintro ⟨key, -, ha⟩
    exact (mem_ofKey.mp ha).1

theorem nodup_of_ofKey (htagged : ∀ x ∈ as, x.key? ≠ none)
    (h : ∀ key, (ofKey key as).Nodup) : as.Nodup := by
  -- An artifact is counted as often as among those of its key.
  rw [List.nodup_iff_count_le_one]
  intro x
  by_cases hx : x ∈ as
  · obtain ⟨key, hkey⟩ := Option.ne_none_iff_exists'.mp (htagged x hx)
    have hcount : (ofKey key as).count x = as.count x :=
      List.count_filter (Artifact.hasKey_iff.mpr hkey)
    rw [← hcount]
    exact List.nodup_iff_count_le_one.mp (h key) x
  · rw [List.count_eq_zero_of_not_mem hx]
    exact Nat.zero_le 1

theorem nodup_image_ofKey (hnodup : (as.map Artifact.image).Nodup) (key : String) :
    ((ofKey key as).map Artifact.image).Nodup :=
  hnodup.sublist (List.filter_sublist.map Artifact.image)

/-- A list holds what is missing elsewhere exactly if it does so for every key. -/
theorem mem_iff_missing_ofKey {listed others : List Artifact}
    (hlisted : ∀ x ∈ listed, x.key? ≠ none) (htagged : ∀ x ∈ as, x.key? ≠ none) :
    (∀ a, a ∈ listed ↔ a ∈ as ∧ a.IsMissingFrom others) ↔
      ∀ key a, a ∈ ofKey key listed ↔
        a ∈ ofKey key as ∧ a.IsMissingFrom (ofKey key others) := by
  constructor
  · intro h key a
    rw [mem_ofKey, mem_ofKey, h a]
    constructor
    · rintro ⟨⟨ha, hmissing⟩, hkey⟩
      exact ⟨⟨ha, hkey⟩, (isMissingFrom_ofKey hkey others).mpr hmissing⟩
    · rintro ⟨⟨ha, hkey⟩, hmissing⟩
      exact ⟨⟨ha, (isMissingFrom_ofKey hkey others).mp hmissing⟩, hkey⟩
  · intro h a
    rw [mem_iff_ofKey hlisted, mem_iff_ofKey htagged]
    constructor
    · rintro ⟨key, hkey, ha⟩
      obtain ⟨ha, hmissing⟩ := (h key a).mp ha
      exact ⟨⟨key, hkey, ha⟩, (isMissingFrom_ofKey hkey others).mp hmissing⟩
    · rintro ⟨⟨key, hkey, ha⟩, hmissing⟩
      exact ⟨key, hkey, (h key a).mpr ⟨ha, (isMissingFrom_ofKey hkey others).mpr hmissing⟩⟩

end AllKeys

/-- The first artifact of a key. -/
def Snapshot.firstOfKey? (s : Snapshot) (key : String) : Option Artifact :=
  (ofKey key s.artifacts).head?

theorem key?_ne_none_of_mem_prepare (s : Snapshot) :
    ∀ a ∈ s.prepare.artifacts, a.key? ≠ none := by
  intro a ha
  exact Artifact.isTagged_iff.mp (List.mem_filter.mp ha).2

section Snapshots

variable {s s' : Snapshot}

theorem mem_changes_delete_iff :
    a ∈ (changes (some s) s').delete ↔ ∃ key, a.key? = some key ∧ s.lastOfKey? key = some a ∧
      ∀ first ∈ s'.firstOfKey? key, first.digest ≠ a.digest := by
  rw [mem_iff_ofKey (key?_ne_none_of_mem_changes (some s) s').1]
  simp only [ofKey_changes_delete, mem_compareKey_delete]
  rfl

theorem mem_changes_replicate_iff (hnodup : s'.artifacts.Nodup) :
    a ∈ (changes (some s) s').replicate ↔ ∃ key, a.key? = some key ∧ a ∈ s'.artifacts ∧
      (s'.firstOfKey? key ≠ some a ∨
        ∀ previous ∈ s.lastOfKey? key, previous.digest ≠ a.digest) := by
  rw [mem_iff_ofKey (key?_ne_none_of_mem_changes (some s) s').2]
  refine exists_congr fun key => and_congr_right fun hkey => ?_
  have hkeyed : (ofKey key s'.artifacts).Nodup := hnodup.filter _
  rw [ofKey_changes_replicate, mem_compareKey_replicate hkeyed, mem_ofKey, and_iff_left hkey]
  rfl

theorem nodup_changes (hnodup : s'.artifacts.Nodup) :
    (changes (some s) s').delete.Nodup ∧ (changes (some s) s').replicate.Nodup := by
  obtain ⟨hdelete, hreplicate⟩ := key?_ne_none_of_mem_changes (some s) s'
  have hkeys := fun key => nodup_compareKey (hnodup.filter (Artifact.hasKey key))
    (s.lastOfKey? key)
  constructor
  · refine nodup_of_ofKey hdelete fun key => ?_
    rw [ofKey_changes_delete]
    exact (hkeys key).1
  · refine nodup_of_ofKey hreplicate fun key => ?_
    rw [ofKey_changes_replicate]
    exact (hkeys key).2

/-- The comparison of two tagged snapshots lists their images exactly if no key is disturbed. -/
theorem lists_images_iff (htagged : ∀ a ∈ s.artifacts, a.key? ≠ none)
    (htagged' : ∀ a ∈ s'.artifacts, a.key? ≠ none)
    (hnodup : (s.artifacts.map Artifact.image).Nodup)
    (hnodup' : (s'.artifacts.map Artifact.image).Nodup) :
    (changes (some s) s').ListImages s.artifacts s'.artifacts ↔
      ∀ key, Undisturbed (ofKey key s.artifacts) (ofKey key s'.artifacts) := by
  obtain ⟨hdelete, hreplicate⟩ := key?_ne_none_of_mem_changes (some s) s'
  have hkeys : (changes (some s) s').ListImages s.artifacts s'.artifacts ↔
      ∀ key, (compareKey (s.lastOfKey? key) (ofKey key s'.artifacts)).ListImages
        (ofKey key s.artifacts) (ofKey key s'.artifacts) := by
    unfold Changes.ListImages
    rw [mem_iff_missing_ofKey hdelete htagged, mem_iff_missing_ofKey hreplicate htagged',
      ← forall_and]
    simp only [ofKey_changes_delete, ofKey_changes_replicate, Option.bind_some]
  rw [hkeys]
  exact forall_congr' fun key =>
    compareKey_listImages_iff (nodup_image_ofKey hnodup key) (nodup_image_ofKey hnodup' key)

/-- Where no old artifact has its key in common with another image, nothing is disturbed. -/
theorem undisturbed_of_apart (hold : (old.map Artifact.image).Nodup)
    (hnew : (new.map Artifact.image).Nodup)
    (hapart : ∀ a ∈ old, ∀ b ∈ old ++ new, a.key? = b.key? → a.image = b.image) (key : String) :
    Undisturbed (ofKey key old) (ofKey key new) := by
  cases hlast : (ofKey key old).getLast? with
  | none => exact Or.inl (List.getLast?_eq_none_iff.mp hlast)
  | some b =>
    have hmem := List.mem_of_getLast? hlast
    obtain ⟨hb, hkey⟩ := mem_ofKey.mp hmem
    have hsame : ∀ x ∈ old ++ new, x.key? = some key → x.image = b.image :=
      fun x hx hxkey => (hapart b hb x hx (hkey.trans hxkey.symm)).symm
    refine (undisturbed_iff hlast).mpr ⟨?_, ?_⟩
    · refine eq_singleton_of_image (nodup_image_ofKey hold key) hmem fun x hx => ?_
      obtain ⟨hx, hxkey⟩ := mem_ofKey.mp hx
      exact hsame x (List.mem_append_left new hx) hxkey
    · intro a hfirst hor
      obtain ⟨ha, hakey⟩ := mem_ofKey.mp (List.mem_of_head? hfirst)
      have himage := hsame a (List.mem_append_right old ha) hakey
      refine ⟨himage, ?_⟩
      rcases hor with hdigest | hkept
      · exact hdigest
      · -- The artifact that keeps the digest is the first one.
        obtain ⟨x, hx, hximage, hxdigest⟩ := not_isMissingFrom.mp hkept
        obtain rfl := List.inj_on_of_nodup_map hnew (mem_ofKey.mp hx).1 ha
          (hximage.trans himage.symm)
        exact hxdigest

/-- What the comparison of two prepared snapshots lists, if neither has two artifacts of one
image. Deleted are, each once, the old artifacts that are the last of their key, unless the first
new one of the key has their digest. Replicated are, each once, the new artifacts unless they are
the first of their key and the last old one has their digest. These are the images that are
missing on the other side exactly if no key is disturbed, in particular if no old artifact has
its key in common with another image. -/
theorem lists_by_key {old new : Snapshot}
    (hold : (old.prepare.artifacts.map Artifact.image).Nodup)
    (hnew : (new.prepare.artifacts.map Artifact.image).Nodup) :
    let c := changes (some old.prepare) new.prepare
    (c.delete.Nodup ∧ ∀ a, a ∈ c.delete ↔ ∃ key, a.key? = some key ∧
      old.prepare.lastOfKey? key = some a ∧
      ∀ first ∈ new.prepare.firstOfKey? key, first.digest ≠ a.digest) ∧
    (c.replicate.Nodup ∧ ∀ a, a ∈ c.replicate ↔ ∃ key, a.key? = some key ∧
      a ∈ new.prepare.artifacts ∧ (new.prepare.firstOfKey? key ≠ some a ∨
        ∀ previous ∈ old.prepare.lastOfKey? key, previous.digest ≠ a.digest)) ∧
    (c.ListImages old.prepare.artifacts new.prepare.artifacts ↔
      ∀ key, Undisturbed (ofKey key old.prepare.artifacts) (ofKey key new.prepare.artifacts)) ∧
    ((∀ a ∈ old.prepare.artifacts, ∀ b ∈ old.prepare.artifacts ++ new.prepare.artifacts,
        a.key? = b.key? → a.image = b.image) →
      c.ListImages old.prepare.artifacts new.prepare.artifacts) := by
  intro c
  have hnodup := hnew.of_map
  obtain ⟨hdelete, hreplicate⟩ := nodup_changes (s := old.prepare) hnodup
  have hlists := lists_images_iff (key?_ne_none_of_mem_prepare old)
    (key?_ne_none_of_mem_prepare new) hold hnew
  refine ⟨⟨hdelete, fun a => mem_changes_delete_iff⟩,
    ⟨hreplicate, fun a => mem_changes_replicate_iff hnodup⟩, hlists, fun hapart => ?_⟩
  exact hlists.mpr (undisturbed_of_apart hold hnew hapart)

end Snapshots

/-- One image of a repository. -/
def oneOf (repository tag digest : String) : Artifact :=
  ⟨repository, "", [tag], [], "", digest, false⟩

/-- A new digest for one image, and another image besides it. -/
theorem lists_by_key_upgrade :
    let old : Snapshot := ⟨"", [oneOf "library/nginx" "1" "d1"]⟩
    let new : Snapshot :=
      ⟨"", [oneOf "library/nginx" "1" "d2", oneOf "library/redis" "7" "d3"]⟩
    (changes (some old.prepare) new.prepare).ListImages old.prepare.artifacts
      new.prepare.artifacts := by
  intro old new
  have hold : (old.prepare.artifacts.map Artifact.image).Nodup := by decide +kernel
  have hnew : (new.prepare.artifacts.map Artifact.image).Nodup := by decide +kernel
  exact (lists_by_key hold hnew).2.2.2 (by decide +kernel)

/-- One name and tag in the repositories of two teams: nothing is listed, although the image of
the one is gone and that of the other is new. -/
theorem other_repository_not_listed :
    let old : Snapshot := ⟨"", [oneOf "teamA/nginx" "1" "d1"]⟩
    let new : Snapshot := ⟨"", [oneOf "teamB/nginx" "1" "d1"]⟩
    (old.prepare.artifacts.map Artifact.image).Nodup ∧
      (new.prepare.artifacts.map Artifact.image).Nodup ∧
      changes (some old.prepare) new.prepare = ⟨[], []⟩ ∧
      ¬ (changes (some old.prepare) new.prepare).ListImages old.prepare.artifacts
        new.prepare.artifacts := by
  intro old new
  have hnothing : changes (some old.prepare) new.prepare = ⟨[], []⟩ := by decide +kernel
  have hmissing : ∃ a ∈ old.prepare.artifacts, a.IsMissingFrom new.prepare.artifacts := by
    decide +kernel
  refine ⟨by decide +kernel, by decide +kernel, hnothing, fun hlists => ?_⟩
  obtain ⟨a, ha⟩ := hmissing
  have hlisted := (hlists.1 a).mpr ha
  rw [hnothing] at hlisted
  exact List.not_mem_nil hlisted

end EdgeSync
