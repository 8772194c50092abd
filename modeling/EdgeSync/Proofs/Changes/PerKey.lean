import EdgeSync.Sync.Changes

/-!
# Changes Key by Key

A comparison of two snapshots never looks across keys: what it asks for one key
depends only on the artifacts of that key in both snapshots. Of the old ones the last
counts, and the first of the new ones meets it; all further new ones count as new.

## Main definitions

- `ofKey`, `digestsOf`: the artifacts of a key, and their digests
- `compareKey`: what a comparison asks for one key

## Main results

- `ofKey_lastOfEachKey`: the artifact that a key stands for
- `changes_ofKey`: the comparison, key by key
- `key?_ne_none_of_mem_changes`: untagged artifacts take no part
-/

namespace EdgeSync

/-! ## The Artifacts of a Key -/

/-- The artifacts that have a given key, in the order of the list. -/
def ofKey (key : String) (as : List Artifact) : List Artifact :=
  as.filter (Artifact.hasKey key)

@[simp] theorem Artifact.hasKey_iff {key : String} {a : Artifact} :
    a.hasKey key = true ↔ a.key? = some key := by
  simp [Artifact.hasKey]

/-- Tagged artifacts are those that have a key. -/
theorem Artifact.isTagged_iff {a : Artifact} : a.isTagged = true ↔ a.key? ≠ none := by
  cases htags : a.tags with
  | nil => simp [Artifact.isTagged, Artifact.key?, Artifact.firstTag?, htags]
  | cons tag rest => simp [Artifact.isTagged, Artifact.key?, Artifact.firstTag?, htags]

@[simp] theorem mem_ofKey {key : String} {a : Artifact} {as : List Artifact} :
    a ∈ ofKey key as ↔ a ∈ as ∧ a.key? = some key := by
  simp [ofKey]

@[simp] theorem ofKey_nil (key : String) : ofKey key [] = [] := rfl

theorem ofKey_cons_self {key : String} {a : Artifact} (h : a.key? = some key)
    (as : List Artifact) : ofKey key (a :: as) = a :: ofKey key as :=
  List.filter_cons_of_pos (Artifact.hasKey_iff.mpr h)

theorem ofKey_cons_ne {key : String} {a : Artifact} (h : a.key? ≠ some key)
    (as : List Artifact) : ofKey key (a :: as) = ofKey key as :=
  List.filter_cons_of_neg (fun hkey => h (Artifact.hasKey_iff.mp hkey))

/-- Tagged artifacts are all that a key can see. -/
theorem ofKey_filter_isTagged (key : String) (as : List Artifact) :
    ofKey key (as.filter Artifact.isTagged) = ofKey key as := by
  rw [ofKey, ofKey, List.filter_filter]
  refine List.filter_congr fun a _ => ?_
  cases hkey : a.hasKey key with
  | false => rfl
  | true =>
    have htagged : a.isTagged = true :=
      Artifact.isTagged_iff.mpr (by simp [Artifact.hasKey_iff.mp hkey])
    rw [htagged, Bool.and_true]

theorem any_hasKey_iff (key : String) (as : List Artifact) :
    as.any (Artifact.hasKey key) = true ↔ ofKey key as ≠ [] := by
  rw [List.any_eq_true]
  constructor
  · rintro ⟨a, ha, hkey⟩
    exact List.ne_nil_of_mem (mem_ofKey.mpr ⟨ha, Artifact.hasKey_iff.mp hkey⟩)
  · intro hne
    obtain ⟨a, ha⟩ := List.exists_mem_of_ne_nil _ hne
    exact ⟨a, (mem_ofKey.mp ha).1, Artifact.hasKey_iff.mpr (mem_ofKey.mp ha).2⟩

/-- Artifacts that have keys are none iff there are none of any key. -/
theorem eq_nil_iff_ofKey {as : List Artifact} (h : ∀ a ∈ as, a.key? ≠ none) :
    as = [] ↔ ∀ key, ofKey key as = [] := by
  constructor
  · intro hnil key
    rw [hnil, ofKey_nil]
  · intro hnone
    rw [List.eq_nil_iff_forall_not_mem]
    intro a ha
    obtain ⟨key, hkey⟩ := Option.ne_none_iff_exists'.mp (h a ha)
    have hmem : a ∈ ofKey key as := mem_ofKey.mpr ⟨ha, hkey⟩
    rw [hnone key] at hmem
    exact List.not_mem_nil hmem

/-- The digests that a key has in a list, in its order. -/
def digestsOf (key : String) (as : List Artifact) : List String :=
  (ofKey key as).map Artifact.digest

theorem lastOfEachKey_cons_untagged {a : Artifact} (h : a.key? = none)
    (rest : List Artifact) : lastOfEachKey (a :: rest) = lastOfEachKey rest := by
  simp [lastOfEachKey, h]

theorem lastOfEachKey_cons_tagged {own : String} {a : Artifact} (h : a.key? = some own)
    (rest : List Artifact) :
    lastOfEachKey (a :: rest) =
      if rest.any (Artifact.hasKey own) then lastOfEachKey rest
      else a :: lastOfEachKey rest := by
  simp [lastOfEachKey, h]

/-- Of every key the last artifact remains. -/
theorem ofKey_lastOfEachKey (key : String) (as : List Artifact) :
    ofKey key (lastOfEachKey as) = (ofKey key as).getLast?.toList := by
  induction as with
  | nil => rfl
  | cons a rest ih =>
    cases hkey : a.key? with
    | none =>
      have hne : a.key? ≠ some key := by simp [hkey]
      rw [lastOfEachKey_cons_untagged hkey, ofKey_cons_ne hne, ih]
    | some own =>
      rw [lastOfEachKey_cons_tagged hkey]
      by_cases hown : own = key
      · subst hown
        rw [ofKey_cons_self hkey]
        by_cases hlater : rest.any (Artifact.hasKey own) = true
        · -- A later artifact of the key hides this one.
          have hrest : ofKey own rest ≠ [] := (any_hasKey_iff own rest).mp hlater
          rw [if_pos hlater, ih, List.getLast?_cons, List.getLast?_eq_some_getLast hrest]
          rfl
        · have hrest : ofKey own rest = [] := by
            simpa using mt (any_hasKey_iff own rest).mpr hlater
          rw [if_neg hlater, ofKey_cons_self hkey, ih, hrest]
          rfl
      · have hne : a.key? ≠ some key := by simpa [hkey] using hown
        rw [ofKey_cons_ne hne, ← ih]
        split
        · rfl
        · exact ofKey_cons_ne hne _

/-! ## Comparing One Key -/

/-- What a comparison asks for one key, given the old artifact that the key stands for
and the new artifacts of the key. Only the first new one meets the old one. -/
def compareKey (old : Option Artifact) (new : List Artifact) : Changes :=
  match old, new with
  | none, new => ⟨[], new⟩
  | some previous, [] => ⟨[previous], []⟩
  | some previous, a :: rest =>
    if previous.digest = a.digest then ⟨[], rest⟩ else ⟨[previous], a :: rest⟩

/-- The part of some changes that concerns a key. -/
def Changes.ofKey (key : String) (c : Changes) : Changes :=
  ⟨EdgeSync.ofKey key c.delete, EdgeSync.ofKey key c.replicate⟩

theorem ofKey_filter_not_hasKey (key met : String) (as : List Artifact) :
    ofKey key (as.filter fun b => !b.hasKey met) = if met = key then [] else ofKey key as := by
  rw [ofKey, List.filter_filter]
  split
  · next h =>
    subst h
    simp
  · next h =>
    refine List.filter_congr fun b _ => ?_
    cases hb : b.hasKey key with
    | false => rfl
    | true =>
      have hother : b.key? ≠ some met := by
        rw [Artifact.hasKey_iff.mp hb]
        simpa using Ne.symm h
      simpa [Artifact.hasKey] using hother

theorem compareWith_cons_untagged {a : Artifact} (h : a.key? = none)
    (unmet rest : List Artifact) : compareWith unmet (a :: rest) = compareWith unmet rest := by
  simp [compareWith, h]

/-- What a tagged artifact adds to a comparison. -/
theorem compareWith_cons_tagged {own : String} {a : Artifact} (h : a.key? = some own)
    (unmet rest : List Artifact) :
    compareWith unmet (a :: rest) =
      match (ofKey own unmet).head? with
      | none => (compareWith unmet rest).withNew a
      | some previous =>
        let later := compareWith (unmet.filter fun b => !b.hasKey own) rest
        if previous.digest = a.digest then later else later.withReplaced previous a := by
  have hhead : (ofKey own unmet).head? = unmet.find? (Artifact.hasKey own) := List.head?_filter
  rw [hhead]
  cases hfind : unmet.find? (Artifact.hasKey own) with
  | none => simp [compareWith, h, hfind]
  | some previous => simp [compareWith, h, hfind]

/-- The comparison of two lists, key by key, as long as no key is unmet twice. -/
theorem compareWith_ofKey (key : String) (unmet new : List Artifact)
    (hunmet : (ofKey key unmet).length ≤ 1) :
    (compareWith unmet new).ofKey key = compareKey (ofKey key unmet).head? (ofKey key new) := by
  -- Each new artifact may take one away from those that are unmet, so these vary.
  induction new generalizing unmet with
  | nil =>
    rcases hu : ofKey key unmet with _ | ⟨previous, more⟩
    · simp [compareWith, Changes.ofKey, compareKey, hu]
    · have hmore : more = [] := by simpa [hu] using hunmet
      simp [compareWith, Changes.ofKey, compareKey, hu, hmore]
  | cons a rest ih =>
    cases hkey : a.key? with
    | none =>
      have hne : a.key? ≠ some key := by simp [hkey]
      rw [compareWith_cons_untagged hkey, ofKey_cons_ne hne]
      exact ih unmet hunmet
    | some own =>
      rw [compareWith_cons_tagged hkey]
      have hfilter := ofKey_filter_not_hasKey key own unmet
      by_cases hown : own = key
      · -- The artifact has the key: it meets the old one, if that is still unmet.
        subst hown
        rw [ofKey_cons_self hkey]
        rw [if_pos rfl] at hfilter
        cases hhead : (ofKey own unmet).head? with
        | none =>
          have hnone : ofKey own unmet = [] := List.head?_eq_none_iff.mp hhead
          have hrest := ih unmet hunmet
          rw [hhead] at hrest
          simp only [Changes.ofKey, Changes.withNew, ofKey_cons_self hkey, compareKey] at hrest ⊢
          simpa using hrest
        | some previous =>
          have hprevious : previous.key? = some own :=
            (mem_ofKey.mp (List.mem_of_head? hhead)).2
          -- From here on the key has no unmet artifact: all others are new.
          have hrest := ih (unmet.filter fun b => !b.hasKey own) (by simp [hfilter])
          rw [hfilter] at hrest
          simp only [Changes.ofKey, compareKey, List.head?_nil, Changes.mk.injEq] at hrest
          simp only [compareKey]
          split
          · simp only [Changes.ofKey, hrest]
          · simp only [Changes.ofKey, Changes.withReplaced, ofKey_cons_self hprevious,
              ofKey_cons_self hkey, hrest]
      · -- The artifact has another key, and what it does does not show.
        have hne : a.key? ≠ some key := by simpa [hkey] using hown
        rw [ofKey_cons_ne hne]
        rw [if_neg hown] at hfilter
        cases hhead : (ofKey own unmet).head? with
        | none =>
          rw [← ih unmet hunmet]
          simp only [Changes.ofKey, Changes.withNew, ofKey_cons_ne hne]
        | some previous =>
          have hprevious : previous.key? ≠ some key := by
            rw [(mem_ofKey.mp (List.mem_of_head? hhead)).2]
            simpa using hown
          have hrest := ih (unmet.filter fun b => !b.hasKey own) (by rwa [hfilter])
          rw [hfilter] at hrest
          rw [← hrest]
          dsimp only
          split
          · rfl
          · simp only [Changes.ofKey, Changes.withReplaced, ofKey_cons_ne hprevious,
              ofKey_cons_ne hne]

/-! ## Comparing Snapshots -/

/-- The artifact that a key of a snapshot stands for: the last one. -/
def Snapshot.lastOfKey? (s : Snapshot) (key : String) : Option Artifact :=
  (ofKey key s.artifacts).getLast?

/-- The comparison of two snapshots, key by key. -/
theorem changes_ofKey (key : String) (old : Option Snapshot) (new : Snapshot) :
    (changes old new).ofKey key =
      compareKey (old.bind (·.lastOfKey? key)) (ofKey key new.artifacts) := by
  cases old with
  | none => simp [changes, Changes.ofKey, compareKey, ofKey_filter_isTagged]
  | some old =>
    have hlast := ofKey_lastOfEachKey key old.artifacts
    have hunmet : (ofKey key (lastOfEachKey old.artifacts)).length ≤ 1 := by
      rw [hlast]
      cases (ofKey key old.artifacts).getLast? <;> simp
    rw [changes, compareWith_ofKey key _ _ hunmet, hlast]
    simp [Snapshot.lastOfKey?]

theorem ofKey_changes_delete (key : String) (old : Option Snapshot) (new : Snapshot) :
    ofKey key (changes old new).delete =
      (compareKey (old.bind (·.lastOfKey? key)) (ofKey key new.artifacts)).delete :=
  congrArg Changes.delete (changes_ofKey key old new)

theorem ofKey_changes_replicate (key : String) (old : Option Snapshot) (new : Snapshot) :
    ofKey key (changes old new).replicate =
      (compareKey (old.bind (·.lastOfKey? key)) (ofKey key new.artifacts)).replicate :=
  congrArg Changes.replicate (changes_ofKey key old new)

theorem key?_ne_none_of_mem_compareWith {unmet : List Artifact}
    (hunmet : ∀ b ∈ unmet, b.key? ≠ none) (new : List Artifact) :
    (∀ a ∈ (compareWith unmet new).delete, a.key? ≠ none) ∧
      ∀ a ∈ (compareWith unmet new).replicate, a.key? ≠ none := by
  -- The cases are those of the comparison; what is deleted has been unmet before.
  fun_induction compareWith unmet new with
  | case1 => simpa using hunmet
  | case2 unmet a rest hkey ih => exact ih hunmet
  | case3 unmet a rest key hkey hfind ih =>
    refine ⟨(ih hunmet).1, ?_⟩
    simpa [Changes.withNew, hkey] using (ih hunmet).2
  | case4 unmet a rest key hkey previous hfind later hsame ih =>
    exact ih fun b hb => hunmet b (List.mem_filter.mp hb).1
  | case5 unmet a rest key hkey previous hfind later hdiffer ih =>
    have hlater := ih fun b hb => hunmet b (List.mem_filter.mp hb).1
    have hprevious := hunmet previous (List.mem_of_find?_eq_some hfind)
    refine ⟨?_, ?_⟩
    · simpa [Changes.withReplaced, hprevious] using hlater.1
    · simpa [Changes.withReplaced, hkey] using hlater.2

theorem key?_ne_none_of_mem_lastOfEachKey (as : List Artifact) :
    ∀ b ∈ lastOfEachKey as, b.key? ≠ none := by
  induction as with
  | nil => simp [lastOfEachKey]
  | cons a rest ih =>
    cases hkey : a.key? with
    | none => rwa [lastOfEachKey_cons_untagged hkey]
    | some own =>
      rw [lastOfEachKey_cons_tagged hkey]
      split
      · exact ih
      · simpa [hkey] using ih

/-- Untagged artifacts take no part in a comparison. -/
theorem key?_ne_none_of_mem_changes (old : Option Snapshot) (new : Snapshot) :
    (∀ a ∈ (changes old new).delete, a.key? ≠ none) ∧
      ∀ a ∈ (changes old new).replicate, a.key? ≠ none := by
  cases old with
  | none =>
    refine ⟨by simp [changes], ?_⟩
    intro a ha
    exact Artifact.isTagged_iff.mp (List.mem_filter.mp ha).2
  | some old =>
    exact key?_ne_none_of_mem_compareWith (key?_ne_none_of_mem_lastOfEachKey _) _

/-- There is nothing to do iff there is nothing to do for any key. -/
theorem changes_isEmpty_iff (old : Option Snapshot) (new : Snapshot) :
    (changes old new).isEmpty = true ↔
      ∀ key, compareKey (old.bind (·.lastOfKey? key)) (ofKey key new.artifacts) = ⟨[], []⟩ := by
  obtain ⟨hdelete, hreplicate⟩ := key?_ne_none_of_mem_changes old new
  simp only [← changes_ofKey, Changes.isEmpty, Bool.and_eq_true, List.isEmpty_iff, Changes.ofKey,
    Changes.mk.injEq, eq_nil_iff_ofKey hdelete, eq_nil_iff_ofKey hreplicate, forall_and]

end EdgeSync
