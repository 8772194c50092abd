import EdgeSync.Proofs.Changes.PerKey
import Mathlib.Logic.Function.Basic

/-!
# Changes in Their Order

Which artifacts a comparison of two snapshots lists, and in which order, depends on where
they stand. A new artifact that is not the first of its key is replicated in any case; the
first one is compared with the last old artifact of the key. What is deleted comes in two
parts: first the old artifacts that new ones replace, as the new ones stand; then those whose
key is gone, as they stood.

The same comparison can be made by looking up places in the old list: a table holds the last
place of each key that has not been met. No place in it ever lies outside the list.

## Main definitions

- `Place`, `places`: the artifacts of a list, each with those before and after it
- `Place.isReplicated`, `Place.replaced?`, `Place.isGone`: what a comparison does with them
- `changesByPlace?`: the comparison by places

## Main results

- `compareWith_places`: what the comparison does from some new artifact on
- `scanByPlace?_eq`: every place that is looked up lies in the list
- `changes_in_order`: the whole comparison
-/

namespace EdgeSync

/-! ## Places -/

/-- An artifact of a list, with those before it and those after it. -/
structure Place where
  before : List Artifact
  artifact : Artifact
  after : List Artifact

/-- The places of a list that comes after some artifacts. -/
def placesFrom (before : List Artifact) : List Artifact → List Place
  | [] => []
  | a :: rest => ⟨before, a, rest⟩ :: placesFrom (before ++ [a]) rest

/-- The places of a list in their order. -/
def places (as : List Artifact) : List Place :=
  placesFrom [] as

/-- Whether a key occurs among some artifacts. -/
def occurs (key : String) (as : List Artifact) : Bool :=
  as.any (Artifact.hasKey key)

theorem occurs_eq_false_iff {key : String} {as : List Artifact} :
    occurs key as = false ↔ ofKey key as = [] := by
  rw [← Bool.not_eq_true, occurs, any_hasKey_iff, not_not]

theorem occurs_append (key : String) (as bs : List Artifact) :
    occurs key (as ++ bs) = (occurs key as || occurs key bs) :=
  List.any_append

theorem occurs_singleton {own : String} {a : Artifact} (h : a.key? = some own) (key : String) :
    occurs key [a] = (own == key) := by
  simp [occurs, Artifact.hasKey, h]

theorem occurs_singleton_untagged {a : Artifact} (h : a.key? = none) (key : String) :
    occurs key [a] = false := by
  simp [occurs, Artifact.hasKey, h]

/-! ## What Becomes of a Place -/

namespace Place

/-- A new artifact is replicated if its key occurred before it, or if it is new or has another
digest than the last old artifact of the key. -/
def isReplicated (old : List Artifact) (p : Place) : Bool :=
  match p.artifact.key? with
  | none => false
  | some key =>
    occurs key p.before ||
      match (ofKey key old).getLast? with
      | none => true
      | some previous => previous.digest != p.artifact.digest

/-- The first new artifact of a key replaces the last old one, if that has another digest. -/
def replaced? (old : List Artifact) (p : Place) : Option Artifact :=
  match p.artifact.key? with
  | none => none
  | some key =>
    if occurs key p.before then none
    else (ofKey key old).getLast?.filter fun previous => previous.digest != p.artifact.digest

/-- The last old artifact of a key is gone if the key does not occur among the new ones. -/
def isGone (new : List Artifact) (p : Place) : Bool :=
  match p.artifact.key? with
  | none => false
  | some key => !occurs key p.after && !occurs key new

end Place

/-! ## The Old Artifacts That Have Not Been Met -/

/-- Of each key the last old artifact, unless the key has been met. -/
def unmet (old met : List Artifact) : List Artifact :=
  (lastOfEachKey old).filter fun b => !met.any fun a => a.key? == b.key?

theorem unmet_nil (old : List Artifact) : unmet old [] = lastOfEachKey old :=
  List.filter_eq_self.mpr fun _ _ => rfl

theorem any_key_eq_occurs {key : String} {b : Artifact} (h : b.key? = some key)
    (met : List Artifact) : (met.any fun a => a.key? == b.key?) = occurs key met := by
  simp only [h]
  rfl

/-- Of an unmet key the last old artifact is found, and of a met one nothing. -/
theorem find?_unmet (old met : List Artifact) (key : String) :
    (unmet old met).find? (Artifact.hasKey key) =
      if occurs key met then none else (ofKey key old).getLast? := by
  have hlast := ofKey_lastOfEachKey key old
  have hfilter : ofKey key (unmet old met) =
      if occurs key met then [] else ofKey key (lastOfEachKey old) := by
    -- On artifacts of the key the filter is constant.
    rw [unmet, ofKey, List.filter_filter]
    cases hmet : occurs key met with
    | true =>
      rw [if_pos rfl]
      refine List.filter_eq_nil_iff.mpr fun b _ => ?_
      rw [Bool.and_eq_true, Artifact.hasKey_iff]
      rintro ⟨hkey, hunmet⟩
      rw [any_key_eq_occurs hkey, hmet] at hunmet
      cases hunmet
    | false =>
      refine List.filter_congr fun b _ => ?_
      cases hkey : b.hasKey key with
      | false => rfl
      | true =>
        rw [any_key_eq_occurs (Artifact.hasKey_iff.mp hkey), hmet]
        rfl
  rw [← List.head?_filter]
  show (ofKey key (unmet old met)).head? = _
  rw [hfilter, hlast]
  split
  · rfl
  · cases (ofKey key old).getLast? <;> rfl

theorem unmet_concat_untagged (old met : List Artifact) {a : Artifact} (h : a.key? = none) :
    unmet old (met ++ [a]) = unmet old met := by
  refine List.filter_congr fun b hb => ?_
  obtain ⟨own, hown⟩ := Option.ne_none_iff_exists'.mp (key?_ne_none_of_mem_lastOfEachKey old b hb)
  rw [any_key_eq_occurs hown, any_key_eq_occurs hown, occurs_append,
    occurs_singleton_untagged h, Bool.or_false]

/-- A tagged artifact meets the old one of its key. -/
theorem unmet_concat_tagged (old met : List Artifact) {a : Artifact} {key : String}
    (h : a.key? = some key) :
    unmet old (met ++ [a]) = (unmet old met).filter fun b => !b.hasKey key := by
  rw [unmet, unmet, List.filter_filter]
  refine List.filter_congr fun b hb => ?_
  obtain ⟨own, hown⟩ := Option.ne_none_iff_exists'.mp (key?_ne_none_of_mem_lastOfEachKey old b hb)
  rw [any_key_eq_occurs hown, any_key_eq_occurs hown, occurs_append, occurs_singleton h,
    Bool.not_or, Bool.and_comm]
  simp [Artifact.hasKey, hown, Bool.beq_comm]

/-- Nothing is met if nothing of the key is found. -/
theorem filter_unmet_of_find?_none {old met : List Artifact} {key : String}
    (h : (unmet old met).find? (Artifact.hasKey key) = none) :
    ((unmet old met).filter fun b => !b.hasKey key) = unmet old met := by
  refine List.filter_eq_self.mpr fun b hb => ?_
  rw [Bool.eq_false_iff.mpr (List.find?_eq_none.mp h b hb), Bool.not_false]

/-- The last old artifact of each key stands where no later one has the key. -/
theorem lastOfEachKey_eq_places (before as : List Artifact) :
    lastOfEachKey as = ((placesFrom before as).filter (Place.isGone [])).map Place.artifact := by
  induction as generalizing before with
  | nil => rfl
  | cons a rest ih =>
    cases hkey : a.key? with
    | none =>
      rw [lastOfEachKey_cons_untagged hkey, placesFrom,
        List.filter_cons_of_neg (by simp [Place.isGone, hkey])]
      exact ih _
    | some key =>
      have hgone : Place.isGone [] ⟨before, a, rest⟩ = !occurs key rest := by
        simp [Place.isGone, hkey, occurs]
      rw [lastOfEachKey_cons_tagged hkey, placesFrom]
      show (if occurs key rest = true then _ else _) = _
      cases hlater : occurs key rest with
      | true =>
        rw [if_pos rfl, List.filter_cons_of_neg (by simp [hgone, hlater])]
        exact ih _
      | false =>
        rw [if_neg Bool.false_ne_true, List.filter_cons_of_pos (by simp [hgone, hlater]),
          List.map_cons]
        exact congrArg (a :: ·) (ih _)

/-- What is never met is what is gone. -/
theorem unmet_eq_places (old new : List Artifact) :
    unmet old new = ((places old).filter (Place.isGone new)).map Place.artifact := by
  rw [unmet, lastOfEachKey_eq_places [] old, List.filter_map, List.filter_filter, places]
  congr 1
  refine List.filter_congr fun p _ => ?_
  cases hkey : p.artifact.key? with
  | none => simp [Place.isGone, hkey]
  | some key =>
    rw [Function.comp_apply, any_key_eq_occurs hkey]
    simp [Place.isGone, hkey, occurs, Bool.and_comm]

/-! ## The Comparison -/

namespace Place

variable {old : List Artifact} {p : Place} {key : String}

theorem untagged (old : List Artifact) (h : p.artifact.key? = none) :
    p.replaced? old = none ∧ p.isReplicated old = false := by
  simp [replaced?, isReplicated, h]

/-- An artifact whose key has been met or is new is replicated and replaces nothing. -/
theorem of_not_found (hkey : p.artifact.key? = some key)
    (h : (unmet old p.before).find? (Artifact.hasKey key) = none) :
    p.replaced? old = none ∧ p.isReplicated old = true := by
  rw [find?_unmet] at h
  simp only [replaced?, isReplicated, hkey]
  cases hmet : occurs key p.before with
  | true => exact ⟨rfl, rfl⟩
  | false =>
    rw [hmet, if_neg Bool.false_ne_true] at h
    rw [h]
    exact ⟨rfl, rfl⟩

/-- An artifact that meets an old one replaces it if the digests differ. -/
theorem of_found (hkey : p.artifact.key? = some key) {previous : Artifact}
    (h : (unmet old p.before).find? (Artifact.hasKey key) = some previous) :
    p.replaced? old = (if previous.digest = p.artifact.digest then none else some previous) ∧
      (p.isReplicated old = true ↔ previous.digest ≠ p.artifact.digest) := by
  rw [find?_unmet] at h
  simp only [replaced?, isReplicated, hkey]
  cases hmet : occurs key p.before with
  | true =>
    rw [hmet, if_pos rfl] at h
    cases h
  | false =>
    rw [hmet, if_neg Bool.false_ne_true] at h
    by_cases hsame : previous.digest = p.artifact.digest <;> simp [h, hsame]

end Place

/-- What a comparison comes to from some new artifact on, after those before it. -/
theorem compareWith_places (old before new : List Artifact) :
    compareWith (unmet old before) new =
      ⟨(placesFrom before new).filterMap (Place.replaced? old) ++ unmet old (before ++ new),
        ((placesFrom before new).filter (Place.isReplicated old)).map Place.artifact⟩ := by
  induction new generalizing before with
  | nil => simp [compareWith, placesFrom]
  | cons a rest ih =>
    rw [placesFrom, List.append_cons before a rest]
    -- The place of the artifact decides, and the others stand after it.
    let p : Place := ⟨before, a, rest⟩
    cases hkey : a.key? with
    | none =>
      obtain ⟨hreplaced, hreplicated⟩ := Place.untagged (p := p) old hkey
      rw [compareWith_cons_untagged hkey, ← unmet_concat_untagged old before hkey, ih,
        List.filterMap_cons_none hreplaced, List.filter_cons_of_neg (by simp [p, hreplicated])]
    | some key =>
      have hmet := unmet_concat_tagged old before hkey
      rw [compareWith_cons_tagged hkey, ofKey, List.head?_filter]
      cases hfound : (unmet old before).find? (Artifact.hasKey key) with
      | none =>
        obtain ⟨hreplaced, hreplicated⟩ := Place.of_not_found (p := p) hkey hfound
        rw [filter_unmet_of_find?_none hfound] at hmet
        rw [← hmet, ih, List.filterMap_cons_none hreplaced, List.filter_cons_of_pos hreplicated,
          List.map_cons]
        rfl
      | some previous =>
        obtain ⟨hreplaced, hreplicated⟩ := Place.of_found (p := p) hkey hfound
        simp only [← hmet, ih]
        by_cases hsame : previous.digest = a.digest
        · rw [if_pos hsame] at hreplaced ⊢
          rw [List.filterMap_cons_none hreplaced,
            List.filter_cons_of_neg fun h => hreplicated.mp h hsame]
        · rw [if_neg hsame] at hreplaced ⊢
          rw [List.filterMap_cons_some hreplaced,
            List.filter_cons_of_pos (hreplicated.mpr hsame), List.map_cons]
          rfl

/-! ## The Comparison by Places -/

/-- The last place of each key, for those keys that have not been met. -/
abbrev PlaceTable := String → Option Nat

/-- The table after the artifacts of a list that begins at some place. -/
def tableFrom (first : Nat) (table : PlaceTable) : List Artifact → PlaceTable
  | [] => table
  | b :: rest =>
    match b.key? with
    | none => tableFrom (first + 1) table rest
    | some key => tableFrom (first + 1) (Function.update table key (some first)) rest

/-- Go through the new artifacts, and look up the old ones by their places. There is no answer
if a place lies outside the old list. -/
def scanByPlace? (old : List Artifact) (table : PlaceTable) (c : Changes) :
    List Artifact → Option (Changes × PlaceTable)
  | [] => some (c, table)
  | a :: rest =>
    match a.key? with
    | none => scanByPlace? old table c rest
    | some key =>
      let later := Function.update table key none
      match table key with
      | none => scanByPlace? old later { c with replicate := c.replicate ++ [a] } rest
      | some place =>
        match old[place]? with
        | none => none
        | some previous =>
          if previous.digest = a.digest then scanByPlace? old later c rest
          else scanByPlace? old later ⟨c.delete ++ [previous], c.replicate ++ [a]⟩ rest

/-- The artifacts of a list that begins at some place whose places are in the table. -/
def unmetByPlace (first : Nat) (table : PlaceTable) : List Artifact → List Artifact
  | [] => []
  | b :: rest =>
    match b.key? with
    | none => unmetByPlace (first + 1) table rest
    | some key =>
      if table key = some first then b :: unmetByPlace (first + 1) table rest
      else unmetByPlace (first + 1) table rest

/-- The comparison by places. -/
def changesByPlace? (old : Option Snapshot) (new : Snapshot) : Option Changes :=
  match old with
  | none => some ⟨[], new.artifacts.filter Artifact.isTagged⟩
  | some old =>
    (scanByPlace? old.artifacts (tableFrom 0 (fun _ => none) old.artifacts) ⟨[], []⟩
      new.artifacts).map fun answer =>
        { answer.1 with delete := answer.1.delete ++ unmetByPlace 0 answer.2 old.artifacts }

/-- The place of the last artifact of a key in a list that begins at some place. -/
def lastPlace? (key : String) (first : Nat) : List Artifact → Option Nat
  | [] => none
  | b :: rest =>
    (lastPlace? key (first + 1) rest).or (if b.hasKey key then some first else none)

theorem tableFrom_eq (first : Nat) (table : PlaceTable) (as : List Artifact) (key : String) :
    tableFrom first table as key = (lastPlace? key first as).or (table key) := by
  induction as generalizing first table with
  | nil => rfl
  | cons b rest ih =>
    rw [tableFrom, lastPlace?, Option.or_assoc]
    cases hkey : b.key? with
    | none =>
      have hnot : b.hasKey key = false := by simp [Artifact.hasKey, hkey]
      rw [hnot]
      exact ih _ _
    | some own =>
      by_cases hown : own = key
      · subst hown
        have hself : b.hasKey own = true := Artifact.hasKey_iff.mpr hkey
        rw [hself]
        exact (ih _ _).trans (by rw [Function.update_self]; rfl)
      · have hnot : b.hasKey key = false := by simp [Artifact.hasKey, hkey, hown]
        rw [hnot]
        exact (ih _ _).trans (by rw [Function.update_of_ne (Ne.symm hown)]; rfl)

/-- There is a last place iff the key occurs, and it is the place of the last artifact. -/
theorem lastPlace?_spec (key : String) (first : Nat) (as : List Artifact) :
    match lastPlace? key first as with
    | none => ofKey key as = []
    | some place => first ≤ place ∧ as[place - first]? = (ofKey key as).getLast? ∧
        ofKey key as ≠ [] := by
  induction as generalizing first with
  | nil => rfl
  | cons b rest ih =>
    have hrest := ih (first + 1)
    rw [lastPlace?]
    cases hlast : lastPlace? key (first + 1) rest with
    | some place =>
      rw [hlast] at hrest
      obtain ⟨hle, hat, hne⟩ := hrest
      have hplace : place - first = place - (first + 1) + 1 := by omega
      have hsame : (ofKey key (b :: rest)).getLast? = (ofKey key rest).getLast? := by
        by_cases hkey : b.key? = some key
        · rw [ofKey_cons_self hkey, List.getLast?_cons, List.getLast?_eq_some_getLast hne]
          rfl
        · rw [ofKey_cons_ne hkey]
      refine ⟨by omega, ?_, ?_⟩
      · rw [hplace, List.getElem?_cons_succ, hat, hsame]
      · intro hnil
        rw [hnil, List.getLast?_nil] at hsame
        exact hne (List.getLast?_eq_none_iff.mp hsame.symm)
    | none =>
      rw [hlast] at hrest
      cases hkey : b.hasKey key with
      | true =>
        have hself := ofKey_cons_self (Artifact.hasKey_iff.mp hkey) rest
        rw [hrest] at hself
        refine ⟨Nat.le_refl _, ?_, by simp [hself]⟩
        rw [hself, Nat.sub_self]
        rfl
      | false =>
        have hother : b.key? ≠ some key := by
          intro heq
          rw [Artifact.hasKey_iff.mpr heq] at hkey
          cases hkey
        exact (ofKey_cons_ne hother rest).trans hrest

/-- A table holds the last places of the keys that have not been met. -/
def Holds (old met : List Artifact) (table : PlaceTable) : Prop :=
  ∀ key, table key = if occurs key met then none else lastPlace? key 0 old

theorem holds_tableFrom (old : List Artifact) :
    Holds old [] (tableFrom 0 (fun _ => none) old) := by
  intro key
  rw [tableFrom_eq, Option.or_none]
  rfl

variable {old met : List Artifact} {table : PlaceTable}

theorem Holds.untagged (h : Holds old met table) {a : Artifact} (hkey : a.key? = none) :
    Holds old (met ++ [a]) table := by
  intro key
  rw [h key, occurs_append, occurs_singleton_untagged hkey, Bool.or_false]

theorem Holds.tagged (h : Holds old met table) {a : Artifact} {own : String}
    (hkey : a.key? = some own) :
    Holds old (met ++ [a]) (Function.update table own none) := by
  intro key
  rw [occurs_append, occurs_singleton hkey]
  by_cases hown : own = key
  · subst hown
    rw [Function.update_self, beq_self_eq_true, Bool.or_true, if_pos rfl]
  · rw [Function.update_of_ne (Ne.symm hown), h key, beq_false_of_ne hown, Bool.or_false]

/-- A place in the table is that of the artifact that is found among the unmet ones. -/
theorem Holds.find? (h : Holds old met table) (key : String) :
    match table key with
    | none => (unmet old met).find? (Artifact.hasKey key) = none
    | some place => ∃ previous, old[place]? = some previous ∧
        (unmet old met).find? (Artifact.hasKey key) = some previous := by
  rw [h key, find?_unmet]
  cases hmet : occurs key met with
  | true => rfl
  | false =>
    simp only [Bool.false_eq_true, if_false]
    have hspec := lastPlace?_spec key 0 old
    cases hlast : lastPlace? key 0 old with
    | none =>
      rw [hlast] at hspec
      exact List.getLast?_eq_none_iff.mpr hspec
    | some place =>
      rw [hlast] at hspec
      obtain ⟨-, hat, hne⟩ := hspec
      rw [List.getLast?_eq_some_getLast hne] at hat ⊢
      exact ⟨_, hat, rfl⟩

/-- Every place that is looked up lies in the list, and what is found there is what the
comparison of the artifacts themselves finds. -/
theorem scanByPlace?_eq (h : Holds old met table) (c : Changes) (new : List Artifact) :
    ∃ last, Holds old (met ++ new) last ∧
      scanByPlace? old table c new =
        some (⟨c.delete ++ (placesFrom met new).filterMap (Place.replaced? old),
          c.replicate ++
            ((placesFrom met new).filter (Place.isReplicated old)).map Place.artifact⟩, last) := by
  induction new generalizing met table c with
  | nil => exact ⟨table, by rwa [List.append_nil], by simp [scanByPlace?, placesFrom]⟩
  | cons a rest ih =>
    rw [placesFrom, List.append_cons met a rest]
    let p : Place := ⟨met, a, rest⟩
    cases hkey : a.key? with
    | none =>
      obtain ⟨hreplaced, hreplicated⟩ := Place.untagged (p := p) old hkey
      obtain ⟨last, hlast, hscan⟩ := ih (h.untagged hkey) c
      refine ⟨last, hlast, ?_⟩
      rw [List.filterMap_cons_none hreplaced, List.filter_cons_of_neg (by simp [p, hreplicated]),
        ← hscan]
      simp only [scanByPlace?, hkey]
    | some key =>
      have hfind := h.find? key
      have hlater := h.tagged hkey
      cases htable : table key with
      | none =>
        rw [htable] at hfind
        obtain ⟨hreplaced, hreplicated⟩ := Place.of_not_found (p := p) hkey hfind
        obtain ⟨last, hlast, hscan⟩ := ih hlater { c with replicate := c.replicate ++ [a] }
        refine ⟨last, hlast, ?_⟩
        rw [List.filterMap_cons_none hreplaced, List.filter_cons_of_pos hreplicated,
          List.map_cons, List.append_cons c.replicate, ← hscan]
        simp only [scanByPlace?, hkey, htable]
      | some place =>
        rw [htable] at hfind
        obtain ⟨previous, hat, hfound⟩ := hfind
        obtain ⟨hreplaced, hreplicated⟩ := Place.of_found (p := p) hkey hfound
        by_cases hsame : previous.digest = a.digest
        · obtain ⟨last, hlast, hscan⟩ := ih hlater c
          rw [if_pos hsame] at hreplaced
          refine ⟨last, hlast, ?_⟩
          rw [List.filterMap_cons_none hreplaced,
            List.filter_cons_of_neg fun h => hreplicated.mp h hsame, ← hscan]
          simp only [scanByPlace?, hkey, htable, hat, if_pos hsame]
        · obtain ⟨last, hlast, hscan⟩ :=
            ih hlater ⟨c.delete ++ [previous], c.replicate ++ [a]⟩
          rw [if_neg hsame] at hreplaced
          refine ⟨last, hlast, ?_⟩
          rw [List.filterMap_cons_some hreplaced,
            List.filter_cons_of_pos (hreplicated.mpr hsame), List.map_cons,
            List.append_cons c.delete, List.append_cons c.replicate, ← hscan]
          simp only [scanByPlace?, hkey, htable, hat, if_neg hsame]

/-- An artifact has the last place of its key iff the key does not occur after it. -/
theorem lastPlace?_amid {key : String} {b : Artifact} (hkey : b.key? = some key) (first : Nat)
    (before rest : List Artifact) :
    lastPlace? key first (before ++ b :: rest) = some (first + before.length) ↔
      occurs key rest = false := by
  induction before generalizing first with
  | nil =>
    have hspec := lastPlace?_spec key (first + 1) rest
    rw [List.nil_append, lastPlace?, Artifact.hasKey_iff.mpr hkey, occurs_eq_false_iff]
    cases hlast : lastPlace? key (first + 1) rest with
    | none =>
      rw [hlast] at hspec
      exact iff_of_true rfl hspec
    | some place =>
      rw [hlast] at hspec
      obtain ⟨hle, -, hne⟩ := hspec
      refine iff_of_false ?_ hne
      rw [Option.some_or, Option.some.injEq, List.length_nil]
      omega
  | cons c before ih =>
    have hlength : first + (c :: before).length = first + 1 + before.length := by
      rw [List.length_cons]
      omega
    rw [hlength, ← ih (first + 1), List.cons_append, lastPlace?]
    have hspec := lastPlace?_spec key (first + 1) (before ++ b :: rest)
    cases hlast : lastPlace? key (first + 1) (before ++ b :: rest) with
    | some place => rw [Option.some_or]
    | none =>
      -- There is a last place, since the artifact itself has the key.
      rw [hlast] at hspec
      have hmem : b ∈ ofKey key (before ++ b :: rest) :=
        mem_ofKey.mpr ⟨List.mem_append_right _ List.mem_cons_self, hkey⟩
      rw [hspec] at hmem
      cases hmem

/-- The artifacts whose places remain in the table are those that are gone. -/
theorem Holds.unmetByPlace_eq {new as : List Artifact} (before : List Artifact)
    (h : Holds (before ++ as) new table) :
    unmetByPlace before.length table as =
      ((placesFrom before as).filter (Place.isGone new)).map Place.artifact := by
  induction as generalizing before with
  | nil => rfl
  | cons b rest ih =>
    have hrest := ih (before ++ [b]) (by rwa [← List.append_cons before b rest])
    rw [List.length_append, List.length_singleton] at hrest
    rw [unmetByPlace, placesFrom]
    cases hkey : b.key? with
    | none =>
      rw [List.filter_cons_of_neg (by simp [Place.isGone, hkey])]
      exact hrest
    | some key =>
      have hlast := lastPlace?_amid hkey 0 before rest
      rw [Nat.zero_add] at hlast
      have hgone : Place.isGone new ⟨before, b, rest⟩ = (!occurs key rest && !occurs key new) := by
        simp only [Place.isGone, hkey]
      dsimp only
      rw [h key]
      cases hnew : occurs key new with
      | true =>
        rw [if_pos rfl, if_neg nofun, List.filter_cons_of_neg (by simp [hgone, hnew])]
        exact hrest
      | false =>
        rw [if_neg Bool.false_ne_true]
        by_cases hlater : occurs key rest = false
        · rw [if_pos (hlast.mpr hlater),
            List.filter_cons_of_pos (by rw [hgone, hlater, hnew]; rfl), List.map_cons, hrest]
        · rw [if_neg (mt hlast.mp hlater), List.filter_cons_of_neg (by simp [hgone, hlater])]
          exact hrest

/-! ## Whole Comparisons -/

theorem changes_places (old new : Snapshot) :
    changes (some old) new =
      ⟨(places new.artifacts).filterMap (Place.replaced? old.artifacts) ++
          ((places old.artifacts).filter (Place.isGone new.artifacts)).map Place.artifact,
        ((places new.artifacts).filter (Place.isReplicated old.artifacts)).map
          Place.artifact⟩ := by
  have hall := compareWith_places old.artifacts [] new.artifacts
  rw [unmet_nil, List.nil_append, unmet_eq_places] at hall
  exact hall

/-- The comparison by places comes to the same. -/
theorem changesByPlace?_eq (old : Option Snapshot) (new : Snapshot) :
    changesByPlace? old new = some (changes old new) := by
  cases old with
  | none => rfl
  | some old =>
    obtain ⟨last, hlast, hscan⟩ :=
      scanByPlace?_eq (holds_tableFrom old.artifacts) ⟨[], []⟩ new.artifacts
    have hlisted := Holds.unmetByPlace_eq [] hlast
    rw [List.length_nil, List.nil_append] at hlisted
    rw [changesByPlace?, hscan, Option.map_some, hlisted, changes_places]
    rfl

/-- What a comparison lists, in its order. With an old snapshot, a tagged new artifact is
replicated if its key occurred before it, or does not occur in the old snapshot, or if the last
old artifact of the key has another digest. Deleted are first the last old artifacts of keys
whose first new artifact has another digest, in the order of these, and then those of keys that
do not occur any more, in the old order. Without an old snapshot all tagged artifacts are
replicated. The comparison by places always has an answer, and it is the same one. -/
theorem changes_in_order (old new : Snapshot) :
    (changes (some old) new).replicate =
      ((places new.artifacts).filter (Place.isReplicated old.artifacts)).map Place.artifact ∧
    (changes (some old) new).delete =
      (places new.artifacts).filterMap (Place.replaced? old.artifacts) ++
        ((places old.artifacts).filter (Place.isGone new.artifacts)).map Place.artifact ∧
    changes none new = ⟨[], new.artifacts.filter Artifact.isTagged⟩ ∧
    changesByPlace? (some old) new = some (changes (some old) new) ∧
    changesByPlace? none new = some (changes none new) := by
  have hchanges := changes_places old new
  refine ⟨?_, ?_, rfl, changesByPlace?_eq (some old) new, changesByPlace?_eq none new⟩
  · rw [hchanges]
  · rw [hchanges]

end EdgeSync
