import EdgeSync.Proofs.Json.Taking
import Mathlib.Data.List.Pairwise
import Mathlib.Data.List.Perm.Basic
import Mathlib.Logic.Function.Conjugate
import Mathlib.Logic.Relation

/-!
# Edits That Readers Do Not Notice

Trees that differ in the order of members, in members that no field is named after, or in how an
empty list is put are different trees, yet a reader of records takes the same from them. What may
be edited depends on what is read at a place, so an edit goes by a layout: where there is a
record, which names it has, and which lists may be missing or null. An edit changes a tree in one
place, at any depth; more is done by several of them, in both directions.

## Main definitions

- `Layout`: what is read at a place, as far as edits go by it
- `Edit`: a change in one place
- `Reader.Follows`: a reader takes the same from edited trees
- `Field.Follows`: a field does so, and reads nothing from null if its list may be missing

## Main results

- `Shape.TakesMembers.perm`: members may come in any order
- `Reader.follows_list`, `Reader.follows_orNull`, `Shape.follows_record`: readers from readers
-/

namespace EdgeSync.Json

/-! ## Edits -/

/-- What is read at a place, as far as edits go by it. A lenient list may be null. -/
inductive Layout where
  | plain
  | list (item : Layout)
  | lenient (item : Layout)
  | record (fields : List (String × Layout))

/-- A change in one place of a tree that is read by a layout. -/
inductive Edit : Layout → Tree → Tree → Prop where
  /-- Members of a record come in another order. -/
  | permute {fields : List (String × Layout)} {members members' : List (Body × Tree)}
      (hperm : members.Perm members') :
      Edit (.record fields) (.object members) (.object members')
  /-- A member comes in that no field is named after, with any value. -/
  | insert {fields : List (String × Layout)} {before after : List (Body × Tree)} {key : Body}
      {name : String} {value : Tree} (hkey : key.Says name) (hname : name ∉ fields.map Prod.fst) :
      Edit (.record fields) (.object (before ++ after)) (.object (before ++ (key, value) :: after))
  /-- A lenient list that is missing comes in, as null or as a list without items. -/
  | fill {fields : List (String × Layout)} {before after : List (Body × Tree)} {key : Body}
      {name : String} {item : Layout} {value : Tree} (hkey : key.Says name)
      (hfield : (name, .lenient item) ∈ fields) (habsent : ∀ m ∈ before ++ after, ¬ m.1.Says name)
      (hvalue : value = .null ∨ value = .list []) :
      Edit (.record fields) (.object (before ++ after)) (.object (before ++ (key, value) :: after))
  /-- Null becomes a list without items. -/
  | empty {item : Layout} : Edit (.lenient item) .null (.list [])
  /-- The value of a member is edited. -/
  | member {fields : List (String × Layout)} {before after : List (Body × Tree)} {key : Body}
      {name : String} {layout : Layout} {value value' : Tree} (hkey : key.Says name)
      (hfield : (name, layout) ∈ fields) (hvalue : Edit layout value value') :
      Edit (.record fields) (.object (before ++ (key, value) :: after))
        (.object (before ++ (key, value') :: after))
  /-- The value of a field is edited in a record that is written as a list. -/
  | position {fields fields' : List (String × Layout)} {name : String} {layout : Layout}
      {before after : List Tree} {value value' : Tree} (hlength : before.length = fields.length)
      (hvalue : Edit layout value value') :
      Edit (.record (fields ++ (name, layout) :: fields')) (.list (before ++ value :: after))
        (.list (before ++ value' :: after))
  /-- An item of a list is edited. -/
  | item {item : Layout} {before after : List Tree} {value value' : Tree}
      (hvalue : Edit item value value') :
      Edit (.list item) (.list (before ++ value :: after)) (.list (before ++ value' :: after))
  /-- An item of a lenient list is edited. -/
  | lenientItem {item : Layout} {before after : List Tree} {value value' : Tree}
      (hvalue : Edit item value value') :
      Edit (.lenient item) (.list (before ++ value :: after)) (.list (before ++ value' :: after))

namespace Reader

variable {α β : Type} {reader : Reader α} {layout : Layout} {t t' : Tree}

/-- A reader takes the same from edited trees. -/
structure Follows (layout : Layout) (reader : Reader α) : Prop where
  steady : reader.Steady
  edited : ∀ {t t' : Tree}, Edit layout t t' → ∀ a, reader.Takes t a ↔ reader.Takes t' a

/-- A reader takes the same from trees between which there are any number of edits. -/
theorem Follows.edits (h : reader.Follows layout) (hedits : Relation.EqvGen (Edit layout) t t')
    (a : α) : reader.Takes t a ↔ reader.Takes t' a := by
  induction hedits with
  | rel _ _ hedit => exact h.edited hedit a
  | refl _ => rfl
  | symm _ _ _ ih => exact ih.symm
  | trans _ _ _ _ _ ih₁ ih₂ => exact ih₁.trans ih₂

/-! ## Readers From Readers -/

theorem Steady.follows_plain (h : reader.Steady) : reader.Follows .plain :=
  ⟨h, nofun⟩

theorem Follows.map (h : reader.Follows layout) (f : α → β) : (reader.map f).Follows layout where
  steady := (makes_map h.steady f).steady
  edited := by
    intro t t' hedit b
    simp only [(makes_map h.steady f).takes_iff, h.edited hedit]

/-- One item of a list stands for another from which the same is taken. -/
theorem forall₂_takes_congr {before after : List Tree}
    (h : ∀ a, reader.Takes t a ↔ reader.Takes t' a) {as : List α} :
    List.Forall₂ reader.Takes (before ++ t :: after) as ↔
      List.Forall₂ reader.Takes (before ++ t' :: after) as := by
  induction before generalizing as with
  | nil => simp only [List.nil_append, List.forall₂_cons_left_iff, h]
  | cons item before ih => simp only [List.cons_append, List.forall₂_cons_left_iff, ih]

theorem follows_list (h : reader.Follows layout) : (list reader).Follows (.list layout) where
  steady := (makes_list h.steady).steady
  edited := by
    intro t t' hedit as
    cases hedit with
    | item hvalue =>
      simp only [(makes_list h.steady).takes_iff, Tree.list.injEq, exists_eq_left',
        forall₂_takes_congr (h.edited hvalue)]

/-- A list that may be null is the same as null if it has no items. -/
theorem follows_orNull (h : reader.Follows layout) :
    ((list reader).orNull []).Follows (.lenient layout) where
  steady := (makes_orNull (makes_list h.steady).steady []).steady
  edited := by
    intro t t' hedit as
    simp only [(makes_orNull (makes_list h.steady).steady []).takes_iff,
      (makes_list h.steady).takes_iff]
    -- Null and the empty list give the same; an item is edited only where neither is null.
    cases hedit with
    | empty => simp
    | lenientItem hvalue => simp [forall₂_takes_congr (h.edited hvalue)]

/-- Null is taken for what is absent. -/
theorem takes_null (h : reader.Steady) (absent : α) : (reader.orNull absent).Takes .null absent :=
  (makes_orNull h absent).takes_iff.mpr (Or.inl ⟨rfl, rfl⟩)

/-- What is taken through a function is a value of it. -/
theorem exists_of_takes_map {f : α → β} {b : β} (h : (reader.map f).Takes t b) : ∃ a, f a = b := by
  have hapart : Apart [] := trivial
  have hread := h isGap_nil t.writes_write hapart
  simp only [Reader.map] at hread
  cases hrun : reader.run (glyphs [] ++ (glyphs t.write ++ [])) with
  | error fault =>
    rw [hrun] at hread
    cases hread
  | ok p =>
    rw [hrun] at hread
    exact ⟨p.1, congrArg Prod.fst (Except.ok.inj hread)⟩

end Reader

/-! ## Fields -/

namespace Field

variable {σ α β : Type} {start : σ} {name name' : String} {required required' : Bool}
  {reader : Reader α} {reader' : Reader β} {set : α → σ → σ} {set' : β → σ → σ} {layout : Layout}

/-- What is read from two fields can be put into a record in either order. -/
def Commute (field field' : Field σ) : Prop :=
  ∀ ⦃t t' change change'⦄, field.reader.Takes t change → field'.reader.Takes t' change' →
    Function.Commute change change'

instance : Std.Symm (Commute (σ := σ)) where
  symm _ _ h := fun _ _ _ _ htakes htakes' => (h htakes' htakes).symm

/-- Fields that are set in either order commute. -/
theorem commute_map (h : ∀ v w a, set v (set' w a) = set' w (set v a)) :
    Commute ⟨name, required, reader.map set⟩ ⟨name', required', reader'.map set'⟩ := by
  intro t t' change change' htakes htakes'
  obtain ⟨v, rfl⟩ := Reader.exists_of_takes_map htakes
  obtain ⟨w, rfl⟩ := Reader.exists_of_takes_map htakes'
  exact h v w

/-- A field follows edits by a layout of its name. If its list may be missing, it is not needed,
and null for it changes nothing at the start. -/
structure Follows (start : σ) (field : Field σ) (entry : String × Layout) : Prop where
  name : field.name = entry.1
  reader : field.reader.Follows entry.2
  lenient : ∀ item, entry.2 = .lenient item → field.required = false ∧
    ∃ change, field.reader.Takes .null change ∧ change start = start

theorem follows_map (h : reader.Follows layout) (hlayout : ∀ item, layout ≠ .lenient item) :
    Follows start ⟨name, required, reader.map set⟩ (name, layout) where
  name := rfl
  reader := h.map set
  lenient item heq := absurd heq (hlayout item)

/-- A list that may be missing or null follows edits if it is empty at the start. -/
theorem follows_lenient {set : List α → σ → σ} (h : reader.Follows layout)
    (hstart : set [] start = start) :
    Follows start (.optional name (.orNull [] (.list reader)) set) (name, .lenient layout) where
  name := rfl
  reader := (Reader.follows_orNull h).map set
  lenient _ _ := by
    have hlist := (Reader.follows_list h).steady
    have hsteady := (Reader.follows_orNull h).steady
    exact ⟨rfl, set [], (Reader.makes_map hsteady set).takes_iff.mpr
      ⟨[], Reader.takes_null hlist [], rfl⟩, hstart⟩

end Field

namespace Shape

variable {σ : Type} {s : Shape σ} {a b start : σ} {members members' : List (Body × Tree)}
  {names : List String}

/-! ## Members -/

/-- A name that is set by a member is said by its key. -/
theorem TakesMembers.exists_member (h : s.TakesMembers members names a b) {name : String}
    (hname : name ∈ names) : ∃ m ∈ members, m.1.Says name := by
  induction h with
  | done => cases hname
  | unknown _ _ _ ih =>
    obtain ⟨m, hm, hsaid⟩ := ih hname
    exact ⟨m, List.mem_cons_of_mem _ hm, hsaid⟩
  | known hkey _ _ _ _ ih =>
    obtain rfl | hname := List.mem_cons.mp hname
    · exact ⟨_, List.mem_cons_self, hkey⟩
    · obtain ⟨m, hm, hsaid⟩ := ih hname
      exact ⟨m, List.mem_cons_of_mem _ hm, hsaid⟩

/-- Members may come in any order if what is read from different fields commutes. -/
theorem TakesMembers.perm (hcommute : s.fields.Pairwise Field.Commute)
    (h : s.TakesMembers members names a b) (hperm : members.Perm members') :
    ∃ names', names.Perm names' ∧ s.TakesMembers members' names' a b := by
  -- By induction on the permutation; only a swap of two known members needs that they commute.
  induction hperm generalizing names a with
  | nil => exact ⟨names, .refl _, h⟩
  | cons member _ ih =>
    cases h with
    | unknown hkey hunknown hmore =>
      obtain ⟨names', hnames, hmore'⟩ := ih hmore
      exact ⟨names', hnames, .unknown hkey hunknown hmore'⟩
    | known hkey hfield hvalue hnew hmore =>
      obtain ⟨names', hnames, hmore'⟩ := ih hmore
      have hnew' := mt hnames.mem_iff.mpr hnew
      exact ⟨_, hnames.cons _, .known hkey hfield hvalue hnew' hmore'⟩
  | swap first second members =>
    obtain ⟨key, value⟩ := first
    obtain ⟨key', value'⟩ := second
    cases h with
    | unknown hkey' hunknown' hmore =>
      cases hmore with
      | unknown hkey hunknown hmore =>
        exact ⟨_, .refl _, .unknown hkey hunknown (.unknown hkey' hunknown' hmore)⟩
      | known hkey hfield hvalue hnew hmore =>
        exact ⟨_, .refl _, .known hkey hfield hvalue hnew (.unknown hkey' hunknown' hmore)⟩
    | @known _ name' _ _ _ field' change' _ _ hkey' hfield' hvalue' hnew' hmore =>
      cases hmore with
      | unknown hkey hunknown hmore =>
        exact ⟨_, .refl _, .unknown hkey hunknown (.known hkey' hfield' hvalue' hnew' hmore)⟩
      | @known _ name _ _ names field change _ _ hkey hfield hvalue hnew hmore =>
        rw [List.mem_cons, not_or] at hnew'
        -- The two members set different fields, so either may be set first.
        have hne : field ≠ field' := by
          rintro rfl
          exact hnew'.1 ((name_of_field? hfield').symm.trans (name_of_field? hfield))
        have hcommutes : Function.Commute change change' :=
          hcommute.forall (mem_fields_of_field? hfield) (mem_fields_of_field? hfield') hne
            hvalue hvalue'
        have hnotFirst : name ∉ name' :: names := by
          rw [List.mem_cons, not_or]
          exact ⟨Ne.symm hnew'.1, hnew⟩
        rw [hcommutes a] at hmore
        exact ⟨_, .swap _ _ _, .known hkey hfield hvalue hnotFirst
          (.known hkey' hfield' hvalue' hnew'.2 hmore)⟩
  | trans _ _ ih₁ ih₂ =>
    obtain ⟨names₁, hnames₁, h₁⟩ := ih₁ h
    obtain ⟨names₂, hnames₂, h₂⟩ := ih₂ h₁
    exact ⟨names₂, hnames₁.trans hnames₂, h₂⟩

/-- A member without a field changes nothing. -/
theorem takesMembers_unknown_iff {key : Body} {name : String} {value : Tree} (hkey : key.Says name)
    (hunknown : s.field? name = none) :
    s.TakesMembers ((key, value) :: members) names a b ↔ s.TakesMembers members names a b := by
  constructor
  · intro h
    cases h with
    | unknown _ _ hmore => exact hmore
    | known hkey' hfield _ _ _ =>
      cases hkey.unique hkey'
      cases hunknown.symm.trans hfield
  · exact .unknown hkey hunknown

/-- A member with a field sets it. -/
theorem takesMembers_known_iff {key : Body} {name : String} {value : Tree} {field : Field σ}
    (hkey : key.Says name) (hfield : s.field? name = some field) :
    s.TakesMembers ((key, value) :: members) names a b ↔
      ∃ change names', field.reader.Takes value change ∧ names = name :: names' ∧ name ∉ names' ∧
        s.TakesMembers members names' (change a) b := by
  constructor
  · intro h
    cases h with
    | unknown hkey' hunknown _ =>
      cases hkey.unique hkey'
      cases hunknown.symm.trans hfield
    | known hkey' hfield' hvalue hnew hmore =>
      cases hkey.unique hkey'
      cases hfield.symm.trans hfield'
      exact ⟨_, _, hvalue, rfl, hnew, hmore⟩
  · rintro ⟨change, names', hvalue, rfl, hnew, hmore⟩
    exact .known hkey hfield hvalue hnew hmore

theorem takes_object_iff : s.Takes start (.object members) a ↔
    ∃ names, s.TakesMembers members names start a ∧
      ∀ field ∈ s.fields, field.required = true → field.name ∈ names := by
  simp [Takes]

theorem takes_list_iff {items : List Tree} :
    s.Takes start (.list items) a ↔ TakesFields s.fields items start a := by
  simp [Takes]

theorem Takes.permute (hcommute : s.fields.Pairwise Field.Commute) (hperm : members.Perm members')
    (h : s.Takes start (.object members) a) : s.Takes start (.object members') a := by
  obtain ⟨names, htakes, hneeded⟩ := takes_object_iff.mp h
  obtain ⟨names', hnames, htakes'⟩ := htakes.perm hcommute hperm
  exact takes_object_iff.mpr
    ⟨names', htakes', fun field hfield hreq => hnames.mem_iff.mp (hneeded field hfield hreq)⟩

/-- A member stands as well in front of all others. -/
theorem takes_middle_iff (hcommute : s.fields.Pairwise Field.Commute)
    {before after : List (Body × Tree)} {member : Body × Tree} :
    s.Takes start (.object (before ++ member :: after)) a ↔
      s.Takes start (.object (member :: (before ++ after))) a :=
  ⟨.permute hcommute List.perm_middle, .permute hcommute List.perm_middle.symm⟩

/-! ## Records -/

section

variable {entries : List (String × Layout)} {name : String} {layout : Layout}
  (hfields : List.Forall₂ (Field.Follows start) s.fields entries)
  (hnames : (s.fields.map Field.name).Nodup)

include hfields

theorem steady_fields : ∀ field ∈ s.fields, field.reader.Steady := by
  intro field hfield
  obtain ⟨i, hi, rfl⟩ := List.getElem_of_mem hfield
  exact (hfields.get hi (hfields.length_eq ▸ hi)).reader.steady

theorem map_name_eq : s.fields.map Field.name = entries.map Prod.fst := by
  rw [← List.forall₂_eq_eq_eq, List.forall₂_map_left_iff, List.forall₂_map_right_iff]
  exact hfields.imp fun _ _ h => h.name

theorem field?_eq_none (hname : name ∉ entries.map Prod.fst) : s.field? name = none := by
  rw [← map_name_eq hfields] at hname
  simpa [field?, List.find?_eq_none] using hname

include hnames

/-- A name of the layout is that of a field that follows. -/
theorem exists_field? (hentry : (name, layout) ∈ entries) :
    ∃ field, s.field? name = some field ∧ field.Follows start (name, layout) := by
  obtain ⟨i, hi, hget⟩ := List.getElem_of_mem hentry
  have hlength : i < s.fields.length := hfields.length_eq ▸ hi
  have hfollows : s.fields[i].Follows start entries[i] := hfields.get hlength hi
  rw [hget] at hfollows
  refine ⟨s.fields[i], ?_, hfollows⟩
  have hfound := field?_of_mem hnames (List.getElem_mem hlength)
  rwa [hfollows.name] at hfound

/-- A lenient list that comes in empty changes nothing. -/
theorem takes_fill {key : Body} {item : Layout} {value : Tree} (hkey : key.Says name)
    (hentry : (name, .lenient item) ∈ entries) (habsent : ∀ m ∈ members, ¬ m.1.Says name)
    (hvalue : value = .null ∨ value = .list []) :
    s.Takes start (.object members) a ↔ s.Takes start (.object ((key, value) :: members)) a := by
  obtain ⟨field, hfield, hfollows⟩ := exists_field? hfields hnames hentry
  obtain ⟨hoptional, change, hnull, hstart⟩ := hfollows.lenient item rfl
  have htakes : field.reader.Takes value change := by
    obtain rfl | rfl := hvalue
    · exact hnull
    · exact (hfollows.reader.edited .empty change).mp hnull
  -- The field is not needed, so it makes no difference whether its name has been seen.
  have hneeded : ∀ names : List String,
      (∀ field ∈ s.fields, field.required = true → field.name ∈ name :: names) →
        ∀ field ∈ s.fields, field.required = true → field.name ∈ names := by
    intro names hall other hother hrequired
    obtain heq | hlater := List.mem_cons.mp (hall other hother hrequired)
    · have hsame := field?_of_mem hnames hother
      rw [heq, hfield] at hsame
      cases hsame
      cases hoptional.symm.trans hrequired
    · exact hlater
  simp only [takes_object_iff, takesMembers_known_iff hkey hfield]
  constructor
  · rintro ⟨names, hmembers, hall⟩
    have hnew : name ∉ names := by
      intro hname
      obtain ⟨m, hm, hsaid⟩ := hmembers.exists_member hname
      exact habsent m hm hsaid
    rw [← hstart] at hmembers
    exact ⟨name :: names, ⟨change, names, htakes, rfl, hnew, hmembers⟩,
      fun field hf hrequired => List.mem_cons_of_mem _ (hall field hf hrequired)⟩
  · rintro ⟨_, ⟨change', names, htakes', rfl, -, hmembers⟩, hall⟩
    obtain rfl := htakes.unique htakes'
    rw [hstart] at hmembers
    exact ⟨names, hmembers, hneeded names hall⟩

end

/-- The value of a field stands for another from which the same is taken. -/
theorem takesFields_congr {fields : List (Field σ)} {entries entries' : List (String × Layout)}
    {name : String} {layout : Layout} {before after : List Tree} {value value' : Tree}
    (hfields : List.Forall₂ (Field.Follows start) fields (entries ++ (name, layout) :: entries'))
    (hlength : before.length = entries.length) (hvalue : Edit layout value value') :
    TakesFields fields (before ++ value :: after) a b ↔
      TakesFields fields (before ++ value' :: after) a b := by
  induction before generalizing fields entries a with
  | nil =>
    obtain rfl := List.length_eq_zero_iff.mp hlength.symm
    cases hfields with
    | cons hfield _ =>
      simp only [List.nil_append, takesFields_cons_iff, hfield.reader.edited hvalue]
  | cons item before ih =>
    cases entries with
    | nil => cases hlength
    | cons entry entries =>
      cases hfields with
      | cons _ hmore =>
        simp only [List.cons_append, takesFields_cons_iff, ih hmore (Nat.succ.inj hlength)]

/-- The reader of a record follows edits if its fields do, and what is read from different fields
commutes. -/
theorem follows_record {entries : List (String × Layout)}
    (hfields : List.Forall₂ (Field.Follows start) s.fields entries)
    (hnames : (s.fields.map Field.name).Nodup) (hcommute : s.fields.Pairwise Field.Commute) :
    (s.reader start).Follows (.record entries) := by
  have hmakes := makes_record (steady_fields hfields) start
  refine ⟨hmakes.steady, fun {t t'} hedit a => ?_⟩
  rw [hmakes.takes_iff, hmakes.takes_iff]
  -- A member is edited, put in or filled in as the first one: the order makes no difference.
  cases hedit with
  | permute hperm => exact ⟨.permute hcommute hperm, .permute hcommute hperm.symm⟩
  | insert hkey hname =>
    have hunknown := field?_eq_none hfields hname
    rw [takes_middle_iff hcommute]
    simp only [takes_object_iff, takesMembers_unknown_iff hkey hunknown]
  | fill hkey hentry habsent hvalue =>
    rw [takes_middle_iff hcommute]
    exact takes_fill hfields hnames hkey hentry habsent hvalue
  | member hkey hentry hvalue =>
    obtain ⟨field, hfield, hfollows⟩ := exists_field? hfields hnames hentry
    rw [takes_middle_iff hcommute, takes_middle_iff hcommute]
    simp only [takes_object_iff, takesMembers_known_iff hkey hfield,
      hfollows.reader.edited hvalue]
  | position hlength hvalue =>
    rw [takes_list_iff, takes_list_iff]
    exact takesFields_congr hfields hlength hvalue

end Shape

end EdgeSync.Json
