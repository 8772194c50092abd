import EdgeSync.Json.Reader

/-!
# JSON Records

A record is read from an object, whose members come in any order, or from a list
that holds the fields in their order. Reading a field gives a change of the
record, so the fields of one record are a plain list. Members without a field are
passed over; a field that is absent keeps the value it has at the start.

## Main definitions

- `Field`: a named part of a record
- `Shape`: the fields of a record
- `Shape.reader`: the reader of a record
-/

namespace EdgeSync.Json

open EdgeSync.Text

/-- A named part of a record; reading it gives a change of the record. -/
structure Field (σ : Type) where
  name : String
  required : Bool
  reader : Reader (σ → σ)

/-- A field that may be absent, given by how it is read and how it is set. -/
def Field.optional {σ α : Type} (name : String) (reader : Reader α) (set : α → σ → σ) :
    Field σ :=
  ⟨name, false, reader.map set⟩

/-- A field that must be present, given by how it is read and how it is set. -/
def Field.needed {σ α : Type} (name : String) (reader : Reader α) (set : α → σ → σ) :
    Field σ :=
  ⟨name, true, reader.map set⟩

/-- The fields of a record in their order, with the name of the record. -/
structure Shape (σ : Type) where
  name : String
  fields : List (Field σ)

namespace Shape

/-- The field of a given name. -/
def field? {σ : Type} (s : Shape σ) (name : String) : Option (Field σ) :=
  s.fields.find? fun f => f.name == name

/-! ## Records written as objects -/

/-- The continuation of an object: its end, or a member whose key has been read. -/
inductive NextMember where
  | stop (rest : Document)
  | member (key : String) (d : Document)

/-- The key at the front of a document. -/
def memberKey (g : Glyph) (d : Document) : Except Fault NextMember :=
  if g = .char '"' then (scanText d).map fun p => .member p.1 p.2 else .error .keyExpected

/-- Go to the next member of an object. -/
def nextMember (isFirst : Bool) (d : Document) : Except Fault NextMember :=
  match skipGap d with
  | [] => .error .endInObject
  | g :: rest =>
    if g = .char '\x7d' then .ok (.stop rest)
    else if isFirst then memberKey g rest
    else if g = .char ',' then
      match skipGap rest with
      | [] => .error .endInValue
      | g :: rest =>
        if g = .char '\x7d' then .error .trailingComma else memberKey g rest
    else .error .commaOrBraceExpected

/-- Pass over the colon after a key. -/
def skipColon (d : Document) : Except Fault Document :=
  match skipGap d with
  | [] => .error .endInObject
  | g :: rest => if g = .char ':' then .ok rest else .error .colonExpected

private theorem length_memberKey_lt {g : Glyph} {d d' : Document} {key : String}
    (h : memberKey g d = .ok (.member key d')) : d'.length < d.length := by
  unfold memberKey at h
  split at h
  · cases hs : scanText d with
    | error fault => rw [hs] at h; simp [Except.map] at h
    | ok p =>
      rw [hs] at h
      simp only [Except.map, Except.ok.injEq, NextMember.member.injEq] at h
      rw [← h.2]
      exact length_scanText_lt (s := p.1) hs
  · simp at h

private theorem memberKey_ne_stop {g : Glyph} {d rest : Document} :
    memberKey g d ≠ .ok (.stop rest) := by
  unfold memberKey
  split
  · cases scanText d <;> simp [Except.map]
  · simp

theorem length_nextMember_member {isFirst : Bool} {d d' : Document} {key : String}
    (h : nextMember isFirst d = .ok (.member key d')) : d'.length < d.length := by
  unfold nextMember at h
  split at h
  · simp at h
  · rename_i g r hg
    have h0 := length_lt_of_skipGap hg
    split at h
    · simp at h
    · split at h
      · have := length_memberKey_lt h
        omega
      · split at h
        · split at h
          · simp at h
          · rename_i g' r' hg'
            have h1 := length_lt_of_skipGap hg'
            split at h
            · simp at h
            · have := length_memberKey_lt h
              omega
        · simp at h

theorem length_nextMember_stop {isFirst : Bool} {d rest : Document}
    (h : nextMember isFirst d = .ok (.stop rest)) : rest.length < d.length := by
  unfold nextMember at h
  split at h
  · simp at h
  · rename_i g r hg
    have h0 := length_lt_of_skipGap hg
    split at h
    · simp only [Except.ok.injEq, NextMember.stop.injEq] at h
      rw [← h]; exact h0
    · split at h
      · exact absurd h memberKey_ne_stop
      · split at h
        · split at h
          · simp at h
          · split at h
            · simp at h
            · exact absurd h memberKey_ne_stop
        · simp at h

theorem length_skipColon_lt {d r : Document} (h : skipColon d = .ok r) :
    r.length < d.length := by
  unfold skipColon at h
  split at h
  · simp at h
  · rename_i g rest hg
    split at h
    · simp only [Except.ok.injEq] at h
      rw [← h]; exact length_lt_of_skipGap hg
    · simp at h

/-- Read the members of an object up to its closing brace. `seen` lists the fields
already read. -/
def readMembers {σ : Type} (s : Shape σ) (isFirst : Bool) (seen : List String) (value : σ)
    (d : Document) : Except Fault (σ × List String × Document) :=
  match hn : nextMember isFirst d with
  | .error fault => .error fault
  | .ok (.stop rest) => .ok (value, seen, rest)
  | .ok (.member key afterKey) =>
    have := length_nextMember_member hn
    match s.field? key with
    | none =>
      match hc : skipColon afterKey with
      | .error fault => .error fault
      | .ok atValue =>
        have := length_skipColon_lt hc
        match hs : skipValue atValue with
        | .error fault => .error fault
        | .ok rest =>
          have := length_skipNested_le hs
          readMembers s false seen value rest
    | some field =>
      if seen.contains key then .error (.repeatedField key)
      else
        match hc : skipColon afterKey with
        | .error fault => .error fault
        | .ok atValue =>
          have := length_skipColon_lt hc
          match hr : field.reader.run atValue with
          | .error fault => .error fault
          | .ok (change, rest) =>
            have := field.reader.shorter hr
            readMembers s false (key :: seen) (change value) rest
termination_by d.length
decreasing_by all_goals omega

theorem length_readMembers_lt {σ : Type} {s : Shape σ} {isFirst : Bool}
    {seen seen' : List String} {value value' : σ} {d r : Document}
    (h : readMembers s isFirst seen value d = .ok (value', seen', r)) :
    r.length < d.length := by
  fun_induction readMembers s isFirst seen value d with
  | case1 => simp at h
  | case2 isFirst seen value d rest hn =>
    simp only [Except.ok.injEq, Prod.mk.injEq] at h
    rw [← h.2.2]; exact length_nextMember_stop hn
  | case3 => simp at h
  | case4 => simp at h
  | case5 _ _ _ _ _ _ _ _ _ _ _ _ _ _ _ ih => have := ih h; omega
  | case6 => simp at h
  | case7 => simp at h
  | case8 => simp at h
  | case9 _ _ _ _ _ _ _ _ _ _ _ _ _ _ _ _ _ _ ih => have := ih h; omega

/-- The first field that must be present and is not. -/
def firstMissing? {σ : Type} (s : Shape σ) (seen : List String) : Option String :=
  (s.fields.find? fun f => f.required && !seen.contains f.name).map Field.name

/-! ## Records written as lists -/

/-- Read the fields of a list in their order. `count` fields have been read. -/
def readFields {σ : Type} (s : Shape σ) :
    List (Field σ) → Nat → σ → Document → Except Fault (σ × Document)
  | [], _, value, d =>
    match skipGap d with
    | [] => .error .endInList
    | g :: rest =>
      if g = .char ']' then .ok (value, rest)
      else if g = .char ',' then
        match (skipGap rest).head? with
        | some (.char ']') => .error .trailingComma
        | _ => .error .trailingText
      else .error .trailingText
  | field :: fields, count, value, d =>
    match Reader.nextItem (count == 0) d with
    | .error fault => .error fault
    | .ok (.stop rest) =>
      -- The list may end early unless one of the fields to come is needed.
      match (field :: fields).findIdx? Field.required with
      | some k => .error (.tooFewItems (count + k) s.name s.fields.length)
      | none => .ok (value, rest)
    | .ok (.item d') =>
      match field.reader.run d' with
      | .error fault => .error fault
      | .ok (change, rest) => readFields s fields (count + 1) (change value) rest

theorem length_readFields_lt {σ : Type} {s : Shape σ} {fields : List (Field σ)}
    {count : Nat} {value value' : σ} {d r : Document}
    (h : readFields s fields count value d = .ok (value', r)) : r.length < d.length := by
  induction fields generalizing count value d with
  | nil =>
    simp only [readFields] at h
    split at h
    · simp at h
    · rename_i g rest hg
      split at h
      · simp only [Except.ok.injEq, Prod.mk.injEq] at h
        rw [← h.2]; exact length_lt_of_skipGap hg
      · split at h
        · split at h <;> simp at h
        · simp at h
  | cons field fields ih =>
    simp only [readFields] at h
    split at h
    · simp at h
    · rename_i rest hn
      have h0 := Reader.length_nextItem_stop hn
      split at h
      · simp at h
      · simp only [Except.ok.injEq, Prod.mk.injEq] at h
        rw [← h.2]; exact h0
    · rename_i d' hn
      have h0 := Reader.length_nextItem_item hn
      split at h
      · simp at h
      · rename_i change rest hr
        have h1 := field.reader.shorter hr
        have h2 := ih h
        omega

/-! ## Readers -/

/-- The reader of a record whose absent fields keep the values of `start`. -/
def reader {σ : Type} (s : Shape σ) (start : σ) : Reader σ :=
  Reader.ofGlyph
    (fun g d =>
      if g = .char '\x7b' then
        match readMembers s true [] start d with
        | .error fault => .error fault
        | .ok (value, seen, rest) =>
          match s.firstMissing? seen with
          | some name => .error (.missingField name)
          | none => .ok (value, rest)
      else if g = .char '[' then readFields s s.fields 0 start d
      else .error (refusal (.record s.name) g d))
    (by
      intro g d r a h
      split at h
      · split at h
        · simp at h
        · rename_i value seen rest hm
          have := length_readMembers_lt hm
          split at h
          · simp at h
          · simp only [Except.ok.injEq, Prod.mk.injEq] at h
            rw [← h.2]; omega
      · split at h
        · exact Nat.le_of_lt (length_readFields_lt h)
        · simp at h)

end Shape

end EdgeSync.Json
