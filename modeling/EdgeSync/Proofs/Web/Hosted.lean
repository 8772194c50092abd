import EdgeSync.Proofs.Text.Words
import EdgeSync.Proofs.Web.Escapes
import EdgeSync.Web.Url

/-!
# Addresses With a Host

An address of a well-known scheme, other than that of files, is a scheme, a colon and dividers, a
place, and what follows the place. The place alone says what the account, the host and the port
are, and no place ends with a blank or a control. So when an address goes on, it stays at its host.

## Main definitions

- `Split`: an address with its place, and what follows it
- `Url.hosted`: the address that has been read

## Main results

- `parse?_of_split`, `exists_split`: what is read of an address with a host
- `readAuthority?_edge`: no place ends with a blank
- `Split.append`, `Split.of_append_slashes`: an address that goes on, or loses its last slashes
-/

namespace EdgeSync.Web

open EdgeSync.Text

variable {names : NameForm} {scheme front place tail rest cs : List Char} {e : Char}

/-! ## Schemes -/

/-- A text that is a scheme if a colon follows. -/
structure IsScheme (cs : List Char) : Prop where
  begins : cs.head?.any Char.isAlpha = true
  chars : cs.all isSchemeChar = true

theorem IsScheme.ne_colon (h : IsScheme cs) : ∀ c ∈ cs, (c != ':') = true := by
  intro c hc
  rw [bne_iff_ne]
  rintro rfl
  exact absurd (List.all_eq_true.mp h.chars ':' hc) (by decide)

theorem cutScheme?_eq_some_iff :
    cutScheme? cs = some (scheme, rest) ↔
      ∃ word, IsScheme word ∧ word.map Char.toLower = scheme ∧ cs = word ++ ':' :: rest := by
  have hcolon : ∀ more : List Char, ∀ c ∈ (':' :: more).head?, (c != ':') = false := by
    rintro more c ⟨⟩
    rfl
  constructor
  · intro h
    unfold cutScheme? at h
    dsimp only at h
    split at h
    · cases h
    · next colon more hdrop =>
      split at h
      · next hscheme =>
        cases h
        rw [Bool.and_eq_true] at hscheme
        have hfirst := head_dropWhile (· != ':') cs colon (by rw [hdrop]; rfl)
        obtain rfl : colon = ':' := by simpa using hfirst
        refine ⟨_, ⟨hscheme.1, hscheme.2⟩, rfl, ?_⟩
        rw [← hdrop, List.takeWhile_append_dropWhile]
      · cases h
  · rintro ⟨word, hword, rfl, rfl⟩
    unfold cutScheme?
    rw [takeWhile_run hword.ne_colon (hcolon rest), dropWhile_run hword.ne_colon (hcolon rest)]
    dsimp only
    rw [hword.begins, hword.chars]
    rfl

theorem readHosted?_scheme {u : Url} (h : readHosted? names scheme cs = some u) :
    u.scheme = scheme := by
  simp only [readHosted?, Option.bind_eq_bind, Option.bind_eq_some_iff, Option.some.injEq] at h
  obtain ⟨authority, -, rfl⟩ := h
  rfl

theorem readFile?_scheme {u : Url} (h : readFile? names cs = some u) : u.scheme = fileScheme := by
  simp only [readFile?, Option.bind_eq_bind, Option.bind_eq_some_iff, Option.some.injEq] at h
  obtain ⟨host, -, rfl⟩ := h
  rfl

theorem readPlain?_scheme {u : Url} (h : readPlain? names scheme cs = some u) :
    u.scheme = scheme := by
  unfold readPlain? at h
  split at h
  · exact readHosted?_scheme h
  · dsimp only at h
    split at h
    · cases h
      rfl
    · cases h
      rfl

/-! ## Places -/

/-- The text of an address with its place, which names an account, a host and a port, and what
follows the place. -/
structure Split (scheme place tail cs : List Char) : Prop where
  leads : ∃ word dividers, IsScheme word ∧ word.map Char.toLower = scheme ∧
    (∀ c ∈ dividers, isDivider true c = true) ∧
    cs = (word ++ ':' :: dividers) ++ (place ++ tail)
  within : ∀ c ∈ place, endsAuthority true c = false
  ends : ∀ c ∈ tail.head?, endsAuthority true c = true
  begins : ∀ c ∈ (place ++ tail).head?, isDivider true c = false

/-- The address with a host that has been read, where something follows the place. -/
def Url.hosted (scheme : List Char) (a : Authority) (tail : List Char) : Url :=
  ⟨scheme, a.userInfo, some a.host, a.port,
    .segments (readSegments true (tail.takeWhile fun c => !endsPath c)),
    readQuery true (tail.dropWhile fun c => !endsPath c),
    readFragment (tail.dropWhile fun c => !endsPath c)⟩

theorem readHosted?_split (hspecial : isSpecial scheme = true)
    (hplace : ∀ c ∈ place, endsAuthority true c = false)
    (htail : ∀ c ∈ tail.head?, endsAuthority true c = true) :
    readHosted? names scheme (place ++ tail) =
      (readAuthority? names scheme tail.isEmpty place).map fun a => Url.hosted scheme a tail := by
  have hrun : ∀ c ∈ place, (!endsAuthority true c) = true := fun c hc => by simp [hplace c hc]
  have hend : ∀ c ∈ tail.head?, (!endsAuthority true c) = false := fun c hc => by simp [htail c hc]
  simp only [readHosted?, hspecial, takeWhile_run hrun hend, dropWhile_run hrun hend,
    Bool.true_or, if_true]
  cases readAuthority? names scheme tail.isEmpty place with
  | none => rfl
  | some a => simp only [Url.hosted, Url.ofPath, hspecial, Option.bind_eq_bind, Option.bind_some,
      Option.map_some]

theorem parse?_of_split (hspecial : isSpecial scheme = true) (hfile : scheme ≠ fileScheme)
    {text : String} (h : Split scheme place tail (clean text.toList)) :
    Url.parse? names text =
      (readAuthority? names scheme tail.isEmpty place).map fun a => Url.hosted scheme a tail := by
  obtain ⟨word, dividers, hword, hscheme, hdividers, hcs⟩ := h.leads
  have hcut : cutScheme? (clean text.toList) = some (scheme, dividers ++ (place ++ tail)) :=
    cutScheme?_eq_some_iff.mpr ⟨word, hword, hscheme, by rw [hcs]; simp⟩
  simp only [Url.parse?, hcut, if_neg hfile, if_pos hspecial]
  rw [dropWhile_run hdividers h.begins]
  exact readHosted?_split hspecial h.within h.ends

/-- An address of a well-known scheme that can be read has a place. -/
theorem exists_split {text : String} {u : Url} (h : Url.parse? names text = some u)
    (hspecial : isSpecial u.scheme = true) (hfile : u.scheme ≠ fileScheme) :
    ∃ place tail a, Split u.scheme place tail (clean text.toList) ∧
      readAuthority? names u.scheme tail.isEmpty place = some a ∧
        u = Url.hosted u.scheme a tail := by
  unfold Url.parse? at h
  split at h
  · cases h
  · next scheme rest hcut =>
    split at h
    · exact absurd (readFile?_scheme h) hfile
    · -- What is read has the scheme of the text, so only hosts of well-known schemes are left.
      split at h
      · -- What follows the dividers is cut where the place ends.
        obtain rfl := readHosted?_scheme h
        obtain ⟨word, hword, hscheme, hcs⟩ := cutScheme?_eq_some_iff.mp hcut
        have hbody : ((rest.dropWhile (isDivider true)).takeWhile fun c => !endsAuthority true c) ++
            ((rest.dropWhile (isDivider true)).dropWhile fun c => !endsAuthority true c) =
            rest.dropWhile (isDivider true) := List.takeWhile_append_dropWhile
        have hwithin : ∀ c ∈ (rest.dropWhile (isDivider true)).takeWhile
            fun c => !endsAuthority true c, endsAuthority true c = false := fun c hc => by
          simpa using List.mem_takeWhile_imp hc
        have hends : ∀ c ∈ ((rest.dropWhile (isDivider true)).dropWhile
            fun c => !endsAuthority true c).head?, endsAuthority true c = true := fun c hc => by
          simpa using head_dropWhile _ _ c hc
        rw [← hbody, readHosted?_split hspecial hwithin hends, Option.map_eq_some_iff] at h
        obtain ⟨a, ha, hu⟩ := h
        refine ⟨_, _, a, ⟨⟨word, rest.takeWhile (isDivider true), hword, hscheme,
          fun c => List.mem_takeWhile_imp, ?_⟩, hwithin, hends, ?_⟩, ha, hu.symm⟩
        · rw [hbody, hcs]
          simp [List.takeWhile_append_dropWhile]
        · rw [hbody]
          exact head_dropWhile _ rest
      · next hplain =>
        rw [readPlain?_scheme h] at hspecial
        exact absurd hspecial hplain

/-! ## Places That Go On -/

theorem hexDigit?_edge (he : isEdge e = true) : hexDigit? e = none := by
  apply hexDigit?_eq_none
  have hle : e.toNat ≤ 0x20 := by simpa [isEdge] using he
  omega

/-- A blank ends an escape. -/
theorem startsHex_append_edge (he : isEdge e = true) :
    StartsHex (cs ++ e :: rest) → StartsHex cs := by
  have hnone := hexDigit?_edge he
  rcases cs with _ | ⟨a, _ | ⟨b, cs⟩⟩
  · cases rest with
    | nil => exact id
    | cons b rest =>
      rintro ⟨ha, -⟩
      rw [hnone] at ha
      cases ha
  · rintro ⟨-, hb⟩
    rw [hnone] at hb
    cases hb
  · exact id

theorem ne_percent_of_edge (he : isEdge e = true) : e ≠ '%' := by
  rintro rfl
  exact absurd he (by decide)

/-- A blank stands for itself, wherever it is. -/
theorem unescape_append_edge (he : isEdge e = true) (cs rest : List Char) :
    unescape (cs ++ e :: rest) =
      unescape cs ++ (String.utf8EncodeChar e ++ unescape rest) := by
  induction cs using escapes_induction with
  | nil => exact unescape_plain fun hpercent => absurd hpercent (ne_percent_of_edge he)
  | plain c cs hplain ih =>
    rw [List.cons_append, unescape_plain hplain, List.append_assoc, ← ih]
    exact unescape_plain fun hpercent hhex => hplain hpercent (startsHex_append_edge he hhex)
  | hex a b cs hhex ih =>
    obtain ⟨high, ha⟩ := Option.isSome_iff_exists.mp hhex.1
    obtain ⟨low, hb⟩ := Option.isSome_iff_exists.mp hhex.2
    simp only [List.cons_append]
    rw [unescape_hex ha hb, unescape_hex ha hb, ih, List.cons_append]

theorem edge_forbidden : ∀ n < 0x21,
    isForbiddenInName (Char.ofNat (UInt8.ofNat n).toNat) = true := by
  decide

/-- No host has a blank at its end. -/
theorem Host.parse?_edge (he : isEdge e = true) (hrest : ∀ c ∈ rest, isEdge c = true)
    (cs : List Char) : Host.parse? names (cs ++ e :: rest) = none := by
  unfold Host.parse?
  split
  · -- The bracket that opens is not closed at the end.
    refine if_neg fun hlast => ?_
    have hmem : ']' ∈ e :: rest := by
      rw [List.getLast?_append_of_ne_nil _ (List.cons_ne_nil e rest)] at hlast
      exact List.mem_of_getLast? hlast
    have hedge : isEdge ']' = true := by
      rcases List.mem_cons.mp hmem with rfl | hmem
      · exact he
      · exact hrest _ hmem
    exact absurd hedge (by decide)
  · -- The blank is one of the characters of the name, and none that may be there.
    have hle : e.toNat ≤ 0x20 := by simpa [isEdge] using he
    have hbyte : String.utf8EncodeChar e = [UInt8.ofNat e.toNat] :=
      if_pos (show e.toNat ≤ 127 by omega)
    have hany : ((unescape (cs ++ e :: rest)).any fun byte =>
        isForbiddenInName (Char.ofNat byte.toNat)) = true := by
      rw [unescape_append_edge he, hbyte, List.any_append, List.any_append]
      simp only [List.any_cons, edge_forbidden e.toNat (by omega), Bool.true_or, Bool.or_true]
    exact if_pos hany

theorem digits?_edge (he : isEdge e = true) (base : Nat) (cs rest : List Char) :
    digits? base (cs ++ e :: rest) = none := by
  unfold digits?
  rw [List.foldl_append, List.foldl_cons, hexDigit?_edge he]
  -- A sum that is not there stays away.
  have hnone : ∀ sum : Option Nat, (sum.bind fun _ => (none : Option Nat)) = none := by
    rintro (_ | _) <;> rfl
  simp only [Option.bind_eq_bind, Option.bind_none, hnone]
  induction rest with
  | nil => rfl
  | cons c rest ih => exact ih

theorem cutHost_eq_self (hcs : ∀ c ∈ cs, c ≠ ':') (inside : Bool) :
    cutHost inside cs = (cs, []) := by
  induction cs generalizing inside with
  | nil => rfl
  | cons c cs ih =>
    rw [List.forall_mem_cons] at hcs
    have hc : (c == ':' && !inside) = false := by simp [hcs.1]
    rw [cutHost, hc, ih hcs.2]
    rfl

/-- The cut before the first colon outside brackets, where no colon follows. -/
theorem cutHost_append {more : List Char} (hmore : ∀ c ∈ more, c ≠ ':') (inside : Bool)
    (cs : List Char) :
    cutHost inside (cs ++ more) = ((cutHost inside cs).1 ++ more, []) ∨
      ∃ digits, cutHost inside (cs ++ more) = ((cutHost inside cs).1, ':' :: (digits ++ more)) := by
  induction cs generalizing inside with
  | nil => exact .inl (cutHost_eq_self hmore inside)
  | cons c cs ih =>
    rw [List.cons_append, cutHost, cutHost]
    split
    · next hcolon =>
      have hc : c = ':' := by simp_all
      exact .inr ⟨cs, by rw [hc]⟩
    · rcases ih (c == '[' || (inside && c != ']')) with heq | ⟨digits, heq⟩
      · exact .inl (by rw [heq]; rfl)
      · exact .inr ⟨digits, by rw [heq]⟩

theorem cutUserInfo_append {more : List Char} (hmore : ∀ c ∈ more, c ≠ '@') (cs : List Char) :
    (cutUserInfo (cs ++ more)).2 = (cutUserInfo cs).2 ++ more := by
  have hrun : ∀ c ∈ more.reverse, (c != '@') = true := fun c hc => by
    simpa using hmore c (List.mem_reverse.mp hc)
  have hnot : '@' ∉ more := fun hmem => hmore _ hmem rfl
  unfold cutUserInfo
  simp only [List.reverse_append, List.takeWhile_append_of_pos hrun, List.reverse_reverse,
    List.contains_iff_mem, List.mem_append, hnot, or_false]
  split <;> rfl

/-- No place ends with a blank. -/
theorem readAuthority?_edge (hspecial : isSpecial scheme = true) (he : isEdge e = true)
    (hrest : ∀ c ∈ rest, isEdge c = true) (last : Bool) (cs : List Char) :
    readAuthority? names scheme last (cs ++ e :: rest) = none := by
  have hedge : ∀ mark, isEdge mark = false → ∀ c ∈ e :: rest, c ≠ mark := by
    rintro mark hmark c hc rfl
    rcases List.mem_cons.mp hc with rfl | hc
    · rw [he] at hmark
      cases hmark
    · rw [hrest c hc] at hmark
      cases hmark
  unfold readAuthority?
  simp only [cutUserInfo_append (hedge '@' rfl), hspecial, if_true]
  -- The blank belongs to the host, or to the port behind it.
  rcases cutHost_append (hedge ':' rfl) false (cutUserInfo cs).2 with heq | ⟨digits, heq⟩
  · simp only [heq, Host.parse?_edge he hrest]
    rfl
  · simp only [heq, readPort?, digits?_edge he]
    cases Host.parse? names (cutHost false (cutUserInfo cs).2).1 <;> rfl

/-- Where a host is needed, there is a place. -/
theorem readAuthority?_nil (hspecial : isSpecial scheme = true) (last : Bool) :
    readAuthority? names scheme last [] = none := by
  unfold readAuthority?
  simp only [hspecial, if_true]
  rfl

/-- The empty name is in plain ASCII, and no host. -/
theorem Host.parse?_nil : Host.parse? names [] = none := rfl

/-- Where a host is needed, it does not matter whether something follows the place. -/
theorem readAuthority?_last (hspecial : isSpecial scheme = true) (last last' : Bool)
    (cs : List Char) :
    readAuthority? names scheme last cs = readAuthority? names scheme last' cs := by
  unfold readAuthority?
  simp only [hspecial, if_true]
  -- It would matter for an empty name only.
  cases hname : (cutHost false (cutUserInfo cs).2).1 with
  | nil =>
    rw [Host.parse?_nil]
    rfl
  | cons c name => rfl

theorem Host.isEmpty_of_ofName? {label : List Char} {host : Host} (h : ofName? label = some host) :
    host.isEmpty = false := by
  unfold ofName? at h
  split at h
  · cases h
  · next hname =>
    split at h
    · obtain ⟨address, -, rfl⟩ := Option.map_eq_some_iff.mp h
      rfl
    · cases h
      cases label with
      | nil => simp at hname
      | cons c label => rfl

/-- The host of a well-known scheme is not empty. -/
theorem Host.isEmpty_of_parse? {host : Host} (h : Host.parse? names cs = some host) :
    host.isEmpty = false := by
  unfold Host.parse? at h
  split at h
  · unfold bracketed? at h
    split at h
    · obtain ⟨pieces, -, rfl⟩ := Option.map_eq_some_iff.mp h
      rfl
    · cases h
  · dsimp only at h
    split at h
    · cases h
    · obtain ⟨label, -, hlabel⟩ := Option.bind_eq_some_iff.mp h
      exact isEmpty_of_ofName? hlabel

theorem isEmpty_of_readAuthority? (hspecial : isSpecial scheme = true) {last : Bool}
    {a : Authority} (h : readAuthority? names scheme last cs = some a) :
    a.host.isEmpty = false := by
  unfold readAuthority? at h
  simp only [hspecial, if_true, Option.bind_eq_bind, Option.bind_eq_some_iff] at h
  obtain ⟨host, hhost, port, -, hauthority⟩ := h
  split at hauthority
  · cases hauthority
  · cases hauthority
    exact Host.isEmpty_of_parse? hhost

namespace Split

/-- What follows an address behind a divider follows its place. -/
theorem append (h : Split scheme place tail cs) (hplace : place ≠ []) {more : List Char}
    (hmore : tail = [] → ∀ c ∈ more.head?, endsAuthority true c = true) :
    Split scheme place (tail ++ more) (cs ++ more) := by
  obtain ⟨word, dividers, hword, hscheme, hdividers, rfl⟩ := h.leads
  refine ⟨⟨word, dividers, hword, hscheme, hdividers, by simp⟩, h.within, ?_, ?_⟩
  · cases tail with
    | nil => exact hmore rfl
    | cons d tail => exact h.ends
  · -- The text behind the dividers begins with the place still.
    obtain ⟨c, place, rfl⟩ := List.exists_cons_of_ne_nil hplace
    exact h.begins

/-- What ends no place becomes a part of the place at the end. -/
theorem append_place (h : Split scheme place [] cs) (hplace : place ≠ []) {more : List Char}
    (hmore : ∀ c ∈ more, endsAuthority true c = false) :
    Split scheme (place ++ more) [] (cs ++ more) := by
  obtain ⟨word, dividers, hword, hscheme, hdividers, rfl⟩ := h.leads
  refine ⟨⟨word, dividers, hword, hscheme, hdividers, by simp⟩, ?_, nofun, ?_⟩
  · rw [List.forall_mem_append]
    exact ⟨h.within, hmore⟩
  · obtain ⟨c, place, rfl⟩ := List.exists_cons_of_ne_nil hplace
    exact h.begins

/-- Slashes at the end of an address are not part of its place. -/
theorem of_append_slashes {slashes : List Char} (h : Split scheme place tail (cs ++ slashes))
    (hplace : place ≠ []) (hslashes : ∀ c ∈ slashes, c = '/') :
    ∃ before, tail = before ++ slashes ∧ Split scheme place before cs := by
  obtain ⟨word, dividers, hword, hscheme, hdividers, hcs⟩ := h.leads
  have hbegins : ∀ more, ∀ c ∈ (place ++ more).head?, isDivider true c = false := by
    obtain ⟨c, place, rfl⟩ := List.exists_cons_of_ne_nil hplace
    exact fun _ => h.begins
  rw [← List.append_assoc] at hcs
  rcases List.append_eq_append_iff.mp hcs with ⟨more, hfront, hslash⟩ | ⟨before, hfront, htail⟩
  · -- The place would have a slash at its end.
    have hnone : more = [] := by
      rcases List.eq_nil_or_concat' more with hnone | ⟨init, last, rfl⟩
      · exact hnone
      · obtain ⟨init', last', rfl⟩ := (List.eq_nil_or_concat' place).resolve_left hplace
        rw [← List.append_assoc, ← List.append_assoc] at hfront
        obtain ⟨-, hlast⟩ := List.append_inj' hfront rfl
        have hmem : last ∈ slashes := by rw [hslash]; simp
        have hwithin := h.within last' (by simp)
        rw [List.singleton_inj.mp hlast, hslashes last hmem] at hwithin
        exact absurd hwithin (by decide)
    subst hnone
    rw [List.append_nil] at hfront
    refine ⟨[], hslash.symm, ⟨word, dividers, hword, hscheme, hdividers, ?_⟩, h.within, nofun,
      hbegins []⟩
    rw [← hfront, List.append_nil]
  · refine ⟨before, htail, ⟨word, dividers, hword, hscheme, hdividers, ?_⟩, h.within, ?_,
      hbegins before⟩
    · rw [hfront, List.append_assoc]
    · intro c hc
      refine h.ends c ?_
      rw [htail]
      exact List.mem_head?_append_of_mem_head? hc

end Split

end EdgeSync.Web
