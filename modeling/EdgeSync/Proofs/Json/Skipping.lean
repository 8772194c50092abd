import EdgeSync.Proofs.Json.Restoring
import EdgeSync.Proofs.Json.Trees

/-!
# Passing Over Trees

A value that nothing needs is passed over to its end, whatever tree it is: of any depth, with
numbers of any size and with escapes that stand for no character.

## Main definitions

- `resume`: go on with an open list or object

## Main results

- `skipValue_writes`: what writes a tree is passed over, up to what is apart from it
-/

namespace EdgeSync.Json

open EdgeSync.Text

variable {cs ds gap lead : List Char} {d d' rest : Document} {g : Glyph} {c : Char}
  {stack : List Bracket} {bracket : Bracket} {isFirst : Bool}

/-! ## Numbers -/

/-- Digits are passed over to their end. -/
theorem digits_of_isDigits (hds : IsDigits ds) (hd : ∀ g ∈ d.head?, isDigit g = false) :
    (digits (glyphs ds ++ d)).isEmpty = false ∧ afterDigits (glyphs ds ++ d) = d := by
  obtain ⟨hdigits, hafter⟩ := digits_append hds.2 hd
  rw [hdigits]
  exact ⟨by simpa using hds.1, hafter⟩

theorem skipScale_apart (hd : Apart d) : skipScale d = .ok d := by
  cases d with
  | nil => rfl
  | cons g d =>
    rw [skipScale, hd.2.2]
    rfl

theorem exponentSign_digits (hds : IsDigits ds) (d : Document) :
    exponentSign (glyphs ds ++ d) = (false, glyphs ds ++ d) := by
  obtain ⟨hne, hall⟩ := hds
  obtain ⟨c, ds, rfl⟩ := List.exists_cons_of_ne_nil hne
  have hc := hall c List.mem_cons_self
  rw [glyphs_cons, List.cons_append]
  unfold exponentSign
  split
  · next heq =>
    rw [Glyph.char.inj (List.cons.inj heq).1] at hc
    cases hc
  · next heq =>
    rw [Glyph.char.inj (List.cons.inj heq).1] at hc
    cases hc
  · rfl

theorem skipScale_exponent (hcs : ExponentText cs) (hd : Apart d) :
    skipScale (glyphs cs ++ d) = .ok d := by
  cases hcs with
  | none => exact skipScale_apart hd
  | @digits mark sign ds hmark hsign hds =>
    obtain ⟨hsome, hafter⟩ := digits_of_isDigits hds hd.head
    have hisMark : isExponentMark (.char mark) = true := by
      obtain rfl | rfl := hmark <;> rfl
    have hsigned : (exponentSign (glyphs (sign ++ ds) ++ d)).2 = glyphs ds ++ d := by
      obtain rfl | rfl | rfl := hsign
      · rw [List.nil_append, exponentSign_digits hds]
      · rfl
      · rfl
    rw [glyphs_cons, List.cons_append, skipScale, if_pos hisMark, skipExponent]
    simp only [hsigned, hsome, hafter, Bool.false_eq_true, if_false]

theorem head_exponent (hcs : ExponentText cs) (hd : Apart d) :
    ∀ g ∈ (glyphs cs ++ d).head?, isDigit g = false ∧ g ≠ .char '.' := by
  cases hcs with
  | none =>
    cases d with
    | nil => exact nofun
    | cons g d =>
      rintro g' ⟨⟩
      exact ⟨hd.1, hd.2.1⟩
  | digits hmark _ _ =>
    rintro g ⟨⟩
    obtain rfl | rfl := hmark <;> exact ⟨rfl, by decide⟩

theorem WholeText.isDigit (hcs : WholeText cs) : ∀ c ∈ cs, c.isDigit = true := by
  cases hcs with
  | zero => simp
  | digits hc _ hds => exact List.forall_mem_cons.mpr ⟨hc, hds⟩

/-- Of two digits or more the first is not zero. -/
theorem WholeText.digits_ne (hcs : WholeText cs) :
    (cs.map fun c => c.toNat - '0'.toNat) ≠ [] ∧
      ∀ n ns, (cs.map fun c => c.toNat - '0'.toNat) ≠ 0 :: n :: ns := by
  cases hcs with
  | zero => exact ⟨nofun, nofun⟩
  | digits hc hne hds =>
    refine ⟨nofun, fun n ns heq => hne ?_⟩
    exact eq_zero_of_isDigit hc (List.cons.inj heq).1

/-- Pass over what comes behind the whole part of a number. -/
def skipTail : Document → Except Fault Document
  | .char '.' :: rest =>
    if (digits rest).isEmpty then .error .badNumber else skipScale (afterDigits rest)
  | rest => skipScale rest

theorem skipNumber_whole (hcs : WholeText cs) (hd : ∀ g ∈ d.head?, isDigit g = false) :
    skipNumber (glyphs cs ++ d) = skipTail d := by
  obtain ⟨hdigits, hafter⟩ := digits_append hcs.isDigit hd
  obtain ⟨hne, hzero⟩ := hcs.digits_ne
  unfold skipNumber
  split
  · next hnil => exact absurd (hdigits.symm.trans hnil) hne
  · next hcons => exact absurd (hdigits.symm.trans hcons) (hzero _ _)
  · rw [hafter]
    rfl

theorem skipTail_of_head (hd : ∀ g ∈ d.head?, g ≠ .char '.') : skipTail d = skipScale d := by
  unfold skipTail
  split
  · exact absurd rfl (hd _ rfl)
  · rfl

/-- A number without its sign is passed over. -/
theorem skipNumber_magnitude (hcs : MagnitudeText cs) (hd : Apart d) :
    skipNumber (glyphs cs ++ d) = .ok d := by
  obtain @⟨whole, fraction, exponent, hwhole, hfraction, hexponent⟩ := hcs
  have hhead := head_exponent hexponent hd
  have hscale := skipScale_exponent hexponent hd
  rw [glyphs_append, List.append_assoc]
  cases hfraction with
  | none =>
    rw [List.nil_append, skipNumber_whole hwhole fun g hg => (hhead g hg).1,
      skipTail_of_head fun g hg => (hhead g hg).2, hscale]
  | @digits ds hds =>
    obtain ⟨hsome, hafter⟩ := digits_of_isDigits hds fun g hg => (hhead g hg).1
    rw [List.cons_append, skipNumber_whole hwhole (by rintro g ⟨⟩; rfl), glyphs_cons,
      List.cons_append, skipTail, glyphs_append, List.append_assoc, hsome, hafter, hscale]
    rfl

/-! ## Simple Values -/

theorem skipText_escape (h : skipEscape d = .ok rest) :
    skipText (.char '\\' :: d) = skipText rest := by
  have hquote : Glyph.char '\\' ≠ .char '"' := by decide
  rw [skipText, if_neg hquote, if_pos rfl]
  split
  · next hfault =>
    rw [h] at hfault
    cases hfault
  · next hok =>
    rw [h] at hok
    cases hok
    rfl

/-- What stands between quotation marks is passed over, with any escapes by code. -/
theorem skipText_body (hcs : BodyText cs) (d : Document) :
    skipText (glyphs cs ++ .char '"' :: d) = .ok d := by
  induction hcs with
  | nil => rw [glyphs_nil, List.nil_append, skipText, if_pos rfl]
  | @plain c cs hquote hbackslash hcontrol _ ih =>
    have hnotControl : ¬ isControl (.char c) = true := by simpa [isControl] using hcontrol
    rw [glyphs_cons, List.cons_append, skipText, if_neg (by simpa using hquote),
      if_neg (by simpa using hbackslash), if_neg hnotControl, ih]
  | @letter c cs hletter _ ih =>
    have hne : Glyph.char c ≠ .char 'u' := fun heq =>
      (scanEscape_letter hletter).1 (Glyph.char.inj heq)
    refine (skipText_escape ?_).trans ih
    simp only [List.append_eq, List.map_cons, List.cons_append, skipEscape, if_neg hne, hletter,
      if_true]
    rfl
  | code hh₁ hh₂ hh₃ hh₄ _ ih =>
    obtain ⟨n, hn⟩ := exists_scanHex hh₁ hh₂ hh₃ hh₄
    refine (skipText_escape ?_).trans ih
    simp only [List.append_eq, List.map_cons, List.cons_append, skipEscape, if_true, hn]
    rfl

/-- A number is passed over, with a sign or without. -/
theorem skipSimple_numeral (numeral : Numeral) :
    ∃ c more, numeral.chars = c :: more ∧ c ≠ '[' ∧ c ≠ '\x7b' ∧
      ∀ d, Apart d → skipSimple (.char c) (glyphs more ++ d) = .ok d := by
  obtain ⟨chars, hchars⟩ := numeral
  cases hchars with
  | negative hcs =>
    exact ⟨'-', _, rfl, by decide, by decide, fun d hd => skipNumber_magnitude hcs hd⟩
  | positive hcs =>
    obtain ⟨c, more, rfl, hc⟩ : ∃ c more, chars = c :: more ∧ c.isDigit = true := by
      obtain ⟨hwhole, -, -⟩ := hcs
      obtain ⟨c, more, rfl, hc⟩ := hwhole.head
      exact ⟨c, _, rfl, hc⟩
    have hne : ∀ d : Char, d.isDigit = false → c ≠ d := fun _ => Tree.ne_of_isDigit hc
    have hdigit : isDigit (.char c) = true := by simp [isDigit, digit?_of_isDigit hc]
    refine ⟨c, more, rfl, hne _ rfl, hne _ rfl, fun d hd => ?_⟩
    have hskip := skipNumber_magnitude hcs hd
    -- None of the other openings is a digit.
    unfold skipSimple
    split
    · next heq => exact absurd (Glyph.char.inj heq) (hne _ rfl)
    · next heq => exact absurd (Glyph.char.inj heq) (hne _ rfl)
    · next heq => exact absurd (Glyph.char.inj heq) (hne _ rfl)
    · next heq => exact absurd (Glyph.char.inj heq) (hne _ rfl)
    · next heq => exact absurd (Glyph.char.inj heq) (hne _ rfl)
    · rw [if_pos hdigit]
      exact hskip

/-! ## Steps -/

theorem skipNested_before (h : skipGap d = g :: rest) :
    skipNested stack .before d =
      if g = .char '[' then skipNested stack (.opened .list) rest
      else if g = .char '\x7b' then skipNested stack (.opened .object) rest
      else (skipSimple g rest).bind (skipNested stack .after) := by
  rw [skipNested]
  split
  · next hnil => cases h.symm.trans hnil
  · next hcons =>
    cases h.symm.trans hcons
    congr 2
    split
    · next hfault =>
      rw [hfault]
      rfl
    · next hok =>
      dsimp only
      rw [hok]
      rfl

theorem skipNested_opened (h : skipGap d = g :: rest) :
    skipNested stack (.opened bracket) d =
      if g = bracket.closing then skipNested stack .after rest
      else (skipKey bracket (g :: rest)).bind (skipNested (bracket :: stack) .before) := by
  rw [skipNested]
  split
  · next hnil => cases h.symm.trans hnil
  · next hcons =>
    cases h.symm.trans hcons
    congr 1
    split
    · next hfault =>
      rw [hfault]
      rfl
    · next hok =>
      dsimp only
      rw [hok]
      rfl

theorem skipNested_after (h : skipGap d = g :: rest) :
    skipNested (bracket :: stack) .after d =
      if g = .char ',' then (skipKey bracket rest).bind (skipNested (bracket :: stack) .before)
      else if g = bracket.closing then skipNested stack .after rest
      else .error bracket.undivided := by
  rw [skipNested]
  split
  · next hnil => cases h.symm.trans hnil
  · next hcons =>
    cases h.symm.trans hcons
    congr 1
    split
    · next hfault =>
      rw [hfault]
      rfl
    · next hok =>
      dsimp only
      rw [hok]
      rfl

theorem skipNested_gap (hgap : IsGap gap) (hcs : ∀ g ∈ d.head?, isGap g = false) (hne : d ≠ []) :
    skipNested stack .before (glyphs gap ++ d) = skipNested stack .before d := by
  obtain ⟨g, d, rfl⟩ := List.exists_cons_of_ne_nil hne
  have hself := skipGap_of_not_gap (hcs g rfl) d
  rw [skipNested_before ((skipGap_gap hgap _).trans hself), skipNested_before hself]

/-! ## Nested Values -/

/-- Go on with an open list or object, at its first item or member or behind another. -/
def resume (bracket : Bracket) (isFirst : Bool) (stack : List Bracket) :
    Document → Except Fault Document :=
  if isFirst then skipNested stack (.opened bracket) else skipNested (bracket :: stack) .after

theorem resume_close (h : skipGap d = bracket.closing :: rest) :
    resume bracket isFirst stack d = skipNested stack .after rest := by
  cases isFirst with
  | true => exact (skipNested_opened h).trans (if_pos rfl)
  | false =>
    have hcomma : bracket.closing ≠ .char ',' := by cases bracket <;> decide
    exact (skipNested_after h).trans ((if_neg hcomma).trans (if_pos rfl))

/-- Behind what stands before an item or a member the key is passed over, and then the value. -/
theorem resume_lead (hlead : Lead isFirst lead) (hgap : isGap g = false)
    (hclosing : g ≠ bracket.closing)
    (hkey : ∀ gap, IsGap gap → (skipKey bracket (glyphs gap ++ g :: d)).bind
      (skipNested (bracket :: stack) .before) = skipNested (bracket :: stack) .before d') :
    resume bracket isFirst stack (glyphs lead ++ g :: d) =
      skipNested (bracket :: stack) .before d' := by
  have hself := skipGap_of_not_gap hgap d
  cases hlead with
  | first hgap =>
    refine (skipNested_opened ((skipGap_gap hgap _).trans hself)).trans ((if_neg hclosing).trans ?_)
    exact hkey [] isGap_nil
  | @further before gap hbefore hgap =>
    have hcomma : skipGap (glyphs (before ++ ',' :: gap) ++ g :: d) =
        .char ',' :: (glyphs gap ++ g :: d) := by
      rw [glyphs_append, List.append_assoc, skipGap_gap hbefore]
      exact skipGap_of_not_gap rfl _
    exact (skipNested_after hcomma).trans ((if_pos rfl).trans (hkey gap hgap))

theorem skipKey_object {before : List Char} (hgap : IsGap gap) (key : Body)
    (hbefore : IsGap before) (d : Document) :
    skipKey .object (glyphs gap ++ .char '"' ::
      (glyphs key.chars ++ .char '"' :: (glyphs before ++ .char ':' :: d))) = .ok d := by
  have hquote : isGap (.char '"') = false := rfl
  have hcolon : isGap (.char ':') = false := rfl
  simp only [skipKey, skipGap_gap hgap, skipGap_of_not_gap hquote, if_true,
    skipText_body key.wellFormed, skipGap_gap hbefore, skipGap_of_not_gap hcolon]

/-- A simple value stands alone. -/
theorem skipNested_simple (hgap : IsGap gap) (hnotGap : isGap (.char c) = false) (hlist : c ≠ '[')
    (hobject : c ≠ '\x7b') (hskip : skipSimple (.char c) (glyphs cs ++ rest) = .ok rest) :
    skipNested stack .before (glyphs gap ++ (glyphs (c :: cs) ++ rest)) =
      skipNested stack .after rest := by
  have hnotList : Glyph.char c ≠ .char '[' := fun heq => hlist (Glyph.char.inj heq)
  have hnotObject : Glyph.char c ≠ .char '\x7b' := fun heq => hobject (Glyph.char.inj heq)
  rw [skipNested_before (Reader.skipGap_lexeme hgap hnotGap cs rest), if_neg hnotList,
    if_neg hnotObject, hskip]
  rfl

namespace Tree

theorem WritesItems.apart {items : List Tree} (h : WritesItems false items cs) (d : Document) :
    Apart (glyphs cs ++ d) := by
  cases h with
  | close _ hgap =>
    rw [glyphs_append, List.append_assoc]
    exact apart_gap hgap ⟨rfl, by decide, rfl⟩
  | item hlead _ _ =>
    rw [glyphs_append, List.append_assoc]
    exact apart_lead hlead _

theorem WritesMembers.apart {members : List (Body × Tree)} (h : WritesMembers false members cs)
    (d : Document) : Apart (glyphs cs ++ d) := by
  cases h with
  | close _ hgap =>
    rw [glyphs_append, List.append_assoc]
    exact apart_gap hgap ⟨rfl, by decide, rfl⟩
  | member key hlead _ _ _ _ =>
    rw [glyphs_append, List.append_assoc]
    exact apart_lead hlead _

end Tree

theorem resume_closing (hgap : IsGap gap) {c : Char} (hc : .char c = bracket.closing)
    (d : Document) :
    resume bracket isFirst stack (glyphs (gap ++ [c]) ++ d) = skipNested stack .after d := by
  refine resume_close ?_
  have hnotGap : isGap bracket.closing = false := by cases bracket <;> rfl
  rw [glyphs_append, List.append_assoc, skipGap_gap hgap, ← hc]
  exact skipGap_of_not_gap (hc ▸ hnotGap) d

mutual

/-- A tree is passed over, within any open brackets. -/
theorem skipNested_writes : (t : Tree) → {cs gap : List Char} → {rest : Document} →
    {stack : List Bracket} → t.Writes cs → IsGap gap → Apart rest →
    skipNested stack .before (glyphs gap ++ (glyphs cs ++ rest)) = skipNested stack .after rest
  | .null, _, _, rest, _, .null, hgap, _ =>
    skipNested_simple hgap rfl (by decide) (by decide) (Reader.scanWord_glyphs ['u', 'l', 'l'] rest)
  | .flag true, _, _, rest, _, .flag _, hgap, _ =>
    skipNested_simple hgap rfl (by decide) (by decide) (Reader.scanWord_glyphs ['r', 'u', 'e'] rest)
  | .flag false, _, _, rest, _, .flag _, hgap, _ =>
    skipNested_simple hgap rfl (by decide) (by decide)
      (Reader.scanWord_glyphs ['a', 'l', 's', 'e'] rest)
  | .number numeral, _, _, rest, _, .number _, hgap, hrest => by
    have hopening := (Tree.Writes.number numeral).opening
    obtain ⟨c, more, hcons, hlist, hobject, hskip⟩ := skipSimple_numeral numeral
    obtain ⟨c', more', hcons', hopens⟩ := hopening
    obtain ⟨rfl, rfl⟩ := List.cons.inj (hcons.symm.trans hcons')
    rw [hcons]
    exact skipNested_simple hgap hopens.not_closing.1 hlist hobject (hskip rest hrest)
  | .text body, _, _, rest, _, .text _, hgap, _ => by
    refine skipNested_simple hgap rfl (by decide) (by decide) ?_
    rw [glyphs_append, List.append_assoc]
    exact skipText_body body.wellFormed rest
  | .list items, _, _, rest, _, .list hitems, hgap, _ => by
    have hbracket : isGap (.char '[') = false := rfl
    rw [skipNested_before (Reader.skipGap_lexeme hgap hbracket _ rest), if_pos rfl]
    exact resume_items items hitems rest
  | .object members, _, _, rest, _, .object hmembers, hgap, _ => by
    have hbrace : isGap (.char '\x7b') = false := rfl
    have hnotList : Glyph.char '\x7b' ≠ .char '[' := by decide
    rw [skipNested_before (Reader.skipGap_lexeme hgap hbrace _ rest), if_neg hnotList, if_pos rfl]
    exact resume_members members hmembers rest

theorem resume_items : (items : List Tree) → {isFirst : Bool} → {cs : List Char} →
    {stack : List Bracket} → Tree.WritesItems isFirst items cs → (rest : Document) →
    resume .list isFirst stack (glyphs cs ++ rest) = skipNested stack .after rest
  | [], _, _, _, .close _ hgap, rest => resume_closing hgap rfl rest
  | item :: items, isFirst, _, stack, @Tree.WritesItems.item _ lead cs more _ _ hlead hitem hitems,
      rest => by
    obtain ⟨c, tail, rfl, hopens⟩ := hitem.opening
    obtain ⟨hnotGap, hbracket, -⟩ := hopens.not_closing
    have hclosing : Glyph.char c ≠ Bracket.closing .list := fun heq => hbracket (Glyph.char.inj heq)
    calc resume .list isFirst stack (glyphs (lead ++ (c :: tail ++ more)) ++ rest)
        = resume .list isFirst stack
            (glyphs lead ++ .char c :: (glyphs tail ++ (glyphs more ++ rest))) := by
          simp only [glyphs_append, glyphs_cons, List.append_assoc, List.cons_append]
      _ = skipNested (.list :: stack) .before
            (.char c :: (glyphs tail ++ (glyphs more ++ rest))) := by
          refine resume_lead hlead hnotGap hclosing fun gap hgap => ?_
          exact skipNested_gap hgap (by rintro g ⟨⟩; exact hnotGap) (List.cons_ne_nil _ _)
      _ = skipNested (.list :: stack) .after (glyphs more ++ rest) :=
          skipNested_writes item hitem isGap_nil (hitems.apart rest)
      _ = skipNested stack .after rest := resume_items items hitems rest

theorem resume_members : (members : List (Body × Tree)) → {isFirst : Bool} → {cs : List Char} →
    {stack : List Bracket} → Tree.WritesMembers isFirst members cs → (rest : Document) →
    resume .object isFirst stack (glyphs cs ++ rest) = skipNested stack .after rest
  | [], _, _, _, .close _ hgap, rest => resume_closing hgap rfl rest
  | (key, value) :: members, isFirst, _, stack, @Tree.WritesMembers.member _ _ lead before gap cs
      more _ _ hlead hbefore hgap hvalue hmembers, rest => by
    have hclosing : Glyph.char '"' ≠ Bracket.closing .object := by decide
    calc resume .object isFirst stack (glyphs (lead ++
            ('"' :: (key.chars ++ '"' :: (before ++ ':' :: (gap ++ (cs ++ more)))))) ++ rest)
        = resume .object isFirst stack (glyphs lead ++
            .char '"' :: (glyphs key.chars ++ .char '"' :: (glyphs before ++
              .char ':' :: (glyphs gap ++ (glyphs cs ++ (glyphs more ++ rest)))))) := by
          simp only [glyphs_append, glyphs_cons, List.append_assoc, List.cons_append]
      _ = skipNested (.object :: stack) .before
            (glyphs gap ++ (glyphs cs ++ (glyphs more ++ rest))) := by
          refine resume_lead hlead rfl hclosing fun gap hgap => ?_
          rw [skipKey_object hgap key hbefore]
          rfl
      _ = skipNested (.object :: stack) .after (glyphs more ++ rest) :=
          skipNested_writes value hvalue hgap (hmembers.apart rest)
      _ = skipNested stack .after rest := resume_members members hmembers rest

end

/-- A tree is passed over, up to what is apart from it. -/
theorem skipValue_writes {t : Tree} (hcs : t.Writes cs) (hgap : IsGap gap) (hrest : Apart rest) :
    skipValue (glyphs gap ++ (glyphs cs ++ rest)) = .ok rest := by
  rw [skipValue, skipNested_writes t hcs hgap hrest, skipNested]

end EdgeSync.Json
