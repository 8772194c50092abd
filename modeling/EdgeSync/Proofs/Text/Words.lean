import EdgeSync.Text.Blank
import Mathlib.Data.List.DropRight

/-!
# Words Between Blanks

Trimming takes the blanks off both ends of a text, and no others. What is left is a row of
words with blanks between them.

## Main definitions

- `IsTrim`: a text with no blank at either end
- `Joined`: words with something between each two of them

## Main results

- `trimChars_margins`, `exists_margins`: what trimming takes away
- `joined_words`: a trimmed text is its words, joined by blanks
-/

namespace EdgeSync.Text

/-! ## Runs -/

section Runs

variable {α : Type} {p : α → Bool} {run rest : List α}

theorem dropWhile_eq_self (h : ∀ a ∈ rest.head?, p a = false) : rest.dropWhile p = rest := by
  cases rest with
  | nil => rfl
  | cons a rest => exact List.dropWhile_cons_of_neg (by simp [h a rfl])

theorem head_dropWhile (p : α → Bool) (rest : List α) :
    ∀ a ∈ (rest.dropWhile p).head?, p a = false := by
  intro a ha
  have hnot := List.head?_dropWhile_not p rest
  rw [ha] at hnot
  simpa using hnot

/-- A run is taken to its end. -/
theorem takeWhile_run (hrun : ∀ a ∈ run, p a = true) (hrest : ∀ a ∈ rest.head?, p a = false) :
    (run ++ rest).takeWhile p = run := by
  rw [List.takeWhile_append_of_pos hrun]
  cases rest with
  | nil => simp
  | cons a rest => simp [hrest a rfl]

theorem dropWhile_run (hrun : ∀ a ∈ run, p a = true) (hrest : ∀ a ∈ rest.head?, p a = false) :
    (run ++ rest).dropWhile p = rest := by
  rw [List.dropWhile_append_of_pos hrun, dropWhile_eq_self hrest]

end Runs

variable {p : Char → Bool} {cs ds front body back run rest : List Char}

/-! ## Trimming -/

/-- A text with no blank at either end. -/
structure IsTrim (cs : List Char) : Prop where
  head : ∀ c ∈ cs.head?, isBlank c = false
  last : ∀ c ∈ cs.getLast?, isBlank c = false

theorem dropEndWhile_append_of_all (h : ∀ c ∈ back, p c = true) :
    dropEndWhile p (cs ++ back) = dropEndWhile p cs := by
  have hall : ∀ c ∈ back.reverse, p c = true := fun c hc => h c (List.mem_reverse.mp hc)
  rw [dropEndWhile, List.reverse_append, List.dropWhile_append_of_pos hall, dropEndWhile]

theorem dropEndWhile_eq_self (h : ∀ c ∈ cs.getLast?, p c = false) : dropEndWhile p cs = cs := by
  rw [dropEndWhile, dropWhile_eq_self (by rwa [List.head?_reverse]), List.reverse_reverse]

theorem exists_dropEndWhile (p : Char → Bool) (cs : List Char) :
    ∃ dropped, cs = dropEndWhile p cs ++ dropped ∧ ∀ c ∈ dropped, p c = true :=
  ⟨cs.rtakeWhile p, List.rdropWhile_append_rtakeWhile.symm, fun _ => List.mem_rtakeWhile_imp⟩

theorem getLast?_dropEndWhile (p : Char → Bool) (cs : List Char) :
    ∀ c ∈ (dropEndWhile p cs).getLast?, p c = false := by
  rw [dropEndWhile, List.getLast?_reverse]
  exact head_dropWhile p _

/-- What trimming takes away are the blanks in front and at the end. -/
theorem trimChars_margins (hfront : ∀ c ∈ front, isBlank c = true)
    (hback : ∀ c ∈ back, isBlank c = true) (hbody : IsTrim body) :
    trimChars (front ++ (body ++ back)) = body := by
  rw [trimChars, List.dropWhile_append_of_pos hfront]
  cases body with
  | nil =>
    rw [List.nil_append, List.dropWhile_eq_nil_iff.mpr hback]
    rfl
  | cons c body =>
    have hhead : ∀ d ∈ (c :: body ++ back).head?, isBlank d = false := hbody.head
    rw [dropWhile_eq_self hhead, dropEndWhile_append_of_all hback, dropEndWhile_eq_self hbody.last]

theorem isTrim_trimChars (cs : List Char) : IsTrim (trimChars cs) := by
  have hlast : ∀ c ∈ (trimChars cs).getLast?, isBlank c = false := getLast?_dropEndWhile isBlank _
  refine ⟨fun c hc => ?_, hlast⟩
  -- The first character is also that of the text whose end is dropped.
  obtain ⟨back, hback⟩ := List.rdropWhile_prefix isBlank (l := cs.dropWhile isBlank)
  refine head_dropWhile isBlank cs c ?_
  rw [← hback]
  exact List.mem_head?_append_of_mem_head? hc

theorem exists_margins (cs : List Char) :
    ∃ front back, (∀ c ∈ front, isBlank c = true) ∧ (∀ c ∈ back, isBlank c = true) ∧
      cs = front ++ (trimChars cs ++ back) := by
  refine ⟨cs.takeWhile isBlank, (cs.dropWhile isBlank).rtakeWhile isBlank,
    fun c => List.mem_takeWhile_imp, fun c => List.mem_rtakeWhile_imp, ?_⟩
  have hback : trimChars cs ++ (cs.dropWhile isBlank).rtakeWhile isBlank = cs.dropWhile isBlank :=
    List.rdropWhile_append_rtakeWhile
  rw [hback, List.takeWhile_append_dropWhile]

/-! ## Words -/

/-- Words with something between each two of them. -/
inductive Joined (p : Char → Bool) : List (List Char) → List Char → Prop
  | last (w : List Char) : Joined p [w] w
  | cons (w : List Char) {gap cs : List Char} {ws : List (List Char)} (hne : gap ≠ [])
      (hgap : ∀ c ∈ gap, p c = true) (hrest : Joined p ws cs) :
      Joined p (w :: ws) (w ++ (gap ++ cs))

theorem Joined.exists_cons {ws : List (List Char)} (h : Joined p ws cs) :
    ∃ w more, ws = w :: more := by
  cases h with
  | last => exact ⟨cs, [], rfl⟩
  | cons w => exact ⟨w, _, rfl⟩

theorem exists_joined {gap : List Char} (hne : gap ≠ []) (hgap : ∀ c ∈ gap, p c = true)
    {ws : List (List Char)} (hws : ws ≠ []) : ∃ cs, Joined p ws cs := by
  induction ws with
  | nil => exact absurd rfl hws
  | cons w ws ih =>
    cases ws with
    | nil => exact ⟨w, .last w⟩
    | cons _ _ =>
      obtain ⟨cs, hcs⟩ := ih (List.cons_ne_nil _ _)
      exact ⟨w ++ (gap ++ cs), .cons w hne hgap hcs⟩

theorem Joined.mono {q : Char → Bool} {ws : List (List Char)} (h : Joined p ws cs)
    (hpq : ∀ c ∈ cs, p c = true → q c = true) : Joined q ws cs := by
  induction h with
  | last w => exact .last w
  | cons w hne hgap _ ih =>
    simp only [List.mem_append, or_imp, forall_and] at hpq
    exact .cons w hne (fun c hc => hpq.2.1 c hc (hgap c hc)) (ih hpq.2.2)

theorem splitOn_eq_cons (h : ∀ c ∈ cs.head?, p c = true) :
    splitOn p cs = [] :: (splitOn p cs).tail := by
  cases cs with
  | nil => rfl
  | cons c cs => simp [splitOn, h c rfl]

theorem splitOn_run (hrun : ∀ c ∈ run, p c = false) (hrest : ∀ c ∈ rest.head?, p c = true) :
    splitOn p (run ++ rest) = run :: (splitOn p rest).tail := by
  induction run with
  | nil => exact splitOn_eq_cons hrest
  | cons c run ih =>
    rw [List.forall_mem_cons] at hrun
    simp [splitOn, hrun.1, ih hrun.2]

theorem words_blank {c : Char} (hc : isBlank c = true) (cs : List Char) :
    words (c :: cs) = words cs := by
  simp [words, splitOn, hc]

theorem words_gap {gap : List Char} (hgap : ∀ c ∈ gap, isBlank c = true) (cs : List Char) :
    words (gap ++ cs) = words cs := by
  induction gap with
  | nil => rfl
  | cons c gap ih =>
    rw [List.forall_mem_cons] at hgap
    rw [List.cons_append, words_blank hgap.1, ih hgap.2]

theorem words_run (hne : run ≠ []) (hrun : ∀ c ∈ run, isBlank c = false)
    (hrest : ∀ c ∈ rest.head?, isBlank c = true) : words (run ++ rest) = run :: words rest := by
  rw [words, splitOn_run hrun hrest, words, splitOn_eq_cons hrest]
  simp [hne]

/-- A trimmed text is a word, or a word, a gap and a shorter trimmed text. -/
theorem IsTrim.cases (hcs : IsTrim cs) (hne : cs ≠ []) :
    ∃ run, run ≠ [] ∧ (∀ c ∈ run, isBlank c = false) ∧ (cs = run ∨ ∃ gap more, gap ≠ [] ∧
      (∀ c ∈ gap, isBlank c = true) ∧ IsTrim more ∧ more ≠ [] ∧ cs = run ++ (gap ++ more)) := by
  obtain ⟨run, rest, hsplit, hrun, hrest⟩ : ∃ run rest, cs = run ++ rest ∧
      (∀ c ∈ run, isBlank c = false) ∧ ∀ c ∈ rest.head?, isBlank c = true := by
    refine ⟨cs.takeWhile fun c => !isBlank c, cs.dropWhile fun c => !isBlank c,
      List.takeWhile_append_dropWhile.symm, fun c hc => ?_, fun c hc => ?_⟩
    · simpa using List.mem_takeWhile_imp hc
    · simpa using head_dropWhile _ cs c hc
  subst hsplit
  have hrunNe : run ≠ [] := by
    rintro rfl
    obtain ⟨c, rest, rfl⟩ := List.exists_cons_of_ne_nil hne
    have hblank := hrest c rfl
    rw [hcs.head c rfl] at hblank
    cases hblank
  refine ⟨run, hrunNe, hrun, ?_⟩
  cases rest with
  | nil => exact Or.inl (List.append_nil run)
  | cons b rest =>
    -- What comes behind the gap ends as the whole text does, and so not with a blank.
    have hlast : ∀ c ∈ (b :: rest).getLast?, isBlank c = false := by
      intro c hc
      exact hcs.last c (List.mem_getLast?_append_of_mem_getLast? hc)
    have hmoreNe : (b :: rest).dropWhile isBlank ≠ [] := by
      intro hnil
      have hmem := List.getLast_mem (List.cons_ne_nil b rest)
      have hblank := List.dropWhile_eq_nil_iff.mp hnil _ hmem
      rw [hlast _ (List.getLast?_eq_getLast_of_ne_nil (List.cons_ne_nil b rest))] at hblank
      cases hblank
    have hsplit : (b :: rest).takeWhile isBlank ++ (b :: rest).dropWhile isBlank = b :: rest :=
      List.takeWhile_append_dropWhile
    refine Or.inr ⟨(b :: rest).takeWhile isBlank, (b :: rest).dropWhile isBlank, ?_,
      fun c => List.mem_takeWhile_imp, ⟨head_dropWhile isBlank _, fun c hc => hlast c ?_⟩,
      hmoreNe, by rw [hsplit]⟩
    · simp [hrest b rfl]
    · rw [← hsplit]
      exact List.mem_getLast?_append_of_mem_getLast? hc

/-- A trimmed text is its words, joined by blanks. -/
theorem joined_words (hcs : IsTrim cs) (hne : cs ≠ []) : Joined isBlank (words cs) cs := by
  -- By induction on the length: behind the first word and the gap a shorter text is left.
  induction hlength : cs.length using Nat.strong_induction_on generalizing cs with
  | _ length ih =>
    obtain ⟨run, hrunNe, hrun, rfl | ⟨gap, more, hgapNe, hgap, hmore, hmoreNe, rfl⟩⟩ :=
      hcs.cases hne
    · have hwords : words (cs ++ []) = cs :: words [] := words_run hrunNe hrun nofun
      rw [List.append_nil] at hwords
      rw [hwords]
      exact .last cs
    · have hfirst : ∀ c ∈ (gap ++ more).head?, isBlank c = true := by
        obtain ⟨b, gap, rfl⟩ := List.exists_cons_of_ne_nil hgapNe
        rintro c ⟨⟩
        exact hgap _ List.mem_cons_self
      rw [words_run hrunNe hrun hfirst, words_gap hgap]
      refine .cons run hgapNe hgap (ih more.length ?_ hmore hmoreNe rfl)
      have hpos := List.length_pos_iff.mpr hrunNe
      simp only [List.length_append] at hlength
      omega

end EdgeSync.Text
