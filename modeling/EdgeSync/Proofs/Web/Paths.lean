import EdgeSync.Proofs.Text.Words
import EdgeSync.Proofs.Web.Escapes
import EdgeSync.Web.Url

/-!
# Paths That Go On

A path is read segment by segment, and only the last segment is read differently from the others.
So when a path goes on behind a divider, what stands in front of the divider makes a path of its
own, to which the further segments are added.

## Main definitions

- `walk`: the path after segments that others follow
- `finish`: the path after the last segment
- `pieces`: the segments in front of a divider
- `Url.trunk`: the path of an address without slashes at its end

## Main results

- `addSegments_append`, `addSegments_concat`: a path that goes on, and its end
- `splitOn_append_divider`, `exists_splitOn_concat`: segments in a text
- `readSegments_append`, `readSegments_slashes`: a path with a path or with slashes behind it
- `addSegments_stands_iff`: when one further segment stands for a text
-/

namespace EdgeSync.Text

variable {p : Char → Bool} {cs : List Char}

/-! ## Pieces -/

theorem splitOn_ne_nil (p : Char → Bool) (cs : List Char) : splitOn p cs ≠ [] := by
  cases cs with
  | nil => exact List.cons_ne_nil _ _
  | cons c cs =>
    rw [splitOn]
    split
    · exact List.cons_ne_nil _ _
    · split <;> exact List.cons_ne_nil _ _

/-- A divider between two texts divides their pieces. -/
theorem splitOn_append_divider {d : Char} (hd : p d = true) (cs ds : List Char) :
    splitOn p (cs ++ d :: ds) = splitOn p cs ++ splitOn p ds := by
  induction cs with
  | nil => simp [splitOn, hd]
  | cons c cs ih =>
    rw [List.cons_append, splitOn, splitOn, ih]
    split
    · rfl
    · obtain ⟨piece, more, hpieces⟩ := List.exists_cons_of_ne_nil (splitOn_ne_nil p cs)
      rw [hpieces]
      rfl

/-- Without a divider there is one piece. -/
theorem splitOn_eq_singleton (h : ∀ c ∈ cs, p c = false) : splitOn p cs = [cs] := by
  have hrun : splitOn p (cs ++ []) = cs :: (splitOn p []).tail := splitOn_run h nofun
  rwa [List.append_nil] at hrun

/-- The last piece is the end of the text, and there is no divider in it. -/
theorem exists_splitOn_concat (p : Char → Bool) (cs : List Char) :
    ∃ front last, splitOn p cs = front ++ [last] ∧ last <:+ cs ∧ ∀ c ∈ last, p c = false := by
  have hlast : ∀ c ∈ cs.rtakeWhile fun c => !p c, p c = false := fun c hc => by
    simpa using List.mem_rtakeWhile_imp hc
  have hcut : (cs.rdropWhile fun c => !p c) ++ (cs.rtakeWhile fun c => !p c) = cs :=
    List.rdropWhile_append_rtakeWhile
  rcases List.eq_nil_or_concat' (cs.rdropWhile fun c => !p c) with hnone | ⟨front, d, hfront⟩
  · rw [hnone, List.nil_append] at hcut
    exact ⟨[], cs, splitOn_eq_singleton (hcut ▸ hlast), List.suffix_rfl, hcut ▸ hlast⟩
  · -- What stands in front of the last piece ends with a divider.
    have hd : p d = true := by
      have hnot := List.rdropWhile_last_not (fun c => !p c) cs
        (hfront ▸ List.append_ne_nil_of_right_ne_nil _ (List.cons_ne_nil _ _))
      simpa [hfront] using hnot
    rw [hfront, List.append_assoc, List.singleton_append] at hcut
    refine ⟨splitOn p front, _, ?_, ⟨front ++ [d], ?_⟩, hlast⟩
    · rw [← splitOn_eq_singleton hlast, ← splitOn_append_divider hd, hcut]
    · rw [List.append_assoc, List.singleton_append, hcut]

end EdgeSync.Text

namespace EdgeSync.Web

open EdgeSync.Text

variable {path front : List (List Char)} {segment tail : List Char}

/-! ## Segments -/

/-- The path after a segment that others follow. -/
def step (path : List (List Char)) (segment : List Char) : List (List Char) :=
  if isDoubleDot segment then path.dropLast
  else if isDot segment then path
  else path ++ [escape pathMarks segment]

/-- The path after segments that others follow. -/
def walk (path segments : List (List Char)) : List (List Char) :=
  segments.foldl step path

/-- The path after the last segment. -/
def finish (path : List (List Char)) (segment : List Char) : List (List Char) :=
  if isDoubleDot segment then path.dropLast ++ [[]]
  else if isDot segment then path ++ [[]]
  else path ++ [escape pathMarks segment]

/-- Segments are added one after the other as long as some follow. -/
theorem addSegments_append {back : List (List Char)} (hback : back ≠ [])
    (path front : List (List Char)) :
    addSegments path (front ++ back) = addSegments (walk path front) back := by
  induction front generalizing path with
  | nil => rfl
  | cons segment front ih =>
    have hmore : (front ++ back).isEmpty = false := by
      rw [List.isEmpty_eq_false_iff]
      exact List.append_ne_nil_of_right_ne_nil _ hback
    rw [List.cons_append, addSegments, walk, List.foldl_cons, ← walk, step]
    simp only [hmore, Bool.false_eq_true, if_false]
    split_ifs
    · exact ih _
    · exact ih _
    · exact ih _

theorem addSegments_concat (path front : List (List Char)) (last : List Char) :
    addSegments path (front ++ [last]) = finish (walk path front) last := by
  rw [addSegments_append (List.cons_ne_nil _ _)]
  rfl

/-- A segment that is not made of dots is added as it is, with escapes. -/
theorem step_plain (hdot : isDot segment = false) (hdouble : isDoubleDot segment = false)
    (path : List (List Char)) : step path segment = path ++ [escape pathMarks segment] := by
  rw [step, hdot, hdouble]
  rfl

theorem finish_plain (hdot : isDot segment = false) (hdouble : isDoubleDot segment = false)
    (path : List (List Char)) : finish path segment = path ++ [escape pathMarks segment] := by
  rw [finish, hdot, hdouble]
  rfl

/-- The last segment of a path is empty or as the last segment was. -/
theorem finish_cases (path : List (List Char)) (segment : List Char) :
    (∃ front, finish path segment = front ++ [[]]) ∨
      isDot segment = false ∧ isDoubleDot segment = false := by
  unfold finish
  split_ifs with hdouble hdot
  · exact .inl ⟨_, rfl⟩
  · exact .inl ⟨_, rfl⟩
  · exact .inr ⟨by simpa using hdot, by simpa using hdouble⟩

/-! ## Paths -/

/-- The segments in front of a divider, where a path begins with a divider of its own. -/
def pieces (tail : List Char) : List (List Char) :=
  if tail = [] then [] else splitOn (isDivider true) tail.tail

/-- A path that goes on behind a slash. -/
theorem readSegments_append (htail : ∀ c ∈ tail.head?, isDivider true c = true)
    (more : List Char) :
    readSegments true (tail ++ '/' :: more) =
      addSegments (walk [] (pieces tail)) (splitOn (isDivider true) more) := by
  rw [← addSegments_append (splitOn_ne_nil _ _), readSegments, pieces]
  cases tail with
  | nil => rfl
  | cons d tail =>
    have hd : isDivider true d = true := htail d rfl
    simp only [List.cons_append, List.head?_cons, Option.any_some, hd, if_true, List.tail_cons,
      if_neg (List.cons_ne_nil d tail)]
    rw [splitOn_append_divider (by rfl)]

theorem splitOn_slashes (count : Nat) :
    splitOn (isDivider true) (List.replicate count '/') = List.replicate (count + 1) [] := by
  induction count with
  | zero => rfl
  | succ count ih =>
    rw [List.replicate_succ, splitOn, ih]
    rfl

theorem addSegments_slashes (path : List (List Char)) (count : Nat) :
    addSegments path (List.replicate count []) = path ++ List.replicate count [] := by
  induction count generalizing path with
  | zero => exact (List.append_nil _).symm
  | succ count ih =>
    have hfirst : addSegments path (List.replicate (count + 1) []) =
        addSegments (path ++ [[]]) (List.replicate count []) := rfl
    rw [hfirst, ih, List.append_assoc, List.singleton_append, List.replicate_succ]

/-- A path without the empty segments at its end. -/
def trunk (path : List (List Char)) : List (List Char) :=
  path.rdropWhile List.isEmpty

/-- The last segment is neither empty nor made of dots. -/
def EndsPlain (segments : List (List Char)) : Prop :=
  ∀ last ∈ segments.getLast?, last ≠ [] ∧ isDot last = false ∧ isDoubleDot last = false

theorem escape_ne_nil (h : segment ≠ []) : escape pathMarks segment ≠ [] := by
  obtain ⟨c, rest, rfl⟩ := List.exists_cons_of_ne_nil h
  rw [escape, List.flatMap_cons]
  apply List.append_ne_nil_of_left_ne_nil
  rcases isSafe_pathMarks.escapeChar_cases c with hself | ⟨-, more, hescape⟩
  · rw [hself]
    exact List.cons_ne_nil _ _
  · rw [hescape]
    exact List.cons_ne_nil _ _

theorem trunk_append_slashes (path : List (List Char)) (count : Nat) :
    trunk (path ++ List.replicate count []) = trunk path := by
  induction count with
  | zero => rw [List.replicate_zero, List.append_nil]
  | succ count ih =>
    rw [List.replicate_succ', ← List.append_assoc, trunk, List.rdropWhile_concat_pos _ _ _ rfl,
      ← trunk, ih]

theorem walk_concat (hplain : EndsPlain (front ++ [segment])) (path : List (List Char)) :
    walk path (front ++ [segment]) = walk path front ++ [escape pathMarks segment] := by
  obtain ⟨-, hdot, hdouble⟩ := hplain segment (by simp)
  rw [walk, List.foldl_append, ← walk]
  exact step_plain hdot hdouble _

/-- A path whose last segment is plain has no empty segments at its end. -/
theorem trunk_walk (hplain : EndsPlain front) : trunk (walk [] front) = walk [] front := by
  rcases List.eq_nil_or_concat' front with rfl | ⟨init, last, rfl⟩
  · rfl
  · rw [walk_concat hplain, trunk, List.rdropWhile_concat_neg]
    rw [List.isEmpty_iff]
    exact escape_ne_nil (hplain last (by simp)).1

/-- Slashes behind a path that ends with a plain segment are empty segments. -/
theorem readSegments_slashes (htail : ∀ c ∈ tail.head?, isDivider true c = true)
    (hplain : EndsPlain (pieces tail)) (count : Nat) :
    ∃ empties, readSegments true (tail ++ List.replicate count '/') =
      walk [] (pieces tail) ++ List.replicate empties [] := by
  cases count with
  | zero =>
    rw [List.replicate_zero, List.append_nil]
    cases tail with
    | nil => exact ⟨1, rfl⟩
    | cons d tail =>
      have hread : readSegments true (d :: tail) = addSegments [] (pieces (d :: tail)) := by
        simp [readSegments, pieces, htail d rfl]
      obtain ⟨init, last, hpieces⟩ :=
        (List.eq_nil_or_concat' (pieces (d :: tail))).resolve_left (splitOn_ne_nil _ tail)
      rw [hpieces] at hplain
      obtain ⟨-, hdot, hdouble⟩ := hplain last (by simp)
      -- The last segment of the text is the last one of the path.
      refine ⟨0, ?_⟩
      rw [hread, hpieces, addSegments_concat, finish_plain hdot hdouble, walk_concat hplain,
        List.replicate_zero, List.append_nil]
  | succ count =>
    refine ⟨count + 1, ?_⟩
    rw [List.replicate_succ, readSegments_append htail, splitOn_slashes, addSegments_slashes]

theorem trunk_readSegments (htail : ∀ c ∈ tail.head?, isDivider true c = true)
    (hplain : EndsPlain (pieces tail)) (count : Nat) :
    trunk (readSegments true (tail ++ List.replicate count '/')) = walk [] (pieces tail) := by
  obtain ⟨empties, hread⟩ := readSegments_slashes htail hplain count
  rw [hread, trunk_append_slashes, trunk_walk hplain]

/-! ## The Intended Path -/

/-- A text that makes a segment that stands for it. -/
structure IsPlainSegment (token : List Char) : Prop where
  undivided : ∀ c ∈ token, isDivider true c = false
  noDot : isDot token = false
  noDoubleDot : isDoubleDot token = false
  noEscape : HasNoEscape token

/-- What is left of a text makes one segment that stands for the text, and nothing else is
different, if and only if nothing was taken away and the text is plain. -/
theorem addSegments_stands_iff (front back : List (List Char)) {rest token : List Char}
    (hrest : rest.Sublist token) :
    (∃ last, addSegments front (splitOn (isDivider true) rest) = back ++ [last] ∧
      unescape last = bytes token) ↔ front = back ∧ rest = token ∧ IsPlainSegment token := by
  constructor
  · rintro ⟨last, hpath, hlast⟩
    obtain ⟨init, piece, hpieces, hsuffix, hundivided⟩ :=
      exists_splitOn_concat (isDivider true) rest
    have hsub : piece.Sublist token := hsuffix.sublist.trans hrest
    rw [hpieces, addSegments_concat] at hpath
    -- The last piece alone stands for as many bytes as the whole text has.
    have hpiece : piece = token := by
      apply eq_of_sublist_of_bytes hsub
      rcases finish_cases (walk front init) piece with ⟨path, hempty⟩ | ⟨hdot, hdouble⟩
      · obtain ⟨-, heq⟩ := List.append_inj' (hempty.symm.trans hpath) rfl
        cases heq
        rw [← hlast]
        exact Nat.zero_le _
      · rw [finish_plain hdot hdouble] at hpath
        obtain ⟨-, heq⟩ := List.append_inj' hpath rfl
        cases heq
        rw [← hlast, isSafe_pathMarks.unescape_escape]
        exact length_unescape_le piece
    -- So nothing was lost, and the text is not divided.
    subst hpiece
    obtain rfl : rest = piece := hrest.antisymm hsuffix.sublist
    rw [splitOn_eq_singleton hundivided] at hpieces
    have hinit : [] ++ [rest] = init ++ [rest] := hpieces
    obtain rfl := List.append_cancel_right hinit
    -- An empty segment stands for the empty text only, which has no dots.
    have hdots : isDot rest = false ∧ isDoubleDot rest = false := by
      rcases finish_cases front rest with ⟨path, hempty⟩ | hdots
      · obtain ⟨-, heq⟩ := List.append_inj' (hempty.symm.trans hpath) rfl
        cases heq
        have hnil := eq_of_sublist_of_bytes (List.nil_sublist rest) (by rw [← hlast]; exact le_rfl)
        rw [← hnil]
        exact ⟨rfl, rfl⟩
      · exact hdots
    rw [walk, List.foldl_nil, finish_plain hdots.1 hdots.2] at hpath
    obtain ⟨hfront, heq⟩ := List.append_inj' hpath rfl
    cases heq
    rw [isSafe_pathMarks.unescape_escape] at hlast
    exact ⟨hfront, rfl, hundivided, hdots.1, hdots.2, unescape_eq_bytes_iff.mp hlast⟩
  · rintro ⟨rfl, rfl, hplain⟩
    refine ⟨escape pathMarks rest, ?_, ?_⟩
    · rw [splitOn_eq_singleton hplain.undivided]
      exact finish_plain hplain.noDot hplain.noDoubleDot front
    · rw [isSafe_pathMarks.unescape_escape]
      exact unescape_eq_bytes_iff.mpr hplain.noEscape

end EdgeSync.Web
